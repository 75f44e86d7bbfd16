import PackageRisk.Analysis.Online
import PackageRisk.Proofs.Advisory.Growth
import PackageRisk.Proofs.Inspection.Strictness
import PackageRisk.Proofs.Score.Dominance

/-!
# Stricter settings

Settings that look for more, trust less and look further never make a package look safer, as long
as every lookup comes to an end. Each stage of an analysis carries this on to the next one: findings
and advisory reports to the score of a single release, such scores to the entries of the walk, and
all of them to the score of the package.
-/

namespace PackageRisk

/-- The second settings look for everything that the first ones look for. -/
structure Settings.Stricter (s t : Settings) : Prop where
  hashes : s.malwareHashes ⊆ t.malwareHashes
  filenames : s.inspection.maliciousFilenames ⊆ t.inspection.maliciousFilenames
  extensions : s.inspection.fileExtensions ⊆ t.inspection.fileExtensions
  trusted : t.inspection.trustedDomains ⊆ s.inspection.trustedDomains
  depth : s.analysis.maxDependencyDepth ≤ t.analysis.maxDependencyDepth
  dependencyFiles : s.analysis.inspectDependencyFiles = true →
    t.analysis.inspectDependencyFiles = true
  osv : s.useOsv = true → t.useOsv = true

/-- Every lookup in the registry comes to an end, with an answer or a failure. -/
structure Registry.Responds (registry : Registry) : Prop where
  release : ∀ name requested, ∃ result, registry.release name requested = .done result
  publisher : ∀ username, ∃ result, registry.publisher username = .done result
  downloads : ∀ name, ∃ result, registry.downloads name = .done result
  tree : ∀ r, ∃ result, registry.tree r = .done result

/-- Every query of the source comes to an end, with a report or a failure. -/
def AdvisorySource.Responds (source : AdvisorySource) : Prop :=
  ∀ package, ∃ result, source.query package = .done result

/-! ## Scores -/

/-- More reports, weightier findings and darker entries do not raise a score. -/
theorem ScoreInput.score_le_of_outweighed (metrics : Metrics) (reports more : List AdvisoryReport)
    {files files' : List FileFinding} (outweighed : Outweighed files files')
    {entries entries' : List DependencyEntry}
    (darkens : ∀ e ∈ entries, ∃ f ∈ entries', e.Darkens f) :
    (ScoreInput.mk metrics (.merge (reports ++ more)) files' entries').score.value ≤
        (ScoreInput.mk metrics (.merge reports) files entries).score.value ∧
      ((ScoreInput.mk metrics (.merge reports) files entries).score.malwareDetected = true →
        (ScoreInput.mk metrics (.merge (reports ++ more)) files' entries').score.malwareDetected =
          true) := by
  refine ScoreInput.score_le ?_ fun clean => ?_
  · simp only [ScoreInput.hasMalware, Bool.or_eq_true]
    rintro (malware | malware)
    · exact .inl (outweighed.malware malware)
    · exact .inr (any_malwareDetected_of_darkens darkens malware)
  · have clean_files := (Bool.or_eq_false_iff.mp clean).1
    exact ⟨AdvisoryReport.advisoryPoints_merge_le reports more, Nat.le_refl _,
      outweighed.patterns clean_files, outweighed.files clean_files,
      dependencyPoints_le_of_darkens darkens⟩

/-! ## Inspectors of settings -/

theorem Settings.Stricter.inspector {s t : Settings} (h : s.Stricter t) :
    (Inspector.ofSettings s).Stricter (.ofSettings t) where
  rules := rfl
  hashes hash known := by
    obtain ⟨nonblank, listed, mem, same⟩ := MalwareHashes.contains_ofList.mp known
    exact MalwareHashes.contains_ofList.mpr ⟨nonblank, listed, h.hashes mem, same⟩
  filenames := extendUnique_subset h.filenames
  trusted := extendUnique_subset h.trusted

namespace Analyzer

variable {a b : Analyzer}

/-- The second analyzer asks the same registry and at least the same advisory sources, and looks for
everything that the first one looks for. Every lookup comes to an end. -/
structure Stricter (a b : Analyzer) : Prop where
  registry : b.registry = a.registry
  now : b.now = a.now
  sources : a.sources <+: b.sources
  inspector : a.inspector.Stricter b.inspector
  extensions : a.limits.extensions ⊆ b.limits.extensions
  depth : a.limits.maxDepth ≤ b.limits.maxDepth
  dependencyFiles : a.limits.inspectDependencyFiles = true →
    b.limits.inspectDependencyFiles = true
  responds : a.registry.Responds
  queries : ∀ source ∈ b.sources, source.Responds

theorem Stricter.queries_first (h : a.Stricter b) : ∀ source ∈ a.sources, source.Responds := by
  obtain ⟨others, sources⟩ := h.sources
  intro source mem
  exact h.queries source (sources ▸ List.mem_append_left others mem)

theorem queries_configured {audit osv : AdvisorySource} (registry : Registry) (now : Instant)
    (s : Settings) (audits : audit.Responds) (osvs : osv.Responds) :
    ∀ source ∈ (configured registry audit osv now s).sources, source.Responds := by
  intro source mem
  rcases List.mem_cons.mp mem with rfl | mem
  · exact audits
  · split at mem
    · rw [List.mem_singleton.mp mem]
      exact osvs
    · simp at mem

theorem stricter_configured {registry : Registry} {audit osv : AdvisorySource} (now : Instant)
    {s t : Settings} (strict : s.Stricter t) (responds : registry.Responds)
    (audits : audit.Responds) (osvs : osv.Responds) :
    (configured registry audit osv now s).Stricter (configured registry audit osv now t) where
  registry := rfl
  now := rfl
  sources := by
    cases hs : s.useOsv with
    | true => simp [configured, hs, strict.osv hs]
    | false => simp [configured, hs]
  inspector := strict.inspector
  extensions := strict.extensions
  depth := strict.depth
  dependencyFiles := strict.dependencyFiles
  responds := responds
  queries := queries_configured registry now t audits osvs

/-! ## A single release -/

/-- The findings in the files of a release, none if they cannot be had. -/
def findings (a : Analyzer) (r : Release) : List FileFinding :=
  valueOr [] (a.inspectRelease r)

theorem inspectRelease_eq {r : Release} {result : Except Failure FileTree}
    (h : a.registry.tree r = .done result) :
    a.inspectRelease r =
      .done (result.map fun tree => a.inspector.inspectTree tree "" a.limits.extensions) := by
  rw [inspectRelease, timed, h]
  cases result <;> rfl

theorem findings_eq {r : Release} {tree : FileTree} (archive : a.registry.tree r = .answer tree) :
    a.findings r = a.inspector.inspectTree tree "" a.limits.extensions := by
  rw [findings, inspectRelease_eq archive]
  rfl

theorem Stricter.findings (h : a.Stricter b) (r : Release) :
    Outweighed (a.findings r) (b.findings r) := by
  obtain ⟨result, tree⟩ := h.responds.tree r
  have tree' : b.registry.tree r = .done result := h.registry ▸ tree
  rw [Analyzer.findings, Analyzer.findings, inspectRelease_eq tree, inspectRelease_eq tree']
  cases result with
  | ok t => exact h.inspector.inspectTree t "" h.extensions
  | error failure => exact .refl []

theorem Stricter.reports (h : a.Stricter b) (package : PackageRef) :
    ∃ more, reportsOf (b.queryAll package) = reportsOf (a.queryAll package) ++ more := by
  obtain ⟨others, eq⟩ := h.sources
  refine ⟨reportsOf (others.map fun source => (source.name, source.query package)), ?_⟩
  rw [queryAll, queryAll, ← eq, List.map_append, reportsOf, List.filterMap_append]
  rfl

/-- A time limit on queries that come to an end changes nothing. -/
theorem queryTimed_eq (responds : ∀ source ∈ a.sources, source.Responds) (package : PackageRef) :
    a.queryTimed package = a.queryAll package := by
  apply List.map_congr_left
  intro source mem
  obtain ⟨result, query⟩ := responds source mem package
  rw [query]
  rfl

/-- The findings that a dependency is scored from. -/
def dependencyFindings (a : Analyzer) (r : Release) : List FileFinding :=
  if a.limits.inspectDependencyFiles then a.findings r else []

theorem Stricter.dependencyFindings (h : a.Stricter b) (r : Release) :
    Outweighed (a.dependencyFindings r) (b.dependencyFindings r) := by
  unfold Analyzer.dependencyFindings
  split
  · rename_i inspects
    rw [if_pos (h.dependencyFiles inspects)]
    exact h.findings r
  · exact .nil _

theorem assess_eq (responds : a.registry.Responds)
    (queries : ∀ source ∈ a.sources, source.Responds) (r : Release) :
    a.assess r =
      .answer (a.scoreAlone r (reportsOf (a.queryAll r.ref)) (a.dependencyFindings r)) := by
  obtain ⟨result, tree⟩ := responds.tree r
  have finished : ∀ p ∈ a.queryAll r.ref, ∃ reply, p.2 = .done reply := by
    intro p mem
    obtain ⟨source, listed, rfl⟩ := List.mem_map.mp mem
    exact queries source listed r.ref
  unfold assess Analyzer.dependencyFindings Analyzer.findings
  rw [inspectRelease_eq tree]
  cases a.limits.inspectDependencyFiles <;> cases result
  all_goals
    apply if_neg
    rw [List.any_eq_true]
    rintro ⟨p, mem, hangs⟩
    obtain ⟨reply, query⟩ := finished p mem
    simp [query] at hangs

theorem Stricter.scoreAlone (h : a.Stricter b) (r : Release) (reports more : List AdvisoryReport)
    {files files' : List FileFinding} (outweighed : Outweighed files files') :
    (a.scoreAlone r reports files).Darkens (b.scoreAlone r (reports ++ more) files') := by
  have nothing : ∀ e ∈ ([] : List DependencyEntry), ∃ f ∈ ([] : List DependencyEntry),
      e.Darkens f :=
    fun _ => nofun
  have scores := ScoreInput.score_le_of_outweighed (.ofRelease r none a.now) reports more outweighed
    nothing
  unfold Analyzer.scoreAlone
  rw [h.now]
  exact ⟨scores.1, scores.2⟩

/-- Every dependency is assessed, and more severely. -/
theorem Stricter.assessor (h : a.Stricter b) : a.assessor.Stricter b.assessor where
  resolve := congrArg Registry.release h.registry
  resolves := h.responds.release
  assess r := by
    obtain ⟨more, reports⟩ := h.reports r.ref
    have first := assess_eq h.responds h.queries_first r
    have second := assess_eq (h.registry ▸ h.responds) h.queries r
    refine ⟨_, _, first, second, ?_⟩
    rw [reports]
    exact h.scoreAlone r _ more (h.dependencyFindings r)

/-! ## The whole analysis -/

/-- What the registry answers about a package does not depend on time limits. -/
theorem Stricter.lookupPublisher (h : a.Stricter b) (r : Release) :
    b.lookupPublisher r = a.lookupPublisher r := by
  unfold Analyzer.lookupPublisher
  cases publisherName? r with
  | none => rfl
  | some name =>
    obtain ⟨result, publisher⟩ := h.responds.publisher name
    simp only [timed, h.registry, publisher]
    rfl

theorem Stricter.root (h : a.Stricter b) (name version : String) :
    b.root name version = a.root name version := by
  obtain ⟨result, release⟩ := h.responds.release name (requestedVersion version)
  unfold Analyzer.root
  simp only [timed, h.registry, release]
  rfl

/-- Where every lookup comes to an end, no part of an analysis crashes. -/
theorem not_crashed (responds : a.registry.Responds) (r : Release) :
    (a.gather r).crashed = false := by
  obtain ⟨downloads, downloaded⟩ := responds.downloads r.name
  obtain ⟨tree, unpacked⟩ := responds.tree r
  have publisher : ∃ result, a.lookupPublisher r = .done result := by
    rw [Analyzer.lookupPublisher]
    cases publisherName? r with
    | none => exact ⟨_, rfl⟩
    | some name =>
      obtain ⟨result, publisher⟩ := responds.publisher name
      exact ⟨result, congrArg (Lookup.within _ _) publisher⟩
  obtain ⟨result, publisher⟩ := publisher
  simp only [Gathered.crashed, gather, publisher, inspectRelease_eq unpacked, timed, downloaded]
  rfl

/-- Where every lookup comes to an end, a release that is found is reported on. -/
theorem analyze_eq (responds : a.registry.Responds) {name version : String} {r : Release}
    (found : a.root name version = .answer r) :
    a.analyze name version = .answer ((a.gather r).report r a.now) := by
  rw [analyze, found]
  simp only [Lookup.answer, not_crashed responds, Bool.false_eq_true, if_false]

theorem score_report (a : Analyzer) (r : Release) :
    ((a.gather r).report r a.now).score =
      (ScoreInput.mk (.ofRelease r (valueOr none (a.lookupPublisher r)) a.now)
        (.merge (reportsOf (a.queryTimed r.ref))) (a.findings r) (a.walk r).entries).score := rfl

/-- What a stricter analysis gathers about a release does not score better. -/
theorem Stricter.report (h : a.Stricter b) (r : Release) :
    ((b.gather r).report r b.now).score.value ≤ ((a.gather r).report r a.now).score.value ∧
      (((a.gather r).report r a.now).score.malwareDetected = true →
        ((b.gather r).report r b.now).score.malwareDetected = true) := by
  obtain ⟨more, reports⟩ := h.reports r.ref
  rw [score_report, score_report, h.lookupPublisher, h.now, queryTimed_eq h.queries_first,
    queryTimed_eq h.queries, reports]
  exact ScoreInput.score_le_of_outweighed _ _ more (h.findings r)
    (Walk.exists_darkens_ofRelease h.assessor h.depth r)

theorem Stricter.analyze (h : a.Stricter b) {name version : String} {report : AnalysisReport}
    (analyzed : a.analyze name version = .answer report) :
    ∃ report', b.analyze name version = .answer report' ∧
      report'.score.value ≤ report.score.value ∧
      (report.score.malwareDetected = true → report'.score.malwareDetected = true) := by
  cases root : a.root name version with
  | hangs => simp [Analyzer.analyze, root, Lookup.answer] at analyzed
  | crashes => simp [Analyzer.analyze, root, Lookup.answer] at analyzed
  | done result =>
    cases result with
    | error failure => simp [Analyzer.analyze, root, Lookup.answer] at analyzed
    | ok r =>
      have root' : b.root name version = .answer r := (h.root name version).trans root
      rw [analyze_eq h.responds root] at analyzed
      obtain rfl : (a.gather r).report r a.now = report := by
        simpa [Lookup.answer] using analyzed
      exact ⟨_, analyze_eq (h.registry ▸ h.responds) root', h.report r⟩

/-- A stricter configuration never makes a package look safer: if the analysis with the first
settings yields a report, so does the one with the second settings, and its score is not higher and
it does not miss malware that the first one found. -/
theorem analyze_stricter (registry : Registry) (audit osv : AdvisorySource) (now : Instant)
    (responds : registry.Responds) (audits : audit.Responds) (osvs : osv.Responds)
    (s t : Settings) (strict : s.Stricter t) (name version : String) (report : AnalysisReport)
    (analyzed : (configured registry audit osv now s).analyze name version = .answer report) :
    ∃ report', (configured registry audit osv now t).analyze name version = .answer report' ∧
      report'.score.value ≤ report.score.value ∧
      (report.score.malwareDetected = true → report'.score.malwareDetected = true) :=
  (stricter_configured now strict responds audits osvs).analyze analyzed

end Analyzer

end PackageRisk
