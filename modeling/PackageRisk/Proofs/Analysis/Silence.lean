import PackageRisk.Proofs.Analysis.Degradation

/-!
# Failures that a report does not show

A dependency is scored from whatever could be had about it. What its entry tells of is the outcome
of the whole assessment, and an assessment without advisories or files still has one. So the entry
of a dependency misses something exactly when some query took too long, and a report looks the same
whether other lookups about dependencies fail or find nothing.
-/

namespace PackageRisk

namespace Analyzer

variable {a b : Analyzer} {name version : String} {r d : Release} {e : DependencyEntry}

/-- An advisory query about a release or the download of its files fails. -/
def LacksFor (a : Analyzer) (d : Release) : Prop :=
  (∃ source ∈ a.sources, (source.query d.ref).Fails) ∨
    a.limits.inspectDependencyFiles = true ∧ (a.registry.tree d).Fails

/-- The entry is the one of a release that the walk was led to. -/
def Recounts (a : Analyzer) (d : Release) (e : DependencyEntry) : Prop :=
  Walk.EntryOf a.assessor a.limits.timeoutSeconds d e

/-- The second analyzer is the first one, with advisories and files mended for every package but one
release. -/
structure MendsBelow (r : Release) (a b : Analyzer) : Prop extends Mends (· ≠ r.ref) a b where
  publisher : b.registry.publisher = a.registry.publisher
  downloads : b.registry.downloads = a.registry.downloads

/-! ## Entries -/

/-- An assessment that leaves nothing behind has crashed. -/
theorem breaks_of_loses (lost : Walk.Loses a.assessor d) : a.Breaks d := by
  by_contra steady
  by_cases waits : a.Waits d.ref
  · have hangs : a.assessor.assess d = .hangs := assess_of_waits steady waits
    rcases lost with crashes | ⟨failure, failed⟩
    · cases hangs.symm.trans crashes
    · cases hangs.symm.trans failed
  · have answer := assess_of_replies steady waits
    rcases lost with crashes | ⟨failure, failed⟩
    · cases answer.symm.trans crashes
    · cases answer.symm.trans failed

theorem Recounts.steady (h : a.Recounts d e) : ¬ a.Breaks d := by
  intro breaks
  have crashes : a.assessor.assess d = .crashes := assess_of_breaks breaks
  cases h with
  | assessed resolve assess => cases crashes.symm.trans assess
  | unassessed resolve assess => cases crashes.symm.trans assess

/-- Something is missing in the entry of a dependency exactly when a query took too long. -/
theorem Recounts.isSome_missingInfo (h : a.Recounts d e) :
    e.missingInfo.isSome = true ↔ a.Waits d.ref := by
  rw [Walk.EntryOf.isSome_missingInfo h]
  by_cases waits : a.Waits d.ref
  · exact iff_of_true (assess_of_waits h.steady waits) waits
  · refine iff_of_false (fun hangs => ?_) waits
    cases (assess_of_replies h.steady waits).symm.trans hangs

/-- A release that is assessed leaves an entry, unless the task crashes. -/
theorem exists_recounts (a : Analyzer) (r : Release) {package : PackageRef}
    (called : .assess package ∈ (a.walk r).calls) :
    ∃ d : Release, d.ref = package ∧ (a.Breaks d ∨ ∃ e ∈ (a.walk r).entries, a.Recounts d e) := by
  have accounts := Walk.accounts_ofRelease a.assessor a.limits.timeoutSeconds a.limits.maxDepth r
  obtain ⟨d, ref, ⟨e, he, about⟩ | lost⟩ := accounts.visited package called
  · exact ⟨d, ref, .inr ⟨e, he, about⟩⟩
  · exact ⟨d, ref, .inl (breaks_of_loses lost)⟩

/-- An entry that tells of a release is about one that was assessed. -/
theorem exists_recounted (a : Analyzer) (r : Release) {e : DependencyEntry}
    (he : e ∈ (a.walk r).entries) (latest : e.latest.isSome = true) : ∃ d, a.Recounts d e :=
  (Walk.accounts_ofRelease a.assessor a.limits.timeoutSeconds a.limits.maxDepth r).told e he latest

/-! ## Mended dependencies -/

theorem MendsBelow.walk (mends : MendsBelow r a b)
    (waits : ∀ package, b.Waits package ↔ a.Waits package) : b.walk r = a.walk r := by
  have agree : Assessor.AgreesBelow r a.assessor b.assessor :=
    ⟨mends.release, fun d _ => mends.assess (waits d.ref)⟩
  rw [Analyzer.walk, Analyzer.walk, mends.limits, Walk.ofRelease_agree agree]

/-- Nothing that an analysis gathers depends on the mended lookups. -/
theorem MendsBelow.gather (mends : MendsBelow r a b)
    (waits : ∀ package, b.Waits package ↔ a.Waits package) : b.gather r = a.gather r := by
  have root : ¬ r.ref ≠ r.ref := fun other => other rfl
  have publisher : b.lookupPublisher r = a.lookupPublisher r := by
    unfold lookupPublisher timed
    rw [mends.publisher, mends.limits]
  unfold Analyzer.gather timed
  rw [publisher, mends.downloads, mends.limits, mends.queryTimed_eq root,
    mends.inspectRelease_eq root, mends.walk waits]

theorem Mends.root {concerned : PackageRef → Prop} (mends : Mends concerned a b)
    (name version : String) : b.root name version = a.root name version := by
  unfold Analyzer.root timed
  rw [mends.release, mends.limits]

theorem MendsBelow.analyze (mends : MendsBelow r a b)
    (waits : ∀ package, b.Waits package ↔ a.Waits package)
    (root : a.root name version = .answer r) : b.analyze name version = a.analyze name version := by
  have root' : b.root name version = .answer r := (mends.root name version).trans root
  rw [Analyzer.analyze, Analyzer.analyze, root, root']
  simp only [Lookup.answer, mends.gather waits, mends.now]

/-! ## Reports -/

/-- A report is made of what was gathered about a release that was found. -/
theorem exists_root {report : AnalysisReport} (analyzed : a.analyze name version = .answer report) :
    ∃ r, a.root name version = .answer r ∧ report = (a.gather r).report r a.now := by
  cases root : a.root name version with
  | hangs => simp [Analyzer.analyze, root, Lookup.answer] at analyzed
  | crashes => simp [Analyzer.analyze, root, Lookup.answer] at analyzed
  | done result =>
    cases result with
    | error failure => simp [Analyzer.analyze, root, Lookup.answer] at analyzed
    | ok r =>
      refine ⟨r, rfl, ?_⟩
      rw [Analyzer.analyze, root] at analyzed
      dsimp only at analyzed
      split at analyzed
      · cases analyzed
      · cases analyzed
        rfl

theorem warnings_gather (a : Analyzer) (r : Release) :
    ((a.gather r).report r a.now).warnings = a.complaints r (a.walk r).entries := by
  obtain ⟨g, gathers, walked⟩ := exists_gathers a r (a.walk r).entries
  rw [← gathers.report_eq walked, ← walked]
  exact gathers.warnings

/-- Every failure of a lookup about a dependency shows in its entry. -/
def ShowsFailures (a : Analyzer) (report : AnalysisReport) : Prop :=
  ∀ d, a.LacksFor d → ∀ e ∈ report.dependencies, a.Recounts d e → e.missingInfo.isSome = true

/-- What the report on a release tells of failures. -/
structure Overlooks (a : Analyzer) (name version : String) (r : Release)
    (report : AnalysisReport) : Prop where
  /-- No warning is about a dependency whose entry misses nothing. -/
  warnings : report.warnings = a.complaints r report.dependencies
  /-- Every dependency that is assessed has its entry, unless the task crashes. -/
  entries : ∀ package, .assess package ∈ (a.walk r).calls → ∃ d : Release, d.ref = package ∧
    (a.Breaks d ∨ ∃ e ∈ report.dependencies, a.Recounts d e)
  /-- Every entry that tells of a release is about one that was assessed. -/
  recounted : ∀ e ∈ report.dependencies, e.latest.isSome = true → ∃ d, a.Recounts d e
  /-- An entry misses something exactly when a query took too long. -/
  missing : ∀ d, ∀ e ∈ report.dependencies, a.Recounts d e →
    (e.missingInfo.isSome = true ↔ a.Waits d.ref)
  /-- So every failure shows just in case there is always such a query besides. -/
  shows : a.ShowsFailures report ↔
    ∀ d, a.LacksFor d → (∃ e ∈ report.dependencies, a.Recounts d e) → a.Waits d.ref
  /-- Other failures leave no trace: without them the report would be the same. -/
  silent : ∀ b, MendsBelow r a b → (∀ package, b.Waits package ↔ a.Waits package) →
    b.analyze name version = .answer report

/-- A report tells of the dependencies about which an advisory query took too long, and of no other
failure in an assessment: a query that fails and files that cannot be had leave it as it would be
had nothing been found. -/
theorem analyze_overlooks (a : Analyzer) (name version : String) (report : AnalysisReport)
    (analyzed : a.analyze name version = .answer report) :
    ∃ r, a.root name version = .answer r ∧ a.Overlooks name version r report := by
  obtain ⟨r, root, rfl⟩ := exists_root analyzed
  have missing {d : Release} {e : DependencyEntry} (h : a.Recounts d e) := h.isSome_missingInfo
  refine ⟨r, root, a.warnings_gather r, fun package called => a.exists_recounts r called,
    fun e he latest => a.exists_recounted r he latest, fun d e _ h => missing h, ⟨?_, ?_⟩, ?_⟩
  · rintro shows d lacks ⟨e, he, h⟩
    exact (missing h).mp (shows d lacks e he h)
  · intro waits d lacks e he h
    exact (missing h).mpr (waits d lacks ⟨e, he, h⟩)
  · intro b mends waits
    rw [mends.analyze waits root, analyzed]

/-- The releases of a registry in which `app` depends on `lib`. -/
def reliantRelease (name : String) : Release where
  name := name
  version := "1.0.0"
  latest := "1.0.0"
  dependencies := .ofList (if name = "app" then [("lib", "^1")] else [])

/-- A source that has nothing about `app` and fails for `lib`. -/
def deafSource : AdvisorySource where
  name := "osv"
  query package :=
    if package.name = "lib" then .done (.error (.network "refused")) else .answer {}

/-- An analyzer that depends on the failing source. -/
def deafAnalyzer : Analyzer where
  registry :=
    { release := fun name _ => .answer (reliantRelease name)
      publisher := fun _ => .answer none
      downloads := fun _ => .answer 0
      tree := fun _ => .answer ∅ }
  sources := [deafSource]
  inspector := {}
  limits := {}
  now := ⟨0, 0, 0⟩

theorem deaf_steady : deafAnalyzer.Steady (reliantRelease "app") :=
  ⟨fun _ _ => nofun, nofun, nofun⟩

theorem root_deaf : deafAnalyzer.root "app" "latest" = .answer (reliantRelease "app") :=
  root_eq rfl (by decide) (by decide)

theorem walk_deaf :
    .assess ⟨"lib", "1.0.0"⟩ ∈ (deafAnalyzer.walk (reliantRelease "app")).calls ∧
      ∀ e ∈ (deafAnalyzer.walk (reliantRelease "app")).entries, e.missingInfo = none := by
  decide +kernel

/-- The report on `app` looks as if nothing had failed. -/
theorem analyze_hides_failure : ∃ report,
    deafAnalyzer.analyze "app" "latest" = .answer report ∧ report.warnings = [] ∧
      ¬ deafAnalyzer.ShowsFailures report := by
  refine ⟨_, analyze_of_root root_deaf deaf_steady, ?_, fun shows => ?_⟩
  · rw [warnings_gather]
    decide +kernel
  · obtain ⟨assessed, silent⟩ := walk_deaf
    obtain ⟨d, ref, breaks | ⟨e, he, recounts⟩⟩ := deafAnalyzer.exists_recounts _ assessed
    · cases breaks.2
    · have fails : (deafSource.query d.ref).Fails := by
        rw [ref]
        exact .failed _
      have missing := shows d (.inl ⟨deafSource, List.mem_singleton_self _, fails⟩) e he recounts
      rw [silent e he] at missing
      cases missing

/-- The report that hides the failure is one of those without a query that took too long. -/
theorem analyze_overlooks_deaf : ∃ r report,
    deafAnalyzer.analyze "app" "latest" = .answer report ∧
      deafAnalyzer.Overlooks "app" "latest" r report := by
  have analyzed := analyze_of_root root_deaf deaf_steady
  obtain ⟨r, -, overlooks⟩ := analyze_overlooks deafAnalyzer "app" "latest" _ analyzed
  exact ⟨r, _, analyzed, overlooks⟩

end Analyzer

end PackageRisk
