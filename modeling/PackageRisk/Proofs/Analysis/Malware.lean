import PackageRisk.Proofs.Analysis.Strictness
import PackageRisk.Proofs.Inspection.Malware
import PackageRisk.Proofs.Walk.Visited
import PackageRisk.Settings.Policy

/-!
# Malware decides the outcome

Where archives can be had and every lookup comes to an end, a report tells of malware exactly when
a file in the package has a listed hash, or a file in a dependency that the walk visits if the files
of dependencies are inspected. Each stage keeps what the one before it found: the inspection of a
tree, the assessment of a dependency, its entry, and the score, in which malware takes all points
whatever else there is.
-/

namespace PackageRisk

/-- What a report has to say, depending on whether there is malware. -/
structure AnalysisReport.Judges (report : AnalysisReport) (infected : Prop) : Prop where
  detected : report.score.malwareDetected = true ↔ infected
  rejected : infected → report.score.value = 0 ∧
    ∃ reason, report.score.deductions = [⟨reason, 100⟩]
  blocked : infected → ∀ p : InstallPolicy, p.blockInstall = true → 1 ≤ p.scoreThreshold →
    p.blocks report.score.value = true
  ledger : ¬ infected → report.score = ScoreInput.settle (ScoreInput.deductions
    ⟨report.metrics, report.advisories, report.files, report.dependencies⟩)

namespace Analyzer

section Detection

variable {a : Analyzer} {trees : Release → FileTree} {hashes : List String}

/-- The package has an infected tree, or a dependency that is looked into has one. -/
def Infected (a : Analyzer) (trees : Release → FileTree) (hashes : List String) (r : Release) :
    Prop :=
  (trees r).Infected a.limits.extensions hashes ∨
    a.limits.inspectDependencyFiles = true ∧
      ∃ d ∈ Walk.visited a.assessor a.limits.timeoutSeconds a.limits.maxDepth r,
        (trees d).Infected a.limits.extensions hashes

variable (responds : a.registry.Responds) (queries : ∀ source ∈ a.sources, source.Responds)
  (archives : ∀ r, a.registry.tree r = .answer (trees r))
  (known : a.inspector.hashes = .ofList hashes)

include archives known in
theorem any_findings_iff (r : Release) :
    (a.findings r).any (·.isKnownMalware) = true ↔
      (trees r).Infected a.limits.extensions hashes := by
  rw [findings_eq (archives r)]
  exact a.inspector.isKnownMalware_inspectTree known (trees r) a.limits.extensions

include archives known in
theorem any_dependencyFindings_iff (r : Release) :
    (a.dependencyFindings r).any (·.isKnownMalware) = true ↔
      a.limits.inspectDependencyFiles = true ∧
        (trees r).Infected a.limits.extensions hashes := by
  rw [dependencyFindings]
  split
  · rename_i inspects
    rw [any_findings_iff archives known, inspects]
    exact (and_iff_right rfl).symm
  · rename_i skips
    simp [skips]

/-- A release by itself is malware when one of its files is. -/
theorem malwareDetected_scoreAlone (a : Analyzer) (r : Release) (reports : List AdvisoryReport)
    (files : List FileFinding) :
    (a.scoreAlone r reports files).malwareDetected = files.any (·.isKnownMalware) := by
  rw [scoreAlone]
  exact (ScoreInput.score_eq _).2.trans (Bool.or_false _)

/-- What a dependency is taken for. -/
def assessment (a : Analyzer) (r : Release) : Assessment :=
  a.scoreAlone r (reportsOf (a.queryAll r.ref)) (a.dependencyFindings r)

include responds queries in
theorem assess_assessor (r : Release) : a.assessor.assess r = .answer (a.assessment r) :=
  assess_eq responds queries r

include responds queries archives known in
/-- Some entry shows malware exactly when a visited dependency has it and is looked into. -/
theorem any_entries_iff (r : Release) :
    (a.walk r).entries.any (·.malwareDetected) = true ↔
      a.limits.inspectDependencyFiles = true ∧
        ∃ d ∈ Walk.visited a.assessor a.limits.timeoutSeconds a.limits.maxDepth r,
          (trees d).Infected a.limits.extensions hashes := by
  have assessed := assess_assessor responds queries
  have records := Walk.records_ofRelease assessed a.limits.timeoutSeconds a.limits.maxDepth r
  have infected (d : Release) : (a.assessment d).malwareDetected = true ↔
      a.limits.inspectDependencyFiles = true ∧
        (trees d).Infected a.limits.extensions hashes := by
    rw [assessment, malwareDetected_scoreAlone, any_dependencyFindings_iff archives known]
  rw [walk, records.any_malwareDetected]
  simp only [infected]
  constructor
  · rintro ⟨d, visited, inspects, malware⟩
    exact ⟨inspects, d, visited, malware⟩
  · rintro ⟨inspects, d, visited, malware⟩
    exact ⟨d, visited, inspects, malware⟩

include responds queries archives known in
/-- The report on a release judges as malware demands. -/
theorem report_judges (r : Release) :
    ((a.gather r).report r a.now).Judges (a.Infected trees hashes r) := by
  have score := score_report a r
  generalize made : ScoreInput.mk (.ofRelease r (valueOr none (a.lookupPublisher r)) a.now)
    (.merge (reportsOf (a.queryTimed r.ref))) (a.findings r) (a.walk r).entries = input at score
  have malware : input.hasMalware = true ↔ a.Infected trees hashes r := by
    subst made
    rw [ScoreInput.hasMalware, Bool.or_eq_true, any_findings_iff archives known,
      any_entries_iff responds queries archives known, Infected]
  have rejected (infected : a.Infected trees hashes r) :
      ∃ reason, ((a.gather r).report r a.now).score = ⟨0, [⟨reason, 100⟩], true⟩ := by
    rw [score]
    exact ScoreInput.score_of_malware (malware.mpr infected)
  refine ⟨?_, ?_, ?_, ?_⟩
  · rw [score, (ScoreInput.score_eq input).2, malware]
  · intro infected
    obtain ⟨reason, eq⟩ := rejected infected
    rw [eq]
    exact ⟨rfl, reason, rfl⟩
  · intro infected p block threshold
    obtain ⟨reason, eq⟩ := rejected infected
    rw [eq, InstallPolicy.blocks, block, Bool.true_and]
    exact decide_eq_true threshold
  · intro clean
    have none : input.hasMalware = false := by
      rw [← Bool.not_eq_true, malware]
      exact clean
    rw [score, ScoreInput.score_of_clean none, ← made]
    rfl

end Detection

/-- A file to be warned of. -/
def payload : ByteArray :=
  ⟨#[0x65, 0x76, 0x69, 0x6c]⟩

/-- The releases of a registry in which `app` depends on `evil`. -/
def infestedRelease (name : String) : Release where
  name := name
  version := "1.0.0"
  dependencies := .ofList (if name = "app" then [("evil", "^1")] else [])

/-- The archive of `evil` has the payload in a script. -/
def infestedTree (r : Release) : FileTree :=
  if r.name = "evil" then { entries := [(["lib", "index.js"], .file payload)] } else ∅

/-- A registry with an infested dependency. -/
def infestedRegistry : Registry where
  release name _ := .answer (infestedRelease name)
  publisher _ := .answer none
  downloads _ := .answer 0
  tree r := .answer (infestedTree r)

theorem infestedRegistry_responds : infestedRegistry.Responds := by
  constructor <;> intros <;> exact ⟨_, rfl⟩

/-- A source that never has anything to report. -/
def sampleSource : AdvisorySource :=
  ⟨"silent", fun _ => .answer {}⟩

theorem sampleSource_responds : sampleSource.Responds := fun _ => ⟨_, rfl⟩

/-- The analyzer of the infested registry under some settings. -/
def infested (s : Settings) : Analyzer :=
  configured infestedRegistry sampleSource sampleSource ⟨0, 0, 0⟩ s

/-- Settings that list the payload. -/
def wary : Settings where
  malwareHashes := [Sha256.hexDigest payload]

theorem infestedTree_infected :
    (infestedTree (infestedRelease "evil")).Infected defaultExtensions wary.malwareHashes := by
  have same : Text.sameIgnoringCase (Text.trim (Sha256.hexDigest payload))
      (Sha256.hexDigest payload) = true := by
    rw [Sha256.trim_hexDigest, Text.sameIgnoringCase, beq_self_eq_true]
  exact ⟨["lib", "index.js"], payload, "index.js", List.mem_singleton_self _, rfl, by decide, _,
    List.mem_singleton_self _, same⟩

theorem infested_coherent : (infested wary).assessor.Coherent (infestedRelease "app") := by
  apply Walk.coherent_of_named (fun _ => rfl)
  intro name spec r resolve
  cases resolve
  rfl

theorem infested_reaches : Walk.Reaches (infested wary).assessor (infestedRelease "app") 1
    (infestedRelease "evil") := by
  have asks : ⟨"evil", "^1", .production⟩ ∈ (infestedRelease "app").requests := by decide
  exact .step .root (.inl rfl) asks rfl

/-- What is reported on `app`. -/
def infestedReport (s : Settings) : AnalysisReport :=
  ((infested s).gather (infestedRelease "app")).report (infestedRelease "app") ⟨0, 0, 0⟩

theorem analyze_infested (s : Settings) :
    (infested s).analyze "app" "latest" = .answer (infestedReport s) :=
  analyze_eq infestedRegistry_responds rfl

theorem infestedReport_judges (s : Settings) :
    (infestedReport s).Judges
      ((infested s).Infected infestedTree s.malwareHashes (infestedRelease "app")) :=
  report_judges infestedRegistry_responds
    (queries_configured infestedRegistry ⟨0, 0, 0⟩ s sampleSource_responds sampleSource_responds)
    (fun _ => rfl) rfl _

theorem infested_wary :
    (infested wary).Infected infestedTree wary.malwareHashes (infestedRelease "app") := by
  have queries := queries_configured infestedRegistry ⟨0, 0, 0⟩ wary sampleSource_responds
    sampleSource_responds
  have visited : infestedRelease "evil" ∈ Walk.visited (infested wary).assessor
      (infested wary).limits.timeoutSeconds (infested wary).limits.maxDepth
      (infestedRelease "app") :=
    (Walk.mem_visited_iff infested_coherent (fun _ _ => nofun)
      (assess_assessor infestedRegistry_responds queries)).mpr
      ⟨by decide, 1, by decide, infested_reaches⟩
  exact .inr ⟨rfl, infestedRelease "evil", visited, infestedTree_infected⟩

/-- Who looks for no hashes finds no malware. -/
theorem not_infested_default :
    ¬ (infested {}).Infected infestedTree ({} : Settings).malwareHashes
      (infestedRelease "app") := by
  rintro (own | ⟨-, d, -, own⟩)
  · exact FileTree.not_infected_nil own
  · exact FileTree.not_infected_nil own

/-- The tree of `app` is empty. -/
theorem findings_infested (s : Settings) : (infested s).findings (infestedRelease "app") = [] := by
  have archive : (infested s).registry.tree (infestedRelease "app") = .answer ∅ := rfl
  have none : (∅ : FileTree).sourceFiles [] (infested s).limits.extensions = [] :=
    List.mergeSort_nil
  rw [findings_eq archive, Inspector.inspectTree, FileTree.sources_root, none]
  rfl

theorem infestedReport_unaware : (infestedReport {}).score.malwareDetected = false :=
  Bool.eq_false_iff.mpr ((infestedReport_judges {}).detected.not.mpr not_infested_default)

open ScoreInput in
/-- Without malware `app` loses fifteen points for its metrics, and at most twenty for its
dependencies. -/
theorem le_score_infestedReport : 65 ≤ (infestedReport {}).score.value := by
  have advisories :
      AdvisoryReport.merge (reportsOf ((infested {}).queryTimed (infestedRelease "app").ref)) =
        {} := by
    rw [show reportsOf ((infested {}).queryTimed (infestedRelease "app").ref) = [{}, {}] from rfl]
    cbv
  have metrics : totalPoints (metricDeductions (.ofRelease (infestedRelease "app") none
      ⟨0, 0, 0⟩)) = 15 := by
    decide +kernel
  have score : (infestedReport {}).score = (ScoreInput.mk (.ofRelease (infestedRelease "app") none
      ⟨0, 0, 0⟩) {} [] ((infested {}).walk (infestedRelease "app")).entries).score := by
    rw [infestedReport, ← advisories, ← findings_infested {}]
    exact score_report (infested {}) (infestedRelease "app")
  have points : (ScoreInput.mk (.ofRelease (infestedRelease "app") none ⟨0, 0, 0⟩) {} []
      ((infested {}).walk (infestedRelease "app")).entries).points ≤ 0 + 15 + 0 + 0 + 20 := by
    rw [ScoreInput.points, metrics]
    exact Nat.add_le_add_left (Nat.min_le_right _ _) _
  have clean := infestedReport_unaware
  rw [score, (score_eq _).2] at clean
  rw [score, (score_eq _).1, clean, if_neg Bool.false_ne_true]
  omega

/-- Settings that list the payload find it, where those that do not give a good score. -/
theorem analyze_stricter_sample :
    ({} : Settings).Stricter wary ∧
      ∃ report report', (infested {}).analyze "app" "latest" = .answer report ∧
        (infested wary).analyze "app" "latest" = .answer report' ∧
        (report.score.malwareDetected = false ∧ 65 ≤ report.score.value) ∧
        (report'.score.malwareDetected = true ∧ report'.score.value = 0) ∧
        report'.score.value ≤ report.score.value ∧
        (report.score.malwareDetected = true → report'.score.malwareDetected = true) := by
  have strict : ({} : Settings).Stricter wary := by
    constructor <;> simp [wary]
  obtain ⟨report', analyzed, conclusion⟩ := analyze_stricter infestedRegistry sampleSource
    sampleSource ⟨0, 0, 0⟩ infestedRegistry_responds sampleSource_responds sampleSource_responds {}
    wary strict "app" "latest" (infestedReport {}) (analyze_infested {})
  obtain rfl : infestedReport wary = report' := by
    simpa [Lookup.answer] using (analyze_infested wary).symm.trans analyzed
  have aware := infestedReport_judges wary
  exact ⟨strict, _, _, analyze_infested {}, analyzed,
    ⟨infestedReport_unaware, le_score_infestedReport⟩,
    ⟨aware.detected.mpr infested_wary, (aware.rejected infested_wary).1⟩, conclusion⟩

end Analyzer

end PackageRisk
