import PackageRisk.Proofs.Analysis.Degradation

/-!
# Dependencies and roots

A package is scored in two places: by itself, when a walk meets it as a dependency, and in an
analysis of its own, as the root. Both score its advisories, its metrics and its files. What a root
analysis asks for besides, the publisher and the downloads, is no part of the score, and what it
finds among the dependencies only lowers it.
-/

namespace PackageRisk

/-- What a score says about a package that is a dependency. -/
def RiskScore.assessment (s : RiskScore) : Assessment :=
  ⟨s.value, s.malwareDetected⟩

/-- The publisher of a release is no part of its score. -/
theorem ScoreInput.score_ofRelease (r : Release) (publisher : Option Publisher) (now : Instant)
    (advisories : AdvisoryReport) (files : List FileFinding) (entries : List DependencyEntry) :
    (ScoreInput.mk (.ofRelease r publisher now) advisories files entries).score =
      (ScoreInput.mk (.ofRelease r none now) advisories files entries).score := by
  have metrics : metricDeductions (.ofRelease r publisher now) =
      metricDeductions (.ofRelease r none now) := rfl
  simp only [score, malwareReason?, sortedFiles, sortedDependencies, deductions, metrics]

/-- A walk of no levels finds nothing. -/
theorem Walk.entries_ofRelease_zero (assessor : Assessor) (seconds : Nat) (root : Release) :
    (ofRelease assessor seconds 0 root).entries = [] := by
  simp [ofRelease, levels, start]

namespace Analyzer

variable {a : Analyzer} {r : Release} {g : Gathered} {package : PackageRef}

/-- What is known about a release for a score, with some entries of its dependencies. -/
def inputWith (a : Analyzer) (r : Release) (entries : List DependencyEntry) : ScoreInput where
  metrics := .ofRelease r none a.now
  advisories := .merge (reportsOf (a.queryAll r.ref))
  files := a.findings r
  dependencies := entries

/-- The analyzer with other answers about publishers and downloads, and another depth. -/
def asRoot (a : Analyzer) (publisher : String → Lookup (Option Publisher))
    (downloads : String → Lookup Nat) (depth : Nat) : Analyzer :=
  { a with
    registry := { a.registry with publisher := publisher, downloads := downloads }
    limits := { a.limits with maxDepth := depth } }

/-- A time limit on queries that end changes nothing. -/
theorem queryTimed_of_replies (replies : ¬ a.Waits package) :
    a.queryTimed package = a.queryAll package := by
  apply List.map_congr_left
  intro source mem
  cases query : source.query package with
  | hangs => exact absurd ⟨source, mem, query⟩ replies
  | crashes => rfl
  | done result => rfl

/-- In whatever order the sources reply, the root is scored from what it is assessed from and from
the entries of its dependencies. -/
theorem Gathers.score_report (gathers : a.Gathers r g) (replies : ¬ a.Waits r.ref) :
    (g.report r a.now).score = (a.inputWith r g.dependencies).score := by
  have score : (g.report r a.now).score =
      (ScoreInput.mk (.ofRelease r (valueOr none g.publisher) a.now)
        (.merge (reportsOf g.advisories)) (valueOr [] g.files) g.dependencies).score := rfl
  rw [score, ScoreInput.score_ofRelease, gathers.advisories_eq, reportsOf_survivors,
    queryTimed_of_replies replies, gathers.files]
  rfl

theorem exists_report_of_root {name version : String} (root : a.root name version = .answer r)
    (steady : a.Steady r) (replies : ¬ a.Waits r.ref) :
    ∃ report, a.analyze name version = .answer report ∧
      report.score = (a.inputWith r (a.walk r).entries).score := by
  obtain ⟨g, gathers, walked⟩ := exists_gathers a r (a.walk r).entries
  refine ⟨_, analyze_of_root root steady, ?_⟩
  rw [← gathers.report_eq walked, gathers.score_report replies, walked]

/-- A dependency whose files are inspected is scored like a root without dependencies. -/
theorem assess_of_inspects (inspects : a.limits.inspectDependencyFiles = true)
    (replies : ¬ a.Waits r.ref) (unpacks : a.registry.tree r ≠ .crashes) :
    a.assess r = .answer (a.inputWith r []).score.assessment := by
  have steady : ¬ a.Breaks r := fun breaks => unpacks breaks.2
  rw [assess_of_replies steady replies, dependencyFindings, if_pos inspects]
  rfl

/-- Entries of dependencies do not make up for anything. -/
theorem darkens_inputWith (a : Analyzer) (r : Release) (entries : List DependencyEntry) :
    (a.inputWith r []).score.assessment.Darkens (a.inputWith r entries).score.assessment := by
  have nothing : ∀ e ∈ ([] : List DependencyEntry), ∃ f ∈ entries, e.Darkens f := nofun
  have scores := ScoreInput.score_le_of_outweighed (.ofRelease r none a.now)
    (reportsOf (a.queryAll r.ref)) [] (.refl (a.findings r)) nothing
  rw [List.append_nil] at scores
  exact ⟨scores.1, scores.2⟩

/-- A package is scored alike as a dependency and as a root. Let the registry answer with a release
that has a name and a version, let the files of dependencies be inspected, and let no query about
the release take too long. Then its assessment comes to the score and the malware flag of its own
analysis without a walk, whatever becomes of its publisher and its downloads. An analysis with a
walk of any depth does not score it better, nor does one that ends with any other entries, in
whatever order the sources reply. -/
theorem assess_agrees (a : Analyzer) (name version : String) (r : Release)
    (found : a.registry.release name (requestedVersion version) = .answer r)
    (named : Text.isBlankText r.name = false) (numbered : Text.isBlankText r.version = false)
    (inspects : a.limits.inspectDependencyFiles = true) (replies : ¬ a.Waits r.ref)
    (unpacks : a.registry.tree r ≠ .crashes) :
    ∃ assessment, a.assess r = .answer assessment ∧
      ∀ publisher downloads, (∀ user, publisher user ≠ .crashes) →
        (∀ name, downloads name ≠ .crashes) →
        (∃ report, (a.asRoot publisher downloads 0).analyze name version = .answer report ∧
          report.score.assessment = assessment) ∧
        (∀ depth, ∃ report,
          (a.asRoot publisher downloads depth).analyze name version = .answer report ∧
          assessment.Darkens report.score.assessment) ∧
        ∀ depth g, (a.asRoot publisher downloads depth).Gathers r g →
          assessment.Darkens (g.report r a.now).score.assessment ∧
          (g.dependencies = [] → (g.report r a.now).score.assessment = assessment) := by
  refine ⟨_, assess_of_inspects inspects replies unpacks, ?_⟩
  intro publisher downloads known counted
  have analyzed (depth : Nat) :
      ∃ report, (a.asRoot publisher downloads depth).analyze name version = .answer report ∧
        report.score =
          (a.inputWith r ((a.asRoot publisher downloads depth).walk r).entries).score :=
    exists_report_of_root (root_eq found named numbered)
      ⟨fun user _ => known user, counted r.name, unpacks⟩ replies
  refine ⟨?_, fun depth => ?_, fun depth g gathers => ?_⟩
  · obtain ⟨report, answered, score⟩ := analyzed 0
    have nothing : ((a.asRoot publisher downloads 0).walk r).entries = [] :=
      Walk.entries_ofRelease_zero _ _ r
    exact ⟨report, answered, by rw [score, nothing]⟩
  · obtain ⟨report, answered, score⟩ := analyzed depth
    exact ⟨report, answered, score ▸ a.darkens_inputWith r _⟩
  · have score : (g.report r a.now).score = (a.inputWith r g.dependencies).score :=
      gathers.score_report replies
    rw [score]
    exact ⟨a.darkens_inputWith r _, fun none => by rw [none]⟩

/-- The releases of a registry in which `kit` depends on `lib`. -/
def kitRelease (name : String) : Release where
  name := name
  version := "1.0.0"
  dependencies := .ofList (if name = "kit" then [("lib", "^1")] else [])

/-- The script of `kit`, which runs code. -/
def kitScript : ByteArray :=
  "eval(1)".toUTF8

/-- The script is all there is in `kit`, and `lib` is empty. -/
def kitTree (r : Release) : FileTree :=
  if r.name = "kit" then { entries := [(["index.js"], .file kitScript)] } else ∅

/-- There is a critical advisory about `kit`. -/
def kitReport (package : PackageRef) : AdvisoryReport :=
  if package.name = "kit" then
    { critical := [{ id := "GHSA-1", title := "evaluates anything", severity := .critical }] }
  else {}

/-- An analyzer for `kit`. -/
def kitAnalyzer : Analyzer where
  registry :=
    { release := fun name _ => .answer (kitRelease name)
      publisher := fun _ => .answer none
      downloads := fun _ => .answer 0
      tree := fun r => .answer (kitTree r) }
  sources := [⟨"audit", fun package => .answer (kitReport package)⟩]
  inspector := {}
  limits := {}
  now := ⟨0, 0, 0⟩

/-- The finding in the script of `kit`. -/
def kitFinding : FileFinding :=
  kitAnalyzer.inspector.inspectFile ⟨"index.js", some "index.js", .ok kitScript⟩

theorem findings_kit : kitAnalyzer.findings (kitRelease "kit") = [kitFinding] := by
  have archive : kitAnalyzer.registry.tree (kitRelease "kit") =
      .answer (kitTree (kitRelease "kit")) := rfl
  have script : (kitTree (kitRelease "kit")).sourceFiles [] kitAnalyzer.limits.extensions =
      [(["index.js"], kitScript)] :=
    List.mergeSort_singleton _
  have label : displayLabel (Path.display ["index.js"]) = "index.js" := by decide +kernel
  have fileName : Path.fileName? ["index.js"] = some "index.js" := by decide
  rw [findings_eq archive, Inspector.inspectTree, FileTree.sources_root, script,
    List.map_singleton, label, fileName, Inspector.inspect, List.map_singleton, throughFirst,
    throughFirst, ite_self]
  rfl

theorem filePoints_kitFinding : ScoreInput.filePoints kitFinding = 20 := by
  have named : kitFinding.suspiciousFilename = false := by decide +kernel
  have dense : kitFinding.obfuscated = true := by decide +kernel
  have harmless : kitFinding.dangerousPermissions = false := by decide +kernel
  have offline : kitFinding.networkIssues = [] := by decide +kernel
  rw [ScoreInput.filePoints, ScoreInput.distinctIssues, named, dense, harmless, offline,
    List.mergeSort_nil]
  rfl

open ScoreInput in
/-- `kit` loses twenty points for its advisory, fifteen for its metrics, five for running code and
twenty for a script that is too dense. -/
theorem score_kit :
    (kitAnalyzer.inputWith (kitRelease "kit") []).score.assessment = ⟨40, false⟩ := by
  have harmless : kitFinding.isKnownMalware = false := by decide +kernel
  have runs : patternPoints [kitFinding] = 5 := by decide +kernel
  have metrics : totalPoints (metricDeductions (.ofRelease (kitRelease "kit") none ⟨0, 0, 0⟩)) =
      15 := by
    decide +kernel
  have known : advisoryPoints (.merge [kitReport ⟨"kit", "1.0.0"⟩]) = 20 := by decide +kernel
  have alone : dependencyPoints [] = 0 := by cbv
  have clean : (kitAnalyzer.inputWith (kitRelease "kit") []).hasMalware = false := by
    simp [hasMalware, inputWith, findings_kit, harmless]
  have points : (kitAnalyzer.inputWith (kitRelease "kit") []).points = 60 := by
    have whole : (kitAnalyzer.inputWith (kitRelease "kit") []).points =
        advisoryPoints (.merge [kitReport ⟨"kit", "1.0.0"⟩]) +
          totalPoints (metricDeductions (.ofRelease (kitRelease "kit") none ⟨0, 0, 0⟩)) +
          patternPoints (kitAnalyzer.findings (kitRelease "kit")) +
          ((kitAnalyzer.findings (kitRelease "kit")).map filePoints).sum + dependencyPoints [] :=
      rfl
    rw [whole, findings_kit, known, metrics, runs, List.map_singleton, filePoints_kitFinding,
      List.sum_singleton, alone]
  rw [RiskScore.assessment, (score_eq _).1, (score_eq _).2, clean, points]
  rfl

/-- A package with an advisory, a script that runs code and a dependency is scored alike while
nobody is there to tell its publisher and its downloads, and no better with its dependency. -/
theorem assess_agrees_sample :
    kitAnalyzer.assess (kitRelease "kit") = .answer ⟨40, false⟩ ∧
      (∃ report, (kitAnalyzer.asRoot (fun _ => .hangs)
          (fun _ => .done (.error (.network "refused"))) 0).analyze "kit" "latest" =
          .answer report ∧
        report.score.assessment = ⟨40, false⟩) ∧
      ∃ report, (kitAnalyzer.asRoot (fun _ => .hangs)
          (fun _ => .done (.error (.network "refused"))) 3).analyze "kit" "latest" =
          .answer report ∧
        Assessment.Darkens ⟨40, false⟩ report.score.assessment := by
  have replies : ¬ kitAnalyzer.Waits ⟨"kit", "1.0.0"⟩ := by
    rintro ⟨source, listed, query⟩
    obtain rfl := List.mem_singleton.mp listed
    cases query
  have unpacks : kitAnalyzer.registry.tree (kitRelease "kit") ≠ .crashes := by
    intro crashed
    cases crashed
  obtain ⟨assessment, assessed, agrees⟩ := assess_agrees kitAnalyzer "kit" "latest"
    (kitRelease "kit") rfl (by decide) (by decide) rfl replies unpacks
  obtain rfl : ⟨40, false⟩ = assessment := by
    have alone := assess_of_inspects (a := kitAnalyzer) (r := kitRelease "kit") rfl replies unpacks
    rw [score_kit] at alone
    simpa [Lookup.answer] using alone.symm.trans assessed
  obtain ⟨alone, deeper, -⟩ := agrees (fun _ => .hangs)
    (fun _ => .done (.error (.network "refused"))) (fun _ crashed => by cases crashed)
    (fun _ crashed => by cases crashed)
  exact ⟨assessed, alone, deeper 3⟩

end Analyzer

end PackageRisk
