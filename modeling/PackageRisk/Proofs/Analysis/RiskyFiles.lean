import PackageRisk.Analysis.Render
import PackageRisk.Proofs.Score.Points

/-!
# Files that cost points

A report lists the files that show some risk, and the score takes off points for what it finds in
files. The two agree: while nothing is known malware, a file costs points exactly if it shows a
risk, and no file that made the score lower is missing from the details.
-/

namespace PackageRisk

/-- A deduction for suspicious code names a category. -/
def Deduction.Names (d : Deduction) (c : PatternCategory) : Prop :=
  ∃ found : List PatternCategory, c ∈ found ∧
    d.reason = "suspicious code patterns (" ++
      String.intercalate ", " (found.map PatternCategory.label) ++ ")"

/-- A file has a share in some deductions: one is for the file itself or names a category of its
suspicious code. -/
def FileFinding.Contributes (f : FileFinding) (ds : List Deduction) : Prop :=
  (∃ d ∈ ScoreInput.fileDeductions f, d ∈ ds) ∨ ∃ p ∈ f.patterns, ∃ d ∈ ds, d.Names p.category

namespace ScoreInput

variable {input : ScoreInput} {files before after : List FileFinding} {f : FileFinding}
  {c : PatternCategory}

theorem mem_categories_iff :
    c ∈ categories files ↔ ∃ f ∈ files, ∃ p ∈ f.patterns, p.category = c := by
  simp [categories, PatternCategory.mem_all]

theorem categories_eq_nil_iff : categories files = [] ↔ ∀ f ∈ files, f.patterns = [] := by
  simp only [List.eq_nil_iff_forall_not_mem, mem_categories_iff]
  constructor
  · intro none f hf p hp
    exact none p.category ⟨f, hf, p, hp, rfl⟩
  · rintro none c ⟨f, hf, p, hp, -⟩
    exact none f hf p hp

theorem patternDeductions_eq_nil_iff :
    patternDeductions files = [] ↔ ∀ f ∈ files, f.patterns = [] := by
  rw [← categories_eq_nil_iff, patternDeductions]
  split
  · rename_i none
    exact iff_of_true rfl none
  · rename_i found
    exact iff_of_false (List.cons_ne_nil _ _) found

/-- Suspicious code of a file is named by a deduction. -/
theorem exists_names_of_mem {p : SuspiciousPattern} (hf : f ∈ files) (hp : p ∈ f.patterns) :
    ∃ d ∈ patternDeductions files, d.Names p.category := by
  have found : p.category ∈ categories files := mem_categories_iff.mpr ⟨f, hf, p, hp, rfl⟩
  rw [patternDeductions]
  split
  · rename_i none
    exact absurd (none ▸ found) List.not_mem_nil
  · exact ⟨_, List.mem_singleton_self _, categories files, found, rfl⟩

theorem distinctIssues_eq_nil_iff : distinctIssues f = [] ↔ f.networkIssues = [] := by
  simp only [List.eq_nil_iff_forall_not_mem, distinctIssues, List.mem_eraseReps,
    List.mem_mergeSort]

/-- Every sign of risk in a file has a deduction of its own, but known malware and suspicious
code. -/
theorem fileDeductions_eq_nil_iff : fileDeductions f = [] ↔
    f.suspiciousFilename = false ∧ f.obfuscated = false ∧ f.dangerousPermissions = false ∧
      f.networkIssues = [] := by
  rw [← distinctIssues_eq_nil_iff]
  simp [fileDeductions]

theorem hasRisk_eq_false_iff (innocent : f.isKnownMalware = false) :
    f.hasRisk = false ↔ f.patterns = [] ∧ fileDeductions f = [] := by
  rw [fileDeductions_eq_nil_iff, FileFinding.hasRisk, innocent]
  simp only [Bool.false_or, Bool.or_eq_false_iff, Bool.not_eq_false', List.isEmpty_iff]
  tauto

/-- What takes part in the deductions for files is at risk. -/
theorem hasRisk_of_contributes {ds : List Deduction} (contributes : f.Contributes ds) :
    f.hasRisk = true := by
  apply Decidable.byContradiction
  intro calm
  have calm : f.hasRisk = false := Bool.eq_false_iff.mpr calm
  have innocent : f.isKnownMalware = false := by
    simp only [FileFinding.hasRisk, Bool.or_eq_false_iff] at calm
    tauto
  obtain ⟨patterns, deductions⟩ := (hasRisk_eq_false_iff innocent).mp calm
  rcases contributes with ⟨d, hd, -⟩ | ⟨p, hp, -⟩
  · exact absurd (deductions ▸ hd) List.not_mem_nil
  · exact absurd (patterns ▸ hp) List.not_mem_nil

theorem mem_deductions_of_file {d : Deduction} (hf : f ∈ input.files)
    (hd : d ∈ fileDeductions f) : d ∈ input.deductions := by
  have listed : d ∈ input.sortedFiles.flatMap fileDeductions :=
    List.mem_flatMap.mpr ⟨f, input.sortedFiles_perm.mem_iff.mpr hf, hd⟩
  simp only [deductions, List.mem_append]
  tauto

theorem mem_deductions_of_pattern {d : Deduction} (hd : d ∈ patternDeductions input.files) :
    d ∈ input.deductions := by
  simp only [deductions, List.mem_append]
  tauto

/-- Without malware a file takes part in the deductions exactly if it shows a risk. -/
theorem contributes_iff_hasRisk (clean : input.hasMalware = false) (hf : f ∈ input.files) :
    f.Contributes input.score.deductions ↔ f.hasRisk = true := by
  refine ⟨hasRisk_of_contributes, fun risk => ?_⟩
  rw [deductions_of_clean clean]
  have innocent : f.isKnownMalware = false := by
    simp only [hasMalware, Bool.or_eq_false_iff, List.any_eq_false] at clean
    exact Bool.eq_false_iff.mpr (clean.1 f hf)
  by_cases own : fileDeductions f = []
  · have code : f.patterns ≠ [] := by
      intro none
      rw [(hasRisk_eq_false_iff innocent).mpr ⟨none, own⟩] at risk
      exact Bool.false_ne_true risk
    obtain ⟨p, hp⟩ := List.exists_mem_of_ne_nil _ code
    obtain ⟨d, hd, names⟩ := exists_names_of_mem hf hp
    exact .inr ⟨p, hp, d, mem_deductions_of_pattern hd, names⟩
  · obtain ⟨d, hd⟩ := List.exists_mem_of_ne_nil _ own
    exact .inl ⟨d, hd, mem_deductions_of_file hf hd⟩

/-- The deductions for what was found in files. -/
def codeDeductions (input : ScoreInput) : List Deduction :=
  patternDeductions input.files ++ input.sortedFiles.flatMap fileDeductions

theorem codeDeductions_eq_nil_iff (innocent : ∀ f ∈ input.files, f.isKnownMalware = false) :
    input.codeDeductions = [] ↔ ∀ f ∈ input.files, f.hasRisk = false := by
  rw [codeDeductions, List.append_eq_nil_iff, patternDeductions_eq_nil_iff,
    List.flatMap_eq_nil_iff]
  simp only [input.sortedFiles_perm.mem_iff]
  constructor
  · rintro ⟨patterns, own⟩ f hf
    exact (hasRisk_eq_false_iff (innocent f hf)).mpr ⟨patterns f hf, own f hf⟩
  · intro calm
    have each := fun f hf => (hasRisk_eq_false_iff (innocent f hf)).mp (calm f hf)
    exact ⟨fun f hf => (each f hf).1, fun f hf => (each f hf).2⟩

/-- The same package without any file. -/
def withoutFiles (input : ScoreInput) : ScoreInput :=
  { input with files := [] }

/-- The deductions for files stand by themselves in the midst of the others. -/
theorem exists_deductions_around (input : ScoreInput) : ∃ front back,
    input.deductions = front ++ (input.codeDeductions ++ back) ∧
      input.withoutFiles.deductions = front ++ back := by
  refine ⟨advisoryDeductions "critical vulnerability" 20 input.advisories.critical ++
    advisoryDeductions "high severity vulnerability" 10 input.advisories.high ++
    metricDeductions input.metrics, dependencyDeductions input.dependencies, ?_, ?_⟩
  · simp only [deductions, codeDeductions, List.append_assoc]
  · have none : input.withoutFiles.sortedFiles = [] := List.mergeSort_nil
    have code : patternDeductions input.withoutFiles.files = [] := rfl
    simp only [deductions, none, code, List.flatMap_nil, List.append_nil]
    rfl

theorem hasMalware_withoutFiles (innocent : ∀ f ∈ input.files, f.isKnownMalware = false) :
    input.withoutFiles.hasMalware = input.hasMalware := by
  have none : input.files.any (·.isKnownMalware) = false := by simpa using innocent
  rw [hasMalware, hasMalware, none]
  rfl

/-- Without malware the files make no difference exactly if they have no deduction. -/
theorem score_eq_withoutFiles_iff (clean : input.hasMalware = false)
    (innocent : ∀ f ∈ input.files, f.isKnownMalware = false) :
    input.score = input.withoutFiles.score ↔ input.codeDeductions = [] := by
  obtain ⟨front, back, whole, rest⟩ := exists_deductions_around input
  have clean' := (hasMalware_withoutFiles innocent).trans clean
  constructor
  · intro same
    have listed := congrArg RiskScore.deductions same
    rw [deductions_of_clean clean, deductions_of_clean clean', whole, rest] at listed
    exact List.self_eq_append_left.mp (List.append_cancel_left listed).symm
  · intro none
    rw [score_of_clean clean, score_of_clean clean', whole, rest, none, List.nil_append]

/-- A file without risk does not change the score. -/
theorem score_value_of_calm (calm : f.hasRisk = false) (split : input.files = before ++ f :: after) :
    input.score.value = ({ input with files := before ++ after } : ScoreInput).score.value := by
  have innocent : f.isKnownMalware = false := by
    simp only [FileFinding.hasRisk, Bool.or_eq_false_iff] at calm
    tauto
  obtain ⟨patterns, own⟩ := (hasRisk_eq_false_iff innocent).mp calm
  have malware : input.hasMalware =
      ({ input with files := before ++ after } : ScoreInput).hasMalware := by
    simp only [hasMalware, split, List.any_append, List.any_cons, innocent, Bool.false_or]
  have categories : categories (before ++ f :: after) = categories (before ++ after) := by
    simp [ScoreInput.categories, patterns]
  have cost : filePoints f = 0 := by
    rw [← totalPoints_fileDeductions, own]
    rfl
  have points : input.points = ({ input with files := before ++ after } : ScoreInput).points := by
    simp [points, patternPoints, split, categories, cost]
  rw [(score_eq input).1, (score_eq { input with files := before ++ after }).1, malware, points]

/-- The deductions for files follow the risk of the files: those that take part in them are those
at risk, they stand among the other deductions as they are, and there are none, and the score is the
same as without any file, exactly if no file is at risk. -/
structure CostsByRisk (input : ScoreInput) : Prop where
  contributes : ∀ f ∈ input.files, f.Contributes input.score.deductions ↔ f.hasRisk = true
  among : ∃ front back, input.score.deductions = front ++ (input.codeDeductions ++ back) ∧
    input.withoutFiles.score.deductions = front ++ back
  free : input.codeDeductions = [] ↔ ∀ f ∈ input.files, f.hasRisk = false
  unchanged : input.score = input.withoutFiles.score ↔ ∀ f ∈ input.files, f.hasRisk = false

theorem costsByRisk_of_clean (clean : input.hasMalware = false)
    (innocent : ∀ f ∈ input.files, f.isKnownMalware = false) : input.CostsByRisk where
  contributes _ := contributes_iff_hasRisk clean
  among := by
    rw [deductions_of_clean clean,
      deductions_of_clean ((hasMalware_withoutFiles innocent).trans clean)]
    exact exists_deductions_around input
  free := codeDeductions_eq_nil_iff innocent
  unchanged := (score_eq_withoutFiles_iff clean innocent).trans (codeDeductions_eq_nil_iff innocent)

/-- A malicious dependency takes everything where no file is malware. -/
theorem score_of_malicious_dependency (innocent : ∀ f ∈ input.files, f.isKnownMalware = false)
    (malicious : input.dependencies.any (·.malwareDetected) = true) :
    ∃ entry ∈ input.dependencies, input.score = ⟨0,
      [⟨"known malware detected in dependency " ++ entry.name ++ "@" ++ entry.version, 100⟩],
      true⟩ := by
  have files : input.sortedFiles.find? (·.isKnownMalware) = none := by
    rw [List.find?_eq_none]
    intro f hf
    rw [innocent f (input.sortedFiles_perm.mem_iff.mp hf)]
    exact Bool.false_ne_true
  cases found : input.sortedDependencies.find? (·.malwareDetected) with
  | none =>
    obtain ⟨entry, mem, detected⟩ := List.any_eq_true.mp malicious
    have listed := input.sortedDependencies_perm.mem_iff.mpr mem
    exact absurd detected (List.find?_eq_none.mp found entry listed)
  | some entry =>
    have listed := List.mem_of_find?_eq_some found
    refine ⟨entry, input.sortedDependencies_perm.mem_iff.mp listed, ?_⟩
    rw [score, malwareReason?, files, found]
    rfl

end ScoreInput

namespace AnalysisReport

variable {r : AnalysisReport} {f : FileFinding}

/-- The detailed rendering has the lines for a file among its lines. -/
def Lists (r : AnalysisReport) (f : FileFinding) : Prop :=
  ∃ lines, r.renderText true = String.intercalate "\n" lines ∧ fileLines f <:+: lines

theorem fileLines_infix_detailLines (hf : f ∈ r.flaggedFiles) : fileLines f <:+: r.detailLines := by
  obtain ⟨earlier, later, split⟩ := List.append_of_mem hf
  have own : fileLines f <:+: r.flaggedFiles.flatMap fileLines := by
    rw [split, List.flatMap_append, List.flatMap_cons, ← List.append_assoc]
    exact List.infix_append _ _ _
  exact own.trans (List.suffix_append _ _).isInfix

/-- Every file at risk is listed in the details. -/
theorem lists_of_hasRisk (hf : f ∈ r.files) (risk : f.hasRisk = true) : r.Lists f := by
  have flagged : f ∈ r.flaggedFiles := by
    rw [flaggedFiles, List.mem_filter, risk, Bool.true_or]
    exact ⟨hf, rfl⟩
  refine ⟨_, rfl, (fileLines_infix_detailLines flagged).trans ?_⟩
  rw [if_pos rfl, List.append_assoc]
  exact List.infix_append _ _ _

end AnalysisReport

namespace Evidence

/-- Where no file is known malware, the score and the report agree on the files that cost points.
If no dependency is malware either, a file takes part in the deductions exactly if it shows a risk,
and the files cost nothing exactly if none does; a malicious dependency leaves room for no other
deduction. In any case every file with a share in the deductions is listed in the details, and so is
every file without which the score would be higher. -/
theorem files_cost_by_risk (e : Evidence) (innocent : ∀ f ∈ e.files, f.isKnownMalware = false) :
    (if e.dependencies.any (·.malwareDetected) then
      ∃ entry ∈ e.dependencies, e.scoreInput.score = ⟨0,
        [⟨"known malware detected in dependency " ++ entry.name ++ "@" ++ entry.version, 100⟩],
        true⟩
    else e.scoreInput.CostsByRisk) ∧
    ∀ before f after, e.files = before ++ f :: after →
      f.Contributes e.scoreInput.score.deductions ∨
        e.scoreInput.score.value <
          ({ e.scoreInput with files := before ++ after } : ScoreInput).score.value →
      (e.report e.scoreInput.score).Lists f := by
  refine ⟨?_, fun before f after split costs => ?_⟩
  · split
    · rename_i malicious
      exact @ScoreInput.score_of_malicious_dependency e.scoreInput innocent malicious
    · rename_i clean
      refine ScoreInput.costsByRisk_of_clean ?_ innocent
      have none : e.files.any (·.isKnownMalware) = false := by simpa using innocent
      exact Bool.or_eq_false_iff.mpr ⟨none, Bool.eq_false_iff.mpr clean⟩
  · have mem : f ∈ e.files := split ▸ List.mem_append_right _ List.mem_cons_self
    apply AnalysisReport.lists_of_hasRisk mem
    rcases costs with share | lower
    · exact ScoreInput.hasRisk_of_contributes share
    · apply Decidable.byContradiction
      intro calm
      have same := ScoreInput.score_value_of_calm (Bool.eq_false_iff.mpr calm)
        (show e.scoreInput.files = before ++ f :: after from split)
      exact absurd lower (Nat.not_lt.mpr (Nat.le_of_eq same.symm))

/-- An obfuscated file. -/
def obfuscatedFile : FileFinding :=
  { path := "a.js", obfuscated := true }

/-- A package with this file and some packages that it depends on. -/
def obfuscatedWith (dependencies : List DependencyEntry) : Evidence where
  release := { name := "sample", version := "1.0.0", latest := "1.0.0" }
  metrics := { hasLockFile := true, lastUpdateAgeDays := some 10 }
  files := [obfuscatedFile]
  dependencies := dependencies

theorem obfuscatedFile_listed : (∀ f ∈ (obfuscatedWith []).files, f.isKnownMalware = false) ∧
    ((obfuscatedWith []).report (obfuscatedWith []).scoreInput.score).Lists obfuscatedFile := by
  have innocent : ∀ f ∈ (obfuscatedWith []).files, f.isKnownMalware = false := by decide
  have lower : (obfuscatedWith []).scoreInput.score.value <
      ({ (obfuscatedWith []).scoreInput with files := [] } : ScoreInput).score.value := by
    decide +kernel
  exact ⟨innocent, (files_cost_by_risk _ innocent).2 [] _ [] rfl (.inr lower)⟩

/-- A malicious dependency. -/
def evilEntry : DependencyEntry where
  name := "evil"
  version := "1.0.0"
  depth := 1
  kind := .production
  score := none
  malwareDetected := true

/-- Beside a malicious dependency the file is at risk and has no share in the deductions. -/
theorem obfuscatedFile_without_share :
    (∀ f ∈ (obfuscatedWith [evilEntry]).files, f.isKnownMalware = false) ∧
      obfuscatedFile ∈ (obfuscatedWith [evilEntry]).files ∧ obfuscatedFile.hasRisk = true ∧
      ¬ obfuscatedFile.Contributes (obfuscatedWith [evilEntry]).scoreInput.score.deductions := by
  refine ⟨by decide, by decide, by decide, ?_⟩
  have own : ∀ d ∈ ScoreInput.fileDeductions obfuscatedFile,
      d ∉ (obfuscatedWith [evilEntry]).scoreInput.score.deductions := by decide +kernel
  rintro (⟨d, mem, listed⟩ | ⟨p, suspicious, -⟩)
  · exact own d mem listed
  · exact List.not_mem_nil suspicious

end Evidence

end PackageRisk
