import PackageRisk.Analysis.Render
import PackageRisk.Proofs.Score.ClosedForm

/-!
# Low scores without advice

Advice is about five concerns: malware, critical advisories, suspicious scripts, a missing lock file
and obfuscated files. A package loses points for more than these, and a report without advice says
that there are no concerns at all. So a low score comes with advice exactly when one of the five
concerns is there, or when everything else together costs too little to make a score low.
-/

namespace PackageRisk

/-- What a report says in the place of advice. -/
def noConcerns : String := "No security concerns found for this package."

namespace ScoreInput

variable {input : ScoreInput}

/-- One of the concerns that advice is about is there. -/
def Concerning (input : ScoreInput) : Prop :=
  input.hasMalware = true ∨ input.advisories.critical ≠ [] ∨
    input.metrics.hasSuspiciousScripts = true ∨ input.metrics.hasLockFile = false ∨
    ∃ f ∈ input.files, f.obfuscated = true

/-- What a package loses for its metrics, scripts and lock file apart. -/
def quietMetricCost (m : Metrics) : Nat :=
  20 * m.hasExecScripts.toNat + 10 * (decide (100 < m.dependencyCount.total)).toNat +
    10 * (m.lastUpdateAgeDays.all fun days => decide (365 < days)).toNat

/-- What a package loses for one file, obfuscation apart. -/
def quietFileCost (f : FileFinding) : Nat :=
  30 * f.suspiciousFilename.toNat + 20 * f.dangerousPermissions.toNat +
    10 * f.networkIssues.toFinset.card

/-- What a package loses for the findings that no advice is about. -/
def quietCost (input : ScoreInput) : Nat :=
  10 * input.advisories.high.length + quietMetricCost input.metrics +
    min 40 (5 * (categorySet input.files).card) + (input.files.map quietFileCost).sum +
    min 20 (5 * (riskySet input.dependencies).card)

theorem cost_eq_quietCost (calm : ¬ input.Concerning) : input.cost = input.quietCost := by
  simp only [Concerning, not_or, Bool.not_eq_true, Bool.not_eq_false, not_not] at calm
  obtain ⟨-, critical, scripts, lockFile, obfuscated⟩ := calm
  have metrics : metricCost input.metrics = quietMetricCost input.metrics := by
    simp [metricCost, quietMetricCost, scripts, lockFile]
  have files : input.files.map fileCost = input.files.map quietFileCost := by
    refine List.map_congr_left fun f hf => ?_
    have clear : f.obfuscated = false :=
      Bool.eq_false_iff.mpr fun dense => obfuscated ⟨f, hf, dense⟩
    rw [fileCost, quietFileCost, clear, Bool.toNat_false, Nat.mul_zero, Nat.add_zero]
  rw [cost, quietCost, metrics, files, critical, List.length_nil, Nat.mul_zero,
    Nat.zero_add]

/-- Without any of the concerns the score is low when the other findings cost enough. -/
theorem score_lt_iff_of_calm (calm : ¬ input.Concerning) :
    input.score.value < adviceCeiling ↔ 20 < input.quietCost := by
  have clean : ¬ input.hasMalware = true := fun malware => calm (.inl malware)
  rw [(score_eq input).1, if_neg clean, points_eq_cost, cost_eq_quietCost calm, adviceCeiling]
  omega

end ScoreInput

/-! ## Advice -/

section Advice

variable {score : RiskScore} {metrics : Metrics} {advisories : AdvisoryReport}
  {files : List FileFinding} {a : Recommendation} {advice : List Recommendation}

theorem recommendations_eq_nil_iff :
    recommendations score metrics advisories files = [] ↔
      adviceCeiling ≤ score.value ∨ score.malwareDetected = false ∧ advisories.critical = [] ∧
        metrics.hasSuspiciousScripts = false ∧ metrics.hasLockFile = true ∧
        ∀ f ∈ files, f.obfuscated = false := by
  rw [recommendations]
  split
  · rename_i high
    exact iff_of_true rfl (.inl high)
  · rename_i low
    simp only [List.append_eq_nil_iff, ite_eq_right_iff, ite_eq_left_iff, reduceCtorEq, imp_false,
      Bool.not_eq_true, Bool.not_eq_false, Nat.not_lt, Nat.le_zero, List.length_eq_zero_iff,
      List.countP_eq_zero, and_assoc, low, false_or]

theorem size_lt_append_left {left : String} (right : String) {n : Nat}
    (long : n < left.utf8ByteSize) : n < (left ++ right).utf8ByteSize := by
  rw [String.utf8ByteSize_append]
  exact Nat.lt_add_right _ long

theorem size_lt_append_right (left : String) {right : String} {n : Nat}
    (long : n < right.utf8ByteSize) : n < (left ++ right).utf8ByteSize := by
  rw [String.utf8ByteSize_append]
  exact Nat.lt_add_left _ long

theorem size_noConcerns : noConcerns.utf8ByteSize = 44 := rfl

/-- Every piece of advice has a short title and a long description, counted in bytes, with the
sentence for no advice between them. -/
theorem size_of_mem_recommendations (h : a ∈ recommendations score metrics advisories files) :
    a.title.utf8ByteSize < 44 ∧ 44 < a.description.utf8ByteSize := by
  unfold recommendations at h
  split at h
  · exact absurd h List.not_mem_nil
  · simp only [List.mem_append, List.mem_ite_nil_right, List.mem_ite_nil_left,
      List.mem_singleton] at h
    rcases h with (((⟨-, rfl⟩ | ⟨-, rfl⟩) | ⟨-, rfl⟩) | ⟨-, rfl⟩) | ⟨-, rfl⟩
    · exact ⟨by decide, by decide⟩
    · have title : "Critical Vulnerabilities".utf8ByteSize < 44 := by decide
      exact ⟨title, size_lt_append_right _ (by decide)⟩
    · have title : "Suspicious Scripts".utf8ByteSize < 44 := by decide
      exact ⟨title, size_lt_append_left _ (size_lt_append_left _ (by decide))⟩
    · exact ⟨by decide, by decide⟩
    · have title : "Obfuscated Code".utf8ByteSize < 44 := by decide
      exact ⟨title, size_lt_append_right _ (by decide)⟩

/-- No advice reads like the sentence for no advice. -/
theorem ne_noConcerns_of_mem_recommendations
    (h : a ∈ recommendations score metrics advisories files) :
    noConcerns ≠ a.title ∧ noConcerns ≠ a.description := by
  obtain ⟨short, long⟩ := size_of_mem_recommendations h
  constructor
  · intro same
    rw [← same, size_noConcerns] at short
    exact Nat.lt_irrefl _ short
  · intro same
    rw [← same, size_noConcerns] at long
    exact Nat.lt_irrefl _ long

theorem mem_adviceLines {line : String} (h : line ∈ AnalysisReport.adviceLines advice) :
    line = "" ∨ ∃ a ∈ advice, line = a.title ∨ line = a.description := by
  fun_induction AnalysisReport.adviceLines advice with
  | case1 => exact absurd h List.not_mem_nil
  | case2 a =>
    right
    simpa using h
  | case3 a rest _ ih =>
    rcases List.mem_cons.mp h with title | h
    · exact .inr ⟨a, List.mem_cons_self, .inl title⟩
    rcases List.mem_cons.mp h with description | h
    · exact .inr ⟨a, List.mem_cons_self, .inr description⟩
    rcases List.mem_cons.mp h with empty | h
    · exact .inl empty
    rcases ih h with empty | ⟨b, hb, said⟩
    · exact .inl empty
    · exact .inr ⟨b, List.mem_cons_of_mem _ hb, said⟩

end Advice

namespace Evidence

variable {e : Evidence}

/-- A report gives no advice when the score is not low or none of the concerns is there. -/
theorem report_recommendations_eq_nil_iff :
    (e.report e.scoreInput.score).recommendations = [] ↔
      adviceCeiling ≤ e.scoreInput.score.value ∨ ¬ e.scoreInput.Concerning := by
  change PackageRisk.recommendations e.scoreInput.score e.metrics e.advisories e.files = [] ↔ _
  rw [recommendations_eq_nil_iff, (ScoreInput.score_eq e.scoreInput).2]
  simp [ScoreInput.Concerning, scoreInput]

/-- A report says that there are no concerns when it gives no advice, and only then. -/
theorem noConcerns_mem_recommendationLines_iff (score : RiskScore) :
    noConcerns ∈ (e.report score).recommendationLines ↔
      (e.report score).recommendations = [] := by
  rw [AnalysisReport.recommendationLines, List.mem_append]
  split
  · rename_i none
    exact iff_of_true (.inr List.mem_cons_self) (List.isEmpty_iff.mp none)
  · rename_i advised
    refine iff_of_false (fun said => ?_) fun none => advised (List.isEmpty_iff.mpr none)
    rcases said with heading | advice
    · exact absurd heading (by decide)
    · rcases mem_adviceLines advice with empty | ⟨a, ha, title | description⟩
      · exact absurd empty (by decide)
      · exact (ne_noConcerns_of_mem_recommendations ha).1 title
      · exact (ne_noConcerns_of_mem_recommendations ha).2 description

/-- A low score comes with advice, and the report does not say that there are no concerns, exactly
when one of the concerns is there that advice is about, or else when the other findings cost at most
twenty points and the score is not low. -/
theorem report_advises_iff (e : Evidence) :
    (e.scoreInput.score.value < adviceCeiling →
      (e.report e.scoreInput.score).recommendations ≠ [] ∧
        noConcerns ∉ (e.report e.scoreInput.score).recommendationLines) ↔
      e.scoreInput.Concerning ∨ e.scoreInput.quietCost ≤ 20 := by
  rw [noConcerns_mem_recommendationLines_iff, and_self, Ne, report_recommendations_eq_nil_iff,
    not_or, not_not]
  by_cases concerning : e.scoreInput.Concerning
  · exact iff_of_true (fun low => ⟨Nat.not_le.mpr low, concerning⟩) (.inl concerning)
  · rw [ScoreInput.score_lt_iff_of_calm concerning, or_iff_right concerning]
    refine ⟨fun advised => ?_, fun cheap costly => absurd costly (Nat.not_lt.mpr cheap)⟩
    exact Nat.not_lt.mp fun costly => concerning (advised costly).2

/-- A release with a lock file and a recent date whose one file has the name of a miner. -/
def miner : Evidence where
  release := { name := "miner", version := "1.0.0", latest := "1.0.0" }
  metrics := { hasLockFile := true, lastUpdateAgeDays := some 10 }
  files := [{ path := "miner.js", suspiciousFilename := true }]

/-- The name costs thirty points, and yet the report says that there are no concerns. -/
theorem report_miner_silent : miner.scoreInput.score.value = 70 ∧
    (miner.report miner.scoreInput.score).recommendations = [] ∧
    noConcerns ∈ (miner.report miner.scoreInput.score).recommendationLines := by
  decide +kernel

end Evidence

end PackageRisk
