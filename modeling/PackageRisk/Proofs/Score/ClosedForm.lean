import Mathlib.Data.Finset.Card
import PackageRisk.Proofs.Score.Points

/-!
# The closed form of a score

What a package loses is a sum that can be read off its findings: counts of advisories, flags of
the release and of its files, and numbers of different categories, network issues and risky
dependencies. Without malware a score is a hundred less this sum, but not less than nothing, and
its deductions stand in a fixed order and add up to the sum exactly, however many they are.
-/

namespace PackageRisk

theorem NetworkIssue.le_trans (a b c : NetworkIssue) (hab : a.le b = true) (hbc : b.le c = true) :
    a.le c = true := by
  cases a <;> cases b <;> cases c <;> simp only [le, decide_eq_true_eq] at *
  case suspiciousUrl.suspiciousUrl.suspiciousUrl => exact String.le_trans hab hbc
  all_goals first | rfl | contradiction

theorem NetworkIssue.le_total (a b : NetworkIssue) : (a.le b || b.le a) = true := by
  cases a <;> cases b <;> try rfl
  case suspiciousUrl.suspiciousUrl a b => simpa [le] using String.le_total a b

theorem NetworkIssue.le_antisymm (a b : NetworkIssue) (hab : a.le b = true) (hba : b.le a = true) :
    a = b := by
  cases a <;> cases b <;> simp only [le, decide_eq_true_eq] at * <;> try contradiction
  case suspiciousUrl.suspiciousUrl => rw [String.le_antisymm hab hba]

namespace ScoreInput

variable {input : ScoreInput} {files : List FileFinding} {f : FileFinding}

/-! ## Numbers of different findings -/

/-- A list without repetitions is as long as the set of the members of any list with the same
members is large. -/
theorem card_eq_length {α : Type} [DecidableEq α] {l distinct : List α} (nodup : distinct.Nodup)
    (same : ∀ a, a ∈ distinct ↔ a ∈ l) : l.toFinset.card = distinct.length := by
  rw [← List.toFinset_card_of_nodup nodup]
  congr 1
  ext a
  rw [List.mem_toFinset, List.mem_toFinset, same]

/-- The different categories of suspicious code in some files. -/
def categorySet (files : List FileFinding) : Finset PatternCategory :=
  (files.flatMap fun f => f.patterns.map (·.category)).toFinset

/-- The different texts `name@version` of the entries that score below fifty. -/
def riskySet (entries : List DependencyEntry) : Finset String :=
  ((entries.filter fun e => e.score.any (· < 50)).map fun e => e.name ++ "@" ++ e.version).toFinset

theorem card_categorySet (files : List FileFinding) :
    (categorySet files).card = (categories files).length := by
  have all_nodup : PatternCategory.all.Nodup := by decide
  refine card_eq_length (all_nodup.filter _) fun c => ?_
  simp [categories, PatternCategory.mem_all]

theorem card_networkIssues (f : FileFinding) :
    f.networkIssues.toFinset.card = (distinctIssues f).length := by
  have sorted : (f.networkIssues.mergeSort NetworkIssue.le).Pairwise (·.le ·) :=
    List.pairwise_mergeSort NetworkIssue.le_trans NetworkIssue.le_total _
  have distinct := sorted.eraseReps NetworkIssue.le_antisymm
  refine card_eq_length (distinct.imp fun h => h.2) fun issue => ?_
  rw [distinctIssues, List.mem_eraseReps, List.mem_mergeSort]

theorem card_riskySet (entries : List DependencyEntry) :
    (riskySet entries).card = (riskyDependencies entries).length :=
  card_eq_length (Advisory.sortUnique_nodup _) fun _ => Advisory.mem_sortUnique

/-! ## The sum -/

/-- What a release loses for its metrics. Without a date of publication it counts as stale. -/
def metricCost (m : Metrics) : Nat :=
  15 * m.hasSuspiciousScripts.toNat + 20 * m.hasExecScripts.toNat +
    10 * (decide (100 < m.dependencyCount.total)).toNat +
    10 * (m.lastUpdateAgeDays.all fun days => decide (365 < days)).toNat +
    5 * (!m.hasLockFile).toNat

/-- What a package loses for one file. -/
def fileCost (f : FileFinding) : Nat :=
  30 * f.suspiciousFilename.toNat + 20 * f.obfuscated.toNat + 20 * f.dangerousPermissions.toNat +
    10 * f.networkIssues.toFinset.card

/-- What a package loses for all its findings. -/
def cost (input : ScoreInput) : Nat :=
  20 * input.advisories.critical.length + 10 * input.advisories.high.length +
    metricCost input.metrics + min 40 (5 * (categorySet input.files).card) +
    (input.files.map fileCost).sum + min 20 (5 * (riskySet input.dependencies).card)

theorem totalPoints_metricDeductions (m : Metrics) :
    totalPoints (metricDeductions m) = metricCost m := by
  have flag (p : Prop) [Decidable p] (d : Deduction) :
      totalPoints (if p then [d] else []) = d.points * (decide p).toNat := by
    by_cases h : p <;> simp [h, totalPoints]
  have lock (d : Deduction) :
      totalPoints (if m.hasLockFile then [] else [d]) = d.points * (!m.hasLockFile).toNat := by
    cases m.hasLockFile <;> simp [totalPoints]
  cases age : m.lastUpdateAgeDays with
  | none =>
    simp only [metricDeductions, metricCost, totalPoints_append, flag, lock, age,
      Bool.decide_eq_true]
    rfl
  | some days =>
    simp only [metricDeductions, metricCost, totalPoints_append, flag, lock, age,
      Bool.decide_eq_true, Option.all_some]

theorem points_eq_cost (input : ScoreInput) : input.points = input.cost := by
  have file : filePoints = fileCost := by
    funext f
    rw [filePoints, fileCost, card_networkIssues]
  rw [points, cost, advisoryPoints, patternPoints, dependencyPoints, totalPoints_metricDeductions,
    card_categorySet, card_riskySet, file, Nat.min_comm, Nat.min_comm _ 20]

/-! ## The order of deductions -/

/-- Deductions in their order: those for critical and for high advisories by ascending ids, then
those for the metrics, for suspicious code, for the files by ascending paths and for
dependencies. -/
def Listed (input : ScoreInput) (ds : List Deduction) : Prop :=
  ∃ (critical high : List String) (files : List FileFinding),
    critical.Perm (input.advisories.critical.map Advisory.id) ∧ critical.Pairwise (· ≤ ·) ∧
    high.Perm (input.advisories.high.map Advisory.id) ∧ high.Pairwise (· ≤ ·) ∧
    files.Perm input.files ∧ (files.Pairwise fun f g => f.path ≤ g.path) ∧
    ds = critical.map (fun id => ⟨"critical vulnerability " ++ id, 20⟩) ++
      high.map (fun id => ⟨"high severity vulnerability " ++ id, 10⟩) ++
      metricDeductions input.metrics ++ patternDeductions input.files ++
      files.flatMap fileDeductions ++ dependencyDeductions input.dependencies

theorem listed_deductions (input : ScoreInput) : input.Listed input.deductions :=
  ⟨_, _, input.sortedFiles, List.mergeSort_perm _ _, Advisory.sort_ascending _,
    List.mergeSort_perm _ _, Advisory.sort_ascending _, List.mergeSort_perm _ _,
    List.pairwise_mergeSort_text _ _, rfl⟩

/-- Without malware every deduction costs something, the deductions stand in order and add up to
the cost of the package, and the score is a hundred less this cost, or nothing if it is more. With
malware nothing is left and one deduction says so. A score is never above a hundred, and what any
deductions leave of it fits into a byte. -/
theorem score_closed_form (input : ScoreInput) :
    (input.hasMalware = false →
      (∀ d ∈ input.score.deductions, 0 < d.points) ∧
      input.Listed input.score.deductions ∧
      totalPoints input.score.deductions = input.cost ∧
      input.score.value = 100 - min 100 input.cost ∧
      input.score.malwareDetected = false) ∧
    (input.hasMalware = true → ∃ reason, input.score = ⟨0, [⟨reason, 100⟩], true⟩) ∧
    input.score.value ≤ 100 ∧
    ∀ ds, byte? (pointsLeft ds) = some (pointsLeft ds) := by
  have total : totalPoints input.deductions = input.cost :=
    (totalPoints_deductions input).trans (points_eq_cost input)
  have settled := settle_eq fun d (h : d ∈ input.deductions) => points_pos h
  have whether := malwareReason?_isSome input
  cases found : input.malwareReason? with
  | some reason =>
    have malware : input.hasMalware = true := by rw [← whether, found, Option.isSome_some]
    have score : input.score = ⟨0, [⟨reason, 100⟩], true⟩ := by rw [score, found, maxScore]
    refine ⟨fun clean => ?_, fun _ => ⟨reason, score⟩, ?_, byte?_pointsLeft⟩
    · exact absurd (malware.symm.trans clean) Bool.true_eq_false.mp
    · rw [score]
      exact Nat.zero_le _
  | none =>
    have clean : input.hasMalware = false := by rw [← whether, found, Option.isSome_none]
    have score : input.score = ⟨100 - min 100 input.cost, input.deductions, false⟩ := by
      rw [score, found, ← total]
      exact settled
    rw [score]
    refine ⟨fun _ => ⟨fun d => points_pos, input.listed_deductions, total, rfl, rfl⟩, ?_,
      Nat.sub_le _ _, byte?_pointsLeft⟩
    intro malware
    exact absurd (malware.symm.trans clean) Bool.true_eq_false.mp

end ScoreInput

end PackageRisk
