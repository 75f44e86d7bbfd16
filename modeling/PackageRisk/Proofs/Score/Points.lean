import Mathlib.Algebra.GroupWithZero.Nat
import Mathlib.Algebra.Order.BigOperators.Group.List
import Mathlib.Algebra.Order.Group.Nat
import Mathlib.Data.List.Perm.Subperm
import PackageRisk.Proofs.Ascending
import PackageRisk.Score.Ledger

/-!
# Points

Without malware a score is a hundred less the sum of five amounts: for advisories, metrics,
suspicious code, single files and dependencies. Each amount is a plain count with a price and at
most a cap, so a score falls whenever none of the counts does. That points are counted in 32 bits
makes no difference: a sum beyond them leaves nothing of a hundred points either way.
-/

namespace PackageRisk

namespace ScoreInput

variable {input x y : ScoreInput} {files more : List FileFinding} {f : FileFinding}

theorem totalPoints_eq_sum (ds : List Deduction) :
    totalPoints ds = (ds.map Deduction.points).sum :=
  rfl

theorem totalPoints_singleton (d : Deduction) : totalPoints [d] = d.points :=
  List.sum_singleton

theorem totalPoints_append (ds es : List Deduction) :
    totalPoints (ds ++ es) = totalPoints ds + totalPoints es := by
  simp [totalPoints_eq_sum]

theorem totalPoints_flatMap {α : Type} (deduct : α → List Deduction) (items : List α) :
    totalPoints (items.flatMap deduct) = (items.map fun item => totalPoints (deduct item)).sum := by
  induction items with
  | nil => rfl
  | cons item items ih => simp [totalPoints_append, ih]

theorem totalPoints_of_const {ds : List Deduction} (points : Nat)
    (h : ∀ d ∈ ds, d.points = points) : totalPoints ds = points * ds.length := by
  rw [totalPoints_eq_sum, List.map_congr_left h, List.map_const', List.sum_replicate_nat,
    Nat.mul_comm]

theorem sortedFiles_perm (input : ScoreInput) : input.sortedFiles.Perm input.files :=
  List.mergeSort_perm _ _

theorem sortedDependencies_perm (input : ScoreInput) :
    input.sortedDependencies.Perm input.dependencies :=
  List.mergeSort_perm _ _

/-! ## Counting in 32 bits -/

/-- A cap within what is counted hides where the counting stops. -/
theorem cappedPoints_eq {count price cap : Nat} (priced : 0 < price) (counted : cap ≤ pointLimit) :
    cappedPoints count price cap = min (price * count) cap := by
  unfold cappedPoints saturate
  rcases Nat.le_total count pointLimit with few | many
  · rw [Nat.min_eq_left few, Nat.mul_comm]
    omega
  · have stopped : pointLimit ≤ pointLimit * price := Nat.le_mul_of_pos_right _ priced
    have beyond : pointLimit * price ≤ price * count := by
      rw [Nat.mul_comm price]
      exact Nat.mul_le_mul_right price many
    rw [Nat.min_eq_right many]
    omega

theorem countedPoints_eq (ds : List Deduction) :
    countedPoints ds = min (totalPoints ds) pointLimit := by
  have counted (ds : List Deduction) (start : Nat) (low : start ≤ pointLimit) :
      ds.foldl (fun total d => saturate (total + d.points)) start =
        min (start + totalPoints ds) pointLimit := by
    induction ds generalizing start with
    | nil => exact (Nat.min_eq_left low).symm
    | cons d ds ih =>
      have counted_first : saturate (start + d.points) ≤ pointLimit := Nat.min_le_right _ _
      rw [List.foldl_cons, ih _ counted_first]
      simp only [saturate, totalPoints_eq_sum, List.map_cons, List.sum_cons]
      omega
  rw [countedPoints, counted ds 0 (Nat.zero_le _), Nat.zero_add]

/-- An amount with a price and a cap above nothing is above nothing. -/
theorem cappedPoints_pos {count price cap : Nat} (found : 0 < count) (priced : 0 < price)
    (positive : 0 < cap) (counted : cap ≤ pointLimit) : 0 < cappedPoints count price cap := by
  rw [cappedPoints_eq priced counted]
  exact Nat.lt_min.mpr ⟨Nat.mul_pos priced found, positive⟩

theorem pointsLeft_eq (ds : List Deduction) : pointsLeft ds = 100 - min 100 (totalPoints ds) := by
  rw [pointsLeft, countedPoints_eq, maxScore, pointLimit]
  omega

theorem byte?_pointsLeft (ds : List Deduction) : byte? (pointsLeft ds) = some (pointsLeft ds) := by
  have small := pointsLeft_eq ds
  rw [byte?, if_pos (by omega)]

/-- A ledger of deductions that all cost something lists them all. -/
theorem settle_eq {ds : List Deduction} (priced : ∀ d ∈ ds, 0 < d.points) :
    settle ds = ⟨100 - min 100 (totalPoints ds), ds, false⟩ := by
  have listed : ds.filter (fun d => 0 < d.points) = ds :=
    List.filter_eq_self.mpr fun d hd => decide_eq_true (priced d hd)
  rw [settle, listed, byte?_pointsLeft, Option.getD_some, pointsLeft_eq]

/-! ## Amounts -/

/-- A file or a dependency is known malware. -/
def hasMalware (input : ScoreInput) : Bool :=
  input.files.any (·.isKnownMalware) || input.dependencies.any (·.malwareDetected)

/-- The points for advisories. -/
def advisoryPoints (advisories : AdvisoryReport) : Nat :=
  20 * advisories.critical.length + 10 * advisories.high.length

/-- The points for the categories of suspicious code. -/
def patternPoints (files : List FileFinding) : Nat :=
  min (5 * (categories files).length) 40

/-- The points for one file. -/
def filePoints (f : FileFinding) : Nat :=
  30 * f.suspiciousFilename.toNat + 20 * f.obfuscated.toNat + 20 * f.dangerousPermissions.toNat +
    10 * (distinctIssues f).length

/-- The points for risky dependencies. -/
def dependencyPoints (entries : List DependencyEntry) : Nat :=
  min (5 * (riskyDependencies entries).length) 20

/-- The points of a package without malware. -/
def points (input : ScoreInput) : Nat :=
  advisoryPoints input.advisories + totalPoints (metricDeductions input.metrics) +
    patternPoints input.files + (input.files.map filePoints).sum +
    dependencyPoints input.dependencies

theorem totalPoints_advisoryDeductions (label : String) (points : Nat) (bucket : List Advisory) :
    totalPoints (advisoryDeductions label points bucket) = points * bucket.length := by
  rw [totalPoints_of_const points fun d h => ?_]
  · simp [advisoryDeductions]
  · obtain ⟨id, -, rfl⟩ := List.mem_map.mp h
    rfl

theorem totalPoints_patternDeductions (files : List FileFinding) :
    totalPoints (patternDeductions files) = patternPoints files := by
  unfold patternDeductions patternPoints
  split
  · rename_i none
    rw [none]
    rfl
  · rw [totalPoints_singleton]
    exact cappedPoints_eq (by decide) (by decide)

theorem totalPoints_fileDeductions (f : FileFinding) :
    totalPoints (fileDeductions f) = filePoints f := by
  have issues : totalPoints ((distinctIssues f).map fun issue =>
      ⟨issue.description ++ " in " ++ f.path, 10⟩) = 10 * (distinctIssues f).length := by
    rw [totalPoints_of_const 10 fun d h => ?_, List.length_map]
    obtain ⟨issue, -, rfl⟩ := List.mem_map.mp h
    rfl
  rw [fileDeductions, totalPoints_append, issues, filePoints]
  cases f.suspiciousFilename <;> cases f.obfuscated <;> cases f.dangerousPermissions <;> rfl

theorem totalPoints_dependencyDeductions (entries : List DependencyEntry) :
    totalPoints (dependencyDeductions entries) = dependencyPoints entries := by
  unfold dependencyDeductions dependencyPoints
  split
  · rename_i none
    rw [none]
    rfl
  · rw [totalPoints_singleton]
    exact cappedPoints_eq (by decide) (by decide)

theorem totalPoints_deductions (input : ScoreInput) :
    totalPoints input.deductions = input.points := by
  have files : totalPoints (input.sortedFiles.flatMap fileDeductions) =
      (input.files.map filePoints).sum := by
    rw [totalPoints_flatMap, List.map_congr_left fun f _ => totalPoints_fileDeductions f]
    exact (input.sortedFiles_perm.map filePoints).sum_nat
  simp only [deductions, totalPoints_append, totalPoints_advisoryDeductions, files,
    totalPoints_patternDeductions, totalPoints_dependencyDeductions, points, advisoryPoints]

/-! ## Nothing is free -/

theorem points_pos_of_metricDeductions {m : Metrics} {d : Deduction}
    (h : d ∈ metricDeductions m) : 0 < d.points := by
  cases age : m.lastUpdateAgeDays with
  | none =>
    simp only [metricDeductions, age, List.mem_append, List.mem_ite_nil_right,
      List.mem_ite_nil_left, List.mem_singleton] at h
    rcases h with (((⟨-, rfl⟩ | ⟨-, rfl⟩) | ⟨-, rfl⟩) | rfl) | ⟨-, rfl⟩ <;> exact Nat.succ_pos _
  | some days =>
    simp only [metricDeductions, age, List.mem_append, List.mem_ite_nil_right,
      List.mem_ite_nil_left, List.mem_singleton] at h
    rcases h with (((⟨-, rfl⟩ | ⟨-, rfl⟩) | ⟨-, rfl⟩) | ⟨-, rfl⟩) | ⟨-, rfl⟩ <;>
      exact Nat.succ_pos _

theorem points_pos_of_fileDeductions {d : Deduction} (h : d ∈ fileDeductions f) :
    0 < d.points := by
  simp only [fileDeductions, List.mem_append, List.mem_ite_nil_right, List.mem_singleton,
    List.mem_map] at h
  rcases h with ((⟨-, rfl⟩ | ⟨-, rfl⟩) | ⟨-, rfl⟩) | ⟨issue, -, rfl⟩ <;> exact Nat.succ_pos _

theorem points_pos_of_patternDeductions {d : Deduction} (h : d ∈ patternDeductions files) :
    0 < d.points := by
  unfold patternDeductions at h
  split at h
  · exact absurd h List.not_mem_nil
  · rename_i found
    obtain rfl := List.mem_singleton.mp h
    exact cappedPoints_pos (List.length_pos_iff.mpr found) (by decide) (by decide) (by decide)

theorem points_pos_of_dependencyDeductions {entries : List DependencyEntry} {d : Deduction}
    (h : d ∈ dependencyDeductions entries) : 0 < d.points := by
  unfold dependencyDeductions at h
  split at h
  · exact absurd h List.not_mem_nil
  · rename_i found
    obtain rfl := List.mem_singleton.mp h
    exact cappedPoints_pos (List.length_pos_iff.mpr found) (by decide) (by decide) (by decide)

theorem points_pos {d : Deduction} (h : d ∈ input.deductions) : 0 < d.points := by
  simp only [deductions, List.mem_append, List.mem_flatMap] at h
  rcases h with ((((critical | high) | metric) | pattern) | ⟨f, -, file⟩) | dependency
  · obtain ⟨id, -, rfl⟩ := List.mem_map.mp critical
    exact Nat.succ_pos _
  · obtain ⟨id, -, rfl⟩ := List.mem_map.mp high
    exact Nat.succ_pos _
  · exact points_pos_of_metricDeductions metric
  · exact points_pos_of_patternDeductions pattern
  · exact points_pos_of_fileDeductions file
  · exact points_pos_of_dependencyDeductions dependency

theorem malwareReason?_isSome (input : ScoreInput) :
    input.malwareReason?.isSome = input.hasMalware := by
  rw [Bool.eq_iff_iff, hasMalware, Bool.or_eq_true, List.any_eq_true, List.any_eq_true]
  simp only [← input.sortedFiles_perm.mem_iff, ← input.sortedDependencies_perm.mem_iff,
    ← List.find?_isSome]
  rw [malwareReason?]
  split
  · rename_i found
    simp [found]
  · rename_i none
    simp [none]

theorem score_of_malware (malware : input.hasMalware = true) :
    ∃ reason, input.score = ⟨0, [⟨reason, maxScore⟩], true⟩ := by
  rw [← malwareReason?_isSome] at malware
  obtain ⟨reason, found⟩ := Option.isSome_iff_exists.mp malware
  exact ⟨reason, by rw [score, found]⟩

theorem score_of_clean (clean : input.hasMalware = false) :
    input.score = settle input.deductions := by
  rw [← malwareReason?_isSome, Option.isSome_eq_false_iff, Option.isNone_iff_eq_none] at clean
  rw [score, clean]

/-- Without malware all deductions are listed. -/
theorem deductions_of_clean (clean : input.hasMalware = false) :
    input.score.deductions = input.deductions := by
  rw [score_of_clean clean, settle_eq fun d h => points_pos h]

/-- The closed form of a score. -/
theorem score_eq (input : ScoreInput) :
    input.score.value = (if input.hasMalware then 0 else 100 - input.points) ∧
      input.score.malwareDetected = input.hasMalware := by
  cases malware : input.hasMalware with
  | true =>
    obtain ⟨reason, score⟩ := score_of_malware malware
    rw [score]
    exact ⟨rfl, rfl⟩
  | false =>
    rw [score_of_clean malware, settle_eq fun d h => points_pos h, totalPoints_deductions]
    refine ⟨?_, rfl⟩
    simp only [Bool.false_eq_true, if_false]
    omega

/-! ## Comparing amounts -/

theorem toNat_le_of_imp {a b : Bool} (h : a = true → b = true) : a.toNat ≤ b.toNat :=
  Bool.toNat_le_toNat (Bool.le_iff_imp.mpr h)

theorem sum_map_le_of_subperm {α : Type} {items others : List α} (amount : α → Nat)
    (h : items.Subperm others) : (items.map amount).sum ≤ (others.map amount).sum := by
  obtain ⟨kept, perm, sublist⟩ := h
  rw [← (perm.map amount).sum_nat]
  exact (sublist.map amount).sum_le_sum fun points _ => Nat.zero_le points

/-- No amount of the first input is greater than that of the second. -/
structure CostsLess (x y : ScoreInput) : Prop where
  advisories : advisoryPoints x.advisories ≤ advisoryPoints y.advisories
  metrics : totalPoints (metricDeductions x.metrics) ≤ totalPoints (metricDeductions y.metrics)
  patterns : patternPoints x.files ≤ patternPoints y.files
  files : (x.files.map filePoints).sum ≤ (y.files.map filePoints).sum
  dependencies : dependencyPoints x.dependencies ≤ dependencyPoints y.dependencies

theorem CostsLess.points_le (h : CostsLess x y) : x.points ≤ y.points := by
  obtain ⟨advisories, metrics, patterns, files, dependencies⟩ := h
  unfold points
  omega

/-- A score does not rise when malware stays and no amount falls. Beside malware the amounts do
not matter. -/
theorem score_le (malware : x.hasMalware = true → y.hasMalware = true)
    (costs : y.hasMalware = false → CostsLess x y) :
    y.score.value ≤ x.score.value ∧
      (x.score.malwareDetected = true → y.score.malwareDetected = true) := by
  obtain ⟨value, detected⟩ := score_eq x
  obtain ⟨value', detected'⟩ := score_eq y
  rw [value, value', detected, detected']
  refine ⟨?_, malware⟩
  cases hy : y.hasMalware with
  | true => exact Nat.zero_le _
  | false =>
    have hx : x.hasMalware = false := by
      rw [← Bool.not_eq_true]
      exact fun h => absurd (malware h) (by simp [hy])
    have := (costs hy).points_le
    rw [hx]
    simp only [Bool.false_eq_true, if_false]
    omega

theorem patternPoints_le
    (more_categories : ∀ c, (files.any fun f => f.patterns.any (·.category == c)) = true →
      (more.any fun f => f.patterns.any (·.category == c)) = true) :
    patternPoints files ≤ patternPoints more := by
  have kept : (categories files).length ≤ (categories more).length :=
    (List.monotone_filter_right _ more_categories).length_le
  unfold patternPoints
  omega

theorem dependencyPoints_le {entries others : List DependencyEntry}
    (risky : ∀ e ∈ entries, e.score.any (· < riskyDependencyScore) = true →
      ∃ e' ∈ others, e'.name = e.name ∧ e'.version = e.version ∧
        e'.score.any (· < riskyDependencyScore) = true) :
    dependencyPoints entries ≤ dependencyPoints others := by
  have kept : (riskyDependencies entries).length ≤ (riskyDependencies others).length := by
    apply Advisory.length_sortUnique_le
    intro text h
    obtain ⟨e, he, rfl⟩ := List.mem_map.mp h
    obtain ⟨mem, low⟩ := List.mem_filter.mp he
    obtain ⟨e', mem', name, version, low'⟩ := risky e mem low
    refine List.mem_map.mpr ⟨e', List.mem_filter.mpr ⟨mem', low'⟩, ?_⟩
    rw [name, version]
  unfold dependencyPoints
  omega

end ScoreInput

end PackageRisk
