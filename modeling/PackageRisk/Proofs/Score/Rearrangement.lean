import Mathlib.Data.List.Nodup
import PackageRisk.Proofs.Score.Points

/-!
# Findings in another order

A score sorts what it is made of, so the order in which findings, entries and advisories arrive
does not matter. Elements that tie in an order may swap places, but only files carry deductions of
their own: entries with the same name and version give the same text, and equal ids are equal. So
the deductions are the same up to the order of files with one path, and the sum is always the same.

Of the dependencies only those with malware or a low score weigh anything.
-/

namespace List

variable {α κ : Type} {l l' : List α}

/-- Ordered lists with the same elements begin alike, up to what the order does not tell apart. -/
theorem map_head?_eq_of_perm {r : α → α → Prop} {key : α → κ} (perm : l'.Perm l)
    (ordered' : l'.Pairwise r) (ordered : l.Pairwise r)
    (antisymm : ∀ a b, r a b → r b a → key a = key b) : l'.head?.map key = l.head?.map key := by
  cases l' with
  | nil => rw [perm.nil_eq]
  | cons a rest' =>
    cases l with
    | nil => exact absurd perm (cons_ne_nil a rest' ∘ Perm.eq_nil)
    | cons b rest =>
      rcases mem_cons.mp (perm.mem_iff.mp mem_cons_self) with rfl | later
      · rfl
      · rcases mem_cons.mp (perm.mem_iff.mpr (mem_cons_self (a := b) (l := rest))) with rfl | later'
        · rfl
        · exact congrArg some (antisymm a b (rel_of_pairwise_cons ordered' later')
            (rel_of_pairwise_cons ordered later))

/-- The first element of a kind in a sorted list depends on the elements of that kind only. -/
theorem map_find?_mergeSort {le : α → α → Bool} {key : α → κ} {p : α → Bool}
    (trans : ∀ a b c, le a b = true → le b c = true → le a c = true)
    (total : ∀ a b, (le a b || le b a) = true)
    (antisymm : ∀ a b, le a b = true → le b a = true → key a = key b)
    (same : (l'.filter p).Perm (l.filter p)) :
    ((l'.mergeSort le).find? p).map key = ((l.mergeSort le).find? p).map key := by
  have ordered (l : List α) : ((l.mergeSort le).filter p).Pairwise fun a b => le a b :=
    (pairwise_mergeSort trans total l).filter p
  have sorted (l : List α) : ((l.mergeSort le).filter p).Perm (l.filter p) :=
    (mergeSort_perm l le).filter p
  rw [← head?_filter, ← head?_filter]
  exact map_head?_eq_of_perm ((sorted l').trans (same.trans (sorted l).symm)) (ordered l')
    (ordered l) antisymm

end List

namespace PackageRisk

/-- An entry that bears on a score: it tells of malware, or its own score is low. -/
def DependencyEntry.weighs (e : DependencyEntry) : Bool :=
  e.malwareDetected || e.score.any (· < ScoreInput.riskyDependencyScore)

namespace ScoreInput

variable {x y : ScoreInput} {entries others : List DependencyEntry}

/-! ## The first sign of malware -/

theorem entryLe_iff {a b : DependencyEntry} :
    entryLe a b = true ↔ a.name < b.name ∨ a.name = b.name ∧
      (a.version < b.version ∨ a.version = b.version ∧ a.depth ≤ b.depth) := by
  rw [entryLe]
  grind

theorem entryLe_trans (a b c : DependencyEntry) (hab : entryLe a b = true)
    (hbc : entryLe b c = true) : entryLe a c = true := by
  rw [entryLe_iff] at *
  grind

theorem entryLe_total (a b : DependencyEntry) : (entryLe a b || entryLe b a) = true := by
  rw [Bool.or_eq_true, entryLe_iff, entryLe_iff]
  grind

/-- Entries that tie are about the same package. -/
theorem entryLe_antisymm (a b : DependencyEntry) (hab : entryLe a b = true)
    (hba : entryLe b a = true) : (a.name, a.version) = (b.name, b.version) := by
  rw [entryLe_iff] at *
  grind

/-- Lists in which the same entries weigh have the same entries of any kind that weighs. -/
theorem filter_perm_of_weighing {p : DependencyEntry → Bool}
    (weighing : (others.filter DependencyEntry.weighs).Perm
      (entries.filter DependencyEntry.weighs))
    (weighs : ∀ e, p e = true → e.weighs = true) : (others.filter p).Perm (entries.filter p) := by
  have kept (entries : List DependencyEntry) :
      (entries.filter DependencyEntry.weighs).filter p = entries.filter p := by
    rw [List.filter_filter]
    refine List.filter_congr fun e _ => ?_
    cases found : p e with
    | false => rfl
    | true => exact weighs e found
  have same := weighing.filter p
  rw [kept, kept] at same
  exact same

/-- Of the first malicious file only the path is told. -/
theorem map_find?_sortedFiles
    (files : (y.files.filter (·.isKnownMalware)).Perm (x.files.filter (·.isKnownMalware))) :
    (y.sortedFiles.find? (·.isKnownMalware)).map (·.path) =
      (x.sortedFiles.find? (·.isKnownMalware)).map (·.path) :=
  List.map_find?_mergeSort (List.text_le_trans _) (List.text_le_total _)
    (fun _ _ le ge => String.le_antisymm (of_decide_eq_true le) (of_decide_eq_true ge)) files

/-- Of the first malicious dependency only the name and the version are told. -/
theorem map_find?_sortedDependencies
    (weighing : (y.dependencies.filter DependencyEntry.weighs).Perm
      (x.dependencies.filter DependencyEntry.weighs)) :
    (y.sortedDependencies.find? (·.malwareDetected)).map (fun e => (e.name, e.version)) =
      (x.sortedDependencies.find? (·.malwareDetected)).map (fun e => (e.name, e.version)) := by
  have same := filter_perm_of_weighing (p := (·.malwareDetected)) weighing fun e malware => by
    rw [DependencyEntry.weighs, malware, Bool.true_or]
  exact List.map_find?_mergeSort entryLe_trans entryLe_total entryLe_antisymm same

/-- Why a package counts as malware is told by its malicious files and by the entries that weigh. -/
theorem malwareReason?_congr
    (files : (y.files.filter (·.isKnownMalware)).Perm (x.files.filter (·.isKnownMalware)))
    (weighing : (y.dependencies.filter DependencyEntry.weighs).Perm
      (x.dependencies.filter DependencyEntry.weighs)) :
    y.malwareReason? = x.malwareReason? := by
  have reason (input : ScoreInput) : input.malwareReason? =
      (((input.sortedFiles.find? (·.isKnownMalware)).map (·.path)).map fun path =>
        "known malware detected in " ++ path).or
      (((input.sortedDependencies.find? (·.malwareDetected)).map fun e =>
        (e.name, e.version)).map fun told =>
          "known malware detected in dependency " ++ told.1 ++ "@" ++ told.2) := by
    rw [malwareReason?]
    cases input.sortedFiles.find? (·.isKnownMalware) <;>
      cases input.sortedDependencies.find? (·.malwareDetected) <;> rfl
  rw [reason, reason, map_find?_sortedFiles files, map_find?_sortedDependencies weighing]

/-! ## Deductions -/

theorem advisoryDeductions_eq_of_perm {bucket other : List Advisory} (label : String)
    (points : Nat) (perm : other.Perm bucket) :
    advisoryDeductions label points other = advisoryDeductions label points bucket := by
  rw [advisoryDeductions, Advisory.sort_eq_of_perm (perm.map Advisory.id), advisoryDeductions]

theorem patternDeductions_eq_of_perm {files others : List FileFinding} (perm : others.Perm files) :
    patternDeductions others = patternDeductions files := by
  have categories : categories others = categories files := by
    refine List.filter_congr fun c _ => ?_
    rw [Bool.eq_iff_iff, List.any_eq_true, List.any_eq_true]
    simp only [perm.mem_iff]
  rw [patternDeductions, categories, patternDeductions]

theorem dependencyDeductions_congr
    (weighing : (others.filter DependencyEntry.weighs).Perm
      (entries.filter DependencyEntry.weighs)) :
    dependencyDeductions others = dependencyDeductions entries := by
  have same := filter_perm_of_weighing (p := fun e => e.score.any (· < riskyDependencyScore))
    weighing fun e low => by rw [DependencyEntry.weighs, low, Bool.or_true]
  have risky : riskyDependencies others = riskyDependencies entries := by
    rw [riskyDependencies, Advisory.sortUnique, Advisory.sort_eq_of_perm (same.map _)]
    rfl
  rw [dependencyDeductions, risky, dependencyDeductions]

/-- Entries that do not weigh can come and go. -/
theorem score_eq_of_weighing (weighing : (others.filter DependencyEntry.weighs).Perm
      (entries.filter DependencyEntry.weighs)) (metrics : Metrics) (advisories : AdvisoryReport)
    (files : List FileFinding) :
    (ScoreInput.mk metrics advisories files others).score =
      (ScoreInput.mk metrics advisories files entries).score := by
  have reason := malwareReason?_congr (x := ⟨metrics, advisories, files, entries⟩)
    (y := ⟨metrics, advisories, files, others⟩) (.refl _) weighing
  have deductions : (ScoreInput.mk metrics advisories files others).deductions =
      (ScoreInput.mk metrics advisories files entries).deductions := by
    rw [deductions, dependencyDeductions_congr weighing]
    rfl
  rw [score, reason, deductions, score]

/-! ## Rearranged input -/

/-- The second input lists the same as the first one, in whatever order. -/
structure Rearranges (x y : ScoreInput) : Prop where
  metrics : y.metrics = x.metrics
  critical : y.advisories.critical.Perm x.advisories.critical
  high : y.advisories.high.Perm x.advisories.high
  moderate : y.advisories.moderate.Perm x.advisories.moderate
  low : y.advisories.low.Perm x.advisories.low
  files : y.files.Perm x.files
  dependencies : y.dependencies.Perm x.dependencies

theorem Rearranges.malwareReason?_eq (h : x.Rearranges y) :
    y.malwareReason? = x.malwareReason? :=
  malwareReason?_congr (h.files.filter _) (h.dependencies.filter _)

/-- Only the deductions for single files can stand in another order. -/
theorem Rearranges.deductions_eq (h : x.Rearranges y) :
    y.deductions = advisoryDeductions "critical vulnerability" 20 x.advisories.critical ++
      advisoryDeductions "high severity vulnerability" 10 x.advisories.high ++
      metricDeductions x.metrics ++ patternDeductions x.files ++
      y.sortedFiles.flatMap fileDeductions ++ dependencyDeductions x.dependencies := by
  rw [deductions, h.metrics, advisoryDeductions_eq_of_perm _ _ h.critical,
    advisoryDeductions_eq_of_perm _ _ h.high, patternDeductions_eq_of_perm h.files,
    dependencyDeductions_congr (h.dependencies.filter _)]

theorem Rearranges.deductions_perm (h : x.Rearranges y) : y.deductions.Perm x.deductions := by
  have files : y.sortedFiles.Perm x.sortedFiles :=
    y.sortedFiles_perm.trans (h.files.trans x.sortedFiles_perm.symm)
  rw [h.deductions_eq]
  exact ((files.flatMap_right _).append_left _).append_right _

/-- Files with different paths have only one order. -/
theorem Rearranges.deductions_eq_of_nodup (h : x.Rearranges y)
    (distinct : (x.files.map (·.path)).Nodup) : y.deductions = x.deductions := by
  have files : y.sortedFiles = x.sortedFiles :=
    List.mergeSort_text_eq_of_perm FileFinding.path h.files fun _ ha _ hb same =>
      List.inj_on_of_nodup_map distinct ha hb same
  rw [h.deductions_eq, files]
  rfl

/-- The order of the input does not matter to a score: whatever files, dependencies and advisories
change places, it has the same value, the same malware flag and the same deductions, and where no
two files have the same path it lists them in the same order. -/
theorem score_of_rearranges (x y : ScoreInput) (h : x.Rearranges y) :
    y.score.value = x.score.value ∧ y.score.malwareDetected = x.score.malwareDetected ∧
      y.score.deductions.Perm x.score.deductions ∧
      ((x.files.map (·.path)).Nodup → y.score = x.score) := by
  have reason := h.malwareReason?_eq
  cases found : x.malwareReason? with
  | some text =>
    have same : y.score = x.score := by rw [score, score, reason, found]
    rw [same]
    exact ⟨rfl, rfl, .refl _, fun _ => rfl⟩
  | none =>
    have first : x.score = settle x.deductions := by rw [score, found]
    have second : y.score = settle y.deductions := by rw [score, reason, found]
    have total : totalPoints y.deductions = totalPoints x.deductions :=
      (h.deductions_perm.map Deduction.points).sum_nat
    rw [settle_eq fun _ => points_pos] at first second
    rw [first, second, total]
    refine ⟨rfl, rfl, h.deductions_perm, fun distinct => ?_⟩
    rw [h.deductions_eq_of_nodup distinct]

/-- Two files, a dependency found at two depths, and advisories of which two have the same id. -/
def inventory : ScoreInput where
  advisories := { critical := [{ id := "GHSA-2", title := "old", severity := .critical },
    { id := "GHSA-2", title := "new", severity := .critical },
    { id := "GHSA-1", title := "", severity := .critical }] }
  files := [{ path := "lib.js", obfuscated := true },
    { path := "a.js", suspiciousFilename := true }]
  dependencies := [⟨"dep", "1.0.0", 2, .peer, some 30, false, none, none⟩,
    ⟨"dep", "1.0.0", 1, .production, some 20, false, none, none⟩]

/-- The same in another order. -/
def reshuffled : ScoreInput where
  advisories := { critical := [{ id := "GHSA-2", title := "new", severity := .critical },
    { id := "GHSA-1", title := "", severity := .critical },
    { id := "GHSA-2", title := "old", severity := .critical }] }
  files := [{ path := "a.js", suspiciousFilename := true },
    { path := "lib.js", obfuscated := true }]
  dependencies := [⟨"dep", "1.0.0", 1, .production, some 20, false, none, none⟩,
    ⟨"dep", "1.0.0", 2, .peer, some 30, false, none, none⟩]

theorem score_of_rearranges_reshuffled : inventory.Rearranges reshuffled ∧
    (inventory.files.map (·.path)).Nodup ∧ reshuffled.score = inventory.score := by
  have rearranges : inventory.Rearranges reshuffled := {
    metrics := rfl
    critical := List.perm_append_singleton _ [_, _]
    high := .nil
    moderate := .nil
    low := .nil
    files := .swap _ _ _
    dependencies := .swap _ _ _ }
  have distinct : (inventory.files.map (·.path)).Nodup := by decide
  obtain ⟨-, -, -, same⟩ := score_of_rearranges inventory reshuffled rearranges
  exact ⟨rearranges, distinct, same distinct⟩

end ScoreInput

end PackageRisk
