import Mathlib.Data.List.Perm.Subperm
import PackageRisk.Advisory.Merge

/-!
# Ascending lists

Sorting a list and then dropping every element that repeats the one before it keeps the members
and leaves a strictly ascending list, so the result is a function of the set of members. A list
that ascends already is not changed.
-/

namespace List

variable {α : Type} [BEq α]

theorem eraseRepsBy_loop_eq (a : α) (l acc : List α) :
    eraseRepsBy.loop (· == ·) a l acc =
      acc.reverse ++ eraseRepsBy.loop (· == ·) a l [] := by
  induction l generalizing a acc with
  | nil => simp [eraseRepsBy.loop]
  | cons b l ih =>
    simp only [eraseRepsBy.loop]
    split
    · exact ih a acc
    · rw [ih b (a :: acc), ih b [a]]
      simp

@[simp] theorem eraseReps_nil : ([] : List α).eraseReps = [] := rfl

@[simp] theorem eraseReps_singleton (a : α) : [a].eraseReps = [a] := rfl

theorem eraseReps_cons_cons (a b : α) (l : List α) :
    (a :: b :: l).eraseReps =
      if a == b then (a :: l).eraseReps else a :: (b :: l).eraseReps := by
  simp only [eraseReps, eraseRepsBy, eraseRepsBy.loop]
  cases a == b with
  | true => rfl
  | false => exact eraseRepsBy_loop_eq b l [a]

variable [LawfulBEq α]

theorem mem_eraseReps {a : α} {l : List α} : a ∈ l.eraseReps ↔ a ∈ l := by
  induction l with
  | nil => simp
  | cons b l ih =>
    cases l with
    | nil => simp
    | cons c l =>
      rw [eraseReps_cons_cons]
      split
      · rename_i same
        obtain rfl := eq_of_beq same
        rw [ih]
        simp
      · simp [ih]

theorem eraseReps_of_nodup {l : List α} (distinct : l.Nodup) : l.eraseReps = l := by
  induction l with
  | nil => rfl
  | cons b l ih =>
    cases l with
    | nil => rfl
    | cons c l =>
      obtain ⟨new, distinct⟩ := nodup_cons.mp distinct
      rw [eraseReps_cons_cons, if_neg (by simp_all), ih distinct]

/-- In an ordered list equal elements stand side by side, so no two equal ones remain. -/
theorem Pairwise.eraseReps {r : α → α → Prop} {l : List α} (ordered : l.Pairwise r)
    (antisymm : ∀ a b, r a b → r b a → a = b) :
    l.eraseReps.Pairwise fun a b => r a b ∧ a ≠ b := by
  induction l with
  | nil => simp
  | cons b l ih =>
    cases l with
    | nil => simp
    | cons c l =>
      obtain ⟨first, ordered⟩ := pairwise_cons.mp ordered
      rw [eraseReps_cons_cons]
      split
      · rename_i same
        obtain rfl := eq_of_beq same
        exact ih ordered
      · rename_i different
        refine pairwise_cons.mpr ⟨fun x hx => ?_, ih ordered⟩
        have later := mem_eraseReps.mp hx
        refine ⟨first x later, ?_⟩
        rintro rfl
        have back : r c b ∨ b = c := by
          rcases mem_cons.mp later with rfl | later
          · exact .inr rfl
          · exact .inl ((pairwise_cons.mp ordered).1 b later)
        have equal : b = c := back.elim (antisymm b c (first c mem_cons_self)) id
        simp [equal] at different

section ByText

variable {α : Type} {l l' : List α} (text : α → String)

theorem text_le_trans (a b c : α) (hab : decide (text a ≤ text b) = true)
    (hbc : decide (text b ≤ text c) = true) : decide (text a ≤ text c) = true := by
  rw [decide_eq_true_eq] at *
  exact String.le_trans hab hbc

theorem text_le_total (a b : α) :
    (decide (text a ≤ text b) || decide (text b ≤ text a)) = true := by
  rw [Bool.or_eq_true, decide_eq_true_eq, decide_eq_true_eq]
  exact String.le_total (text a) (text b)

/-- Sorting by a text puts the texts in order. -/
theorem pairwise_mergeSort_text (l : List α) :
    (l.mergeSort fun a b => decide (text a ≤ text b)).Pairwise fun a b => text a ≤ text b :=
  (pairwise_mergeSort (text_le_trans text) (text_le_total text) l).imp of_decide_eq_true

/-- Lists with the same elements are sorted alike by a text that tells them apart. -/
theorem mergeSort_text_eq_of_perm (perm : l'.Perm l)
    (distinct : ∀ a ∈ l, ∀ b ∈ l, text a = text b → a = b) :
    (l'.mergeSort fun a b => decide (text a ≤ text b)) =
      l.mergeSort fun a b => decide (text a ≤ text b) := by
  have sorted := (mergeSort_perm l' fun a b => decide (text a ≤ text b)).trans
    (perm.trans (mergeSort_perm l fun a b => decide (text a ≤ text b)).symm)
  refine sorted.eq_of_pairwise (fun a b ha hb le ge => ?_) (pairwise_mergeSort_text text l')
    (pairwise_mergeSort_text text l)
  have ha := perm.mem_iff.mp (mem_mergeSort.mp ha)
  exact distinct a ha b (mem_mergeSort.mp hb) (String.le_antisymm le ge)

end ByText

end List

namespace PackageRisk.Advisory

variable {name : String} {texts other : List String}

theorem sort_ascending (texts : List String) :
    (texts.mergeSort fun a b => decide (a ≤ b)).Pairwise (· ≤ ·) :=
  List.pairwise_mergeSort_text (fun text => text) texts

theorem sort_of_ascending (ordered : texts.Pairwise (· ≤ ·)) :
    (texts.mergeSort fun a b => decide (a ≤ b)) = texts :=
  List.mergeSort_of_pairwise (ordered.imp decide_eq_true)

theorem sort_eq_of_perm (perm : other.Perm texts) :
    (other.mergeSort fun a b => decide (a ≤ b)) = texts.mergeSort fun a b => decide (a ≤ b) :=
  List.mergeSort_text_eq_of_perm (fun text => text) perm fun _ _ _ _ same => same

@[simp] theorem mem_sortUnique : name ∈ sortUnique texts ↔ name ∈ texts := by
  rw [sortUnique, List.mem_eraseReps, List.mem_mergeSort]

theorem sort_strictly_ascending (distinct : texts.Nodup) :
    (texts.mergeSort fun a b => decide (a ≤ b)).Pairwise (· < ·) := by
  have distinct := (List.mergeSort_perm texts fun a b => decide (a ≤ b)).nodup_iff.mpr distinct
  exact ((sort_ascending texts).and distinct).imp fun h => Std.lt_of_le_of_ne h.1 h.2

theorem sortUnique_ascending (texts : List String) : (sortUnique texts).Pairwise (· < ·) := by
  have ordered := (sort_ascending texts).eraseReps fun a b => String.le_antisymm
  exact ordered.imp fun h => Std.lt_of_le_of_ne h.1 h.2

theorem sortUnique_nodup (texts : List String) : (sortUnique texts).Nodup :=
  (sortUnique_ascending texts).imp String.ne_of_lt

theorem sortUnique_of_ascending (ordered : texts.Pairwise (· < ·)) :
    sortUnique texts = texts := by
  rw [sortUnique, sort_of_ascending (ordered.imp Std.le_of_lt)]
  exact List.eraseReps_of_nodup (ordered.imp String.ne_of_lt)

/-- The number of different texts does not fall when texts are added. -/
theorem length_sortUnique_le (subset : texts ⊆ other) :
    (sortUnique texts).length ≤ (sortUnique other).length := by
  refine (List.subperm_of_subset (sortUnique_nodup texts) fun name h => ?_).length_le
  exact mem_sortUnique.mpr (subset (mem_sortUnique.mp h))

end PackageRisk.Advisory
