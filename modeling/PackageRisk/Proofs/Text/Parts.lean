import Mathlib.Data.List.TakeWhile
import PackageRisk.Text.Letters

/-!
# Parts between separators

What stands before the first separator of a text and what stands after the last one, read off a text
that is written as its parts.
-/

namespace PackageRisk.Text

variable {isSeparator : Char → Bool} {s t : List Char}

/-- The first separator is looked for behind a text that has none. -/
theorem beforeFirst_append (none : ∀ c ∈ s, isSeparator c = false) (t : List Char) :
    beforeFirst isSeparator (s ++ t) = s ++ beforeFirst isSeparator t :=
  List.takeWhile_append_of_pos fun c mem => by simp [none c mem]

theorem beforeFirst_eq_self (none : ∀ c ∈ s, isSeparator c = false) :
    beforeFirst isSeparator s = s :=
  List.takeWhile_eq_self_iff.mpr fun c mem => by simp [none c mem]

theorem beforeFirst_append_cons {c : Char} (none : ∀ d ∈ s, isSeparator d = false)
    (passes : isSeparator c = false) (t : List Char) :
    beforeFirst isSeparator (s ++ c :: t) = s ++ c :: beforeFirst isSeparator t := by
  rw [beforeFirst_append none, beforeFirst, List.takeWhile_cons_of_pos (by simp [passes])]
  rfl

/-- Nothing stands before a separator at the beginning, or before the end of an empty text. -/
theorem beforeFirst_of_head (first : ∀ c ∈ t.head?, isSeparator c = true) :
    beforeFirst isSeparator t = [] := by
  cases t with
  | nil => rfl
  | cons c t => exact List.takeWhile_cons_of_neg (by simp [first c rfl])

theorem afterLast_eq_self (none : ∀ c ∈ s, isSeparator c = false) :
    afterLast isSeparator s = s := by
  have whole : s.reverse.takeWhile (fun c => !isSeparator c) = s.reverse :=
    List.takeWhile_eq_self_iff.mpr fun c mem => by simp [none c (List.mem_reverse.mp mem)]
  rw [afterLast, whole, List.reverse_reverse]

theorem drop_beforeFirst (isSeparator : Char → Bool) (s : List Char) :
    s.drop (beforeFirst isSeparator s).length = s.dropWhile fun c => !isSeparator c := by
  have whole := List.takeWhile_append_dropWhile (p := fun c => !isSeparator c) (l := s)
  exact (congrArg (List.drop (beforeFirst isSeparator s).length) whole).symm.trans
    List.drop_left

/-- Nothing follows the part before the first separator exactly if there is none. -/
theorem drop_beforeFirst_eq_nil_iff :
    s.drop (beforeFirst isSeparator s).length = [] ↔ ∀ c ∈ s, isSeparator c = false := by
  rw [drop_beforeFirst, List.dropWhile_eq_nil_iff]
  simp only [Bool.not_eq_true']

/-- What follows the part before the first separator begins with it. -/
theorem separates_of_head?_drop_beforeFirst {c : Char}
    (first : c ∈ (s.drop (beforeFirst isSeparator s).length).head?) : isSeparator c = true := by
  rw [drop_beforeFirst] at first
  have stopped := List.head?_dropWhile_not (fun c => !isSeparator c) s
  rw [Option.mem_def.mp first] at stopped
  simpa using stopped

theorem takeWhile_append_cons {p : Char → Bool} {c : Char} (stops : p c = false)
    (s t : List Char) : (s ++ c :: t).takeWhile p = s.takeWhile p := by
  induction s with
  | nil => exact List.takeWhile_cons_of_neg (by simp [stops])
  | cons d s ih => simp only [List.cons_append, List.takeWhile_cons, ih]

theorem dropWhile_append_cons {p : Char → Bool} {c : Char} (stops : p c = false)
    (s t : List Char) : (s ++ c :: t).dropWhile p = s.dropWhile p ++ c :: t := by
  induction s with
  | nil => exact List.dropWhile_cons_of_neg (by simp [stops])
  | cons d s ih =>
    simp only [List.cons_append, List.dropWhile_cons, ih]
    split <;> rfl

/-- Dropping at the end goes no further than a character that is kept. -/
theorem dropTrailing_append_cons {p : Char → Bool} {c : Char} (stops : p c = false)
    (s t : List Char) : dropTrailing p (s ++ c :: t) = s ++ c :: dropTrailing p t := by
  rw [dropTrailing, dropTrailing, List.reverse_append, List.reverse_cons, List.append_assoc,
    List.singleton_append, dropWhile_append_cons stops]
  simp

/-- The last separator is looked for before a text that has none. -/
theorem afterLast_append_cons {c : Char} (separates : isSeparator c = true)
    (none : ∀ d ∈ t, isSeparator d = false) (s : List Char) :
    afterLast isSeparator (s ++ c :: t) = t := by
  have whole : (s ++ c :: t).reverse.takeWhile (fun c => !isSeparator c) = t.reverse := by
    rw [List.reverse_append, List.reverse_cons, List.append_assoc,
      List.takeWhile_append_of_pos fun d mem => by simp [none d (List.mem_reverse.mp mem)]]
    simp [separates]
  rw [afterLast, whole, List.reverse_reverse]

/-- Whatever stands before a separator has no share in what follows the last one. -/
theorem afterLast_append_of_separates {c : Char} (separates : isSeparator c = true)
    (s t : List Char) : afterLast isSeparator (s ++ c :: t) = afterLast isSeparator t := by
  rw [afterLast, afterLast, List.reverse_append, List.reverse_cons, List.append_assoc,
    List.singleton_append, takeWhile_append_cons (by simp [separates])]

theorem separates_of_mem_afterLast {c : Char} (mem : c ∈ afterLast isSeparator s) :
    isSeparator c = false := by
  have passed := List.mem_takeWhile_imp (List.mem_reverse.mp mem)
  simpa using passed

/-- A character of a text has a last place in it. -/
theorem exists_last {c : Char} (mem : c ∈ s) : ∃ front rest, s = front ++ c :: rest ∧ c ∉ rest := by
  obtain ⟨back, front, same, none⟩ := List.eq_append_cons_of_mem (List.mem_reverse.mpr mem)
  refine ⟨front.reverse, back.reverse, ?_, by simpa using none⟩
  rw [← List.reverse_reverse s, same]
  simp

theorem dropTrailing_append {p : Char → Bool} (none : ∀ c ∈ s, p c = false) (t : List Char) :
    dropTrailing p (s ++ t) = s ++ dropTrailing p t := by
  rcases List.eq_nil_or_concat s with rfl | ⟨front, c, rfl⟩
  · rfl
  · rw [List.concat_eq_append] at none ⊢
    have last := none c (List.mem_append_right _ (List.mem_singleton_self c))
    rw [List.append_assoc, List.singleton_append, dropTrailing_append_cons last, List.append_assoc,
      List.singleton_append]

theorem dropTrailing_concat (p : Char → Bool) (s : List Char) (c : Char) :
    dropTrailing p (s ++ [c]) = if p c then dropTrailing p s else s ++ [c] := by
  rw [dropTrailing, List.reverse_append, List.reverse_singleton, List.singleton_append,
    List.dropWhile_cons]
  split
  · rfl
  · simp

/-- A text without separators is one part. -/
theorem splitAt_of_none (none : ∀ c ∈ s, isSeparator c = false) : splitAt isSeparator s = [s] := by
  induction s with
  | nil => rfl
  | cons c s ih =>
    obtain ⟨first, rest⟩ := List.forall_mem_cons.mp none
    rw [splitAt, first, ih rest]
    rfl

/-- The parts of a text are those on either side of a separator. -/
theorem splitAt_append_cons {c : Char} (separates : isSeparator c = true) (s t : List Char) :
    splitAt isSeparator (s ++ c :: t) = splitAt isSeparator s ++ splitAt isSeparator t := by
  induction s with
  | nil =>
    simp only [List.nil_append, splitAt, separates, if_true, List.singleton_append]
  | cons d s ih =>
    simp only [List.cons_append, splitAt, ih]
    split
    · rfl
    · cases parts : splitAt isSeparator s with
      | nil => exact absurd parts (splitAt_ne_nil _ _)
      | cons part parts => rfl

/-- The last part is what follows the last separator. -/
theorem getLast?_splitAt (isSeparator : Char → Bool) (s : List Char) :
    (splitAt isSeparator s).getLast? = some (afterLast isSeparator s) := by
  cases found : s.reverse.dropWhile (fun c => !isSeparator c) with
  | nil =>
    have none : ∀ c ∈ s, isSeparator c = false := by
      intro c mem
      have passed := List.dropWhile_eq_nil_iff.mp found c (List.mem_reverse.mpr mem)
      simpa using passed
    rw [splitAt_of_none none, afterLast_eq_self none]
    rfl
  | cons c front =>
    have separates : isSeparator c = true := by
      have first := List.head?_dropWhile_not (fun c => !isSeparator c) s.reverse
      rw [found] at first
      simpa using first
    have split : s = front.reverse ++ c :: afterLast isSeparator s := by
      have whole := List.takeWhile_append_dropWhile (p := fun c => !isSeparator c) (l := s.reverse)
      rw [found] at whole
      have back := congrArg List.reverse whole
      simpa [afterLast] using back.symm
    have none : ∀ d ∈ afterLast isSeparator s, isSeparator d = false :=
      fun d => separates_of_mem_afterLast
    rw [split, splitAt_append_cons separates, afterLast_append_of_separates separates,
      afterLast_eq_self none, splitAt_of_none none, List.getLast?_append]
    rfl

/-- What leads a text is dropped. -/
theorem dropLeading?_append (s t : List Char) : dropLeading? (s ++ t) s = some t := by
  induction s with
  | nil => cases t <;> rfl
  | cons c s ih => simpa [dropLeading?] using ih

end PackageRisk.Text
