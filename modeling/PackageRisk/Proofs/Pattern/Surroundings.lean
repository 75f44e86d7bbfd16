import Mathlib.Data.List.Infix
import Mathlib.Data.List.TakeWhile
import PackageRisk.Pattern.Basic

/-!
# Patterns in surrounding text

A pattern that matches at a place still matches there when more text is put around, as long as the
new neighbours of the old text are no word characters: word edges stay word edges, and a repetition
that can now go on further may still end where it ended. So a search that succeeds in a text
succeeds in every text that contains it between such neighbours.
-/

namespace PackageRisk

namespace Cursor

/-- The same place when there is more text around: `left` behind, nearest character first, and
`right` ahead. -/
def within (left right : List Char) (c : Cursor) : Cursor :=
  ⟨c.behind ++ left, c.ahead ++ right⟩

/-- The place some characters further on. -/
def forward (n : Nat) (c : Cursor) : Cursor :=
  ⟨(c.ahead.take n).reverse ++ c.behind, c.ahead.drop n⟩

variable {left right : List Char} {n : Nat} {c : Cursor}

@[simp] theorem forward_zero (c : Cursor) : c.forward 0 = c := rfl

@[simp] theorem forward_cons (n : Nat) (behind : List Char) (x : Char) (ahead : List Char) :
    forward (n + 1) ⟨behind, x :: ahead⟩ = forward n ⟨x :: behind, ahead⟩ := by
  simp [forward]

theorem back_forward (h : n < c.ahead.length) : (c.forward (n + 1)).back = c.forward n := by
  rw [forward, forward, List.take_succ_eq_append_getElem h, List.drop_eq_getElem_cons h,
    List.reverse_append]
  rfl

theorem within_forward (h : n ≤ c.ahead.length) :
    (c.forward n).within left right = (c.within left right).forward n := by
  simp only [within, forward, List.take_append_of_le_length h, List.drop_append_of_le_length h,
    List.append_assoc]

/-- No word character stands next to the old text. -/
structure Quiet (left right : List Char) : Prop where
  left : left.head?.any Text.isWordChar = false
  right : right.head?.any Text.isWordChar = false

theorem onWordEdge_within (quiet : Quiet left right) (c : Cursor) :
    (c.within left right).onWordEdge = c.onWordEdge := by
  obtain ⟨behind, ahead⟩ := c
  cases behind <;> cases ahead <;> simp [within, onWordEdge, quiet.left, quiet.right]

end Cursor

namespace Pattern

variable {β γ : Type} {accepts : Char → Bool} {most : Option Nat} {ignoreCase : Bool}
  {left right : List Char}

/-! ## Spans -/

/-- The number of characters at the beginning of a text that a span goes over. -/
def reach (accepts : Char → Bool) (most : Option Nat) (ahead : List Char) : Nat :=
  match most with
  | none => (ahead.takeWhile accepts).length
  | some limit => ((ahead.take limit).takeWhile accepts).length

theorem reach_le (accepts : Char → Bool) (most : Option Nat) (ahead : List Char) :
    reach accepts most ahead ≤ ahead.length := by
  cases most with
  | none => exact (List.takeWhile_prefix accepts).length_le
  | some limit =>
    exact ((List.takeWhile_prefix accepts).trans (List.take_prefix limit ahead)).length_le

theorem advance_eq (behind : List Char) (taken : Nat) (ahead : List Char) :
    advance accepts behind taken ahead =
      ((Cursor.mk behind ahead).forward (reach accepts none ahead),
        taken + reach accepts none ahead) := by
  induction ahead generalizing behind taken with
  | nil => rfl
  | cons x ahead ih =>
    rw [advance]
    split
    · rename_i accepted
      rw [ih]
      simp only [reach, List.takeWhile_cons_of_pos accepted, List.length_cons, Cursor.forward_cons,
        Nat.add_right_comm taken 1, Nat.add_assoc]
    · rename_i refused
      simp [reach, refused]

theorem advanceUpTo_eq (behind : List Char) (taken limit : Nat) (ahead : List Char) :
    advanceUpTo accepts behind taken limit ahead =
      ((Cursor.mk behind ahead).forward (reach accepts (some limit) ahead),
        taken + reach accepts (some limit) ahead) := by
  induction ahead generalizing behind taken limit with
  | nil => cases limit <;> rfl
  | cons x ahead ih =>
    cases limit with
    | zero => rfl
    | succ limit =>
      rw [advanceUpTo]
      split
      · rename_i accepted
        rw [ih]
        simp only [reach, List.take_succ_cons, List.takeWhile_cons_of_pos accepted,
          List.length_cons, Cursor.forward_cons, Nat.add_right_comm taken 1, Nat.add_assoc]
      · rename_i refused
        simp [reach, refused]

/-- A span stops as far on as it reaches and then backs off. -/
theorem run_span (set : CharSet) (least : Nat) (most : Option Nat) (c : Cursor)
    (next : Cursor → Option β) :
    (Pattern.span set least most).run ignoreCase c next =
      let reached := reach (set.has ignoreCase) most c.ahead
      if reached < least then none else backOff next (reached - least) (c.forward reached) := by
  cases most with
  | none => simp only [run, advance_eq, Nat.zero_add]
  | some limit => simp only [run, advanceUpTo_eq, Nat.zero_add]

/-- Backing off ends where the continuation has an answer. -/
theorem exists_of_backOff {next : Cursor → Option β} {c : Cursor} {steps stop : Nat} {b : β}
    (le : steps ≤ stop) (inside : stop ≤ c.ahead.length)
    (found : backOff next steps (c.forward stop) = some b) :
    ∃ n, stop ≤ n + steps ∧ n ≤ stop ∧ next (c.forward n) = some b := by
  induction steps generalizing stop with
  | zero => exact ⟨stop, Nat.le_refl stop, Nat.le_refl stop, found⟩
  | succ steps ih =>
    obtain ⟨stop, rfl⟩ : ∃ m, stop = m + 1 := ⟨stop - 1, by omega⟩
    rw [backOff] at found
    split at found
    · rename_i here
      exact ⟨stop + 1, by omega, Nat.le_refl _, here.trans found⟩
    · rw [Cursor.back_forward inside] at found
      obtain ⟨n, ge, le, later⟩ := ih (Nat.le_of_succ_le_succ le) (Nat.le_of_lt inside) found
      exact ⟨n, by omega, by omega, later⟩

theorem isSome_backOff {next : Cursor → Option β} {c : Cursor} {steps stop n : Nat}
    (le : steps ≤ stop) (inside : stop ≤ c.ahead.length) (ge : stop ≤ n + steps) (before : n ≤ stop)
    (found : (next (c.forward n)).isSome = true) :
    (backOff next steps (c.forward stop)).isSome = true := by
  induction steps generalizing stop with
  | zero =>
    obtain rfl : n = stop := Nat.le_antisymm before ge
    exact found
  | succ steps ih =>
    obtain ⟨stop, rfl⟩ : ∃ m, stop = m + 1 := ⟨stop - 1, by omega⟩
    rw [backOff]
    split
    · rfl
    · rename_i refused
      have ne : n ≠ stop + 1 := by
        rintro rfl
        rw [refused] at found
        cases found
      rw [Cursor.back_forward inside]
      exact ih (Nat.le_of_succ_le_succ le) (Nat.le_of_lt inside) (by omega) (by omega)

/-- A span may end wherever it has gone far enough and not too far. -/
theorem isSome_run_span_iff {set : CharSet} {least : Nat} {c : Cursor}
    {next : Cursor → Option β} :
    ((Pattern.span set least most).run ignoreCase c next).isSome = true ↔
      ∃ n, least ≤ n ∧ n ≤ reach (set.has ignoreCase) most c.ahead ∧
        (next (c.forward n)).isSome = true := by
  have inside := reach_le (set.has ignoreCase) most c.ahead
  rw [run_span]
  dsimp only
  split
  · rename_i short
    refine iff_of_false nofun ?_
    rintro ⟨n, ge, le, -⟩
    omega
  · constructor
    · intro h
      obtain ⟨b, h⟩ := Option.isSome_iff_exists.mp h
      obtain ⟨n, ge, le, h⟩ := exists_of_backOff (Nat.sub_le _ _) inside h
      exact ⟨n, by omega, le, by rw [h]; rfl⟩
    · rintro ⟨n, ge, le, h⟩
      exact isSome_backOff (Nat.sub_le _ _) inside (by omega) le h

theorem length_takeWhile_le_of_prefix {l l' : List Char} (h : l <+: l') :
    (l.takeWhile accepts).length ≤ (l'.takeWhile accepts).length := by
  obtain ⟨rest, rfl⟩ := h
  rw [List.takeWhile_append]
  split
  · rename_i all
    rw [all, List.length_append]
    exact Nat.le_add_right _ _
  · exact Nat.le_refl _

/-- With more text ahead a span reaches as far at least. -/
theorem reach_append (accepts : Char → Bool) (most : Option Nat) (ahead right : List Char) :
    reach accepts most ahead ≤ reach accepts most (ahead ++ right) := by
  have more : ahead <+: ahead ++ right := List.prefix_append ahead right
  cases most with
  | none => exact length_takeWhile_le_of_prefix more
  | some limit => exact length_takeWhile_le_of_prefix (more.take limit)

/-! ## Matching -/

/-- The second continuation succeeds in the surroundings wherever the first succeeds without. -/
def Follows (left right : List Char) (next : Cursor → Option β) (next' : Cursor → Option γ) :
    Prop :=
  ∀ d, (next d).isSome = true → (next' (d.within left right)).isSome = true

/-- The second step succeeds in the surroundings wherever the first one does without, with any
continuations of which the same is true. -/
def Carries (left right : List Char) (step : Cursor → (Cursor → Option β) → Option β)
    (step' : Cursor → (Cursor → Option γ) → Option γ) : Prop :=
  ∀ next next', Follows left right next next' →
    Follows left right (step · next) (step' · next')

variable {step : Cursor → (Cursor → Option β) → Option β}
  {step' : Cursor → (Cursor → Option γ) → Option γ}

theorem asOften_cons (step : Cursor → (Cursor → Option β) → Option β) (x : Char)
    (rounds : List Char) (c : Cursor) (next : Cursor → Option β) :
    Pattern.asOften step (x :: rounds) c next =
      (step c fun d => Pattern.asOften step rounds d next).or (next c) := by
  rw [Pattern.asOften]
  cases step c fun d => Pattern.asOften step rounds d next <;> rfl

theorem run_alt (preferred other : Pattern) (c : Cursor) (next : Cursor → Option β) :
    (Pattern.alt preferred other).run ignoreCase c next =
      (preferred.run ignoreCase c next).or (other.run ignoreCase c next) := by
  rw [run]
  cases preferred.run ignoreCase c next <;> rfl

theorem Carries.exactly (carries : Carries left right step step') (n : Nat) :
    Carries left right (Pattern.exactly step n) (Pattern.exactly step' n) := by
  induction n with
  | zero => exact fun next next' follows => follows
  | succ n ih =>
    intro next next' follows
    exact carries _ _ (ih next next' follows)

theorem Carries.asOften (carries : Carries left right step step') {rounds rounds' : List Char}
    (longer : rounds.length ≤ rounds'.length) :
    Carries left right (Pattern.asOften step rounds) (Pattern.asOften step' rounds') := by
  intro next next' follows
  -- Rounds that are left over do no harm: where the last one fails, the continuation is tried.
  have stay {c : Cursor} (rounds' : List Char) (here : (next c).isSome = true) :
      (Pattern.asOften step' rounds' (c.within left right) next').isSome = true := by
    cases rounds' with
    | nil => exact follows c here
    | cons x rounds' =>
      rw [asOften_cons, Option.isSome_or, follows c here, Bool.or_true]
  induction rounds generalizing rounds' with
  | nil => exact fun c here => stay rounds' here
  | cons x rounds ih =>
    obtain ⟨y, rounds', rfl⟩ := List.exists_cons_of_length_pos (Nat.zero_lt_of_lt longer)
    intro c here
    dsimp only at here ⊢
    rw [asOften_cons, Option.isSome_or, Bool.or_eq_true] at here
    rcases here with again | here
    · have round := carries _ _ (ih (Nat.le_of_succ_le_succ longer)) c again
      dsimp only at round
      rw [asOften_cons, Option.isSome_or, round, Bool.true_or]
    · exact stay _ here

/-- A pattern that matches in a text matches in its surroundings. -/
theorem run_carries (quiet : Cursor.Quiet left right) (p : Pattern) :
    Carries (β := β) (γ := γ) left right (p.run ignoreCase) (p.run ignoreCase) := by
  induction p with
  | empty => exact fun next next' follows => follows
  | one set =>
    rintro next next' follows ⟨behind, ahead⟩ here
    cases ahead with
    | nil => cases here
    | cons x ahead =>
      simp only [run] at here
      split at here
      · rename_i accepted
        simp only [run, Cursor.within, List.cons_append, if_pos accepted]
        exact follows _ here
      · cases here
  | wordEdge =>
    intro next next' follows c here
    simp only [run, Cursor.onWordEdge_within quiet] at here ⊢
    split
    · rename_i edge
      rw [if_pos edge] at here
      exact follows c here
    · rename_i inner
      rw [if_neg inner] at here
      cases here
  | seq first second ih₁ ih₂ =>
    intro next next' follows
    exact ih₁ _ _ (ih₂ _ _ follows)
  | alt preferred other ih₁ ih₂ =>
    intro next next' follows c here
    dsimp only at here ⊢
    rw [run_alt, Option.isSome_or, Bool.or_eq_true] at here ⊢
    exact here.imp (ih₁ _ _ follows c) (ih₂ _ _ follows c)
  | span set least most =>
    -- The span may go on into the new text, but it can still back off to where it ended before.
    intro next next' follows c here
    obtain ⟨n, ge, le, here⟩ := isSome_run_span_iff.mp here
    refine isSome_run_span_iff.mpr ⟨n, ge, le.trans (reach_append _ _ _ _), ?_⟩
    rw [← Cursor.within_forward (le.trans (reach_le _ _ _))]
    exact follows _ here
  | times body least most ih =>
    intro next next' follows
    refine ih.exactly least _ _ fun d here => ?_
    have longer : d.ahead.length ≤ (d.within left right).ahead.length := by
      rw [Cursor.within, List.length_append]
      exact Nat.le_add_right _ _
    refine ih.asOften ?_ _ _ follows d here
    cases most with
    | none => exact longer
    | some limit =>
      dsimp only
      rw [List.length_take, List.length_take]
      omega

end Pattern

/-! ## Searching -/

namespace Search

variable {left right : List Char}

theorem findFrom_cons (step : Cursor → Option Cursor) (behind : List Char) (x : Char)
    (ahead : List Char) :
    findFrom step behind (x :: ahead) =
      ((step ⟨behind, x :: ahead⟩).map fun stop => ⟨⟨behind, x :: ahead⟩, stop⟩).or
        (findFrom step (x :: behind) ahead) := by
  rw [findFrom]
  cases step ⟨behind, x :: ahead⟩ <;> rfl

/-- A step succeeds somewhere when it does so at one of the places of the text. -/
theorem isSome_findFrom_iff {step : Cursor → Option Cursor} {behind ahead : List Char} :
    (findFrom step behind ahead).isSome = true ↔
      ∃ n ≤ ahead.length, (step ((Cursor.mk behind ahead).forward n)).isSome = true := by
  induction ahead generalizing behind with
  | nil =>
    rw [findFrom, Option.isSome_map]
    constructor
    · exact fun h => ⟨0, Nat.le_refl 0, h⟩
    · rintro ⟨n, le, h⟩
      obtain rfl := Nat.le_zero.mp le
      exact h
  | cons x ahead ih =>
    rw [findFrom_cons, Option.isSome_or, Option.isSome_map, Bool.or_eq_true, ih]
    constructor
    · rintro (here | ⟨n, le, later⟩)
      · exact ⟨0, Nat.zero_le _, here⟩
      · exact ⟨n + 1, Nat.succ_le_succ le, by rwa [Cursor.forward_cons]⟩
    · rintro ⟨n, le, found⟩
      cases n with
      | zero => exact .inl found
      | succ n => exact .inr ⟨n, Nat.le_of_succ_le_succ le, by rwa [Cursor.forward_cons] at found⟩

theorem occursIn_iff {s : Search} {content : List Char} :
    s.occursIn content = true ↔ ∃ n ≤ content.length,
      (s.pattern.matchAt? s.ignoreCase ((Cursor.start content).forward n)).isSome = true :=
  isSome_findFrom_iff

/-- A search that succeeds in a text succeeds in its surroundings. -/
theorem occursIn_surrounded {s : Search} {before after content : List Char}
    (quiet : Cursor.Quiet before.reverse after) (occurs : s.occursIn content = true) :
    s.occursIn (before ++ content ++ after) = true := by
  obtain ⟨n, le, found⟩ := occursIn_iff.mp occurs
  have follows : Pattern.Follows before.reverse after (some : Cursor → Option Cursor) some :=
    fun d _ => rfl
  have carried := Pattern.run_carries quiet s.pattern some some follows _ found
  refine occursIn_iff.mpr ⟨before.length + n, by simp; omega, ?_⟩
  have place : (Cursor.start (before ++ content ++ after)).forward (before.length + n) =
      ((Cursor.start content).forward n).within before.reverse after := by
    simp only [Cursor.start, Cursor.forward, Cursor.within, List.append_assoc,
      List.take_length_add_append, List.drop_length_add_append, List.take_append_of_le_length le,
      List.drop_append_of_le_length le, List.reverse_append, List.append_nil]
  rw [place]
  exact carried

end Search

end PackageRisk
