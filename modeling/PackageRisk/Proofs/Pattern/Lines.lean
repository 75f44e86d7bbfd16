import PackageRisk.Proofs.Pattern.Surroundings

/-!
# Matches within a line

A pattern that accepts no line feed matches within a line, and other lines make no difference to it:
to a word edge they are like the end of the text. So the successive occurrences in a text are those
in the part before a line feed, followed by those in the part after it. Patterns with repeated
groups are left out.
-/

namespace PackageRisk

/-! ## Where matches end -/

namespace Cursor

variable {left right : List Char}

theorem forward_forward (c : Cursor) (m n : Nat) :
    (c.forward m).forward n = c.forward (m + n) := by
  simp only [forward, List.drop_drop, List.take_add, List.reverse_append, List.append_assoc]

@[simp] theorem within_nil_left (c : Cursor) (right : List Char) :
    c.within [] right = ⟨c.behind, c.ahead ++ right⟩ := by
  rw [within, List.append_nil]

@[simp] theorem within_nil_right (c : Cursor) (left : List Char) :
    c.within left [] = ⟨c.behind ++ left, c.ahead⟩ := by
  rw [within, List.append_nil]

@[simp] theorem text_forward (c : Cursor) (n : Nat) : (c.forward n).text = c.text := by
  simp only [forward, text, List.reverse_append, List.reverse_reverse, List.append_assoc,
    List.take_append_drop]

@[simp] theorem length_ahead_forward (c : Cursor) (n : Nat) :
    (c.forward n).ahead.length = c.ahead.length - n :=
  List.length_drop

/-- Where other lines begin or the text ends. -/
structure Bounded (left right : List Char) : Prop where
  left : left = [] ∨ ∃ rest, left = '\n' :: rest
  right : right = [] ∨ ∃ rest, right = '\n' :: rest

theorem Bounded.quiet (bounded : Bounded left right) : Quiet left right where
  left := by
    rcases bounded.left with rfl | ⟨rest, rfl⟩
    · rfl
    · exact (by decide : Text.isWordChar '\n' = false)
  right := by
    rcases bounded.right with rfl | ⟨rest, rfl⟩
    · rfl
    · exact (by decide : Text.isWordChar '\n' = false)

end Cursor

namespace Pattern

variable {β γ : Type} {ignoreCase : Bool} {left right : List Char}

/-- The fewest characters that a pattern can match. -/
def fewest : Pattern → Nat
  | .empty | .wordEdge => 0
  | .one _ => 1
  | .seq first second => first.fewest + second.fewest
  | .alt preferred other => min preferred.fewest other.fewest
  | .span _ least _ => least
  | .times body least _ => least * body.fewest

/-- A step takes some characters, not less than a number, and continues behind them. -/
def Takes (fewest : Nat) (step : Cursor → (Cursor → Option β) → Option β) : Prop :=
  ∀ c next b, step c next = some b →
    ∃ n, fewest ≤ n ∧ n ≤ c.ahead.length ∧ next (c.forward n) = some b

variable {step : Cursor → (Cursor → Option β) → Option β} {k : Nat}

theorem Takes.exactly (takes : Takes k step) (n : Nat) :
    Takes (n * k) (Pattern.exactly step n) := by
  induction n with
  | zero =>
    intro c next b found
    exact ⟨0, by omega, Nat.zero_le _, found⟩
  | succ n ih =>
    intro c next b found
    obtain ⟨m, ge, le, rest⟩ := takes _ _ _ found
    obtain ⟨m', ge', le', last⟩ := ih _ _ _ rest
    rw [Cursor.length_ahead_forward] at le'
    refine ⟨m + m', ?_, by omega, by rwa [← Cursor.forward_forward]⟩
    rw [Nat.add_one_mul]
    omega

theorem Takes.asOften (takes : Takes k step) (rounds : List Char) :
    Takes 0 (Pattern.asOften step rounds) := by
  induction rounds with
  | nil =>
    intro c next b found
    exact ⟨0, Nat.le_refl 0, Nat.zero_le _, found⟩
  | cons x rounds ih =>
    intro c next b found
    rw [asOften_cons, Option.or_eq_some_iff] at found
    rcases found with again | ⟨-, here⟩
    · obtain ⟨m, -, le, rest⟩ := takes _ _ _ again
      obtain ⟨m', -, le', last⟩ := ih _ _ _ rest
      rw [Cursor.length_ahead_forward] at le'
      exact ⟨m + m', Nat.zero_le _, by omega, by rwa [← Cursor.forward_forward]⟩
    · exact ⟨0, Nat.le_refl 0, Nat.zero_le _, here⟩

/-- A match goes over at least the fewest characters of its pattern. -/
theorem run_takes (p : Pattern) : Takes (β := β) p.fewest (p.run ignoreCase) := by
  induction p with
  | empty =>
    intro c next b found
    exact ⟨0, Nat.le_refl 0, Nat.zero_le _, found⟩
  | one set =>
    rintro ⟨behind, ahead⟩ next b found
    cases ahead with
    | nil => cases found
    | cons x ahead =>
      simp only [run] at found
      split at found
      · exact ⟨1, Nat.le_refl 1, Nat.succ_le_succ (Nat.zero_le _), found⟩
      · cases found
  | wordEdge =>
    intro c next b found
    simp only [run] at found
    split at found
    · exact ⟨0, Nat.le_refl 0, Nat.zero_le _, found⟩
    · cases found
  | seq first second ih₁ ih₂ =>
    intro c next b found
    obtain ⟨m, ge, le, rest⟩ := ih₁ _ _ _ found
    obtain ⟨m', ge', le', last⟩ := ih₂ _ _ _ rest
    rw [Cursor.length_ahead_forward] at le'
    exact ⟨m + m', Nat.add_le_add ge ge', by omega, by rwa [← Cursor.forward_forward]⟩
  | alt preferred other ih₁ ih₂ =>
    intro c next b found
    rw [run_alt, Option.or_eq_some_iff] at found
    rcases found with found | ⟨-, found⟩
    · obtain ⟨n, ge, rest⟩ := ih₁ _ _ _ found
      exact ⟨n, Nat.le_trans (Nat.min_le_left _ _) ge, rest⟩
    · obtain ⟨n, ge, rest⟩ := ih₂ _ _ _ found
      exact ⟨n, Nat.le_trans (Nat.min_le_right _ _) ge, rest⟩
  | span set least most =>
    intro c next b found
    have inside := reach_le (set.has ignoreCase) most c.ahead
    rw [run_span] at found
    dsimp only at found
    split at found
    · cases found
    · obtain ⟨n, ge, le, rest⟩ := exists_of_backOff (Nat.sub_le _ _) inside found
      exact ⟨n, by simp only [fewest]; omega, by omega, rest⟩
  | times body least most ih =>
    intro c next b found
    obtain ⟨m, ge, le, rest⟩ := ih.exactly least _ _ _ found
    obtain ⟨m', -, le', last⟩ := ih.asOften _ _ _ _ rest
    rw [Cursor.length_ahead_forward] at le'
    exact ⟨m + m', Nat.le_add_right_of_le ge, by omega, by rwa [← Cursor.forward_forward]⟩

theorem matchAt?_takes {p : Pattern} {c d : Cursor} (found : p.matchAt? ignoreCase c = some d) :
    ∃ n, p.fewest ≤ n ∧ n ≤ c.ahead.length ∧ d = c.forward n := by
  obtain ⟨n, ge, le, stop⟩ := run_takes p _ _ _ found
  exact ⟨n, ge, le, (Option.some.inj stop).symm⟩

/-! ## Other lines -/

/-- No part of the pattern accepts a line feed, and no group is repeated. -/
def staysInLine (ignoreCase : Bool) : Pattern → Bool
  | .empty | .wordEdge => true
  | .one set | .span set _ _ => !set.has ignoreCase '\n'
  | .seq first second => first.staysInLine ignoreCase && second.staysInLine ignoreCase
  | .alt preferred other =>
    preferred.staysInLine ignoreCase && other.staysInLine ignoreCase
  | .times _ _ _ => false

/-- The second continuation does among other lines what the first does without them. -/
def Mirrors (left right : List Char) (f : β → γ) (next : Cursor → Option β)
    (next' : Cursor → Option γ) : Prop :=
  ∀ d, next' (d.within left right) = (next d).map f

theorem reach_within {accepts : Char → Bool} (stops : accepts '\n' = false) (most : Option Nat)
    (ahead : List Char) (lines : right = [] ∨ ∃ rest, right = '\n' :: rest) :
    reach accepts most (ahead ++ right) = reach accepts most ahead := by
  have takeWhile (l rest : List Char) (begins : rest = [] ∨ ∃ more, rest = '\n' :: more) :
      (l ++ rest).takeWhile accepts = l.takeWhile accepts := by
    have none : rest.takeWhile accepts = [] := by
      rcases begins with rfl | ⟨more, rfl⟩
      · rfl
      · exact List.takeWhile_cons_of_neg (by simp [stops])
    rw [List.takeWhile_append, none, List.append_nil]
    split
    · rename_i all
      exact ((List.takeWhile_prefix accepts).eq_of_length all).symm
    · rfl
  cases most with
  | none => rw [reach, reach, takeWhile _ _ lines]
  | some limit =>
    rw [reach, reach, List.take_append, takeWhile]
    rcases lines with rfl | ⟨rest, rfl⟩
    · exact .inl List.take_nil
    · cases limit - ahead.length with
      | zero => exact .inl rfl
      | succ n => exact .inr ⟨rest.take n, rfl⟩

theorem Mirrors.backOff {f : β → γ} {next : Cursor → Option β} {next' : Cursor → Option γ}
    (mirrors : Mirrors left right f next next') {c : Cursor} {steps stop : Nat}
    (le : steps ≤ stop) (inside : stop ≤ c.ahead.length) :
    Pattern.backOff next' steps ((c.within left right).forward stop) =
      (Pattern.backOff next steps (c.forward stop)).map f := by
  induction steps generalizing stop with
  | zero =>
    rw [← Cursor.within_forward inside]
    exact mirrors _
  | succ steps ih =>
    obtain ⟨stop, rfl⟩ : ∃ m, stop = m + 1 := ⟨stop - 1, by omega⟩
    have longer : stop < (c.within left right).ahead.length := by
      rw [Cursor.within, List.length_append]
      exact Nat.lt_add_right _ inside
    rw [Pattern.backOff, Pattern.backOff, Cursor.back_forward inside, Cursor.back_forward longer,
      ih (Nat.le_of_succ_le_succ le) (Nat.le_of_lt inside), ← Cursor.within_forward inside,
      mirrors]
    cases next (c.forward (stop + 1)) <;> rfl

/-- Other lines make no difference to a pattern that stays in its line. -/
theorem run_mirrors (bounded : Cursor.Bounded left right) {f : β → γ} (p : Pattern)
    (stays : p.staysInLine ignoreCase = true) {next : Cursor → Option β}
    {next' : Cursor → Option γ} (mirrors : Mirrors left right f next next') :
    Mirrors left right f (p.run ignoreCase · next) (p.run ignoreCase · next') := by
  induction p generalizing next next' with
  | empty => exact mirrors
  | one set =>
    have stops : set.has ignoreCase '\n' = false := by simpa [staysInLine] using stays
    rintro ⟨behind, ahead⟩
    cases ahead with
    | nil =>
      rcases bounded.right with rfl | ⟨rest, rfl⟩
      · rfl
      · simp [run, Cursor.within, stops]
    | cons x ahead =>
      simp only [run, Cursor.within, List.cons_append]
      split
      · exact mirrors ⟨x :: behind, ahead⟩
      · rfl
  | wordEdge =>
    intro c
    simp only [run, Cursor.onWordEdge_within bounded.quiet]
    split
    · exact mirrors c
    · rfl
  | seq first second ih₁ ih₂ =>
    obtain ⟨stays₁, stays₂⟩ := Bool.and_eq_true_iff.mp stays
    exact ih₁ stays₁ (ih₂ stays₂ mirrors)
  | alt preferred other ih₁ ih₂ =>
    obtain ⟨stays₁, stays₂⟩ := Bool.and_eq_true_iff.mp stays
    intro c
    dsimp only
    rw [run_alt, run_alt, Option.map_or]
    exact congrArg₂ Option.or (ih₁ stays₁ mirrors c) (ih₂ stays₂ mirrors c)
  | span set least most =>
    -- The span ends before the line feed at the latest, so it reaches as far as before.
    have stops : set.has ignoreCase '\n' = false := by simpa [staysInLine] using stays
    intro c
    dsimp only
    rw [run_span, run_span]
    dsimp only [Cursor.within]
    rw [reach_within stops most c.ahead bounded.right]
    split
    · rfl
    · exact mirrors.backOff (Nat.sub_le _ _) (reach_le _ _ _)
  | times body least most => cases stays

theorem matchAt?_within (bounded : Cursor.Bounded left right) {p : Pattern}
    (stays : p.staysInLine ignoreCase = true) (c : Cursor) :
    p.matchAt? ignoreCase (c.within left right) =
      (p.matchAt? ignoreCase c).map (·.within left right) :=
  run_mirrors bounded p stays (fun _ => rfl) c

end Pattern

/-! ## Occurrences -/

namespace Occurrence

/-- The same occurrence when there is more text around. -/
def within (left right : List Char) (o : Occurrence) : Occurrence :=
  ⟨o.start.within left right, o.stop.within left right⟩

@[simp] theorem text_within (left right : List Char) (o : Occurrence) :
    (o.within left right).text = o.text := by
  obtain ⟨⟨behind, ahead⟩, ⟨behind', ahead'⟩⟩ := o
  simp only [within, Cursor.within, text, List.length_append, Nat.add_sub_add_right]
  exact List.take_append_of_le_length (Nat.sub_le _ _)

end Occurrence

namespace Search

variable {step : Cursor → Option Cursor} {left right : List Char} {c : Cursor}
  {o : Occurrence} {os : List Occurrence}

/-- What is found begins where going forward leads to, and there the step succeeds. -/
theorem exists_forward_of_findFrom {behind ahead : List Char}
    (found : findFrom step behind ahead = some o) :
    ∃ m, m ≤ ahead.length ∧ o.start = (Cursor.mk behind ahead).forward m ∧
      step o.start = some o.stop := by
  induction ahead generalizing behind with
  | nil =>
    rw [findFrom, Option.map_eq_some_iff] at found
    obtain ⟨stop, here, rfl⟩ := found
    exact ⟨0, Nat.le_refl 0, rfl, here⟩
  | cons x ahead ih =>
    rw [findFrom_cons, Option.or_eq_some_iff, Option.map_eq_some_iff] at found
    rcases found with ⟨stop, here, rfl⟩ | ⟨-, later⟩
    · exact ⟨0, Nat.zero_le _, rfl, here⟩
    · obtain ⟨m, le, start, here⟩ := ih later
      exact ⟨m + 1, Nat.succ_le_succ le, by rw [start, Cursor.forward_cons], here⟩

/-- Every step ends further on in the same text. -/
def Advances (step : Cursor → Option Cursor) : Prop :=
  ∀ c d, step c = some d → ∃ n, 0 < n ∧ n ≤ c.ahead.length ∧ d = c.forward n

theorem Advances.findFrom (advances : Advances step) {behind ahead : List Char}
    (found : findFrom step behind ahead = some o) :
    ∃ n, 0 < n ∧ n ≤ ahead.length ∧ o.stop = (Cursor.mk behind ahead).forward n := by
  obtain ⟨m, le, start, here⟩ := exists_forward_of_findFrom found
  obtain ⟨n, pos, le', stop⟩ := advances _ _ here
  rw [start, Cursor.length_ahead_forward] at le'
  dsimp only at le'
  refine ⟨m + n, Nat.add_pos_right m pos, by omega, ?_⟩
  rw [stop, start, Cursor.forward_forward]

/-- The occurrences from a place on, each the first behind the one before it. -/
inductive Finds (step : Cursor → Option Cursor) : Cursor → List Occurrence → Prop
  | none {c : Cursor} (nothing : findFrom step c.behind c.ahead = none) : Finds step c []
  | next {c : Cursor} {o : Occurrence} {os : List Occurrence}
      (found : findFrom step c.behind c.ahead = some o) (rest : Finds step o.stop os) :
      Finds step c (o :: os)

theorem Finds.of_findFrom {d : Cursor} (h : Finds step c os)
    (same : findFrom step d.behind d.ahead = findFrom step c.behind c.ahead) : Finds step d os := by
  cases h with
  | none nothing => exact .none (same.trans nothing)
  | next found rest => exact .next (same.trans found) rest

theorem Advances.exists_finds (advances : Advances step) (c : Cursor) : ∃ os, Finds step c os := by
  induction length : c.ahead.length using Nat.strongRecOn generalizing c with
  | ind n ih =>
    cases found : Search.findFrom step c.behind c.ahead with
    | none => exact ⟨[], .none found⟩
    | some o =>
      obtain ⟨m, pos, le, stop⟩ := advances.findFrom found
      have shorter : o.stop.ahead.length < n := by
        rw [stop, Cursor.length_ahead_forward]
        dsimp only
        omega
      obtain ⟨os, rest⟩ := ih _ shorter o.stop rfl
      exact ⟨o :: os, .next found rest⟩

/-- As many rounds as there are characters ahead are enough to collect all occurrences. -/
theorem Finds.collectFrom (advances : Advances step) (h : Finds step c os) {rounds : List Char}
    (enough : c.ahead.length ≤ rounds.length) (found : List Occurrence) :
    collectFrom step rounds c found = os.reverse ++ found := by
  induction h generalizing rounds found with
  | none nothing =>
    cases rounds with
    | nil => rfl
    | cons x rounds => rw [Search.collectFrom, nothing]; rfl
  | next here rest ih =>
    obtain ⟨n, pos, le, stop⟩ := advances.findFrom here
    cases rounds with
    | nil =>
      rw [List.length_nil] at enough
      omega
    | cons x rounds =>
      have shorter := congrArg (fun d => d.ahead.length) stop
      rw [List.length_cons] at enough
      rw [Cursor.length_ahead_forward] at shorter
      dsimp only at shorter
      rw [Search.collectFrom, here]
      dsimp only
      rw [ih (by omega), List.reverse_cons, List.append_assoc]
      rfl

theorem Finds.all_eq {s : Search} {text : List Char}
    (advances : Advances (s.pattern.matchAt? s.ignoreCase))
    (h : Finds (s.pattern.matchAt? s.ignoreCase) (.start text) os) : s.all text = os := by
  have collected := h.collectFrom advances (Nat.le_refl text.length) []
  rw [all, collected, List.append_nil, List.reverse_reverse]

/-! ## Occurrences line by line -/

/-- What is around makes no difference to a step. -/
def Ignores (left right : List Char) (step : Cursor → Option Cursor) : Prop :=
  ∀ c, step (c.within left right) = (step c).map (·.within left right)

/-- Behind other lines the first success is the one at the beginning of a text. -/
theorem Ignores.findFrom_after (ignores : Ignores left [] step) (behind ahead : List Char) :
    findFrom step (behind ++ left) ahead =
      (findFrom step behind ahead).map (·.within left []) := by
  induction ahead generalizing behind with
  | nil =>
    have here := ignores ⟨behind, []⟩
    rw [Cursor.within_nil_right] at here
    simp [findFrom, here, Function.comp_def, Occurrence.within]
  | cons x ahead ih =>
    have here := ignores ⟨behind, x :: ahead⟩
    have later := ih (x :: behind)
    rw [Cursor.within_nil_right] at here
    rw [List.cons_append] at later
    simp [findFrom_cons, here, later, Option.map_or, Function.comp_def, Occurrence.within]

/-- Before other lines the first success is the one before the end of a text, or else one behind
the line feed. -/
theorem Ignores.findFrom_before {lines : List Char} (ignores : Ignores [] ('\n' :: lines) step)
    (behind ahead : List Char) :
    findFrom step behind (ahead ++ '\n' :: lines) =
      ((findFrom step behind ahead).map (·.within [] ('\n' :: lines))).or
        (findFrom step ('\n' :: (ahead.reverse ++ behind)) lines) := by
  induction ahead generalizing behind with
  | nil =>
    have here := ignores ⟨behind, []⟩
    rw [Cursor.within_nil_left] at here
    simp only [List.nil_append] at here
    simp [findFrom_cons, findFrom, here, Function.comp_def, Occurrence.within]
  | cons x ahead ih =>
    have here := ignores ⟨behind, x :: ahead⟩
    rw [Cursor.within_nil_left, List.cons_append] at here
    simp [findFrom_cons, here, ih, Option.map_or, Function.comp_def, Occurrence.within,
      Option.or_assoc]

theorem Finds.after (ignores : Ignores left [] step) (h : Finds step c os) :
    Finds step (c.within left []) (os.map (·.within left [])) := by
  induction h with
  | none nothing =>
    apply Finds.none
    rw [Cursor.within_nil_right, ignores.findFrom_after, nothing]
    rfl
  | @next c o os found rest ih =>
    refine Finds.next (o := o.within left []) ?_ ih
    rw [Cursor.within_nil_right, ignores.findFrom_after, found]
    rfl

theorem Finds.before {lines : List Char} {later : List Occurrence} (advances : Advances step)
    (ignores : Ignores [] ('\n' :: lines) step) (h : Finds step c os)
    (rest : Finds step ⟨'\n' :: c.text.reverse, lines⟩ later) :
    Finds step (c.within [] ('\n' :: lines))
      (os.map (·.within [] ('\n' :: lines)) ++ later) := by
  have behind (c : Cursor) : c.text.reverse = c.ahead.reverse ++ c.behind := by
    rw [Cursor.text, List.reverse_append, List.reverse_reverse]
  induction h with
  | @none c nothing =>
    -- Nothing more before the line feed: the search passes on to what lies behind it.
    refine rest.of_findFrom ?_
    rw [Cursor.within_nil_left, ignores.findFrom_before, nothing, behind]
    rfl
  | @next c o os found _ ih =>
    obtain ⟨n, -, -, stop⟩ := advances.findFrom found
    refine Finds.next (o := o.within [] ('\n' :: lines)) ?_ (ih ?_)
    · rw [Cursor.within_nil_left, ignores.findFrom_before, found]
      rfl
    · rwa [stop, Cursor.text_forward]

/-- The occurrences before a line feed come first, and then those after it. -/
theorem all_append_line (s : Search) (stays : s.pattern.staysInLine s.ignoreCase = true)
    (takes : 0 < s.pattern.fewest) (first rest : List Char) :
    s.all (first ++ '\n' :: rest) =
      (s.all first).map (·.within [] ('\n' :: rest)) ++
        (s.all rest).map (·.within ('\n' :: first.reverse) []) := by
  have advances : Advances (s.pattern.matchAt? s.ignoreCase) := by
    intro c d found
    obtain ⟨n, ge, le, stop⟩ := Pattern.matchAt?_takes found
    exact ⟨n, Nat.lt_of_lt_of_le takes ge, le, stop⟩
  obtain ⟨os, finds⟩ := advances.exists_finds (.start first)
  obtain ⟨os', finds'⟩ := advances.exists_finds (.start rest)
  have ignores : Ignores ('\n' :: first.reverse) [] (s.pattern.matchAt? s.ignoreCase) :=
    Pattern.matchAt?_within ⟨.inr ⟨_, rfl⟩, .inl rfl⟩ stays
  have behind := finds'.after ignores
  rw [Cursor.within_nil_right] at behind
  have whole := finds.before advances
    (Pattern.matchAt?_within ⟨.inl rfl, .inr ⟨_, rfl⟩⟩ stays) behind
  rw [Cursor.within_nil_left] at whole
  rw [finds.all_eq advances, finds'.all_eq advances]
  exact whole.all_eq advances

end Search

end PackageRisk
