import PackageRisk.Proofs.Version.Pinned

/-!
# Comparators in a range

What an alternative of a range denotes depends on its words only. The requirement made of them is
read one comparator after the other, and none reaches beyond its comma, so a piece that no
comparator begins with keeps the whole requirement from being read, wherever it stands.
-/

namespace PackageRisk

/-! ## What readers leave -/

/-- The second text is what is left of the first one after a part without commas. -/
def LeavesOf (s rest : List Char) : Prop :=
  ∃ read, s = read ++ rest ∧ ',' ∉ read

namespace LeavesOf

variable {s t u rest : List Char}

theorem refl (s : List Char) : LeavesOf s s :=
  ⟨[], rfl, by simp⟩

theorem trans (h : LeavesOf s t) (h' : LeavesOf t u) : LeavesOf s u := by
  obtain ⟨read, rfl, free⟩ := h
  obtain ⟨read', rfl, free'⟩ := h'
  exact ⟨read ++ read', by simp, by simp [free, free']⟩

theorem cons {c : Char} (other : c ≠ ',') (h : LeavesOf s rest) : LeavesOf (c :: s) rest := by
  obtain ⟨read, rfl, free⟩ := h
  exact ⟨c :: read, rfl, by simp [free, Ne.symm other]⟩

theorem dropWhile {drop : Char → Bool} (kept : drop ',' = false) (s : List Char) :
    LeavesOf s (s.dropWhile drop) := by
  refine ⟨s.takeWhile drop, List.takeWhile_append_dropWhile.symm, fun comma => ?_⟩
  have dropped := List.all_eq_true.mp List.all_takeWhile _ comma
  simp [kept] at dropped

theorem skipSpaces (s : List Char) : LeavesOf s (skipSpaces s) :=
  dropWhile (by decide) s

theorem readOp (s : List Char) : LeavesOf s (ComparisonOp.read s).2 := by
  unfold ComparisonOp.read
  split
  case h_2 | h_4 => exact ((refl _).cons (by decide)).cons (by decide)
  case h_8 => exact refl s
  all_goals exact (refl _).cons (by decide)

theorem afterWildcard (h : afterWildcard? s = some rest) : LeavesOf s rest := by
  unfold afterWildcard? at h
  split at h
  · exact Option.some.inj h ▸ (refl _).cons (by decide)
  · exact Option.some.inj h ▸ (refl _).cons (by decide)
  · exact Option.some.inj h ▸ (refl _).cons (by decide)
  · cases h

theorem versionNumber {n : Nat} (h : versionNumber? s = some (n, rest)) : LeavesOf s rest := by
  obtain ⟨c, digits, rfl, first, others⟩ := Version.versionNumber?_eq_some h
  have digit : ∀ d ∈ c :: digits, d.isDigit = true := List.forall_mem_cons.mpr ⟨first, others⟩
  exact ⟨c :: digits, rfl, fun comma => absurd (digit _ comma) (by decide)⟩

theorem readPart {part : ComparatorPart} (h : ComparatorPart.read? s = some (part, rest)) :
    LeavesOf s rest := by
  unfold ComparatorPart.read? at h
  split at h
  · refine cons (by decide) ?_
    split at h
    · rename_i wild
      obtain ⟨-, rfl⟩ := Prod.mk.inj (Option.some.inj h)
      exact afterWildcard wild
    · obtain ⟨⟨n, rest'⟩, number, eq⟩ := Option.map_eq_some_iff.mp h
      obtain ⟨-, rfl⟩ := Prod.mk.inj eq
      exact versionNumber number
  · obtain ⟨-, rfl⟩ := Prod.mk.inj (Option.some.inj h)
    exact refl _

theorem markedIdentifiers {mark : Char} {leadingZeros : Bool} {parts : List (List Char)}
    (h : markedIdentifiers? mark leadingZeros s = some (parts, rest))
    (marked : Version.isVersionChar mark = true) : LeavesOf s rest := by
  obtain ⟨read, rfl, all⟩ := Version.markedIdentifiers?_eq_some h marked
  exact ⟨read, rfl, fun comma => absurd (all _ comma) (by decide)⟩

/-- A comma is left where it was. -/
theorem comma_mem (h : LeavesOf s rest) (comma : ',' ∈ s) : ',' ∈ rest := by
  obtain ⟨read, rfl, free⟩ := h
  exact (List.mem_append.mp comma).resolve_left free

/-- A comparator does not reach beyond a comma. -/
theorem readComparator {c : Comparator} (h : Comparator.read? s = some (c, rest)) :
    LeavesOf s rest := by
  simp only [Comparator.read?, Option.bind_eq_bind, Option.bind_eq_some_iff, Prod.exists] at h
  obtain ⟨major, s₁, major?, minor, s₂, minor?, patch, s₃, patch?, h⟩ := h
  have numbers : LeavesOf s s₃ :=
    (readOp s).trans <| (skipSpaces _).trans <| (versionNumber major?).trans <|
      (readPart minor?).trans (readPart patch?)
  split at h
  · cases h
  · by_cases full : patch.number?.isSome = true
    · simp only [full, if_true, Option.bind_eq_some_iff, Prod.exists] at h
      obtain ⟨pre, s₄, pre?, build, s₅, build?, done⟩ := h
      obtain ⟨-, rfl⟩ := Prod.mk.inj (Option.some.inj done)
      exact numbers.trans <| (markedIdentifiers pre? (by decide)).trans <|
        (markedIdentifiers build? (by decide)).trans (skipSpaces _)
    · simp only [full, Option.bind_some] at h
      obtain ⟨-, rfl⟩ := Prod.mk.inj (Option.some.inj h)
      exact numbers.trans (skipSpaces _)

end LeavesOf

/-! ## Requirements made of pieces -/

variable {before after piece : List Char} {room : Nat} {read : List Comparator}

theorem skipSpaces_before_comma (before after : List Char) :
    skipSpaces (before ++ ',' :: after) = skipSpaces before ++ ',' :: after := by
  rw [skipSpaces, List.dropWhile_append]
  split
  · rename_i blank
    rw [skipSpaces, List.isEmpty_iff.mp blank]
    rfl
  · rfl

/-- What follows a comma is read by itself. -/
theorem comparators?_after_comma (h : comparators? room (before ++ ',' :: after) = some read) :
    ∃ room' read', comparators? room' (skipSpaces after) = some read' := by
  induction room generalizing before read with
  | zero => cases h
  | succ room ih =>
    rw [comparators?] at h
    split at h
    · cases h
    · rename_i c last
      have comma := (LeavesOf.readComparator last).comma_mem (by simp)
      simp at comma
    · rename_i c rest first
      obtain ⟨start, whole, free⟩ := LeavesOf.readComparator first
      obtain ⟨read', others, -⟩ := Option.map_eq_some_iff.mp h
      -- The comma after the first comparator is this one or one before it.
      rcases List.append_eq_append_iff.mp whole with ⟨part, rfl, split⟩ | ⟨part, rfl, split⟩
      · cases part with
        | nil =>
          obtain ⟨-, rfl⟩ := List.cons.inj split
          exact ⟨room, read', others⟩
        | cons d part =>
          obtain ⟨rfl, -⟩ := List.cons.inj split
          simp at free
      · cases part with
        | nil =>
          obtain ⟨-, rfl⟩ := List.cons.inj split
          exact ⟨room, read', others⟩
        | cons d part =>
          obtain ⟨rfl, rfl⟩ := List.cons.inj split
          have others : comparators? room (skipSpaces (part ++ ',' :: after)) = some read' := others
          rw [skipSpaces_before_comma] at others
          exact ih others
    · cases h

/-- A piece that no comparator begins with, whatever follows it. -/
structure Unreadable (piece : List Char) : Prop where
  tight : ∀ rest, skipSpaces (piece ++ rest) = piece ++ rest
  numbered : ∀ rest, afterWildcard? (piece ++ rest) = none
  refused : ∀ rest, Comparator.read? (piece ++ rest) = none

theorem Unreadable.comparators?_eq_none (h : Unreadable piece) (room : Nat) (rest : List Char) :
    comparators? room (piece ++ rest) = none := by
  cases room with
  | zero => rfl
  | succ room => rw [comparators?, h.refused rest]

theorem Unreadable.parse?_eq_none (h : Unreadable piece) (rest : List Char) :
    Requirement.parse? (piece ++ rest) = none := by
  simp [Requirement.parse?, h.tight rest, h.numbered rest, h.comparators?_eq_none]

/-- No requirement is read from a text with an unreadable piece after a comma. -/
theorem Unreadable.parse?_after_comma_eq_none (h : Unreadable piece) (before rest : List Char) :
    Requirement.parse? (before ++ ',' :: ' ' :: (piece ++ rest)) = none := by
  rw [Requirement.parse?, skipSpaces_before_comma]
  cases wild : afterWildcard? (skipSpaces before ++ ',' :: ' ' :: (piece ++ rest)) with
  | some left =>
    -- A wildcard stands alone, but here the comma follows it.
    have comma : ',' ∈ skipSpaces left :=
      ((LeavesOf.afterWildcard wild).trans (LeavesOf.skipSpaces left)).comma_mem (by simp)
    exact if_neg fun blank => by simp [List.isEmpty_iff.mp blank] at comma
  | none =>
    refine Option.map_eq_none_iff.mpr (Option.eq_none_iff_forall_ne_some.mpr fun read found => ?_)
    obtain ⟨room, read', others⟩ := comparators?_after_comma found
    have spaced : skipSpaces (' ' :: (piece ++ rest)) = piece ++ rest :=
      (List.dropWhile_cons_of_pos rfl).trans (h.tight rest)
    rw [spaced, h.comparators?_eq_none] at others
    cases others

/-- A requirement made of pieces is not read if one of them is unreadable. -/
theorem parse?_join_eq_none {pieces : List (List Char)} (mem : piece ∈ pieces)
    (unreadable : Unreadable piece) :
    Requirement.parse? (Text.join [',', ' '] pieces) = none := by
  obtain ⟨front, back, rfl⟩ := List.append_of_mem mem
  obtain ⟨rest, joined⟩ := Text.prefix_join_cons [',', ' '] piece back
  rw [Text.join_append_cons, ← joined]
  rcases List.eq_nil_or_concat front with rfl | ⟨front, last, rfl⟩
  · exact unreadable.parse?_eq_none rest
  · simpa using unreadable.parse?_after_comma_eq_none (front.flatMap (· ++ [',', ' ']) ++ last) rest

/-! ## Pieces that are not read -/

theorem versionNumber?_eq_none {c : Char} (other : c.isDigit = false) (rest : List Char) :
    versionNumber? (c :: rest) = none := by
  simp [versionNumber?, other]

/-- After its operator a comparator has a number. -/
theorem Comparator.read?_eq_none {s rest : List Char} {op : Option ComparisonOp}
    (sign : ComparisonOp.read s = (op, rest))
    (unnumbered : versionNumber? (skipSpaces rest) = none) : Comparator.read? s = none := by
  simp [Comparator.read?, sign, unnumbered]

/-- A letter v or a hyphen stands for no number, after an operator as little as without one. -/
theorem unreadable_of_sign {sign : List Char} (mem : sign ∈ [] :: Range.operators) {c : Char}
    (other : c = 'v' ∨ c = '-') (rest : List Char) : Unreadable (sign ++ c :: rest) := by
  have front (tail : List Char) :
      skipSpaces (sign ++ c :: tail) = sign ++ c :: tail ∧
        afterWildcard? (sign ++ c :: tail) = none ∧
          ∃ op, ComparisonOp.read (sign ++ c :: tail) = (op, c :: tail) := by
    simp only [Range.operators, List.mem_cons, List.not_mem_nil, or_false] at mem
    rcases mem with rfl | rfl | rfl | rfl | rfl | rfl | rfl | rfl <;>
      rcases other with rfl | rfl <;> exact ⟨rfl, rfl, _, rfl⟩
  have unnumbered (tail : List Char) : versionNumber? (skipSpaces (c :: tail)) = none := by
    rcases other with rfl | rfl <;> exact versionNumber?_eq_none (by decide) tail
  have whole (tail : List Char) : sign ++ c :: rest ++ tail = sign ++ c :: (rest ++ tail) := by
    rw [List.append_assoc, List.cons_append]
  refine ⟨fun tail => ?_, fun tail => ?_, fun tail => ?_⟩ <;> rw [whole tail]
  · exact (front _).1
  · exact (front _).2.1
  · obtain ⟨op, read⟩ := (front (rest ++ tail)).2.2
    exact Comparator.read?_eq_none read (unnumbered _)

/-- No operator follows another one. -/
theorem unreadable_of_operators {op : List Char} (mem : op ∈ Range.operators) :
    Unreadable (['<', '='] ++ op) := by
  have unnumbered (tail : List Char) : versionNumber? (skipSpaces (op ++ tail)) = none := by
    simp only [Range.operators, List.mem_cons, List.not_mem_nil, or_false] at mem
    rcases mem with rfl | rfl | rfl | rfl | rfl | rfl | rfl <;>
      exact versionNumber?_eq_none (by decide) _
  have read (tail : List Char) :
      ComparisonOp.read (['<', '='] ++ op ++ tail) = (some .lessEq, op ++ tail) := rfl
  exact ⟨fun tail => rfl, fun tail => rfl, fun tail =>
    Comparator.read?_eq_none (read tail) (unnumbered tail)⟩

/-! ## Alternatives one by one -/

section MapM

variable {α β : Type} {f g : α → Option β} {items : List α}

theorem mapM_eq_none_iff : items.mapM f = none ↔ ∃ a ∈ items, f a = none := by
  induction items with
  | nil => simp
  | cons a items ih =>
    simp only [List.mapM_cons, List.mem_cons, exists_eq_or_imp, ← ih]
    cases f a <;> cases items.mapM f <;> simp

theorem mapM_congr (same : ∀ a ∈ items, f a = g a) : items.mapM f = items.mapM g := by
  induction items with
  | nil => rfl
  | cons a items ih =>
    obtain ⟨first, others⟩ := List.forall_mem_cons.mp same
    rw [List.mapM_cons, List.mapM_cons, first, ih others]

theorem mem_mapM_iff {results : List β} (all : items.mapM f = some results) {b : β} :
    b ∈ results ↔ ∃ a ∈ items, f a = some b := by
  induction items generalizing results with
  | nil =>
    obtain rfl := Option.some.inj all
    simp
  | cons a items ih =>
    rw [List.mapM_cons] at all
    obtain ⟨first, result, all⟩ := Option.bind_eq_some_iff.mp all
    obtain ⟨others, results', all⟩ := Option.bind_eq_some_iff.mp all
    obtain rfl := Option.some.inj all
    simp [ih results', result, eq_comm]

end MapM

/-! ## Words of an alternative -/

theorem Range.ne_bar_of_isBlank {c : Char} (blank : Text.isBlank c = true) : c ≠ '|' := by
  rintro rfl
  revert blank
  decide

/-- Without a hyphen between two words the words of an alternative are its comparators. -/
theorem Range.normalForm_of_words {alternative : List Char} {tokens : List (List Char)}
    (words : Text.words alternative = tokens) (some_word : tokens ≠ [])
    (unhyphened : ['-'] ∉ tokens) :
    normalForm alternative = Text.join [',', ' '] (attachOperators [] tokens) := by
  subst words
  unfold normalForm
  split
  · rename_i empty
    exact absurd empty some_word
  · rename_i hyphened
    simp [hyphened] at unhyphened
  · rfl

end PackageRisk
