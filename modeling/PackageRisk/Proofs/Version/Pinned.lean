import PackageRisk.Proofs.Text.Words
import PackageRisk.Proofs.Version.Order

/-!
# Requests that list versions

A request may list full versions, each with blanks around it and a letter v in front if need be,
separated by double bars. Blanks and letters do not change what is listed, and the range that such
a request denotes has one alternative for each version: compatibility with it.
-/

namespace PackageRisk

namespace Version

variable {s rest : List Char} {n : Nat} {c : Char} {v : Version}

/-- The characters that versions are written with. -/
def isVersionChar (c : Char) : Bool :=
  isIdentifierChar c || c == '.' || c == '+'

theorem isVersionChar_of_isDigit (h : c.isDigit = true) : isVersionChar c = true := by
  simp [isVersionChar, isIdentifierChar, Char.isAlphanum, h]

theorem toNat_of_isVersionChar (h : isVersionChar c = true) : 43 ≤ c.toNat ∧ c.toNat ≤ 122 := by
  simp only [isVersionChar, isIdentifierChar, Bool.or_eq_true, beq_iff_eq] at h
  rcases h with ((h | rfl) | rfl) | rfl
  · delta Char.isAlphanum Char.isAlpha Char.isUpper Char.isLower at h
    simp only [Char.isDigit, Bool.or_eq_true, Bool.and_eq_true, decide_eq_true_eq,
      UInt32.le_iff_toNat_le, ge_iff_le] at h
    change (('A'.val.toNat ≤ c.toNat ∧ c.toNat ≤ 'Z'.val.toNat ∨
      'a'.val.toNat ≤ c.toNat ∧ c.toNat ≤ 'z'.val.toNat) ∨
      '0'.val.toNat ≤ c.toNat ∧ c.toNat ≤ '9'.val.toNat) at h
    have : 'A'.val.toNat = 65 ∧ 'Z'.val.toNat = 90 ∧ 'a'.val.toNat = 97 ∧ 'z'.val.toNat = 122 ∧
      '0'.val.toNat = 48 ∧ '9'.val.toNat = 57 := by decide
    omega
  all_goals decide

theorem not_isBlank_of_isVersionChar (h : isVersionChar c = true) : Text.isBlank c = false := by
  have range := toNat_of_isVersionChar h
  rw [← Bool.not_eq_true]
  simp only [Text.isBlank, Bool.or_eq_true, Bool.and_eq_true, decide_eq_true_eq, beq_iff_eq]
  omega

theorem ne_bar_of_isVersionChar (h : isVersionChar c = true) : c ≠ '|' := by
  rintro rfl
  exact absurd (toNat_of_isVersionChar h).2 (by decide)

/-- A number is read off the digits in front. -/
theorem versionNumber?_eq_some (h : versionNumber? s = some (n, rest)) :
    ∃ c digits, s = c :: digits ++ rest ∧ c.isDigit = true ∧ ∀ d ∈ digits, d.isDigit = true := by
  simp only [versionNumber?] at h
  split at h
  · simp at h
  · rename_i some_digit
    split at h
    · simp at h
    · split at h
      · simp at h
      · obtain ⟨-, rfl⟩ := Prod.mk.inj (Option.some.inj h)
        match found : s.takeWhile Char.isDigit with
        | [] => simp [found] at some_digit
        | c :: digits =>
          have all : ∀ d ∈ c :: digits, d.isDigit = true := by
            rw [← found]
            exact List.all_eq_true.mp List.all_takeWhile
          refine ⟨c, digits, ?_, all c (by simp), fun d hd => all d (by simp [hd])⟩
          rw [← found, List.takeWhile_append_dropWhile]

/-- Identifiers are read off characters that versions are written with. -/
theorem markedIdentifiers?_eq_some {mark : Char} {leadingZeros : Bool} {parts : List (List Char)}
    (h : markedIdentifiers? mark leadingZeros s = some (parts, rest))
    (marked : isVersionChar mark = true) :
    ∃ read, s = read ++ rest ∧ ∀ d ∈ read, isVersionChar d = true := by
  cases s with
  | nil =>
    obtain ⟨-, rfl⟩ := Prod.mk.inj (Option.some.inj h)
    exact ⟨[], rfl, by simp⟩
  | cons c s =>
    simp only [markedIdentifiers?] at h
    split at h
    · rename_i same
      simp only [identifiers?] at h
      split at h
      · simp at h
      · split at h
        · simp at h
        · obtain ⟨-, rfl⟩ := Prod.mk.inj (Option.some.inj h)
          refine ⟨c :: s.takeWhile fun c => isIdentifierChar c || c == '.', ?_, ?_⟩
          · rw [List.cons_append, List.takeWhile_append_dropWhile]
          · intro d hd
            rcases List.mem_cons.mp hd with rfl | hd
            · exact same ▸ marked
            · have identifier := List.all_eq_true.mp List.all_takeWhile d hd
              simp only [isVersionChar, identifier, Bool.true_or]
    · obtain ⟨-, rfl⟩ := Prod.mk.inj (Option.some.inj h)
      exact ⟨[], rfl, by simp⟩

theorem afterDot?_eq_some (h : afterDot? s = some rest) : s = '.' :: rest := by
  unfold afterDot? at h
  split at h
  · rw [Option.some.inj h]
  · simp at h

/-- The parts of a version and what is left after each of them. -/
theorem parse?_eq_some (h : parse? s = some v) :
    ∃ s₁ s₂ s₃ s₄, versionNumber? s = some (v.major, '.' :: s₁) ∧
      versionNumber? s₁ = some (v.minor, '.' :: s₂) ∧ versionNumber? s₂ = some (v.patch, s₃) ∧
      markedIdentifiers? '-' false s₃ = some (v.pre, s₄) ∧
      markedIdentifiers? '+' true s₄ = some (v.build, []) := by
  simp only [parse?, Option.bind_eq_bind, Option.bind_eq_some_iff, Prod.exists] at h
  obtain ⟨major, r₁, major?, s₁, dot₁, minor, r₂, minor?, s₂, dot₂, patch, s₃, patch?, pre, s₄,
    pre?, build, s₅, build?, done⟩ := h
  split at done
  · rename_i empty
    obtain rfl := List.isEmpty_iff.mp empty
    obtain rfl := Option.some.inj done
    rw [afterDot?_eq_some dot₁] at major?
    rw [afterDot?_eq_some dot₂] at minor?
    exact ⟨s₁, s₂, s₃, s₄, major?, minor?, patch?, pre?, build?⟩
  · simp at done

theorem isVersionChar_of_number (h : versionNumber? s = some (n, rest))
    (later : ∀ d ∈ rest, isVersionChar d = true) : ∀ d ∈ s, isVersionChar d = true := by
  obtain ⟨c, digits, rfl, first, others⟩ := versionNumber?_eq_some h
  intro d hd
  simp only [List.cons_append, List.mem_cons, List.mem_append] at hd
  rcases hd with rfl | hd | hd
  · exact isVersionChar_of_isDigit first
  · exact isVersionChar_of_isDigit (others d hd)
  · exact later d hd

/-- A version is written without blanks and bars. -/
theorem isVersionChar_of_parse? (h : parse? s = some v) : ∀ d ∈ s, isVersionChar d = true := by
  obtain ⟨s₁, s₂, s₃, s₄, major?, minor?, patch?, pre?, build?⟩ := parse?_eq_some h
  obtain ⟨read, rfl, build⟩ := markedIdentifiers?_eq_some build? (by decide)
  obtain ⟨read', rfl, pre⟩ := markedIdentifiers?_eq_some pre? (by decide)
  have marked : ∀ d ∈ read' ++ (read ++ []), isVersionChar d = true := by
    simp only [List.append_nil, List.mem_append]
    exact fun d hd => hd.elim (pre d) (build d)
  have dotted {t : List Char} (h : ∀ d ∈ t, isVersionChar d = true) :
      ∀ d ∈ '.' :: t, isVersionChar d = true :=
    List.forall_mem_cons.mpr ⟨by decide, h⟩
  exact isVersionChar_of_number major? <| dotted <| isVersionChar_of_number minor? <| dotted <|
    isVersionChar_of_number patch? marked

theorem exists_digit_of_parse? (h : parse? s = some v) :
    ∃ c rest, s = c :: rest ∧ c.isDigit = true := by
  obtain ⟨s₁, -, -, -, major?, -⟩ := parse?_eq_some h
  obtain ⟨c, digits, rfl, first, -⟩ := versionNumber?_eq_some major?
  exact ⟨c, digits ++ '.' :: s₁, rfl, first⟩

end Version

/-! ## A version as a requirement -/

namespace Comparator

variable {s rest : List Char} {n : Nat} {v : Version}

/-- What a version written without an operator asks for. -/
def compatibleWith (v : Version) : Comparator :=
  ⟨.caret, v.major, some v.minor, some v.patch, v.pre⟩

theorem read_digit {c : Char} (digit : c.isDigit = true) :
    ComparisonOp.read (c :: s) = (none, c :: s) := by
  unfold ComparisonOp.read
  split <;> simp_all

theorem afterWildcard?_digit {c : Char} (digit : c.isDigit = true) :
    afterWildcard? (c :: s) = none := by
  unfold afterWildcard?
  split <;> simp_all

theorem skipSpaces_digit {c : Char} (digit : c.isDigit = true) :
    skipSpaces (c :: s) = c :: s := by
  have nonspace : c ≠ ' ' := by
    rintro rfl
    simp at digit
  simp [skipSpaces, nonspace]

theorem readPart_number (h : versionNumber? s = some (n, rest)) :
    ComparatorPart.read? ('.' :: s) = some (.number n, rest) := by
  obtain ⟨c, digits, rfl, digit, -⟩ := Version.versionNumber?_eq_some h
  simp only [List.cons_append] at h ⊢
  rw [ComparatorPart.read?, afterWildcard?_digit digit, h]
  rfl

theorem read?_version (h : Version.parse? s = some v) :
    Comparator.read? s = some (compatibleWith v, []) := by
  obtain ⟨c, rest, rfl, digit⟩ := Version.exists_digit_of_parse? h
  obtain ⟨s₁, s₂, s₃, s₄, major?, minor?, patch?, pre?, build?⟩ := Version.parse?_eq_some h
  have minorPart := readPart_number minor?
  have patchPart := readPart_number patch?
  rw [Comparator.read?, read_digit digit]
  simp only [skipSpaces_digit digit, major?, Option.bind_eq_bind, Option.bind_some, minorPart,
    patchPart]
  simp [ComparatorPart.number?, pre?, build?, compatibleWith, skipSpaces]

theorem parse?_version (h : Version.parse? s = some v) :
    Requirement.parse? s = some ⟨[compatibleWith v]⟩ := by
  have read := read?_version h
  obtain ⟨c, rest, rfl, digit⟩ := Version.exists_digit_of_parse? h
  rw [Requirement.parse?, skipSpaces_digit digit, afterWildcard?_digit digit]
  simp [maxComparators, comparators?, read]

end Comparator

/-! ## What a bare version admits -/

namespace Version

variable {pinned v : Version}

/-- Not before the pinned version, build metadata apart, and equal to it up to its first number
other than zero; a pre-release only if the pinned version is one of the same three numbers. -/
structure Compatible (pinned v : Version) : Prop where
  major : v.major = pinned.major
  minor : pinned.major = 0 → v.minor = pinned.minor
  patch : pinned.major = 0 → pinned.minor = 0 → v.patch = pinned.patch
  notBefore : (pinned.cmp { v with build := pinned.build }).isLE = true
  release : v.pre = [] ∨ pinned.pre ≠ [] ∧ v.minor = pinned.minor ∧ v.patch = pinned.patch

theorem isLE_cmp_iff :
    (pinned.cmp { v with build := pinned.build }).isLE = true ↔
      pinned.major < v.major ∨ pinned.major = v.major ∧
        (pinned.minor < v.minor ∨ pinned.minor = v.minor ∧
          (pinned.patch < v.patch ∨ pinned.patch = v.patch ∧
            (comparePre pinned.pre v.pre).isLE = true)) := by
  have build : List.compareLex compareBuildIdentifier pinned.build pinned.build = .eq :=
    Std.ReflCmp.compare_self
  simp only [cmp, compareLists_eq, build, Ordering.then_eq, Ordering.isLE_then_iff_or,
    Nat.compare_eq_lt, Nat.compare_eq_eq]

theorem preAtLeast_compatibleWith (pinned v : Version) :
    (Comparator.compatibleWith pinned).preAtLeast v = (comparePre pinned.pre v.pre).isLE := by
  have swap : comparePre v.pre pinned.pre = (comparePre pinned.pre v.pre).swap :=
    Std.OrientedCmp.eq_swap
  rw [Comparator.preAtLeast, Comparator.compatibleWith, swap]
  cases comparePre pinned.pre v.pre <;> rfl

theorem matchesCaret_compatibleWith :
    (Comparator.compatibleWith pinned).matchesCaret v = true ↔
      v.major = pinned.major ∧ (pinned.major = 0 → v.minor = pinned.minor) ∧
        (pinned.major = 0 → pinned.minor = 0 → v.patch = pinned.patch) ∧
        (pinned.cmp { v with build := pinned.build }).isLE = true := by
  have atLeast := preAtLeast_compatibleWith pinned v
  rw [isLE_cmp_iff]
  simp only [Comparator.matchesCaret, Comparator.compatibleWith] at atLeast ⊢
  rw [atLeast]
  generalize (comparePre pinned.pre v.pre).isLE = le
  by_cases major : v.major = pinned.major
  · by_cases first : 0 < pinned.major
    · grind
    · by_cases second : 0 < pinned.minor <;> grind
  · simp [major]

/-- A version without an operator admits what is compatible with it. -/
theorem admits_compatibleWith :
    (Requirement.mk [Comparator.compatibleWith pinned]).admits v = true ↔ Compatible pinned v := by
  have caret : (Comparator.compatibleWith pinned).admits v =
      (Comparator.compatibleWith pinned).matchesCaret v := rfl
  have invites : (Comparator.compatibleWith pinned).invitesPre v = true ↔
      pinned.major = v.major ∧ pinned.minor = v.minor ∧ pinned.patch = v.patch ∧
        pinned.pre ≠ [] := by
    simp [Comparator.invitesPre, Comparator.compatibleWith, and_assoc]
  simp only [Requirement.admits, List.all_cons, List.all_nil, List.any_cons, List.any_nil,
    Bool.and_true, Bool.or_false, Bool.and_eq_true, Bool.or_eq_true, List.isEmpty_iff, caret,
    matchesCaret_compatibleWith, invites]
  constructor
  · rintro ⟨⟨major, minor, patch, notBefore⟩, release⟩
    refine ⟨major, minor, patch, notBefore, release.imp_right ?_⟩
    exact fun ⟨_, second, third, pre⟩ => ⟨pre, second.symm, third.symm⟩
  · rintro ⟨major, minor, patch, notBefore, release⟩
    refine ⟨⟨major, minor, patch, notBefore⟩, release.imp_right ?_⟩
    exact fun ⟨pre, second, third⟩ => ⟨major.symm, second.symm, third.symm, pre⟩

theorem Compatible.refl (pinned : Version) : Compatible pinned pinned where
  major := rfl
  minor _ := rfl
  patch _ _ := rfl
  notBefore := by
    rw [cmp_self]
    rfl
  release := by
    by_cases h : pinned.pre = []
    · exact .inl h
    · exact .inr ⟨h, rfl, rfl⟩

end Version

/-! ## Bars and blanks -/

theorem Range.splitBars_append {part : List Char} (unbarred : ∀ c ∈ part, c ≠ '|')
    (rest : List Char) :
    Range.splitBars (part ++ '|' :: '|' :: rest) = part :: Range.splitBars rest := by
  induction part with
  | nil => rfl
  | cons c part ih =>
    obtain ⟨first, others⟩ := List.forall_mem_cons.mp unbarred
    have step := ih others
    rw [List.cons_append, Range.splitBars]
    · rw [step]
    · intro rest' h
      exact absurd h first

theorem Range.splitBars_unbarred {part : List Char} (unbarred : ∀ c ∈ part, c ≠ '|') :
    Range.splitBars part = [part] := by
  induction part with
  | nil => rfl
  | cons c part ih =>
    obtain ⟨first, others⟩ := List.forall_mem_cons.mp unbarred
    rw [Range.splitBars, ih others]
    intro rest' h
    exact absurd h first

/-- Double bars separate the parts that they were put between. -/
theorem Range.splitBars_join {parts : List (List Char)} (some_part : parts ≠ [])
    (unbarred : ∀ part ∈ parts, ∀ c ∈ part, c ≠ '|') :
    Range.splitBars (Text.join ['|', '|'] parts) = parts := by
  induction parts with
  | nil => exact absurd rfl some_part
  | cons part parts ih =>
    obtain ⟨first, others⟩ := List.forall_mem_cons.mp unbarred
    cases parts with
    | nil => exact splitBars_unbarred first
    | cons next parts =>
      have split := splitBars_append first (Text.join ['|', '|'] (next :: parts))
      rw [ih (List.cons_ne_nil next parts) others] at split
      simpa [Text.join] using split

end PackageRisk
