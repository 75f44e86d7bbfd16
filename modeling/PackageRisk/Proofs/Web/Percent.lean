import Mathlib
import PackageRisk.Web.Url

/-!
# Percent decoding

A percent sign and two hexadecimal digits stand for a byte, everything else for its own UTF-8.
Texts that are encoded character by character, each as itself or as its bytes, decode to what the
text decodes to; and a text decodes to its own bytes exactly if it has no such escape.
-/

namespace PackageRisk.Percent

open Text (hexValue? upperHexDigit)

variable {a b c : Char} {s t rest : List Char}

/-- The bytes of a text. -/
def bytes (s : List Char) : List UInt8 :=
  s.flatMap String.utf8EncodeChar

/-- The byte that two hexadecimal digits stand for. -/
def pair? (a b : Char) : Option UInt8 := do
  return .ofNat (16 * (← hexValue? a) + (← hexValue? b))

/-- The bytes that a text stands for. -/
def decode : List Char → List UInt8
  | '%' :: a :: b :: rest =>
    match pair? a b with
    | some byte => byte :: decode rest
    | none => String.utf8EncodeChar '%' ++ decode (a :: b :: rest)
  | c :: rest => String.utf8EncodeChar c ++ decode rest
  | [] => []

/-- A text begins with two hexadecimal digits, or not. -/
def startsPair : List Char → Bool
  | a :: b :: _ => (pair? a b).isSome
  | _ => false

/-- Some percent sign of a text is followed by two hexadecimal digits. -/
def HasEscape (s : List Char) : Prop :=
  ∃ front rest, s = front ++ '%' :: rest ∧ startsPair rest = true

@[simp] theorem decode_nil : decode [] = [] := by rw [decode]

theorem decode_cons_of_ne (other : c ≠ '%') :
    decode (c :: rest) = String.utf8EncodeChar c ++ decode rest := by
  rw [decode]
  rintro a b rest rfl
  exact absurd rfl other

theorem decode_pair {byte : UInt8} (pair : pair? a b = some byte) :
    decode ('%' :: a :: b :: rest) = byte :: decode rest := by
  rw [decode, pair]

/-- A percent sign stands for itself where no two digits follow. -/
theorem decode_literal (single : startsPair rest = false) :
    decode ('%' :: rest) = String.utf8EncodeChar '%' ++ decode rest := by
  match rest, single with
  | [], _ => rw [decode]; simp
  | [a], _ => rw [decode]; simp
  | a :: b :: rest, single =>
    have none : pair? a b = none := by simpa [startsPair] using single
    rw [decode, none]

/-- A text is read as it is decoded: character by character, or a whole escape at once. -/
@[elab_as_elim]
theorem text_induction {motive : List Char → Prop} (nil : motive [])
    (plain : ∀ c rest, c ≠ '%' → motive rest → motive (c :: rest))
    (literal : ∀ rest, startsPair rest = false → motive rest → motive ('%' :: rest))
    (escape : ∀ a b rest byte, pair? a b = some byte → motive rest →
      motive ('%' :: a :: b :: rest)) (s : List Char) : motive s := by
  fun_induction decode s with
  | case1 a b rest byte pair ih => exact escape a b rest byte pair ih
  | case2 a b rest none ih => exact literal _ (by rw [startsPair, none]; rfl) ih
  | case3 c rest short ih =>
    by_cases percent : c = '%'
    · subst percent
      refine literal rest ?_ ih
      match rest, short with
      | [], _ => rfl
      | [a], _ => rfl
      | a :: b :: rest, short => exact absurd rfl (short a b rest rfl)
    · exact plain c rest percent ih
  | case4 => exact nil

theorem hasEscape_cons :
    HasEscape (c :: rest) ↔ (c = '%' ∧ startsPair rest = true) ∨ HasEscape rest := by
  constructor
  · rintro ⟨front, tail, split, pair⟩
    cases front with
    | nil =>
      obtain ⟨rfl, rfl⟩ := List.cons.inj split
      exact .inl ⟨rfl, pair⟩
    | cons d front =>
      exact .inr ⟨front, tail, (List.cons.inj split).2, pair⟩
  · rintro (⟨rfl, pair⟩ | ⟨front, tail, rfl, pair⟩)
    · exact ⟨[], rest, rfl, pair⟩
    · exact ⟨c :: front, tail, rfl, pair⟩

theorem not_hasEscape_nil : ¬ HasEscape [] := by
  rintro ⟨front, tail, split, -⟩
  exact absurd split (by simp)

theorem not_hasEscape_of_not_mem (none : '%' ∉ s) : ¬ HasEscape s := by
  rintro ⟨front, rest, rfl, -⟩
  exact none (List.mem_append_right front List.mem_cons_self)

@[simp] theorem bytes_nil : bytes [] = [] := rfl

@[simp] theorem bytes_cons : bytes (c :: s) = String.utf8EncodeChar c ++ bytes s := rfl

@[simp] theorem bytes_append : bytes (s ++ t) = bytes s ++ bytes t := List.flatMap_append

/-- Different texts have different bytes. -/
theorem bytes_injective : Function.Injective bytes := by
  intro s t same
  have encoded : s.utf8Encode = t.utf8Encode := congrArg List.toByteArray same
  have read := congrArg ByteArray.utf8Decode? encoded
  rw [List.utf8Decode?_utf8Encode, List.utf8Decode?_utf8Encode] at read
  exact List.toArray_inj (Option.some.inj read)

theorem length_utf8EncodeChar_pos (c : Char) : 0 < (String.utf8EncodeChar c).length :=
  List.length_pos_iff.mpr String.utf8EncodeChar_ne_nil

/-- Decoding never lengthens a text, and an escape makes it shorter. -/
theorem length_decode (s : List Char) :
    (decode s).length ≤ (bytes s).length ∧
      (HasEscape s → (decode s).length < (bytes s).length) := by
  induction s using text_induction with
  | nil => exact ⟨Nat.le_refl _, fun escape => absurd escape not_hasEscape_nil⟩
  | plain c rest other ih =>
    rw [decode_cons_of_ne other, bytes_cons, hasEscape_cons]
    simp only [other, false_and, false_or, List.length_append]
    exact ⟨by omega, fun escape => by have := ih.2 escape; omega⟩
  | literal rest single ih =>
    rw [decode_literal single, bytes_cons, hasEscape_cons, single]
    simp only [Bool.false_eq_true, and_false, false_or, List.length_append]
    exact ⟨by omega, fun escape => by have := ih.2 escape; omega⟩
  | escape a b rest byte pair ih =>
    have first := length_utf8EncodeChar_pos '%'
    have second := length_utf8EncodeChar_pos a
    rw [decode_pair pair]
    simp only [bytes_cons, List.length_append, List.length_cons]
    omega

/-- A text without escapes stands for its own bytes. -/
theorem decode_of_not_hasEscape (none : ¬ HasEscape s) : decode s = bytes s := by
  induction s using text_induction with
  | nil => rw [decode_nil, bytes_nil]
  | plain c rest other ih =>
    rw [decode_cons_of_ne other, bytes_cons,
      ih fun escape => none (hasEscape_cons.mpr (.inr escape))]
  | literal rest single ih =>
    rw [decode_literal single, bytes_cons, ih fun escape => none (hasEscape_cons.mpr (.inr escape))]
  | escape a b rest byte pair ih =>
    exact absurd (hasEscape_cons.mpr (.inl ⟨rfl, by rw [startsPair, pair]; rfl⟩)) none

/-- A text stands for its own bytes exactly if it has no escape. -/
theorem decode_eq_bytes_iff : decode s = bytes s ↔ ¬ HasEscape s := by
  refine ⟨fun same escape => ?_, decode_of_not_hasEscape⟩
  exact absurd (congrArg List.length same) (Nat.ne_of_lt ((length_decode s).2 escape))

/-- Without percent signs a text stands for itself, whatever follows it. -/
theorem decode_append_of_not_mem (none : '%' ∉ s) (t : List Char) :
    decode (s ++ t) = bytes s ++ decode t := by
  induction s with
  | nil => rfl
  | cons c s ih =>
    obtain ⟨other, none⟩ := not_or.mp (mt List.mem_cons.mpr none)
    rw [List.cons_append, decode_cons_of_ne (Ne.symm other), ih none, bytes_cons,
      List.append_assoc]

theorem length_bytes_le (part : s.Sublist t) : (bytes s).length ≤ (bytes t).length :=
  (part.flatMap _).length_le

/-- A way to write characters that decoding undoes: digits and the percent sign are written as they
are, and anything else as something that stands for its bytes and does not begin with a digit. -/
structure Faithful (write : Char → List Char) : Prop where
  percent : write '%' = ['%']
  digit : ∀ c n, hexValue? c = some n → write c = [c]
  other : ∀ c, hexValue? c = none → ∃ d more, write c = d :: more ∧ hexValue? d = none
  decoded : ∀ c rest, c ≠ '%' → decode (write c ++ rest) = String.utf8EncodeChar c ++ decode rest

variable {write : Char → List Char}

theorem startsPair_cons_of_other (other : hexValue? a = none) : startsPair (a :: rest) = false := by
  cases rest with
  | nil => rfl
  | cons b rest => simp [startsPair, pair?, other]

theorem Faithful.startsPair_flatMap (faithful : Faithful write) (s : List Char) :
    startsPair (s.flatMap write) = startsPair s := by
  cases s with
  | nil => rfl
  | cons a s =>
    rw [List.flatMap_cons]
    cases first : hexValue? a with
    | none =>
      obtain ⟨d, more, written, other⟩ := faithful.other a first
      rw [written, List.cons_append, startsPair_cons_of_other other,
        startsPair_cons_of_other first]
    | some m =>
      rw [faithful.digit a m first]
      cases s with
      | nil => rfl
      | cons b s =>
        rw [List.flatMap_cons]
        cases second : hexValue? b with
        | none =>
          obtain ⟨d, more, written, other⟩ := faithful.other b second
          rw [written]
          simp [startsPair, pair?, second, other]
        | some n =>
          rw [faithful.digit b n second]
          rfl

/-- What is written faithfully is read back. -/
theorem Faithful.decode_flatMap (faithful : Faithful write) (s : List Char) :
    decode (s.flatMap write) = decode s := by
  induction s using text_induction with
  | nil => rfl
  | plain c rest other ih =>
    rw [List.flatMap_cons, faithful.decoded c _ other, ih, decode_cons_of_ne other]
  | literal rest single ih =>
    have single' : startsPair (rest.flatMap write) = false :=
      (faithful.startsPair_flatMap rest).trans single
    rw [List.flatMap_cons, faithful.percent, List.singleton_append, decode_literal single', ih,
      decode_literal single]
  | escape a b rest byte pair ih =>
    obtain ⟨m, first, n, second, -⟩ : ∃ m, hexValue? a = some m ∧ ∃ n, hexValue? b = some n ∧
        UInt8.ofNat (16 * m + n) = byte := by
      simpa [pair?, Option.bind_eq_some_iff] using pair
    simp only [List.flatMap_cons, faithful.percent, faithful.digit a m first,
      faithful.digit b n second, List.singleton_append]
    rw [decode_pair pair, ih, decode_pair pair]

/-- A byte written as a percent sign and two digits is read back. -/
theorem decode_byte (byte : UInt8) (rest : List Char) :
    decode ('%' :: upperHexDigit (byte.toNat / 16) :: upperHexDigit (byte.toNat % 16) :: rest) =
      byte :: decode rest := by
  have digit : ∀ n < 16, hexValue? (upperHexDigit n) = some n := by decide
  have small : byte.toNat < 256 := byte.toNat_lt
  apply decode_pair
  simp only [pair?, digit (byte.toNat / 16) (by omega), digit (byte.toNat % 16) (by omega),
    Option.bind_eq_bind, Option.bind_some, Nat.div_add_mod, Option.pure_def, UInt8.ofNat_toNat]

theorem toList_toUTF8_singleton (c : Char) :
    (String.ofList [c]).toUTF8.toList = String.utf8EncodeChar c := by
  have bytes : (String.ofList [c]).toUTF8.data.toList = String.utf8EncodeChar c := by
    rw [String.toUTF8, ← String.utf8Encode_toList, String.toList_ofList, List.utf8Encode]
    simp
  have loop (bs : ByteArray) (i : Nat) (read : List UInt8) :
      ByteArray.toList.loop bs i read = read.reverse ++ bs.data.toList.drop i := by
    fun_induction ByteArray.toList.loop bs i read with
    | case1 i read more ih =>
      have inside : i < bs.data.toList.length := by simpa using more
      rw [ih, List.drop_eq_getElem_cons inside]
      simp [ByteArray.get!, more]
    | case2 i read done =>
      rw [List.drop_eq_nil_of_le (by simpa using Nat.le_of_not_lt done), List.append_nil]
  rw [ByteArray.toList, loop, bytes]
  rfl

theorem decode_percentEncode (c : Char) (rest : List Char) :
    decode (Url.percentEncode c ++ rest) = String.utf8EncodeChar c ++ decode rest := by
  rw [Url.percentEncode, toList_toUTF8_singleton]
  induction String.utf8EncodeChar c with
  | nil => rfl
  | cons byte bytes ih =>
    simp only [List.flatMap_cons, List.cons_append, List.nil_append]
    rw [decode_byte, ih]

theorem exists_percentEncode (c : Char) : ∃ more, Url.percentEncode c = '%' :: more := by
  rw [Url.percentEncode, toList_toUTF8_singleton]
  cases bytes : String.utf8EncodeChar c with
  | nil => exact absurd bytes String.utf8EncodeChar_ne_nil
  | cons byte bytes => exact ⟨_, rfl⟩

theorem toNat_of_hexValue? {n : Nat} (digit : hexValue? c = some n) :
    48 ≤ c.toNat ∧ c.toNat ≤ 102 := by
  rw [hexValue?] at digit
  split at digit
  · rename_i decimal
    have range := Char.isDigit_iff_toNat.mp decimal
    exact ⟨range.1, Nat.le_trans range.2 (by decide)⟩
  · split at digit
    · rename_i lower
      exact ⟨Nat.le_trans (by decide) (show 'a'.toNat ≤ c.toNat from lower.1),
        show c.toNat ≤ 'f'.toNat from lower.2⟩
    · split at digit
      · rename_i upper
        exact ⟨Nat.le_trans (by decide) (show 'A'.toNat ≤ c.toNat from upper.1),
          Nat.le_trans (show c.toNat ≤ 'F'.toNat from upper.2) (by decide)⟩
      · cases digit

/-- The way in which an address writes the characters of a part of it. -/
def writeIn (reserved : String) (c : Char) : List Char :=
  if c.toNat < 32 || 126 < c.toNat || reserved.toList.contains c then Url.percentEncode c else [c]

theorem encodeWith_eq (reserved : String) (s : List Char) :
    Url.encodeWith reserved s = s.flatMap (writeIn reserved) :=
  rfl

/-- Where neither digits nor the percent sign are reserved, an address is written faithfully. -/
theorem faithful_writeIn {reserved : String}
    (free : ∀ c ∈ reserved.toList, hexValue? c = none ∧ c ≠ '%') : Faithful (writeIn reserved) := by
  have kept (c : Char) (visible : 32 ≤ c.toNat ∧ c.toNat ≤ 126)
      (other : c ∉ reserved.toList) : writeIn reserved c = [c] := by
    rw [writeIn, if_neg]
    simp only [Bool.or_eq_true, decide_eq_true_eq, List.contains_iff_mem, other, or_false]
    omega
  refine ⟨kept '%' (by decide) fun mem => (free _ mem).2 rfl, fun c n digit => ?_, fun c none => ?_,
    fun c rest other => ?_⟩
  · have range := toNat_of_hexValue? digit
    refine kept c (by omega) fun mem => ?_
    exact absurd ((free c mem).1.symm.trans digit) (by simp)
  · rw [writeIn]
    split
    · obtain ⟨more, written⟩ := exists_percentEncode c
      exact ⟨'%', more, written, by decide⟩
    · exact ⟨c, [], rfl, none⟩
  · rw [writeIn]
    split
    · exact decode_percentEncode c rest
    · exact decode_cons_of_ne other

theorem decode_encodeWith_path (s : List Char) :
    decode (Url.encodeWith Url.pathReserved s) = decode s := by
  have free : ∀ c ∈ Url.pathReserved.toList, hexValue? c = none ∧ c ≠ '%' :=
    List.all_iff_forall_prop.mp (by decide)
  rw [encodeWith_eq, (faithful_writeIn free).decode_flatMap]

/-! ## Segments for directories -/

theorem eq_or_upper_of_toLower_eq (h : c.toLower = a) :
    c = a ∨ (c.toNat + 32 = a.toNat ∧ 65 ≤ c.toNat) := by
  by_cases upper : c.isUpper = true
  · have range : 65 ≤ c.toNat ∧ c.toNat ≤ 90 := of_decide_eq_true upper
    rw [← h, Char.toLower_eq_of_isUpper upper, Char.toNat_ofNat, if_pos (.inl (by omega))]
    exact .inr ⟨rfl, range.1⟩
  · exact .inl ((Char.toLower_eq_of_not_isUpper upper).symm.trans h)

/-- A character that is no small letter is its own lower form alone. -/
theorem eq_of_toLower_eq (h : c.toLower = a) (other : a.toNat < 97) : c = a := by
  rcases eq_or_upper_of_toLower_eq h with same | ⟨gap, upper⟩
  · exact same
  · omega

theorem pair?_dot (h : a.toLower = 'e') : pair? '2' a = some 46 := by
  rcases eq_or_upper_of_toLower_eq h with rfl | ⟨gap, -⟩
  · decide
  · have upper : a = 'E' := Char.toNat_inj.mp (by
      have letter : 'e'.toNat = 101 := rfl
      have capital : 'E'.toNat = 69 := rfl
      omega)
    rw [upper]
    decide

/-- A dot at the beginning of a text, as it is or as an escape, is read as a dot. -/
theorem exists_of_leading_dot
    (h : s.map Char.toLower = '.' :: t ∨ s.map Char.toLower = '%' :: '2' :: 'e' :: t) :
    ∃ rest, rest.map Char.toLower = t ∧ decode s = 46 :: decode rest := by
  rcases h with h | h
  · obtain ⟨a, rest, rfl, first, rfl⟩ := List.map_eq_cons_iff.mp h
    obtain rfl := eq_of_toLower_eq first (by decide)
    exact ⟨rest, rfl, decode_cons_of_ne (by decide)⟩
  · obtain ⟨a, s, rfl, first, h⟩ := List.map_eq_cons_iff.mp h
    obtain ⟨b, s, rfl, second, h⟩ := List.map_eq_cons_iff.mp h
    obtain ⟨c, rest, rfl, third, rfl⟩ := List.map_eq_cons_iff.mp h
    obtain rfl := eq_of_toLower_eq first (by decide)
    obtain rfl := eq_of_toLower_eq second (by decide)
    exact ⟨rest, rfl, decode_pair (pair?_dot third)⟩

theorem decode_of_isSingleDot (dot : Url.isSingleDot s = true) : decode s = bytes ['.'] := by
  simp only [Url.isSingleDot, Bool.or_eq_true, beq_iff_eq] at dot
  obtain ⟨rest, empty, read⟩ := exists_of_leading_dot dot
  rw [read, List.map_eq_nil_iff.mp empty, decode_nil]
  rfl

theorem decode_of_isDoubleDot (dots : Url.isDoubleDot s = true) : decode s = bytes ['.', '.'] := by
  simp only [Url.isDoubleDot, List.any_cons, List.any_nil, Bool.or_false, Bool.or_eq_true,
    beq_iff_eq] at dots
  have leads : ∃ t, (s.map Char.toLower = '.' :: t ∨ s.map Char.toLower = '%' :: '2' :: 'e' :: t) ∧
      (t = ['.'] ∨ t = ['%', '2', 'e']) := by
    rcases dots with h | h | h | h
    · exact ⟨_, .inl h, .inl rfl⟩
    · exact ⟨_, .inl h, .inr rfl⟩
    · exact ⟨_, .inr h, .inl rfl⟩
    · exact ⟨_, .inr h, .inr rfl⟩
  obtain ⟨t, first, second⟩ := leads
  obtain ⟨rest, rfl, read⟩ := exists_of_leading_dot first
  obtain ⟨rest', empty, read'⟩ := exists_of_leading_dot second
  rw [read, read', List.map_eq_nil_iff.mp empty, decode_nil]
  rfl

end PackageRisk.Percent
