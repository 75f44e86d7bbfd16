import PackageRisk.Text.Utf8

/-!
# The order of texts

Texts are ordered by their characters, and that is the order of their bytes in UTF-8. The first byte
of a character grows with the number of its bytes, and of two characters with as many bytes the
smaller one has the smaller byte where they first differ, so what follows plays no part.
-/

namespace PackageRisk.Utf8

variable {s t : List UInt8} {a b : Nat}

/-- Bytes are compared from the front. -/
theorem cons_lt_cons (small : b < 256) (le : a ≤ b) (tail : a = b → s < t) :
    UInt8.ofNat a :: s < UInt8.ofNat b :: t := by
  rw [List.cons_lt_cons_iff, UInt8.lt_iff_toNat_lt, UInt8.toNat_ofNat', UInt8.toNat_ofNat']
  rcases Nat.lt_or_eq_of_le le with lt | same
  · left
    omega
  · exact .inr ⟨congrArg UInt8.ofNat same, tail same⟩

/-- The bytes of a smaller character come first, whatever follows. -/
theorem utf8EncodeChar_append_lt {c d : Char} (h : c < d) (s t : List UInt8) :
    String.utf8EncodeChar c ++ s < String.utf8EncodeChar d ++ t := by
  have below : c.val.toNat < d.val.toNat := h
  have valid : d.val.toNat < 0xD800 ∨ 0xDFFF < d.val.toNat ∧ d.val.toNat < 0x110000 := d.valid
  unfold String.utf8EncodeChar
  generalize c.val.toNat = m at below
  generalize d.val.toNat = n at below valid
  dsimp only
  -- The cases are the lengths of the two characters; the smaller one is not the longer one.
  split
  · split
    · exact cons_lt_cons (by omega) (by omega) fun same => absurd same (by omega)
    · split
      · exact cons_lt_cons (by omega) (by omega) fun same => absurd same (by omega)
      · split <;> exact cons_lt_cons (by omega) (by omega) fun same => absurd same (by omega)
  · rw [if_neg (by omega : ¬ n ≤ 127)]
    split
    · split
      · refine cons_lt_cons (by omega) (by omega) fun first => ?_
        exact cons_lt_cons (by omega) (by omega) fun same => absurd same (by omega)
      · split <;> exact cons_lt_cons (by omega) (by omega) fun same => absurd same (by omega)
    · rw [if_neg (by omega : ¬ n ≤ 2047)]
      split
      · split
        · refine cons_lt_cons (by omega) (by omega) fun first => ?_
          refine cons_lt_cons (by omega) (by omega) fun second => ?_
          exact cons_lt_cons (by omega) (by omega) fun same => absurd same (by omega)
        · exact cons_lt_cons (by omega) (by omega) fun same => absurd same (by omega)
      · rw [if_neg (by omega : ¬ n ≤ 65535)]
        refine cons_lt_cons (by omega) (by omega) fun first => ?_
        refine cons_lt_cons (by omega) (by omega) fun second => ?_
        refine cons_lt_cons (by omega) (by omega) fun third => ?_
        exact cons_lt_cons (by omega) (by omega) fun same => absurd same (by omega)

theorem flatMap_utf8EncodeChar_lt {s t : List Char} (h : s < t) :
    s.flatMap String.utf8EncodeChar < t.flatMap String.utf8EncodeChar := by
  induction s generalizing t with
  | nil =>
    cases t with
    | nil => exact absurd h (List.not_lt_nil _)
    | cons d t =>
      obtain ⟨byte, bytes, first⟩ := List.exists_cons_of_ne_nil String.utf8EncodeChar_ne_nil
      rw [List.flatMap_cons, first]
      exact List.nil_lt_cons _ _
  | cons c s ih =>
    cases t with
    | nil => exact absurd h (List.not_lt_nil _)
    | cons d t =>
      rw [List.flatMap_cons, List.flatMap_cons]
      rcases List.cons_lt_cons_iff.mp h with first | ⟨rfl, later⟩
      · exact utf8EncodeChar_append_lt first _ _
      · exact List.append_left_lt (ih later)

/-- Texts are ordered as their bytes are. -/
theorem lt_iff_toUTF8_lt {s t : String} : s < t ↔ s.toUTF8.data.toList < t.toUTF8.data.toList := by
  have bytes (s : String) : s.toUTF8.data.toList = s.toList.flatMap String.utf8EncodeChar := by
    rw [String.toUTF8, ← String.utf8Encode_toList, List.utf8Encode, List.data_toByteArray]
  rw [bytes, bytes]
  refine ⟨flatMap_utf8EncodeChar_lt, fun h => Decidable.byContradiction fun ge => ?_⟩
  by_cases same : s = t
  · rw [same] at h
    exact List.lt_irrefl _ h
  · have gt : t < s := Std.lt_of_le_of_ne (String.not_lt.mp ge) (Ne.symm same)
    exact List.lt_asymm h (flatMap_utf8EncodeChar_lt gt)

end PackageRisk.Utf8
