import Mathlib.Data.String.Basic
import PackageRisk.Inspection.Excerpt

/-!
# Places between characters

A search for a place backward from a byte ends at the last place that is not behind it, and one
forward ends at the first place that is not before it. Characters have at most four bytes, so a
search goes over three bytes at most, and it never has to leave the text: both ends of a text are
places.
-/

namespace PackageRisk

namespace Text

variable {content : String} {byte : Nat} {place : content.Pos}

theorem placeAt?_eq_some (here : place.offset.byteIdx = byte) :
    placeAt? content byte = some place := by
  subst here
  exact dif_pos (String.Pos.Raw.isValid_eq_true_iff.mpr place.isValid)

theorem placeAt?_eq_none (nowhere : ∀ p : content.Pos, p.offset.byteIdx ≠ byte) :
    placeAt? content byte = none :=
  dif_neg fun valid => nowhere ⟨⟨byte⟩, String.Pos.Raw.isValid_eq_true_iff.mp valid⟩ rfl

theorem placeBelow?_eq_some (le : place.offset.byteIdx ≤ byte)
    (last : ∀ p : content.Pos, p.offset.byteIdx ≤ byte → p ≤ place) :
    placeBelow? content byte = some place := by
  induction byte with
  | zero => exact placeAt?_eq_some (Nat.le_zero.mp le)
  | succ byte ih =>
    rw [placeBelow?]
    by_cases here : place.offset.byteIdx = byte + 1
    · rw [placeAt?_eq_some here, Option.some_or]
    · have inside : placeAt? content (byte + 1) = none := by
        refine placeAt?_eq_none fun p there => here (Nat.le_antisymm le ?_)
        rw [← there]
        exact last p (Nat.le_of_eq there)
      rw [inside, Option.none_or]
      exact ih (by omega) fun p before => last p (Nat.le_succ_of_le before)

theorem placeAbove?_eq_some (ge : byte ≤ place.offset.byteIdx)
    (first : ∀ p : content.Pos, byte ≤ p.offset.byteIdx → place ≤ p) :
    placeAbove? content byte = some place := by
  have within : place.offset.byteIdx ≤ content.utf8ByteSize := place.isValid.le_rawEndPos
  induction distance : place.offset.byteIdx - byte generalizing byte with
  | zero =>
    have here : place.offset.byteIdx = byte := by omega
    rw [placeAbove?, if_pos (by omega), placeAt?_eq_some here, Option.some_or]
  | succ distance ih =>
    have inside : placeAt? content byte = none := by
      refine placeAt?_eq_none fun p there => ?_
      have le : place.offset.byteIdx ≤ p.offset.byteIdx := first p (Nat.le_of_eq there.symm)
      omega
    rw [placeAbove?, if_pos (by omega), inside, Option.none_or]
    exact ih (by omega) (fun p behind => first p (Nat.le_of_succ_le behind)) (by omega)

end Text

/-! ## The fewest characters -/

section TakeBytes

variable {s p : List Char} {bytes : Nat}

theorem takeBytes_prefix (bytes : Nat) (s : List Char) : takeBytes bytes s <+: s := by
  fun_induction takeBytes bytes s with
  | case1 => exact List.nil_prefix
  | case2 => exact List.prefix_refl _
  | case3 bytes c rest ih => exact (List.prefix_cons_inj c).mpr ih

@[simp] theorem takeBytes_zero (s : List Char) : takeBytes 0 s = [] := by
  rw [takeBytes]

theorem utf8Len_takeBytes_le (bytes : Nat) (s : List Char) :
    String.utf8Len (takeBytes bytes s) ≤ bytes + 3 := by
  fun_induction takeBytes bytes s with
  | case1 | case2 => exact Nat.zero_le _
  | case3 bytes c rest ih =>
    have most := c.utf8Size_le_four
    rw [String.utf8Len_cons]
    by_cases covers : bytes + 1 ≤ c.utf8Size
    · rw [Nat.sub_eq_zero_of_le covers, takeBytes_zero, String.utf8Len_nil]
      omega
    · omega

/-- Every beginning of the text with enough bytes begins with what is taken. -/
theorem takeBytes_prefix_of_le (front : p <+: s) (enough : bytes ≤ String.utf8Len p) :
    takeBytes bytes s <+: p := by
  fun_induction takeBytes bytes s generalizing p with
  | case1 => exact List.nil_prefix
  | case2 => exact List.nil_prefix
  | case3 bytes c rest ih =>
    cases p with
    | nil => cases enough
    | cons d p =>
      obtain ⟨rfl, others⟩ := List.cons_prefix_cons.mp front
      rw [String.utf8Len_cons] at enough
      exact (List.prefix_cons_inj d).mpr (ih others (by omega))

theorem min_le_utf8Len_takeBytes (bytes : Nat) (s : List Char) :
    min bytes (String.utf8Len s) ≤ String.utf8Len (takeBytes bytes s) := by
  fun_induction takeBytes bytes s with
  | case1 => exact Nat.min_le_left _ _
  | case2 => exact Nat.min_le_right _ _
  | case3 bytes c rest ih =>
    rw [String.utf8Len_cons, String.utf8Len_cons]
    omega

/-- What is taken has too few bytes when characters are left off at its end. -/
theorem utf8Len_lt_of_takeBytes {x y : List Char} (cut : takeBytes bytes s = x ++ y)
    (some_char : y ≠ []) : String.utf8Len x < min bytes (String.utf8Len s) := by
  obtain ⟨rest, whole⟩ := takeBytes_prefix bytes s
  rw [cut] at whole
  have longer := List.length_pos_iff.mpr some_char
  refine Nat.lt_min.mpr ⟨Nat.lt_of_not_le fun most => ?_, ?_⟩
  · have front : x <+: s := ⟨y ++ rest, by rw [← whole, List.append_assoc]⟩
    have shorter := (takeBytes_prefix_of_le front most).length_le
    rw [cut, List.length_append] at shorter
    omega
  · have sizes := congrArg String.utf8Len whole
    have bytes := Nat.pos_of_ne_zero (mt String.utf8Len_eq_zero.mp some_char)
    rw [String.utf8Len_append, String.utf8Len_append] at sizes
    omega

end TakeBytes

/-! ## Searching around a place -/

namespace Text

variable {content before after : String} {place : content.Pos}

theorem utf8Len_toList (s : String) : String.utf8Len s.toList = s.utf8ByteSize := by
  rw [← String.utf8ByteSize_ofList, String.ofList_toList]

theorem byteIdx_of_splits (splits : place.Splits before after) :
    place.offset.byteIdx = before.utf8ByteSize := by
  rw [splits.offset_eq_rawEndPos, String.byteIdx_rawEndPos]

/-- The search backward from some bytes before a place ends in front of the fewest characters that
have as many bytes. -/
theorem placeBelow?_sub (splits : place.Splits before after) (bytes : Nat) :
    ∃ (front : String) (first : content.Pos),
      before = front ++ String.ofList (takeBytes bytes before.toList.reverse).reverse ∧
      first.Splits front (String.ofList (takeBytes bytes before.toList.reverse).reverse ++ after) ∧
      placeBelow? content (place.offset.byteIdx - bytes) = some first := by
  obtain ⟨rest, whole⟩ := takeBytes_prefix bytes before.toList.reverse
  have enough := min_le_utf8Len_takeBytes bytes before.toList.reverse
  generalize taken : takeBytes bytes before.toList.reverse = near at whole enough ⊢
  have cut : before = String.ofList rest.reverse ++ String.ofList near.reverse := by
    rw [← String.ofList_append, ← List.reverse_append, whole, List.reverse_reverse,
      String.ofList_toList]
  generalize String.ofList rest.reverse = front at cut
  have spread : content = front ++ (String.ofList near.reverse ++ after) := by
    rw [← String.append_assoc, ← cut]
    exact splits.eq_append
  have begins := String.Pos.splits_ofEqAppend spread
  have size : before.utf8ByteSize = front.utf8ByteSize + String.utf8Len near := by
    rw [cut, String.utf8ByteSize_append, String.utf8ByteSize_ofList, String.utf8Len_reverse]
  rw [String.utf8Len_reverse, utf8Len_toList] at enough
  refine ⟨front, String.Pos.ofEqAppend spread, cut, begins, ?_⟩
  refine placeBelow?_eq_some ?_ fun p below => Std.not_lt.mp fun later => ?_
  · rw [byteIdx_of_splits begins, byteIdx_of_splits splits]
    omega
  · -- A later place would leave off characters that are needed.
    have early : p ≤ place := Nat.le_trans below (Nat.sub_le _ _)
    obtain ⟨between, some_char, ahead, -⟩ :=
      (begins.lt_iff_exists_eq_append p.splits).mp later
    obtain ⟨near', behind, -⟩ := (p.splits.le_iff_exists_eq_append splits).mp early
    rw [byteIdx_of_splits p.splits, byteIdx_of_splits splits, ahead,
      String.utf8ByteSize_append] at below
    rw [ahead, cut, String.append_assoc, String.append_right_inj] at behind
    have parts : near = near'.toList.reverse ++ between.toList.reverse := by
      rw [← List.reverse_append, ← String.toList_append, ← behind, String.toList_ofList,
        List.reverse_reverse]
    have few := utf8Len_lt_of_takeBytes (taken.trans parts) (by simpa using some_char)
    have sizes := congrArg String.utf8Len parts
    rw [String.utf8Len_append, String.utf8Len_reverse, String.utf8Len_reverse, utf8Len_toList,
      utf8Len_toList] at sizes
    rw [String.utf8Len_reverse, utf8Len_toList, String.utf8Len_reverse, utf8Len_toList] at few
    omega

/-- The search forward from some bytes behind a place, or from the end of the text, ends behind the
fewest characters that have as many bytes. -/
theorem placeAbove?_add (splits : place.Splits before after) (bytes : Nat) :
    ∃ (back : String) (last : content.Pos),
      after = String.ofList (takeBytes bytes after.toList) ++ back ∧
      last.Splits (before ++ String.ofList (takeBytes bytes after.toList)) back ∧
      placeAbove? content (min (place.offset.byteIdx + bytes) content.utf8ByteSize) =
        some last := by
  obtain ⟨rest, whole⟩ := takeBytes_prefix bytes after.toList
  have enough := min_le_utf8Len_takeBytes bytes after.toList
  generalize taken : takeBytes bytes after.toList = near at whole enough ⊢
  have cut : after = String.ofList near ++ String.ofList rest := by
    rw [← String.ofList_append, whole, String.ofList_toList]
  generalize String.ofList rest = back at cut
  have spread : content = before ++ String.ofList near ++ back := by
    rw [String.append_assoc, ← cut]
    exact splits.eq_append
  have ends := String.Pos.splits_ofEqAppend spread
  have size : after.utf8ByteSize = String.utf8Len near + back.utf8ByteSize := by
    rw [cut, String.utf8ByteSize_append, String.utf8ByteSize_ofList]
  have total : content.utf8ByteSize = before.utf8ByteSize + after.utf8ByteSize := by
    rw [splits.eq_append, String.utf8ByteSize_append]
  rw [utf8Len_toList] at enough
  refine ⟨back, String.Pos.ofEqAppend spread, cut, ends, ?_⟩
  refine placeAbove?_eq_some ?_ fun p above => Std.not_lt.mp fun earlier => ?_
  · rw [byteIdx_of_splits ends, byteIdx_of_splits splits, String.utf8ByteSize_append,
      String.utf8ByteSize_ofList]
    omega
  · -- An earlier place would leave off characters that are needed.
    have late : place ≤ p := by
      refine Nat.le_trans (Nat.le_min.mpr ⟨Nat.le_add_right _ _, ?_⟩) above
      exact place.isValid.le_rawEndPos
    obtain ⟨between, some_char, behind, -⟩ :=
      (p.splits.lt_iff_exists_eq_append ends).mp earlier
    obtain ⟨near', ahead, -⟩ := (splits.le_iff_exists_eq_append p.splits).mp late
    rw [byteIdx_of_splits p.splits, byteIdx_of_splits splits, ahead,
      String.utf8ByteSize_append] at above
    rw [ahead, String.append_assoc, String.append_right_inj] at behind
    have parts : near = near'.toList ++ between.toList := by
      rw [← String.toList_append, ← behind, String.toList_ofList]
    have few := utf8Len_lt_of_takeBytes (taken.trans parts) (by simpa using some_char)
    rw [utf8Len_toList, utf8Len_toList] at few
    omega

end Text

end PackageRisk
