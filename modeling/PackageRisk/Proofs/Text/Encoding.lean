import PackageRisk.Text.Utf8

/-!
# Texts as bytes

A text that was written as UTF-8 is read back as it was. The first byte of a character tells how
many bytes follow and in which range the second one lies; the others carry six bits each.
-/

namespace PackageRisk.Utf8

/-- The next byte of the character under way has the sixth part of a character in its low bits. -/
def continuation (n : Nat) : UInt8 :=
  .ofNat (n % 64 + 0x80)

theorem toNat_continuation (n : Nat) : (continuation n).toNat = n % 64 + 0x80 := by
  rw [continuation, UInt8.toNat_ofNat']
  omega

namespace Reader

variable {r : Reader}

theorem step_first (ready : r.pending = none) (byte : UInt8) :
    r.step byte = r.start byte.toNat := by
  simp only [step, ready]

/-- A byte within the range of the character under way adds its six bits. -/
theorem step_continuation {bits missing lowest highest n : Nat}
    (pending : r.pending = some ⟨bits, missing, lowest, highest⟩)
    (within : lowest ≤ n % 64 + 0x80 ∧ n % 64 + 0x80 ≤ highest) :
    r.step (continuation n) =
      if missing ≤ 1 then
        { r with chars := Char.ofNat (bits * 64 + n % 64) :: r.chars, pending := none }
      else { r with pending := some ⟨bits * 64 + n % 64, missing - 1, 0x80, 0xBF⟩ } := by
  simp only [step, pending, toNat_continuation, Nat.add_sub_cancel, within, decide_true,
    Bool.and_self, if_true]

end Reader

/-- The first byte of a character of two bytes has five bits. -/
theorem lead_two {n : Nat} (least : 2 ≤ n) (most : n < 32) :
    lead (n + 0xC0) = .error ⟨n, 1, 0x80, 0xBF⟩ := by
  unfold lead
  simp (disch := omega) only [if_neg, if_pos, Nat.add_sub_cancel]

/-- The first byte of a character of three bytes has four bits. -/
theorem lead_three {n : Nat} (most : n < 16) :
    ∃ lowest highest, lead (n + 0xE0) = .error ⟨n, 2, lowest, highest⟩ ∧
      ∀ b, 0x80 ≤ b → b ≤ 0xBF → (n = 0 → 0xA0 ≤ b) → (n = 13 → b ≤ 0x9F) →
        lowest ≤ b ∧ b ≤ highest := by
  by_cases zero : n = 0
  · subst zero
    exact ⟨0xA0, 0xBF, rfl, fun b _ high low _ => ⟨low rfl, high⟩⟩
  · by_cases surrogates : n = 13
    · subst surrogates
      exact ⟨0x80, 0x9F, rfl, fun b low _ _ high => ⟨low, high rfl⟩⟩
    · refine ⟨0x80, 0xBF, ?_, fun b low high _ _ => ⟨low, high⟩⟩
      unfold lead
      simp (disch := omega) only [if_neg, if_pos, Nat.add_sub_cancel]

/-- The first byte of a character of four bytes has three bits. -/
theorem lead_four {n : Nat} (most : n < 5) :
    ∃ lowest highest, lead (n + 0xF0) = .error ⟨n, 3, lowest, highest⟩ ∧
      ∀ b, 0x80 ≤ b → b ≤ 0xBF → (n = 0 → 0x90 ≤ b) → (n = 4 → b ≤ 0x8F) →
        lowest ≤ b ∧ b ≤ highest := by
  by_cases zero : n = 0
  · subst zero
    exact ⟨0x90, 0xBF, rfl, fun b _ high low _ => ⟨low rfl, high⟩⟩
  · by_cases last : n = 4
    · subst last
      exact ⟨0x80, 0x8F, rfl, fun b low _ _ high => ⟨low, high rfl⟩⟩
    · refine ⟨0x80, 0xBF, ?_, fun b low high _ _ => ⟨low, high⟩⟩
      unfold lead
      simp (disch := omega) only [if_neg, if_pos, Nat.add_sub_cancel]

/-- A character of one byte is that byte. -/
theorem lead_one {n : Nat} (most : n < 0x80) : lead n = .ok (some (Char.ofNat n)) :=
  if_pos most

namespace Reader

variable {r : Reader}

theorem step_begun (ready : r.pending = none) {n : Nat} (below : n < 256) {p : Partial}
    (begun : lead n = .error p) : r.step (.ofNat n) = { r with pending := some p } := by
  rw [step_first ready, UInt8.toNat_ofNat', Nat.mod_eq_of_lt below, start, begun]

theorem foldl_one (ready : r.pending = none) {n : Nat} (most : n < 0x80) :
    [UInt8.ofNat n].foldl step r =
      { r with chars := Char.ofNat n :: r.chars, pending := none } := by
  rw [List.foldl_cons, List.foldl_nil, step_first ready, UInt8.toNat_ofNat',
    Nat.mod_eq_of_lt (by omega), start, lead_one most]

theorem foldl_two (ready : r.pending = none) {n : Nat} (least : 0x80 ≤ n) (most : n < 0x800) :
    [UInt8.ofNat (n / 64 % 32 + 0xC0), continuation n].foldl step r =
      { r with chars := Char.ofNat n :: r.chars, pending := none } := by
  have begun := lead_two (n := n / 64 % 32) (by omega) (by omega)
  have sum : n / 64 % 32 * 64 + n % 64 = n := by omega
  rw [List.foldl_cons, step_begun ready (by omega) begun, List.foldl_cons, List.foldl_nil,
    step_continuation rfl (by omega), if_pos (Nat.le_refl 1), sum]

theorem foldl_three (ready : r.pending = none) {n : Nat} (least : 0x800 ≤ n) (most : n < 0x10000)
    (scalar : n < 0xD800 ∨ 0xDFFF < n) :
    [UInt8.ofNat (n / 4096 % 16 + 0xE0), continuation (n / 64), continuation n].foldl step r =
      { r with chars := Char.ofNat n :: r.chars, pending := none } := by
  obtain ⟨lowest, highest, begun, within⟩ := lead_three (n := n / 4096 % 16) (by omega)
  have second := within (n / 64 % 64 + 0x80) (by omega) (by omega) (by omega) (by omega)
  have sum : (n / 4096 % 16 * 64 + n / 64 % 64) * 64 + n % 64 = n := by omega
  rw [List.foldl_cons, step_begun ready (by omega) begun, List.foldl_cons,
    step_continuation rfl second, if_neg (by decide), List.foldl_cons, List.foldl_nil,
    step_continuation rfl (by omega), if_pos (Nat.le_refl 1), sum]

theorem foldl_four (ready : r.pending = none) {n : Nat} (least : 0x10000 ≤ n)
    (most : n < 0x110000) :
    [UInt8.ofNat (n / 262144 % 8 + 0xF0), continuation (n / 4096), continuation (n / 64),
        continuation n].foldl step r =
      { r with chars := Char.ofNat n :: r.chars, pending := none } := by
  obtain ⟨lowest, highest, begun, within⟩ := lead_four (n := n / 262144 % 8) (by omega)
  have second := within (n / 4096 % 64 + 0x80) (by omega) (by omega) (by omega) (by omega)
  have sum : ((n / 262144 % 8 * 64 + n / 4096 % 64) * 64 + n / 64 % 64) * 64 + n % 64 = n := by
    omega
  rw [List.foldl_cons, step_begun ready (by omega) begun, List.foldl_cons,
    step_continuation rfl second, if_neg (by decide), List.foldl_cons,
    step_continuation rfl (by omega), if_neg (by decide), List.foldl_cons, List.foldl_nil,
    step_continuation rfl (by omega), if_pos (Nat.le_refl 1), sum]

/-- A reader between characters reads a character from its bytes. -/
theorem foldl_utf8EncodeChar (ready : r.pending = none) (c : Char) :
    (String.utf8EncodeChar c).foldl step r = { r with chars := c :: r.chars, pending := none } := by
  have valid : c.toNat < 0xD800 ∨ 0xDFFF < c.toNat ∧ c.toNat < 0x110000 := c.valid
  have whole := Char.ofNat_toNat c
  have toNat : c.val.toNat = c.toNat := rfl
  unfold String.utf8EncodeChar
  rw [toNat]
  generalize c.toNat = n at valid whole
  rw [← whole]
  dsimp only
  -- The cases are the lengths of a character.
  split
  · exact foldl_one (n := n) ready (by omega)
  · split
    · exact foldl_two (n := n) ready (by omega) (by omega)
    · split
      · exact foldl_three (n := n) ready (by omega) (by omega) (by omega)
      · exact foldl_four (n := n) ready (by omega) (by omega)

/-- Characters are read one after the other, each from its own bytes. -/
theorem foldl_flatMap_utf8EncodeChar (ready : r.pending = none) (cs : List Char) :
    (cs.flatMap String.utf8EncodeChar).foldl step r =
      { r with chars := cs.reverse ++ r.chars, pending := none } := by
  rw [List.foldl_flatMap]
  induction cs generalizing r with
  | nil => rw [List.foldl_nil, List.reverse_nil, List.nil_append, ← ready]
  | cons c cs ih =>
    rw [List.foldl_cons, foldl_utf8EncodeChar ready, ih rfl, List.reverse_cons, List.append_assoc]
    rfl

end Reader

/-- What was written as UTF-8 is read back as it was. -/
theorem decode?_toUTF8 (s : String) : decode? s.toUTF8 = some s := by
  have bytes : s.toUTF8.data = (s.toList.flatMap String.utf8EncodeChar).toArray := by
    rw [String.toUTF8, ← String.utf8Encode_toList, List.utf8Encode, List.data_toByteArray]
  have run : s.toUTF8.data.foldl Reader.step {} = { chars := s.toList.reverse ++ [] } := by
    rw [bytes, List.foldl_toArray, Reader.foldl_flatMap_utf8EncodeChar rfl]
  rw [decode?, run, Reader.text?, Reader.finish]
  simp only [if_true, List.append_nil, List.reverse_reverse, String.ofList_toList]

end PackageRisk.Utf8
