/-!
# Reading UTF-8

Bytes as text. Where the bytes are no UTF-8, each longest part that could have begun a character
is read as one replacement character, and so is every byte that could not.
-/

namespace PackageRisk.Utf8

/-- A character that is not complete: its bits so far, the bytes still to come, and the range in
which the next one must lie. -/
structure Partial where
  bits : Nat
  missing : Nat
  lowest : Nat
  highest : Nat
  deriving DecidableEq, Repr

/-- The replacement character. -/
def replacement : Char := '\uFFFD'

/-- What a byte between characters means: a character of its own, the beginning of a longer one,
or nothing. -/
def lead (b : Nat) : Except Partial (Option Char) :=
  if b < 0x80 then .ok (some (Char.ofNat b))
  else if b < 0xC2 then .ok none
  else if b < 0xE0 then .error ⟨b - 0xC0, 1, 0x80, 0xBF⟩
  else if b = 0xE0 then .error ⟨0, 2, 0xA0, 0xBF⟩
  else if b = 0xED then .error ⟨13, 2, 0x80, 0x9F⟩
  else if b < 0xF0 then .error ⟨b - 0xE0, 2, 0x80, 0xBF⟩
  else if b = 0xF0 then .error ⟨0, 3, 0x90, 0xBF⟩
  else if b < 0xF4 then .error ⟨b - 0xF0, 3, 0x80, 0xBF⟩
  else if b = 0xF4 then .error ⟨4, 3, 0x80, 0x8F⟩
  else .ok none

/-- A reader of bytes: the characters so far, last first, whether all bytes were sound, and the
character under way. -/
structure Reader where
  chars : List Char := []
  valid : Bool := true
  pending : Option Partial := none

/-- Read a byte between characters. -/
def Reader.start (r : Reader) (b : Nat) : Reader :=
  match lead b with
  | .ok (some c) => { r with chars := c :: r.chars, pending := none }
  | .ok none => { r with chars := replacement :: r.chars, valid := false, pending := none }
  | .error p => { r with pending := some p }

/-- Read a byte. One that cannot go on ends the character under way and is read anew. -/
def Reader.step (r : Reader) (byte : UInt8) : Reader :=
  let b := byte.toNat
  match r.pending with
  | none => r.start b
  | some p =>
    if p.lowest ≤ b && b ≤ p.highest then
      let bits := p.bits * 64 + (b - 0x80)
      if p.missing ≤ 1 then { r with chars := Char.ofNat bits :: r.chars, pending := none }
      else { r with pending := some ⟨bits, p.missing - 1, 0x80, 0xBF⟩ }
    else Reader.start { r with chars := replacement :: r.chars, valid := false } b

/-- The end of the bytes. -/
def Reader.finish (r : Reader) : Reader :=
  match r.pending with
  | none => r
  | some _ => { r with chars := replacement :: r.chars, valid := false, pending := none }

/-- Read a character that is spelled in another way than by its bytes. -/
def Reader.put (r : Reader) (c : Char) : Reader :=
  { r.finish with chars := c :: r.finish.chars }

/-- Read something that stands for no character. -/
def Reader.giveUp (r : Reader) : Reader :=
  { r with valid := false }

/-- The text that was read, if all of it was sound. -/
def Reader.text? (r : Reader) : Option String :=
  if r.finish.valid then some (String.ofList r.finish.chars.reverse) else none

/-- Read all of some bytes. -/
def read (bytes : ByteArray) : Reader :=
  (bytes.data.foldl Reader.step {}).finish

/-- The text of some bytes, with replacement characters where they are no UTF-8. -/
def decodeLossy (bytes : ByteArray) : List Char :=
  (read bytes).chars.reverse

/-- The text of some bytes, if they are UTF-8. -/
def decode? (bytes : ByteArray) : Option String :=
  (bytes.data.foldl Reader.step {}).text?

end PackageRisk.Utf8
