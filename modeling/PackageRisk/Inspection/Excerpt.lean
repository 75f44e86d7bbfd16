import PackageRisk.Inspection.Snippet

/-!
# Excerpts by bytes

The surroundings of a range, cut out of the text by its bytes: forty before the range and forty
behind it as far as the text goes, and from there outward, byte by byte, to the next places between
characters. A search that leaves the text has no answer, nor has a cut with its ends out of order.
-/

namespace PackageRisk

namespace Text

/-- The place in front of a byte, unless the byte is inside a character or beyond the text. A byte
that begins a character and the end of the text have a place. -/
def placeAt? (content : String) (byte : Nat) : Option content.Pos :=
  if h : String.Pos.Raw.isValid content ⟨byte⟩ = true then
    some ⟨⟨byte⟩, String.Pos.Raw.isValid_eq_true_iff.mp h⟩
  else none

/-- The last place that is not behind a byte, looked for backward. -/
def placeBelow? (content : String) : (byte : Nat) → Option content.Pos
  | 0 => placeAt? content 0
  | byte + 1 => (placeAt? content (byte + 1)).or (placeBelow? content byte)

/-- The first place that is not before a byte, looked for forward. -/
def placeAbove? (content : String) (byte : Nat) : Option content.Pos :=
  if byte ≤ content.utf8ByteSize then
    (placeAt? content byte).or (placeAbove? content (byte + 1))
  else none
termination_by content.utf8ByteSize + 1 - byte

end Text

/-- The text around a range of bytes with blanks collapsed. -/
def excerpt? (content : String) (start stop : Nat) : Option String := do
  let first ← Text.placeBelow? content (start - Occurrence.contextRadius)
  let last ← Text.placeAbove? content (min (stop + Occurrence.contextRadius) content.utf8ByteSize)
  if first ≤ last then
    some (String.ofList (Text.collapse (content.extract first last).toList))
  else none

/-- A place of a text with what lies behind it and ahead. -/
def Cursor.ofPlace {content : String} (place : content.Pos) : Cursor :=
  ⟨(content.sliceTo place).copy.toList.reverse, (content.sliceFrom place).copy.toList⟩

/-- The occurrence between two places of a text. -/
def Occurrence.between {content : String} (start stop : content.Pos) : Occurrence :=
  ⟨.ofPlace start, .ofPlace stop⟩

end PackageRisk
