import PackageRisk.Number.Binary64
import PackageRisk.Pattern.Basic

/-!
# Obfuscated code

Signs of obfuscation, counted and set in relation to the amount of code. More than one sign for
twenty characters that are not blank counts as obfuscated, so the size of a file plays no part.
-/

namespace PackageRisk

namespace Obfuscation

open Pattern

/-- A hexadecimal digit; searches with it ignore case. -/
def hexDigit : CharSet :=
  ⟨[.range '0' '9', .range 'a' 'f'], false⟩

/-- The signs of obfuscation: escapes, very short names, hexadecimal numbers, quoted member access
and decoding functions. -/
def indicators : List Search :=
  [⟨.seq (text "\\x") (.span hexDigit 2 (some 2)), true⟩,
    ⟨.seq (text "\\u") (.span hexDigit 4 (some 4)), true⟩,
    ⟨all [.wordEdge, optionalChar '_', .span ⟨[.range 'a' 'z', .range '0' '9'], false⟩ 1 (some 2),
      .wordEdge], true⟩,
    ⟨.seq (text "0x") (.span hexDigit 1 none), true⟩,
    ⟨all [text "[", oneOf "'\"", someWord, oneOf "'\"", text "]"], false⟩,
    ⟨any [text "base64", text "fromCharCode", text "unescape", word "atob"], true⟩]

/-- The counts behind a verdict. -/
structure Measure where
  indicators : Nat
  codeLength : Nat
  deriving DecidableEq, Repr

/-- Count the signs of obfuscation and the characters that are not blank. -/
def measure (text : List Char) : Measure where
  indicators := (indicators.map (·.count text)).foldr (· + ·) 0
  codeLength := text.countP fun c => !Text.isBlank c

/-- Signs per character, zero for a text without code. -/
def Measure.density (m : Measure) : Binary64 :=
  if m.codeLength = 0 then .zero else .ofRatio m.indicators m.codeLength

/-- More than one sign for twenty characters of code. -/
def Measure.isObfuscated (m : Measure) : Bool :=
  m.codeLength != 0 && m.codeLength < 20 * m.indicators

end Obfuscation

end PackageRisk
