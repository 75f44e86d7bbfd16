/-!
# Binary floating point numbers

The 64-bit format as a word, with exact integer arithmetic for the one operation that is needed:
rounding a ratio to the nearest number of the format, ties to the even mantissa. Nothing here
depends on the machine's floating point unit.
-/

namespace PackageRisk

/-- A number of the 64-bit binary format, as its bits. -/
structure Binary64 where
  bits : UInt64
  deriving DecidableEq, Repr

/-- A quotient rounded to the nearest integer, a half to the even neighbour. -/
def roundHalfEven (num den : Nat) : Nat :=
  let q := num / den
  let twice := 2 * (num % den)
  if twice < den then q
  else if den < twice then q + 1
  else if q % 2 = 0 then q else q + 1

namespace Binary64

/-- The number zero. -/
def zero : Binary64 := ⟨0⟩

instance : Inhabited Binary64 := ⟨zero⟩

/-- Infinity. -/
def infinity : Binary64 := ⟨0x7FF0000000000000⟩

/-- A quiet not-a-number. -/
def nan : Binary64 := ⟨0x7FF8000000000000⟩

/-- The number with its sign bit changed. -/
def neg (x : Binary64) : Binary64 := ⟨x.bits ^^^ 0x8000000000000000⟩

/-- The leading bit of a normal mantissa, which the mantissa field leaves out. -/
def hiddenBit : Nat := 0x10000000000000

/-- A power of two times a numerator and denominator. -/
def scaleByTwo (num den : Nat) (exponent : Int) : Nat × Nat :=
  if 0 ≤ exponent then (num <<< exponent.toNat, den) else (num, den <<< (-exponent).toNat)

/-- The number of the format nearest to `num / den`. The mantissa gets 53 bits, fewer only below
the least normal number; what lies above the greatest number becomes infinity. -/
def ofRatio (num den : Nat) : Binary64 :=
  if num = 0 || den = 0 then zero
  else
    let guess : Int := (num.log2 : Int) - den.log2 - 53
    let (n, d) := scaleByTwo num den (-guess)
    let exponent := max (-1074) (if 2 * hiddenBit ≤ n / d then guess + 1 else guess)
    let (n, d) := scaleByTwo num den (-exponent)
    let mantissa := roundHalfEven n d
    if mantissa < hiddenBit then ⟨mantissa.toUInt64⟩
    else
      let word := (exponent + 1075).toNat * hiddenBit + (mantissa - hiddenBit)
      if 0x7FF0000000000000 ≤ word then infinity else ⟨word.toUInt64⟩

/-- The sign bit is set. -/
def isNegative (x : Binary64) : Bool :=
  x.bits.toNat / 0x8000000000000000 == 1

/-- The exponent field. -/
def exponentField (x : Binary64) : Nat :=
  x.bits.toNat / hiddenBit % 2048

/-- The mantissa field. -/
def fraction (x : Binary64) : Nat :=
  x.bits.toNat % hiddenBit

/-- Neither an infinity nor a not-a-number. -/
def isFinite (x : Binary64) : Bool :=
  x.exponentField != 2047

/-- A not-a-number. -/
def isNaN (x : Binary64) : Bool :=
  x.exponentField == 2047 && x.fraction != 0

/-- The mantissa and the exponent of two whose product is the magnitude of a finite number. -/
def magnitude (x : Binary64) : Nat × Int :=
  if x.exponentField = 0 then (x.fraction, -1074)
  else (x.fraction + hiddenBit, (x.exponentField : Int) - 1075)

/-- The magnitude of a finite number as a ratio. -/
def ratio (x : Binary64) : Nat × Nat :=
  let (m, e) := x.magnitude
  scaleByTwo m 1 e

end Binary64

end PackageRisk
