import PackageRisk.Text.Digits

/-!
# Decimal integers

Reading an integer of 64 bits: ASCII digits with an optional sign, zeros in front allowed.
-/

namespace PackageRisk.Text

/-- The sign at the front of a number, whether it is a minus, and what follows. -/
def sign : List Char → Bool × List Char
  | '-' :: rest => (true, rest)
  | '+' :: rest => (false, rest)
  | s => (false, s)

/-- The integer that a text denotes, if it fits 64 bits. -/
def integer? (s : List Char) : Option Int :=
  let (negative, digits) := sign s
  if digits.isEmpty || !digits.all Char.isDigit then none
  else
    let n : Int := if negative then -decimalValue digits else decimalValue digits
    if Int64.minValue.toInt ≤ n ∧ n ≤ Int64.maxValue.toInt then some n else none

end PackageRisk.Text
