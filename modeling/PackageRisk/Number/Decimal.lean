import PackageRisk.Number.Binary64

/-!
# Decimal texts of binary numbers

The shortest digits that identify a binary number among its neighbours, and the layouts in which
they are written: with a point and possibly an exponent, purely positional, or rounded to a fixed
number of places.
-/

namespace PackageRisk

/-- A decimal `digits · 10 ^ exponent`. -/
structure Decimal where
  digits : Nat
  exponent : Int
  deriving DecidableEq, Repr

/-- A power of ten times a numerator and denominator. -/
def scaleByTen (num den : Nat) (exponent : Int) : Nat × Nat :=
  if 0 ≤ exponent then (num * Nat.pow 10 exponent.toNat, den)
  else (num, den * Nat.pow 10 (-exponent).toNat)

/-- The decimal exponent of a positive ratio below one: how far it is from its first digit. -/
def leadingZeros (num den : Nat) : (fuel : Nat) → Nat
  | 0 => 0
  | fuel + 1 => if den ≤ num then 0 else leadingZeros (num * 10) den fuel + 1

namespace Decimal

/-- The digits as text. -/
def digitText (d : Decimal) : List Char :=
  (toString d.digits).toList

/-- Without zeros at the end of the digits. -/
def stripZeros : (fuel : Nat) → Decimal → Decimal
  | 0, d => d
  | fuel + 1, d =>
    if d.digits ≠ 0 ∧ d.digits % 10 = 0 then stripZeros fuel ⟨d.digits / 10, d.exponent + 1⟩
    else d

end Decimal

namespace Binary64

/-- Decimals with the given exponent that round to a number: the neighbours of its exact value
`value / den`, the nearer first, as far as they lie between `low / den` and `high / den`. -/
def decimalAt? (value low high den : Nat) (closed : Bool) (exponent : Int) : Option Decimal :=
  let (v, d) := scaleByTen value den (-exponent)
  let (l, _) := scaleByTen low den (-exponent)
  let (h, _) := scaleByTen high den (-exponent)
  let within (n : Nat) := if closed then l ≤ n * d && n * d ≤ h else l < n * d && n * d < h
  let floor := v / d
  let twice := 2 * (v % d)
  let downFirst := twice < d || (twice == d && floor % 2 == 0)
  let (first, second) := if downFirst then (floor, floor + 1) else (floor + 1, floor)
  if within first then some ⟨first, exponent⟩
  else if within second then some ⟨second, exponent⟩
  else none

/-- The first grid from `exponent` downwards with a decimal that identifies the number. -/
def shortestFrom (value low high den : Nat) (closed : Bool) (exponent : Int) :
    (fuel : Nat) → Decimal
  | 0 => ⟨0, 0⟩
  | fuel + 1 =>
    match decimalAt? value low high den closed exponent with
    | some d => d
    | none => shortestFrom value low high den closed (exponent - 1) fuel

/-- The decimal with the fewest digits that rounds to the magnitude of a finite number, the
nearest of those. Seventeen digits always suffice. -/
def shortest (x : Binary64) : Decimal :=
  let (m, e) := x.magnitude
  if m = 0 then ⟨0, 0⟩
  else
    let (unit, den) := scaleByTwo 1 1 (e - 2)
    let below := if m = hiddenBit ∧ 1 < x.exponentField then 1 else 2
    let value := 4 * m * unit
    let low := (4 * m - below) * unit
    let high := (4 * m + 2) * unit
    let leading : Int :=
      if den ≤ value then ((toString (value / den)).length : Int) - 1
      else -(leadingZeros value den 400 : Int)
    (shortestFrom value low high den (m % 2 = 0) leading 20).stripZeros 400

/-- Zeros as text. -/
def zeros (n : Nat) : List Char :=
  List.replicate n '0'

/-- Digits with the point after the first `point` of them, zeros filled in on either side. -/
def positional (digits : List Char) (point : Int) : List Char :=
  if point ≤ 0 then ['0', '.'] ++ zeros (-point).toNat ++ digits
  else if digits.length ≤ point.toNat then digits ++ zeros (point.toNat - digits.length)
  else digits.take point.toNat ++ '.' :: digits.drop point.toNat

/-- The text of a sign. -/
def signText (x : Binary64) : List Char :=
  if x.isNegative then ['-'] else []

/-- The form of data files: positional with at least one place while the point stands from five
places before the first digit to sixteen after it, with an exponent otherwise. -/
def interchangeText (x : Binary64) : String :=
  let d := x.shortest
  let digits := d.digitText
  let point : Int := digits.length + d.exponent
  let body :=
    if d.digits = 0 then ['0', '.', '0']
    else if 0 < point ∧ point ≤ 16 then
      let text := positional digits point
      if text.contains '.' then text else text ++ ['.', '0']
    else if -5 < point ∧ point ≤ 0 then positional digits point
    else
      let mantissa :=
        match digits with
        | [] => []
        | [c] => [c]
        | c :: rest => c :: '.' :: rest
      mantissa ++ 'e' :: (toString (point - 1)).toList
  String.ofList (x.signText ++ body)

/-- The positional form, with one place when the number is whole. -/
def plainText (x : Binary64) : String :=
  let d := x.shortest
  let digits := d.digitText
  let text :=
    if d.digits = 0 then ['0'] else positional digits (digits.length + d.exponent)
  String.ofList (x.signText ++ if text.contains '.' then text else text ++ ['.', '0'])

/-- Rounded to a fixed number of places, a tie to the even last digit. -/
def fixedText (places : Nat) (x : Binary64) : String :=
  let (num, den) := x.ratio
  let units := roundHalfEven (num * Nat.pow 10 places) den
  let digits := (toString units).toList
  let padded := zeros (places + 1 - digits.length) ++ digits
  let whole := padded.length - places
  String.ofList (x.signText ++ padded.take whole ++
    if places = 0 then [] else '.' :: padded.drop whole)

end Binary64

end PackageRisk
