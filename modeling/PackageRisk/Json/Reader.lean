import PackageRisk.Json.Value
import PackageRisk.Text.Digits
import PackageRisk.Text.Utf8

/-!
# Reading JSON

A reader for complete JSON texts. It goes over bytes, each given as the character of its number,
and only what stands in quotation marks is read as UTF-8. Whole numbers within 64 bits stay exact;
other numbers are rounded twice, once for the digits and once for the power of ten, and of their
digits only as many count as fit 64 bits.
-/

namespace PackageRisk.Json

/-- Blanks of the format. -/
def isSpace (c : Char) : Bool :=
  c == ' ' || c == '\n' || c == '\t' || c == '\r'

/-- Without blanks at the front. -/
def skipSpaces (s : List Char) : List Char :=
  s.dropWhile isSpace

/-- The character of a short escape. -/
def shortEscape? : Char → Option Char
  | '"' => some '"'
  | '\\' => some '\\'
  | '/' => some '/'
  | 'b' => some '\x08'
  | 'f' => some '\x0c'
  | 'n' => some '\n'
  | 'r' => some '\r'
  | 't' => some '\t'
  | _ => none

/-- Read a string after its opening quotation mark. It stands for no text if it is not UTF-8 or has
a surrogate without a partner, but reading goes on. -/
def stringFrom? : (sofar : Utf8.Reader) → List Char → Option (Option String × List Char)
  | sofar, '"' :: rest => some (sofar.text?, rest)
  | sofar, '\\' :: 'u' :: a :: b :: c :: d :: '\\' :: 'u' :: e :: f :: g :: h :: rest => do
    let first ← Text.hexNumber? [a, b, c, d]
    let second ← Text.hexNumber? [e, f, g, h]
    if 0xD800 ≤ first ∧ first < 0xDC00 ∧ 0xDC00 ≤ second ∧ second < 0xE000 then
      let code := 0x10000 + (first - 0xD800) * 0x400 + (second - 0xDC00)
      stringFrom? (sofar.put (Char.ofNat code)) rest
    else if 0xD800 ≤ first ∧ first < 0xE000 then
      stringFrom? sofar.giveUp ('\\' :: 'u' :: e :: f :: g :: h :: rest)
    else
      stringFrom? (sofar.put (Char.ofNat first)) ('\\' :: 'u' :: e :: f :: g :: h :: rest)
  | sofar, '\\' :: 'u' :: a :: b :: c :: d :: rest => do
    let code ← Text.hexNumber? [a, b, c, d]
    if 0xD800 ≤ code ∧ code < 0xE000 then stringFrom? sofar.giveUp rest
    else stringFrom? (sofar.put (Char.ofNat code)) rest
  | sofar, '\\' :: c :: rest => do
    let c ← shortEscape? c
    stringFrom? (sofar.put c) rest
  | sofar, c :: rest =>
    if c.toNat < 32 then none else stringFrom? (sofar.step (.ofNat c.toNat)) rest
  | _, [] => none
  termination_by _ s => s.length

/-- Append digits to a number as long as it fits 64 bits; the number of digits appended counts on
from `taken`. -/
def appendDigits (n taken : Nat) : List Char → Nat × Nat
  | [] => (n, taken)
  | c :: rest =>
    let longer := n * 10 + (c.toNat - 48)
    if maxUnsigned < longer then (n, taken) else appendDigits longer (taken + 1) rest

/-- A number times a power of ten, itself rounded first. -/
def timesPower (x : Binary64) (exponent : Int) : Binary64 :=
  let (m, d) := x.ratio
  let (p, q) := (Binary64.ofRatio (Nat.pow 10 exponent.natAbs) 1).ratio
  if exponent < 0 then .ofRatio (m * q) (d * p) else .ofRatio (m * p) (d * q)

/-- The greatest power of ten of the binary format. -/
def maxPower : Int := 308

/-- The magnitude of `significand · 10 ^ exponent`. A power of ten too small for the format is
divided out in two steps; two of those leave nothing. -/
def magnitude (significand : Nat) (exponent : Int) : Binary64 :=
  let x := Binary64.ofRatio significand 1
  if significand = 0 then .zero
  else if maxPower < exponent then .infinity
  else if -maxPower ≤ exponent then timesPower x exponent
  else if -2 * maxPower ≤ exponent then
    timesPower (timesPower x (-maxPower)) (exponent + maxPower)
  else .zero

/-- A number with a fraction or an exponent, or one that does not fit 64 bits. Digits beyond 64
bits count for their places only. -/
def binaryNumber (negative : Bool) (whole fraction : List Char) (exponent : Int) : Value :=
  let (n, taken) := appendDigits 0 0 whole
  let (significand, places) := appendDigits n 0 fraction
  let x := magnitude significand (exponent + (whole.length - taken : Nat) - places)
  if x.isFinite then .float (if negative then x.neg else x) else .unreadable

/-- The value of a number with the given parts. -/
def numberValue (negative : Bool) (whole fraction : List Char) (exponent : Option Int) : Value :=
  let n := Text.decimalValue whole
  match fraction, exponent with
  | [], none =>
    if negative then
      if n = 0 then .float Binary64.zero.neg
      else if minSigned ≤ -(n : Int) then .int (-n)
      else binaryNumber true whole [] 0
    else if n ≤ maxUnsigned then .int n
    else binaryNumber false whole [] 0
  | _, _ => binaryNumber negative whole fraction (exponent.getD 0)

/-- Digits at the front, at least one, and what follows. -/
def someDigits? (s : List Char) : Option (List Char × List Char) :=
  let digits := s.takeWhile Char.isDigit
  if digits.isEmpty then none else some (digits, s.dropWhile Char.isDigit)

/-- The fraction of a number, if there is one. -/
def fractionPart? : List Char → Option (List Char × List Char)
  | '.' :: rest => someDigits? rest
  | s => some ([], s)

/-- The exponent of a number, if there is one. -/
def exponentPart? : List Char → Option (Option Int × List Char)
  | c :: rest =>
    if c = 'e' ∨ c = 'E' then do
      let (negative, rest) :=
        match rest with
        | '-' :: rest => (true, rest)
        | '+' :: rest => (false, rest)
        | rest => (false, rest)
      let (digits, rest) ← someDigits? rest
      let n : Int := Text.decimalValue digits
      return (some (if negative then -n else n), rest)
    else some (none, c :: rest)
  | [] => some (none, [])

/-- Read a number without its sign. -/
def numberFrom? (negative : Bool) (s : List Char) : Option (Value × List Char) := do
  let (whole, rest) ← someDigits? s
  if whole.length ≠ 1 ∧ whole.head? = some '0' then none
  let (fraction, rest) ← fractionPart? rest
  let (exponent, rest) ← exponentPart? rest
  return (numberValue negative whole fraction exponent, rest)

mutual

/-- Read a value; blanks may stand before it. -/
def valueFrom? : (fuel : Nat) → List Char → Option (Value × List Char)
  | 0, _ => none
  | fuel + 1, s =>
    match skipSpaces s with
    | 'n' :: 'u' :: 'l' :: 'l' :: rest => some (.null, rest)
    | 't' :: 'r' :: 'u' :: 'e' :: rest => some (.bool true, rest)
    | 'f' :: 'a' :: 'l' :: 's' :: 'e' :: rest => some (.bool false, rest)
    | '"' :: rest => do
      let (text, rest) ← stringFrom? {} rest
      return (text.elim .unreadable .str, rest)
    | '[' :: rest =>
      match skipSpaces rest with
      | ']' :: rest => some (.arr [], rest)
      | rest => elementsFrom? fuel [] rest
    | '\x7b' :: rest =>
      match skipSpaces rest with
      | '\x7d' :: rest => some (.obj [], rest)
      | rest => membersFrom? fuel (some []) rest
    | '-' :: rest => numberFrom? true rest
    | rest => numberFrom? false rest

/-- Read the elements of an array that is not empty; those so far stand last first. -/
def elementsFrom? : (fuel : Nat) → (sofar : List Value) → List Char →
    Option (Value × List Char)
  | 0, _, _ => none
  | fuel + 1, sofar, s =>
    match valueFrom? fuel s with
    | none => none
    | some (v, rest) =>
      match skipSpaces rest with
      | ',' :: rest => elementsFrom? fuel (v :: sofar) rest
      | ']' :: rest => some (.arr (v :: sofar).reverse, rest)
      | _ => none

/-- Read the members of an object that is not empty; those so far stand last first. They are given
up at a name that stands for nothing, but reading goes on. -/
def membersFrom? : (fuel : Nat) → (sofar : Option (List (String × Value))) → List Char →
    Option (Value × List Char)
  | 0, _, _ => none
  | fuel + 1, sofar, s =>
    match skipSpaces s with
    | '"' :: rest =>
      match stringFrom? {} rest with
      | none => none
      | some (name, rest) =>
        match skipSpaces rest with
        | ':' :: rest =>
          match valueFrom? fuel rest with
          | none => none
          | some (v, rest) =>
            let members := do return (← name, v) :: (← sofar)
            match skipSpaces rest with
            | ',' :: rest => membersFrom? fuel members rest
            | '\x7d' :: rest => some (members.elim .unreadable fun ms => .obj ms.reverse, rest)
            | _ => none
        | _ => none
    | _ => none

end

/-- Read a complete text from its bytes. Every step of the reader takes one of them, so twice the
length is fuel enough. -/
def parseBytes? (bytes : ByteArray) : Option Value :=
  let s := bytes.data.toList.map fun b => Char.ofNat b.toNat
  match valueFrom? (2 * s.length + 2) s with
  | some (v, rest) => if (skipSpaces rest).isEmpty then some v else none
  | none => none

/-- Read a complete text. -/
def parse? (text : String) : Option Value :=
  parseBytes? text.toUTF8

end PackageRisk.Json
