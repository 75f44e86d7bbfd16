import PackageRisk.Text.Digits
import PackageRisk.Text.Letters

/-!
# Versions

Versions of three numbers with an optional pre-release and optional build metadata, and their
total order. A pre-release comes before its release; its identifiers are compared one by one,
numbers before words and a shorter list before its continuations.
-/

namespace PackageRisk

/-- A semantic version. Pre-release and build are lists of identifiers, empty when absent. -/
structure Version where
  major : Nat
  minor : Nat
  patch : Nat
  pre : List (List Char) := []
  build : List (List Char) := []
  deriving DecidableEq, Repr

/-- The greatest number that may stand in a version. -/
def maxVersionNumber : Nat := UInt64.size - 1

/-- A number at the front, without zeros before other digits, and what follows it. -/
def versionNumber? (s : List Char) : Option (Nat × List Char) :=
  let digits := s.takeWhile Char.isDigit
  let n := Text.decimalValue digits
  if digits.isEmpty then none
  else if digits.length ≠ 1 ∧ digits.head? = some '0' then none
  else if maxVersionNumber < n then none
  else some (n, s.dropWhile Char.isDigit)

/-- A character of an identifier. -/
def isIdentifierChar (c : Char) : Bool :=
  c.isAlphanum || c == '-'

/-- Nothing but digits. -/
def isNumeric (identifier : List Char) : Bool :=
  identifier.all Char.isDigit

/-- A number with zeros before other digits. -/
def hasLeadingZero (identifier : List Char) : Bool :=
  isNumeric identifier && 1 < identifier.length && identifier.head? == some '0'

/-- Identifiers at the front with dots between them, none of them empty, and what follows. Zeros
before a number are refused unless `leadingZeros` allows them. -/
def identifiers? (leadingZeros : Bool) (s : List Char) :
    Option (List (List Char) × List Char) :=
  let text := s.takeWhile fun c => isIdentifierChar c || c == '.'
  let parts := Text.splitAt (· == '.') text
  if parts.any (·.isEmpty) then none
  else if !leadingZeros && parts.any hasLeadingZero then none
  else some (parts, s.dropWhile fun c => isIdentifierChar c || c == '.')

/-- Identifiers after a mark, if the mark is there. -/
def markedIdentifiers? (mark : Char) (leadingZeros : Bool) :
    List Char → Option (List (List Char) × List Char)
  | [] => some ([], [])
  | c :: rest => if c = mark then identifiers? leadingZeros rest else some ([], c :: rest)

/-- A dot at the front; what follows it. -/
def afterDot? : List Char → Option (List Char)
  | '.' :: rest => some rest
  | _ => none

namespace Version

/-- Read a complete version. -/
def parse? (s : List Char) : Option Version := do
  let (major, s) ← versionNumber? s
  let (minor, s) ← versionNumber? (← afterDot? s)
  let (patch, s) ← versionNumber? (← afterDot? s)
  let (pre, s) ← markedIdentifiers? '-' false s
  let (build, s) ← markedIdentifiers? '+' true s
  if s.isEmpty then some ⟨major, minor, patch, pre, build⟩ else none

/-- Texts in the order of their characters. -/
def compareText : List Char → List Char → Ordering
  | [], [] => .eq
  | [], _ :: _ => .lt
  | _ :: _, [] => .gt
  | c :: s, d :: t => if c < d then .lt else if d < c then .gt else compareText s t

/-- Numbers written without leading zeros. -/
def compareDigits (a b : List Char) : Ordering :=
  (compare a.length b.length).then (compareText a b)

/-- Identifiers of a pre-release: numbers by value and before words. -/
def comparePreIdentifier (a b : List Char) : Ordering :=
  match isNumeric a, isNumeric b with
  | true, true => compareDigits a b
  | true, false => .lt
  | false, true => .gt
  | false, false => compareText a b

/-- Identifiers of build metadata, among which equal numbers are ordered by their zeros. -/
def compareBuildIdentifier (a b : List Char) : Ordering :=
  match isNumeric a, isNumeric b with
  | true, true =>
    (compareDigits (a.dropWhile (· == '0')) (b.dropWhile (· == '0'))).then
      (compare a.length b.length)
  | true, false => .lt
  | false, true => .gt
  | false, false => compareText a b

/-- Lists in the order of their first difference; a list comes before its continuations. -/
def compareLists {α : Type} (compareOne : α → α → Ordering) : List α → List α → Ordering
  | [], [] => .eq
  | [], _ :: _ => .lt
  | _ :: _, [] => .gt
  | a :: as, b :: bs => (compareOne a b).then (compareLists compareOne as bs)

/-- Pre-releases in order; none at all comes last. -/
def comparePre : List (List Char) → List (List Char) → Ordering
  | [], [] => .eq
  | [], _ :: _ => .gt
  | _ :: _, [] => .lt
  | a, b => compareLists comparePreIdentifier a b

/-- Versions in order. -/
def cmp (a b : Version) : Ordering :=
  (compare a.major b.major).then <|
    (compare a.minor b.minor).then <|
      (compare a.patch b.patch).then <|
        (comparePre a.pre b.pre).then (compareLists compareBuildIdentifier a.build b.build)

end Version

end PackageRisk
