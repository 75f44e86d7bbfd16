import PackageRisk.Version.Basic

/-!
# Version requirements

A requirement is a list of comparators that a version has to meet, all of them. A pre-release
meets it only if a comparator names a pre-release of the same three numbers.
-/

namespace PackageRisk

/-- How a version is compared. -/
inductive ComparisonOp where
  | exact
  | greater
  | greaterEq
  | less
  | lessEq
  | tilde
  | caret
  | wildcard
  deriving DecidableEq, Repr

/-- One condition on a version; numbers that are left out match anything. -/
structure Comparator where
  op : ComparisonOp
  major : Nat
  minor : Option Nat := none
  patch : Option Nat := none
  pre : List (List Char) := []
  deriving DecidableEq, Repr

/-- Conditions that all have to hold. No condition is written as a star. -/
structure Requirement where
  comparators : List Comparator
  deriving DecidableEq, Repr

/-! ## Reading -/

/-- Without spaces at the front. -/
def skipSpaces (s : List Char) : List Char :=
  s.dropWhile (· == ' ')

/-- An operator at the front, if there is one, and what follows. -/
def ComparisonOp.read : List Char → Option ComparisonOp × List Char
  | '=' :: rest => (some .exact, rest)
  | '>' :: '=' :: rest => (some .greaterEq, rest)
  | '>' :: rest => (some .greater, rest)
  | '<' :: '=' :: rest => (some .lessEq, rest)
  | '<' :: rest => (some .less, rest)
  | '~' :: rest => (some .tilde, rest)
  | '^' :: rest => (some .caret, rest)
  | s => (none, s)

/-- A wildcard at the front; what follows it. -/
def afterWildcard? : List Char → Option (List Char)
  | '*' :: rest | 'x' :: rest | 'X' :: rest => some rest
  | _ => none

/-- A part of a comparator after a dot. -/
inductive ComparatorPart where
  | absent
  | wildcard
  | number (n : Nat)
  deriving DecidableEq, Repr

/-- The number of a part. -/
def ComparatorPart.number? : ComparatorPart → Option Nat
  | number n => some n
  | _ => none

/-- A dot and a part after it, if there is a dot. -/
def ComparatorPart.read? : List Char → Option (ComparatorPart × List Char)
  | '.' :: rest =>
    match afterWildcard? rest with
    | some rest => some (.wildcard, rest)
    | none => (versionNumber? rest).map fun (n, rest) => (.number n, rest)
  | s => some (.absent, s)

/-- Read a comparator and the spaces after it. Without an operator it is compatible with the
given version, or a wildcard if it contains one. After a wildcard only a wildcard may follow, and
only a full version has a pre-release or build metadata. -/
def Comparator.read? (s : List Char) : Option (Comparator × List Char) := do
  let (op, s) := ComparisonOp.read s
  let (major, s) ← versionNumber? (skipSpaces s)
  let (minor, s) ← ComparatorPart.read? s
  let (patch, s) ← ComparatorPart.read? s
  if minor = .wildcard ∧ patch.number?.isSome then none
  let (pre, s) ← if patch.number?.isSome then markedIdentifiers? '-' false s else some ([], s)
  let (_, s) ← if patch.number?.isSome then markedIdentifiers? '+' true s else some ([], s)
  let defaultOp : ComparisonOp :=
    if minor = .wildcard ∨ patch = .wildcard then .wildcard else .caret
  return (⟨op.getD defaultOp, major, minor.number?, patch.number?, pre⟩, skipSpaces s)

/-- Comparators that one requirement may have. -/
def maxComparators : Nat := 32

/-- Read comparators with commas between them, at most `room` of them. -/
def comparators? : (room : Nat) → List Char → Option (List Comparator)
  | 0, _ => none
  | room + 1, s =>
    match Comparator.read? s with
    | none => none
    | some (c, []) => some [c]
    | some (c, ',' :: rest) => (comparators? room (skipSpaces rest)).map (c :: ·)
    | some _ => none

/-- Read a complete requirement. -/
def Requirement.parse? (s : List Char) : Option Requirement :=
  let s := skipSpaces s
  match afterWildcard? s with
  | some rest => if (skipSpaces rest).isEmpty then some ⟨[]⟩ else none
  | none => (comparators? maxComparators s).map Requirement.mk

/-! ## Writing -/

/-- The sign of an operator. -/
def ComparisonOp.sign : ComparisonOp → String
  | exact => "="
  | greater => ">"
  | greaterEq => ">="
  | less => "<"
  | lessEq => "<="
  | tilde => "~"
  | caret => "^"
  | wildcard => ""

/-- Identifiers with dots between them. -/
def identifierText (identifiers : List (List Char)) : String :=
  String.intercalate "." (identifiers.map String.ofList)

/-- The written form of a comparator. -/
def Comparator.display (c : Comparator) : String :=
  let star := if c.op = .wildcard then ".*" else ""
  c.op.sign ++ toString c.major ++
    match c.minor with
    | none => star
    | some minor =>
      "." ++ toString minor ++
        match c.patch with
        | none => star
        | some patch =>
          "." ++ toString patch ++ if c.pre.isEmpty then "" else "-" ++ identifierText c.pre

/-- The written form of a requirement. -/
def Requirement.display (r : Requirement) : String :=
  if r.comparators.isEmpty then "*"
  else String.intercalate ", " (r.comparators.map Comparator.display)

/-! ## Matching -/

namespace Comparator

/-- The version agrees with every number given, and with the pre-release. -/
def matchesExact (c : Comparator) (v : Version) : Bool :=
  v.major == c.major && c.minor.all (v.minor == ·) && c.patch.all (v.patch == ·) && v.pre == c.pre

/-- The version lies on one side of the comparator; numbers that are left out are never passed. -/
def matchesBeyond (side : Ordering) (c : Comparator) (v : Version) : Bool :=
  if v.major ≠ c.major then compare v.major c.major == side
  else
    match c.minor with
    | none => false
    | some minor =>
      if v.minor ≠ minor then compare v.minor minor == side
      else
        match c.patch with
        | none => false
        | some patch =>
          if v.patch ≠ patch then compare v.patch patch == side
          else Version.comparePre v.pre c.pre == side

/-- The version's pre-release does not come before the comparator's. -/
def preAtLeast (c : Comparator) (v : Version) : Bool :=
  Version.comparePre v.pre c.pre != .lt

/-- Later patches of the same minor version. -/
def matchesTilde (c : Comparator) (v : Version) : Bool :=
  if v.major ≠ c.major then false
  else if c.minor.any (v.minor != ·) then false
  else
    match c.patch with
    | some patch => if v.patch ≠ patch then decide (patch < v.patch) else c.preAtLeast v
    | none => c.preAtLeast v

/-- Later versions with the same first number that is not zero. -/
def matchesCaret (c : Comparator) (v : Version) : Bool :=
  if v.major ≠ c.major then false
  else
    match c.minor, c.patch with
    | none, _ => true
    | some minor, none =>
      if 0 < c.major then decide (minor ≤ v.minor) else v.minor == minor
    | some minor, some patch =>
      if 0 < c.major then
        if v.minor ≠ minor then decide (minor < v.minor)
        else if v.patch ≠ patch then decide (patch < v.patch)
        else c.preAtLeast v
      else if 0 < minor then
        if v.minor ≠ minor then false
        else if v.patch ≠ patch then decide (patch < v.patch)
        else c.preAtLeast v
      else if v.minor ≠ minor ∨ v.patch ≠ patch then false
      else c.preAtLeast v

/-- The version meets the condition, pre-releases not held against it. -/
def admits (c : Comparator) (v : Version) : Bool :=
  match c.op with
  | .exact | .wildcard => c.matchesExact v
  | .greater => c.matchesBeyond .gt v
  | .greaterEq => c.matchesExact v || c.matchesBeyond .gt v
  | .less => c.matchesBeyond .lt v
  | .lessEq => c.matchesExact v || c.matchesBeyond .lt v
  | .tilde => c.matchesTilde v
  | .caret => c.matchesCaret v

/-- The condition names a pre-release of the version's three numbers. -/
def invitesPre (c : Comparator) (v : Version) : Bool :=
  c.major == v.major && c.minor == some v.minor && c.patch == some v.patch && !c.pre.isEmpty

end Comparator

/-- The version meets all conditions, and one of them invites it if it is a pre-release. -/
def Requirement.admits (r : Requirement) (v : Version) : Bool :=
  r.comparators.all (·.admits v) && (v.pre.isEmpty || r.comparators.any (·.invitesPre v))

end PackageRisk
