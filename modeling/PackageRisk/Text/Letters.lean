/-!
# Letter case and substrings

Case is ASCII case throughout: only `A` to `Z` and `a` to `z` have a partner, every other
character stands for itself. Comparing without regard to case is comparing lower-case forms.
-/

namespace PackageRisk.Text

/-- The text with `A` to `Z` replaced by `a` to `z`. -/
def lower (s : String) : String :=
  String.ofList (s.toList.map Char.toLower)

/-- Equality up to ASCII case. -/
def sameIgnoringCase (a b : String) : Bool :=
  lower a == lower b

/-- The first list begins with the second; what follows it then. -/
def dropLeading? : List Char → List Char → Option (List Char)
  | s, [] => some s
  | [], _ :: _ => none
  | c :: s, d :: t => if c = d then dropLeading? s t else none

/-- The needle occurs somewhere in the text. -/
def occursIn (needle : List Char) : List Char → Bool
  | [] => needle.isEmpty
  | c :: rest => needle.isPrefixOf (c :: rest) || occursIn needle rest

/-- The parts between the characters that satisfy a test, empty ones included; there is always
at least one. -/
def splitAt (isSeparator : Char → Bool) : List Char → List (List Char)
  | [] => [[]]
  | c :: rest =>
    if isSeparator c then [] :: splitAt isSeparator rest
    else
      match splitAt isSeparator rest with
      | [] => [[c]]
      | part :: parts => (c :: part) :: parts

/-- The part after the last separator, or the whole text if there is none. -/
def afterLast (isSeparator : Char → Bool) (s : List Char) : List Char :=
  (s.reverse.takeWhile (fun c => !isSeparator c)).reverse

/-- The part before the first separator, or the whole text if there is none. -/
def beforeFirst (isSeparator : Char → Bool) (s : List Char) : List Char :=
  s.takeWhile (fun c => !isSeparator c)

/-- Drop the characters at the end that satisfy a test. -/
def dropTrailing (drop : Char → Bool) (s : List Char) : List Char :=
  (s.reverse.dropWhile drop).reverse

theorem splitAt_ne_nil (isSeparator : Char → Bool) (s : List Char) :
    splitAt isSeparator s ≠ [] := by
  cases s with
  | nil => simp [splitAt]
  | cons c rest =>
    simp only [splitAt]
    split
    · simp
    · split <;> simp

end PackageRisk.Text
