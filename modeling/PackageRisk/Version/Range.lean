import PackageRisk.NameMap
import PackageRisk.Text.Blank
import PackageRisk.Version.Requirement

/-!
# Version ranges

A range is a list of alternatives separated by `||`, each a list of comparators separated by
blanks or two versions around a lone hyphen. A request names a version by a tag, by an exact
version or by a range; a range stands for the greatest published version that one of its
alternatives admits.
-/

namespace PackageRisk

namespace Range

/-- The operators that may stand apart from their versions. -/
def operators : List (List Char) :=
  [['>', '='], ['<', '='], ['>'], ['<'], ['='], ['^'], ['~']]

/-- Attach each free-standing operator to the version after it and drop the letter v in front of
versions. An operator gives way to one that follows it, and none is left at the end. -/
def attachOperators : (pending : List Char) → List (List Char) → List (List Char)
  | _, [] => []
  | pending, token :: rest =>
    if token ∈ operators then attachOperators token rest
    else (pending ++ token.dropWhile (· == 'v')) :: attachOperators [] rest

/-- An alternative in the form in which requirements are written. -/
def normalForm (alternative : List Char) : List Char :=
  match Text.words alternative with
  | [] => ['*']
  | [low, ['-'], high] => ['>', '='] ++ low ++ [',', ' ', '<', '='] ++ high
  | tokens => Text.join [',', ' '] (attachOperators [] tokens)

/-- The parts between double bars. -/
def splitBars : List Char → List (List Char)
  | [] => [[]]
  | '|' :: '|' :: rest => [] :: splitBars rest
  | c :: rest =>
    match splitBars rest with
    | [] => [[c]]
    | part :: parts => (c :: part) :: parts

/-- Read a range. -/
def parse? (range : List Char) : Option (List Requirement) :=
  (splitBars range).mapM fun alternative => Requirement.parse? (normalForm alternative)

end Range

/-- The greater of two published versions, the second if they are equal. -/
def laterOf (a b : Version × String) : Version × String :=
  if a.1.cmp b.1 = .gt then a else b

/-- The greatest of some published versions. -/
def greatest? : List (Version × String) → Option (Version × String)
  | [] => none
  | v :: rest => some (rest.foldl laterOf v)

/-- The text of a request without blanks around it; nothing, a star and the letter x stand for
the latest version. -/
def requestedText (request : String) : String :=
  let text := Text.trim request
  if text = "" ∨ text = "*" ∨ text = "x" then "latest" else text

/-- The greatest published version that one of some requirements admits. -/
def greatestAdmitted? (alternatives : List Requirement) (published : List String) :
    Option String :=
  let candidates := published.filterMap fun raw =>
    match Version.parse? raw.toList with
    | some v => if alternatives.any (·.admits v) then some (v, raw) else none
    | none => none
  (greatest? candidates).map Prod.snd

/-- The published version that a request means. A tag decides by itself; otherwise an exact
version comes before a range. -/
def resolveVersion? (request : String) (tags : NameMap String) (published : List String) :
    Option String :=
  let text := requestedText request
  match tags.get? text with
  | some tagged => if tagged ∈ published then some tagged else none
  | none =>
    let exact := String.ofList (text.toList.dropWhile fun c => c == 'v' || c == '=')
    if exact ∈ published then some exact
    else
      match Range.parse? text.toList with
      | some alternatives => greatestAdmitted? alternatives published
      | none => none

end PackageRisk
