import PackageRisk.Json.Value
import PackageRisk.Text.Digits

/-!
# Writing JSON

Two layouts: everything on one line without blanks, and one member or element to a line with an
indentation of two spaces a level.
-/

namespace PackageRisk.Json

/-- A character inside quotation marks. -/
def escapeChar (c : Char) : List Char :=
  match c with
  | '"' => ['\\', '"']
  | '\\' => ['\\', '\\']
  | '\n' => ['\\', 'n']
  | '\r' => ['\\', 'r']
  | '\t' => ['\\', 't']
  | '\x08' => ['\\', 'b']
  | '\x0c' => ['\\', 'f']
  | c =>
    if c.toNat < 32 then
      ['\\', 'u', '0', '0', Text.hexDigit (c.toNat / 16), Text.hexDigit (c.toNat % 16)]
    else [c]

/-- A string in quotation marks. -/
def quoted (s : String) : String :=
  String.ofList ('"' :: s.toList.flatMap escapeChar ++ ['"'])

/-- The text of a number; what is not finite is written as null. -/
def floatText (x : Binary64) : String :=
  if x.isFinite then x.interchangeText else "null"

mutual

/-- A value on one line. -/
def Value.compact : Value → String
  | .null => "null"
  | .bool b => if b then "true" else "false"
  | .int n => toString n
  | .float x => floatText x
  | .str s => quoted s
  | .arr elements => "[" ++ String.intercalate "," (compactElements elements) ++ "]"
  | .obj members => "\x7b" ++ String.intercalate "," (compactMembers members) ++ "\x7d"
  | .unreadable => "null"

/-- The elements of an array, each on one line. -/
def compactElements : List Value → List String
  | [] => []
  | v :: rest => v.compact :: compactElements rest

/-- The members of an object, each on one line. -/
def compactMembers : List (String × Value) → List String
  | [] => []
  | (name, v) :: rest => (quoted name ++ ":" ++ v.compact) :: compactMembers rest

end

/-- Blanks at the beginning of a line. -/
def indentation (level : Nat) : String :=
  String.ofList (List.replicate (2 * level) ' ')

/-- Lines between brackets; an empty list of lines needs none. -/
def bracketed (level : Nat) (opening closing : String) (lines : List String) : String :=
  if lines.isEmpty then opening ++ closing
  else
    opening ++ "\n" ++
      String.intercalate ",\n" (lines.map fun line => indentation (level + 1) ++ line) ++
      "\n" ++ indentation level ++ closing

mutual

/-- A value on several lines, the first of which is indented already. -/
def Value.prettyAt (level : Nat) : Value → String
  | .arr elements => bracketed level "[" "]" (prettyElements (level + 1) elements)
  | .obj members => bracketed level "\x7b" "\x7d" (prettyMembers (level + 1) members)
  | .null => "null"
  | .bool b => if b then "true" else "false"
  | .int n => toString n
  | .float x => floatText x
  | .str s => quoted s
  | .unreadable => "null"

/-- The elements of an array, on several lines each. -/
def prettyElements (level : Nat) : List Value → List String
  | [] => []
  | v :: rest => v.prettyAt level :: prettyElements level rest

/-- The members of an object, on several lines each. -/
def prettyMembers (level : Nat) : List (String × Value) → List String
  | [] => []
  | (name, v) :: rest => (quoted name ++ ": " ++ v.prettyAt level) :: prettyMembers level rest

end

/-- A value on several lines. -/
def Value.pretty (v : Value) : String :=
  v.prettyAt 0

end PackageRisk.Json
