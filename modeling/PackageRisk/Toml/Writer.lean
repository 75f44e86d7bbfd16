import PackageRisk.Text.Digits
import PackageRisk.Toml.Value

/-!
# Writing TOML

The layout for files that people edit: first the plain members of a table, then each subtable
under a header of its own with an empty line before it. An array with several elements has a line
for each of them, and an array of tables becomes a series of headers. The members of the document
itself keep their order; in the tables below it, members without tables come first, then arrays
with a table among their elements, then tables. Strings take the first notation that can hold them
as they are.
-/

namespace PackageRisk.Toml

/-! ## Strings -/

/-- A control character other than a tab or a line end, which only an escape can stand for. -/
def needsEscape (c : Char) : Bool :=
  (c.toNat < 32 && c != '\t' && c != '\n') || c.toNat == 127

/-- The longest run of a character, with `run` of them just before the text. -/
def longestRun (c : Char) (run : Nat) : List Char → Nat
  | [] => run
  | d :: rest => if d = c then longestRun c (run + 1) rest else max run (longestRun c 0 rest)

/-- A character other than a quotation mark inside quotation marks; `lines` allows line ends. -/
def escapeChar (lines : Bool) (c : Char) : List Char :=
  match c with
  | '\x08' => ['\\', 'b']
  | '\t' => ['\\', 't']
  | '\n' => if lines then ['\n'] else ['\\', 'n']
  | '\x0c' => ['\\', 'f']
  | '\r' => ['\\', 'r']
  | '\\' => ['\\', '\\']
  | c =>
    if needsEscape c then
      ['\\', 'u', '0', '0', Text.upperHexDigit (c.toNat / 16), Text.upperHexDigit (c.toNat % 16)]
    else [c]

/-- Text inside quotation marks, of which at most `room` may stand in a row without an escape;
`left` of them are left just now. -/
def escaped (lines : Bool) (room left : Nat) : List Char → List Char
  | [] => []
  | c :: rest =>
    if c = '"' then
      match left with
      | 0 => '\\' :: '"' :: escaped lines room room rest
      | left + 1 => '"' :: escaped lines room left rest
    else escapeChar lines c ++ escaped lines room room rest

/-- A basic string. -/
def basicText (s : List Char) : List Char :=
  '"' :: escaped false 0 0 s ++ ['"']

/-- A literal string. -/
def literalText (s : List Char) : List Char :=
  '\'' :: s ++ ['\'']

/-- The line end after an opening delimiter, if the text has line ends itself. -/
def openingNewline (s : List Char) : List Char :=
  if s.contains '\n' then ['\n'] else []

/-- A basic string of several lines. -/
def basicLinesText (s : List Char) : List Char :=
  ['"', '"', '"'] ++ openingNewline s ++ escaped true 2 2 s ++ ['"', '"', '"']

/-- A literal string of several lines. -/
def literalLinesText (s : List Char) : List Char :=
  ['\'', '\'', '\''] ++ openingNewline s ++ s ++ ['\'', '\'', '\'']

/-- A basic string without escapes other than for tabs holds the text. -/
def fitsBasic (s : List Char) : Bool :=
  !s.any fun c => needsEscape c || c == '\\' || c == '"' || c == '\n'

/-- A literal string holds the text. -/
def fitsLiteral (s : List Char) : Bool :=
  !s.any fun c => needsEscape c || c == '\'' || c == '\n'

/-- A string in the first of the notations that can hold it: basic, literal, the two of several
lines, and at last with escapes. -/
def stringText (s : List Char) : List Char :=
  if fitsBasic s then basicText s
  else if fitsLiteral s then literalText s
  else if !s.any (fun c => needsEscape c || c == '\\') && longestRun '"' 0 s ≤ 2 then
    basicLinesText s
  else if !s.any needsEscape && longestRun '\'' 0 s ≤ 2 then literalLinesText s
  else if s.contains '\n' then basicLinesText s
  else basicText s

/-- A name, without quotation marks where it can do without. -/
def keyText (name : String) : List Char :=
  let s := name.toList
  if !s.isEmpty && s.all (fun c => c.isAlphanum || c == '_' || c == '-') then s
  else if fitsBasic s then basicText s
  else if fitsLiteral s then literalText s
  else basicText s

/-! ## Values -/

/-- The text of a float. A number that is none has no sign. -/
def floatText (x : Binary64) : String :=
  if x.isNaN then "nan"
  else if x.isFinite then x.plainText
  else if x.isNegative then "-inf"
  else "inf"

/-- Elements between brackets: several of them on lines of their own, a single one inside. -/
def bracketed : List String → String
  | [] => "[]"
  | [e] => "[" ++ e ++ "]"
  | elements => "[" ++ String.join (elements.map fun e => "\n    " ++ e ++ ",") ++ "\n]"

/-- Members on one line between braces. -/
def braced (members : List String) : String :=
  if members.isEmpty then "\x7b\x7d"
  else "\x7b " ++ String.intercalate ", " members ++ " \x7d"

mutual

/-- A value after an equals sign. -/
def Value.text : Value → String
  | .str s => String.ofList (stringText s.toList)
  | .int n => toString n
  | .float x => floatText x
  | .bool b => if b then "true" else "false"
  | .datetime text => text
  | .arr elements => bracketed (elementTexts elements)
  | .table members => braced (memberTexts members)

/-- The elements of an array. -/
def elementTexts : List Value → List String
  | [] => []
  | v :: rest => v.text :: elementTexts rest

/-- The members of a table that stands inside a value. -/
def memberTexts : List (String × Value) → List String
  | [] => []
  | (name, v) :: rest =>
    (String.ofList (keyText name) ++ " = " ++ v.text) :: memberTexts rest

end

/-! ## Documents -/

/-- An element that is a table. -/
def Value.isTable : Value → Bool
  | .table _ => true
  | _ => false

/-- An array with a table among its elements. -/
def Value.holdsTable : Value → Bool
  | .arr elements => elements.any Value.isTable
  | _ => false

/-- The members of a table below the document's own in the order in which they are written. -/
def inWritingOrder (members : Table) : Table :=
  (members.filter fun m => !m.2.isTable && !m.2.holdsTable) ++
    (members.filter fun m => m.2.holdsTable) ++ members.filter fun m => m.2.isTable

mutual

/-- A value with all tables in it in writing order. -/
def Value.arranged : Value → Value
  | .arr elements => .arr (arrangedElements elements)
  | .table members => .table (inWritingOrder (arrangedMembers members))
  | v => v

/-- The elements of an array with all tables in them in writing order. -/
def arrangedElements : List Value → List Value
  | [] => []
  | v :: rest => v.arranged :: arrangedElements rest

/-- The members of a table, in the same order, with all tables below it in writing order. -/
def arrangedMembers : List (String × Value) → List (String × Value)
  | [] => []
  | (name, v) :: rest => (name, v.arranged) :: arrangedMembers rest

end

/-- A value that stands behind its name, not under a header. -/
def Value.isPlain : Value → Bool
  | .table _ => false
  | .arr elements => elements.isEmpty || !elements.all Value.isTable
  | _ => true

/-- The lines of the plain members of a table. -/
def plainLines (members : Table) : List String :=
  (members.filter fun m => m.2.isPlain).map fun m =>
    String.ofList (keyText m.1) ++ " = " ++ m.2.text

/-- A dotted name. -/
def pathText (path : List String) : String :=
  String.intercalate "." (path.map fun name => String.ofList (keyText name))

/-- The lines under a header, the header included. -/
structure Section where
  header : Option String
  lines : List String
  deriving Repr

/-- The part for a table itself. A table whose members all have headers of their own needs none. -/
def Section.ofTable (path : List String) (members : Table) : List Section :=
  let lines := plainLines members
  if lines.isEmpty && !members.isEmpty then []
  else [⟨some ("[" ++ pathText path ++ "]"), lines⟩]

mutual

/-- The parts for what stands under headers in a table. -/
def sectionsOfMembers (path : List String) : List (String × Value) → List Section
  | [] => []
  | (name, v) :: rest => sectionsOfValue (path ++ [name]) v ++ sectionsOfMembers path rest

/-- The parts for one member of a table. -/
def sectionsOfValue (path : List String) : Value → List Section
  | .table members => Section.ofTable path members ++ sectionsOfMembers path members
  | .arr elements =>
    if elements.isEmpty || !elements.all Value.isTable then []
    else sectionsOfElements path elements
  | _ => []

/-- The parts for an array of tables. -/
def sectionsOfElements (path : List String) : List Value → List Section
  | [] => []
  | .table members :: rest =>
    ⟨some ("[[" ++ pathText path ++ "]]"), plainLines members⟩ ::
      (sectionsOfMembers path members ++ sectionsOfElements path rest)
  | _ :: rest => sectionsOfElements path rest

end

/-- All parts of a document. -/
def sections (t : Table) : List Section :=
  let lines := plainLines t
  (if lines.isEmpty then [] else [⟨none, lines⟩]) ++ sectionsOfMembers [] t

/-- The lines of a part. -/
def Section.allLines (s : Section) : List String :=
  s.header.toList ++ s.lines

/-- A table as a document: parts with an empty line between two of them, each line with its end. -/
def Table.pretty (t : Table) : String :=
  String.intercalate "\n" <|
    (sections (arrangedMembers t)).map fun s => String.join (s.allLines.map (· ++ "\n"))

end PackageRisk.Toml
