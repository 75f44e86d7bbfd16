import PackageRisk.Toml.Scalar

/-!
# Reading TOML

A reader for complete documents. A table may be named by one header only; headers and dotted names
make the tables on their way, which can still be named once themselves or added to by further
dotted names.
-/

namespace PackageRisk.Toml

/-- What a name stands for while a document is read. A table is `implied` until it has a header of
its own, and `dotted` when dotted names made it. -/
inductive Item where
  | value (v : Value)
  | table (implied dotted : Bool) (members : List (String × Item))
  | tables (elements : List (List (String × Item)))

instance : Inhabited Item := ⟨.table true false []⟩

/-- Members under construction. -/
abbrev Members := List (String × Item)

/-- The item under a name. -/
def Members.get? (members : Members) (name : String) : Option Item :=
  (members.find? fun m => m.1 == name).map Prod.snd

/-- The members with an item under a name. -/
def Members.set (members : Members) (name : String) (item : Item) : Members :=
  insertPair name item members

/-- Change the members at the end of a path; tables on the way are made where they are missing.
Dotted names do not lead into tables that have a header. -/
def Members.descend? (dotted : Bool) (change : (isDotted : Bool) → Members → Option Members)
    (isDotted : Bool) : (path : List String) → Members → Option Members
  | [], members => change isDotted members
  | name :: path, members =>
    match members.get? name with
    | none =>
      (descend? dotted change dotted path []).map fun inner =>
        members.set name (.table true dotted inner)
    | some (.value _) => none
    | some (.tables elements) =>
      match elements.reverse with
      | [] => none
      | last :: earlier =>
        (descend? dotted change false path last).map fun inner =>
          members.set name (.tables (inner :: earlier).reverse)
    | some (.table implied wasDotted inner) =>
      if dotted && !implied then none
      else
        (descend? dotted change wasDotted path inner).map fun inner =>
          members.set name (.table implied wasDotted inner)

/-- Put a value under a dotted name. -/
def Members.assign? (members : Members) (path : List String) (name : String) (item : Item) :
    Option Members :=
  members.descend? true
    (fun isDotted inner =>
      if isDotted == path.isEmpty then none
      else if (inner.get? name).isSome then none
      else some (inner.set name item))
    false path

mutual

/-- The value that an item stands for. -/
def Item.toValue : Item → Value
  | .value v => v
  | .table _ _ members => .table (membersToTable members)
  | .tables elements => .arr (tablesToValues elements)

/-- The table of some members. -/
def membersToTable : List (String × Item) → Table
  | [] => []
  | (name, item) :: rest => (name, item.toValue) :: membersToTable rest

/-- The values of some tables. -/
def tablesToValues : List (List (String × Item)) → List Value
  | [] => []
  | members :: rest => .table (membersToTable members) :: tablesToValues rest

end

/-- A character of a name without quotation marks. -/
def isBareChar (c : Char) : Bool :=
  c.isAlphanum || c == '_' || c == '-'

/-- A name without dots. -/
def simpleKey? : Reader String
  | '"' :: rest => basicFrom? (rest.length + 1) [] rest
  | '\'' :: rest => literalFrom? rest
  | s =>
    let name := s.takeWhile isBareChar
    if name.isEmpty then none else some (String.ofList name, s.drop name.length)

/-- A dotted name and the blanks after it; the parts so far stand last first. -/
def keyFrom? : (fuel : Nat) → (sofar : List String) → Reader (List String)
  | 0, _, _ => none
  | fuel + 1, sofar, s =>
    match simpleKey? (skipSpaces s) with
    | none => none
    | some (name, rest) =>
      match skipSpaces rest with
      | '.' :: rest => keyFrom? fuel (name :: sofar) rest
      | rest => some ((name :: sofar).reverse, rest)

/-- Parts that a dotted name may have, and levels of nesting. -/
def maxNesting : Nat := 80

/-- A dotted name, as the path before its last part and that part. -/
def key? (s : List Char) : Option ((List String × String) × List Char) :=
  match keyFrom? (s.length + 1) [] s with
  | none => none
  | some (parts, rest) =>
    match parts.reverse with
    | [] => none
    | name :: path => if parts.length < maxNesting then some ((path.reverse, name), rest) else none

/-- A comment at the front is passed over, up to the line end. -/
def skipComment? : List Char → Option (List Char)
  | '#' :: rest =>
    let after := rest.dropWhile fun c => isPlainChar c || c == '\x7f'
    if after.isEmpty || (afterNewline? after).isSome then some after else none
  | s => some s

/-- Blanks, comments and line ends are passed over. -/
def skipLines? : (fuel : Nat) → List Char → Option (List Char)
  | 0, _ => none
  | fuel + 1, s =>
    match skipComment? (skipSpaces s) with
    | none => none
    | some rest =>
      match afterNewline? rest with
      | some rest => skipLines? fuel rest
      | none => some rest

mutual

/-- Read a value `level` levels deep. -/
def valueFrom? : (fuel level : Nat) → Reader Value
  | 0, _, _ => none
  | fuel + 1, level, s =>
    match s with
    | '[' :: rest =>
      if maxNesting ≤ level + 1 then none else elementsFrom? fuel (level + 1) [] rest
    | '\x7b' :: rest =>
      if maxNesting ≤ level + 1 then none
      else
        match skipSpaces rest with
        | '\x7d' :: rest => some (.table [], rest)
        | rest => inlineFrom? fuel (level + 1) [] rest
    | s => scalarValue? s

/-- Read the rest of an array; the elements so far stand last first. -/
def elementsFrom? : (fuel level : Nat) → (sofar : List Value) → Reader Value
  | 0, _, _, _ => none
  | fuel + 1, level, sofar, s =>
    match skipLines? (s.length + 1) s with
    | none => none
    | some (']' :: rest) => some (.arr sofar.reverse, rest)
    | some rest =>
      match valueFrom? fuel level rest with
      | none => none
      | some (v, rest) =>
        match skipLines? (rest.length + 1) rest with
        | some (',' :: rest) => elementsFrom? fuel level (v :: sofar) rest
        | some (']' :: rest) => some (.arr (v :: sofar).reverse, rest)
        | _ => none

/-- Read the rest of an inline table that is not empty. -/
def inlineFrom? : (fuel level : Nat) → (sofar : Members) → Reader Value
  | 0, _, _, _ => none
  | fuel + 1, level, sofar, s =>
    match key? s with
    | some ((path, name), '=' :: rest) =>
      match valueFrom? fuel level (skipSpaces rest) with
      | none => none
      | some (v, rest) =>
        match sofar.assign? path name (.value v) with
        | none => none
        | some members =>
          match skipSpaces rest with
          | ',' :: rest => inlineFrom? fuel level members rest
          | '\x7d' :: rest => some (.table (membersToTable members), rest)
          | _ => none
    | _ => none

end

/-- Read a value. -/
def value? (s : List Char) : Option (Value × List Char) :=
  valueFrom? (2 * s.length + 2) 0 s

/-- A document under construction: its root table, the path of the current table, and whether that
is an element of an array of tables. -/
structure Document where
  root : Members := []
  current : List String := []

/-- Begin a table by its header. It may have been implied, but not named or made by dotted names. -/
def Document.openTable? (d : Document) (path : List String) (name : String) : Option Document :=
  let opened := d.root.descend? false
    (fun _ members =>
      match members.get? name with
      | none => some (members.set name (.table false false []))
      | some (.table true false inner) => some (members.set name (.table false false inner))
      | _ => none)
    false path
  opened.map fun root => ⟨root, path ++ [name]⟩

/-- Begin another element of an array of tables by its header. -/
def Document.openElement? (d : Document) (path : List String) (name : String) :
    Option Document :=
  let opened := d.root.descend? false
    (fun _ members =>
      match members.get? name with
      | none => some (members.set name (.tables [[]]))
      | some (.tables elements) => some (members.set name (.tables (elements ++ [[]])))
      | _ => none)
    false path
  opened.map fun root => ⟨root, path ++ [name]⟩

/-- Put a value under a dotted name of the current table. -/
def Document.assign? (d : Document) (path : List String) (name : String) (v : Value) :
    Option Document :=
  (d.root.descend? false (fun _ members => members.assign? path name (.value v)) false
    d.current).map fun root => { d with root }

/-- The end of a line, a comment before it allowed; what follows. -/
def endOfLine? (s : List Char) : Option (List Char) :=
  match skipComment? (skipSpaces s) with
  | some [] => some []
  | some rest => afterNewline? rest
  | none => none

/-- Read one line, or several when a value extends over them. -/
def Document.line? (d : Document) (s : List Char) : Option (Document × List Char) :=
  match skipSpaces s with
  | '[' :: '[' :: rest =>
    match key? rest with
    | some ((path, name), ']' :: ']' :: rest) => do
      return (← d.openElement? path name, ← endOfLine? rest)
    | _ => none
  | '[' :: rest =>
    match key? rest with
    | some ((path, name), ']' :: rest) => do
      return (← d.openTable? path name, ← endOfLine? rest)
    | _ => none
  | rest =>
    match endOfLine? rest with
    | some rest => some (d, rest)
    | none =>
      match key? rest with
      | some ((path, name), '=' :: rest) =>
        match value? (skipSpaces rest) with
        | some (v, rest) => do return (← d.assign? path name v, ← endOfLine? rest)
        | none => none
      | _ => none

/-- Read line after line. -/
def Document.lines? : (fuel : Nat) → Document → List Char → Option Document
  | _, d, [] => some d
  | 0, _, _ => none
  | fuel + 1, d, s =>
    match d.line? s with
    | some (d, rest) => lines? fuel d rest
    | none => none

/-- Read a complete document; a byte order mark at its beginning is passed over. -/
def parse? (text : String) : Option Table :=
  let s :=
    match text.toList with
    | '\uFEFF' :: rest => rest
    | s => s
  (Document.lines? (s.length + 1) {} s).map fun d => membersToTable d.root

end PackageRisk.Toml
