import PackageRisk.Text.Letters

/-!
# File trees

A finite tree of directories, regular files and symbolic links, as the list of its entries, at most
one for each path. A path is a list of names, and paths are ordered name by name. Names are texts,
so a file whose name is not UTF-8 stands in no tree. Looking up a path follows links.
-/

namespace PackageRisk

/-- A path below the root of a tree. -/
abbrev Path := List String

/-- The names in the text of a path; empty names and `.` are passed over. -/
def Path.ofString (text : String) : Path :=
  ((Text.splitAt (· == '/') text.toList).map String.ofList).filter fun name =>
    name != "" && name != "."

/-- The text of a path. -/
def Path.display (path : Path) : String :=
  String.intercalate "/" path

/-- Paths in order, name by name. -/
def Path.le : Path → Path → Bool
  | [], _ => true
  | _ :: _, [] => false
  | a :: as, b :: bs => if a < b then true else if b < a then false else Path.le as bs

/-- The last name of a path, unless it leads upwards. -/
def Path.fileName? (path : Path) : Option String :=
  path.getLast?.filter (· != "..")

/-- What follows the last dot of a file name, if something stands before that dot. -/
def extension? (fileName : String) : Option String :=
  let name := fileName.toList
  let extension := Text.afterLast (· == '.') name
  if extension.length + 1 < name.length then some (String.ofList extension) else none

/-- What stands at a path. -/
inductive FileEntry where
  | file (content : ByteArray)
  | directory
  | link (target : String)

/-- Why a file could not be read. -/
inductive FileError where
  | notFound
  | notADirectory
  | isADirectory
  | tooManyLinks
  deriving DecidableEq, Repr

/-- The operating system's wording of a file error. -/
def FileError.message : FileError → String
  | notFound => "No such file or directory (os error 2)"
  | notADirectory => "Not a directory (os error 20)"
  | isADirectory => "Is a directory (os error 21)"
  | tooManyLinks => "Too many levels of symbolic links (os error 40)"

/-- The entries of a tree below its root, which is a directory, at most one for each path. -/
structure FileTree where
  entries : List (Path × FileEntry) := []
  distinct : (entries.map Prod.fst).Nodup := by simp

namespace FileTree

instance : EmptyCollection FileTree := ⟨{}⟩

instance : Inhabited FileTree := ⟨∅⟩

/-- The entry at a path, links not followed. -/
def lookup? (t : FileTree) (path : Path) : Option FileEntry :=
  if path.isEmpty then some .directory
  else (t.entries.find? fun e => e.1 == path).map Prod.snd

/-- Put an entry at a path, in place of one that was there. -/
def insert (t : FileTree) (path : Path) (entry : FileEntry) : FileTree where
  entries := t.entries.filter (fun e => e.1 != path) ++ [(path, entry)]
  distinct := by
    have others : ((t.entries.filter fun e => e.1 != path).map Prod.fst).Nodup :=
      (List.filter_sublist.map Prod.fst).nodup t.distinct
    rw [List.map_append, List.nodup_append]
    refine ⟨others, by simp, ?_⟩
    intro a ha b hb
    obtain ⟨e, he, rfl⟩ := List.mem_map.mp ha
    obtain rfl : b = path := by simpa using hb
    simpa using (List.mem_filter.mp he).2

/-- Put directories at a path and everything above it, unless something is there. -/
def insertDirectories (t : FileTree) (path : Path) : FileTree :=
  (List.range (path.length + 1)).foldl
    (fun t n =>
      let above := path.take n
      if (t.lookup? above).isSome then t else t.insert above .directory) t

/-- Put an entry at a path and directories above it. -/
def insertWithParents (t : FileTree) (path : Path) (entry : FileEntry) : FileTree :=
  (t.insertDirectories path.dropLast).insert path entry

/-- Links that may be followed on the way to a file. -/
def maxLinks : Nat := 40

/-- The path without links that some names lead to from a directory. An empty name or `.` stays,
but only in a directory. -/
def resolveFrom (t : FileTree) (links : Nat) (dir : Path) : List String → Except FileError Path
  | [] => .ok dir
  | name :: rest =>
    match t.lookup? dir with
    | some .directory =>
      if name = "" ∨ name = "." then resolveFrom t links dir rest
      else if name = ".." then resolveFrom t links dir.dropLast rest
      else
        match t.lookup? (dir ++ [name]) with
        | none => .error .notFound
        | some (.link target) =>
          match links with
          | 0 => .error .tooManyLinks
          | links + 1 =>
            if target.startsWith "/" then .error .notFound
            else
              resolveFrom t links dir
                ((Text.splitAt (· == '/') target.toList).map String.ofList ++ rest)
        | some _ => resolveFrom t links (dir ++ [name]) rest
    | _ => .error .notADirectory
  termination_by names => (links, names.length)

/-- The path without links that the text of a path leads to. -/
def resolve (t : FileTree) (path : String) : Except FileError Path :=
  t.resolveFrom maxLinks [] ((Text.splitAt (· == '/') path.toList).map String.ofList)

/-- The text of a path names a link by its last name. -/
def endsInLink (t : FileTree) (path : String) : Bool :=
  let names := (Text.splitAt (· == '/') path.toList).map String.ofList
  match names.getLast?, t.resolveFrom maxLinks [] names.dropLast with
  | some name, .ok dir => (t.lookup? (dir ++ [name]) matches some (.link _))
  | _, _ => false

/-- The content of the file at a path. -/
def read (t : FileTree) (path : String) : Except FileError ByteArray := do
  match t.lookup? (← t.resolve path) with
  | some (.file content) => .ok content
  | some .directory => .error .isADirectory
  | _ => .error .notFound

/-- The regular files at or below a path without links, as paths relative to it. -/
def filesBelow (t : FileTree) (root : Path) : List (Path × ByteArray) :=
  t.entries.filterMap fun (path, entry) =>
    match entry with
    | .file content =>
      if root.isPrefixOf path then some (path.drop root.length, content) else none
    | _ => none

end FileTree

end PackageRisk
