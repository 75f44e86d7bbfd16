import PackageRisk.Web.Exchange

/-!
# Unpacking archives

The members of an archive laid out as a file tree. A member whose path leads upwards is passed
over, and so is one without a name; a member that cannot be put in its place makes the whole
archive fail. Directories that the archive lists are made last.
-/

namespace PackageRisk.Archive

/-- The path of a member, or nothing if it leads upwards. -/
def memberPath? (text : String) : Option Path :=
  let path := Path.ofString text
  if path.contains ".." then none else some path

/-- Make the directories of a path below a directory, following links that stay in the tree. -/
def ensureDirectory? (t : FileTree) (path : Path) : Option FileTree :=
  (List.range (path.length + 1)).foldl
    (fun (t : Option FileTree) n => do
      let t ← t
      let above := path.take n
      if (t.lookup? above).isSome then
        match t.resolveFrom FileTree.maxLinks [] above with
        | .ok place => if t.lookup? place matches some .directory then some t else none
        | .error _ => none
      else
        match t.resolveFrom FileTree.maxLinks [] above.dropLast with
        | .ok place => some (t.insert (place ++ above.drop (n - 1)) .directory)
        | .error _ => none)
    (some t)

/-- Where a path lies when links in the directories above it are followed. -/
def place? (t : FileTree) (path : Path) : Option Path :=
  match t.resolveFrom FileTree.maxLinks [] path.dropLast with
  | .ok dir => path.getLast?.map fun name => dir ++ [name]
  | .error _ => none

/-- Put a member in its place. -/
def unpackMember? (t : FileTree) (entry : ArchiveEntry) : Option FileTree :=
  match memberPath? entry.path with
  | none | some [] => some t
  | some path => do
    let t ← ensureDirectory? t path.dropLast
    let place ← place? t path
    match entry, t.lookup? place with
    | .directory _, none => some (t.insert place .directory)
    | .directory _, some _ =>
      match t.resolveFrom FileTree.maxLinks [] place with
      | .ok target => if t.lookup? target matches some .directory then some t else none
      | .error _ => none
    | .file _ _, some .directory => none
    | .file _ content, _ => some (t.insert place (.file content))
    | .symbolicLink _ target, existing =>
      if target.isEmpty || existing matches some .directory then none
      else some (t.insert place (.link target))
    | .hardLink _ _, some _ => none
    | .hardLink _ target, none => do
      let source ← memberPath? target
      let source ← place? t source
      match t.lookup? source with
      | some .directory | none => none
      | some found => some (t.insert place found)

/-- A member that is a directory. -/
def isDirectory : ArchiveEntry → Bool
  | .directory _ => true
  | _ => false

/-- The members in the order in which they are put in place: directories last, the later names
first. -/
def unpackingOrder (entries : List ArchiveEntry) : List ArchiveEntry :=
  let directories := entries.filter isDirectory
  entries.filter (fun e => !isDirectory e) ++
    directories.mergeSort fun a b => decide (b.path ≤ a.path)

/-- The tree of an archive, if every member finds its place. -/
def unpack? (entries : List ArchiveEntry) : Option FileTree :=
  (unpackingOrder entries).foldlM unpackMember? ∅

end PackageRisk.Archive
