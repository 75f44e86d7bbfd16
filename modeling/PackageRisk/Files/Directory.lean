import PackageRisk.Files.Tree

/-!
# Directories

A directory as the list of what it holds, in the order in which the system lists it: files, links
and further directories. The walk through a directory goes over everything at or below it, follows
no links, and so lays the directory out as a file tree.
-/

namespace PackageRisk

/-- What a directory holds, one thing after the other. -/
inductive Listing where
  | empty
  | file (name : String) (content : ByteArray) (others : Listing)
  | link (name target : String) (others : Listing)
  | directory (name : String) (inside others : Listing)

namespace Listing

/-- The names in a directory. -/
def names : Listing → List String
  | .empty => []
  | .file name _ others | .link name _ others | .directory name _ others => name :: others.names

/-- No directory has a name twice, and no name leads upwards. -/
def WellNamed : Listing → Prop
  | .empty => True
  | .file name _ others | .link name _ others =>
    name ≠ ".." ∧ name ∉ others.names ∧ others.WellNamed
  | .directory name inside others =>
    name ≠ ".." ∧ name ∉ others.names ∧ inside.WellNamed ∧ others.WellNamed

instance decidableWellNamed : (listing : Listing) → Decidable listing.WellNamed
  | .empty => isTrue trivial
  | .file _ _ others | .link _ _ others =>
    have := decidableWellNamed others
    inferInstanceAs (Decidable (_ ∧ _ ∧ _))
  | .directory _ inside others =>
    have := decidableWellNamed inside
    have := decidableWellNamed others
    inferInstanceAs (Decidable (_ ∧ _ ∧ _ ∧ _))

/-- What stands at a path, by the names on the way to it. -/
inductive Holds : Listing → Path → FileEntry → Prop
  | file {name : String} {content : ByteArray} {others : Listing} :
      Holds (.file name content others) [name] (.file content)
  | link {name target : String} {others : Listing} :
      Holds (.link name target others) [name] (.link target)
  | directory {name : String} {inside others : Listing} :
      Holds (.directory name inside others) [name] .directory
  | deeper {name : String} {inside others : Listing} {path : Path} {entry : FileEntry}
      (held : Holds inside path entry) : Holds (.directory name inside others) (name :: path) entry
  | afterFile {name : String} {content : ByteArray} {others : Listing} {path : Path}
      {entry : FileEntry} (held : Holds others path entry) :
      Holds (.file name content others) path entry
  | afterLink {name target : String} {others : Listing} {path : Path} {entry : FileEntry}
      (held : Holds others path entry) : Holds (.link name target others) path entry
  | afterDirectory {name : String} {inside others : Listing} {path : Path} {entry : FileEntry}
      (held : Holds others path entry) : Holds (.directory name inside others) path entry

/-- Everything at or below a directory, with its path: each directory comes before what it holds. -/
def walk : Listing → List (Path × FileEntry)
  | .empty => []
  | .file name content others => ([name], .file content) :: others.walk
  | .link name target others => ([name], .link target) :: others.walk
  | .directory name inside others =>
    let below := inside.walk.map fun (path, entry) => (name :: path, entry)
    ([name], .directory) :: (below ++ others.walk)

/-- The walk goes over exactly what stands at some path. -/
theorem mem_walk {listing : Listing} {path : Path} {entry : FileEntry} :
    (path, entry) ∈ listing.walk ↔ listing.Holds path entry := by
  constructor
  · intro mem
    induction listing generalizing path with
    | empty => cases mem
    | file name content others ih =>
      rcases List.mem_cons.mp mem with same | mem
      · obtain ⟨rfl, rfl⟩ := Prod.mk.inj same
        exact .file
      · exact .afterFile (ih mem)
    | link name target others ih =>
      rcases List.mem_cons.mp mem with same | mem
      · obtain ⟨rfl, rfl⟩ := Prod.mk.inj same
        exact .link
      · exact .afterLink (ih mem)
    | directory name inside others ih₁ ih₂ =>
      rcases List.mem_cons.mp mem with same | mem
      · obtain ⟨rfl, rfl⟩ := Prod.mk.inj same
        exact .directory
      · rcases List.mem_append.mp mem with mem | mem
        · obtain ⟨⟨rest, entry⟩, inner, same⟩ := List.mem_map.mp mem
          obtain ⟨rfl, rfl⟩ := Prod.mk.inj same
          exact .deeper (ih₁ inner)
        · exact .afterDirectory (ih₂ mem)
  · intro held
    induction held with
    | file | link | directory => exact List.mem_cons_self
    | deeper _ ih =>
      exact List.mem_cons_of_mem _ (List.mem_append_left _ (List.mem_map.mpr ⟨_, ih, rfl⟩))
    | afterFile _ ih | afterLink _ ih => exact List.mem_cons_of_mem _ ih
    | afterDirectory _ ih => exact List.mem_cons_of_mem _ (List.mem_append_right _ ih)

/-- A path begins with a name in the directory. -/
theorem Holds.exists_name {listing : Listing} {path : Path} {entry : FileEntry}
    (held : listing.Holds path entry) :
    ∃ name rest, path = name :: rest ∧ name ∈ listing.names := by
  induction held with
  | file | link | directory | deeper => exact ⟨_, _, rfl, List.mem_cons_self⟩
  | afterFile _ ih | afterLink _ ih | afterDirectory _ ih =>
    obtain ⟨name, rest, rfl, mem⟩ := ih
    exact ⟨name, rest, rfl, List.mem_cons_of_mem _ mem⟩

theorem exists_name_of_mem_walk {listing : Listing} {path : Path}
    (mem : path ∈ listing.walk.map Prod.fst) :
    ∃ name rest, path = name :: rest ∧ name ∈ listing.names := by
  obtain ⟨⟨path, entry⟩, listed, rfl⟩ := List.mem_map.mp mem
  exact (mem_walk.mp listed).exists_name

/-- A name that is not in a directory begins no path there. -/
theorem singleton_notMem_walk {name : String} {listing : Listing} (other : name ∉ listing.names) :
    [name] ∉ listing.walk.map Prod.fst := by
  intro mem
  obtain ⟨name, rest, same, mem⟩ := exists_name_of_mem_walk mem
  obtain ⟨rfl, rfl⟩ := List.cons.inj same
  exact other mem

/-- Nothing is met twice. -/
theorem nodup_walk {listing : Listing} (wellNamed : listing.WellNamed) :
    (listing.walk.map Prod.fst).Nodup := by
  induction listing with
  | empty => exact List.nodup_nil
  | file name content others ih | link name target others ih =>
    obtain ⟨-, other, wellNamed⟩ := wellNamed
    exact List.nodup_cons.mpr ⟨singleton_notMem_walk other, ih wellNamed⟩
  | directory name inside others ih₁ ih₂ =>
    obtain ⟨-, other, inner, outer⟩ := wellNamed
    have paths : (inside.walk.map fun (path, entry) => (name :: path, entry)).map Prod.fst =
        (inside.walk.map Prod.fst).map (name :: ·) := by
      rw [List.map_map, List.map_map]
      rfl
    rw [walk, List.map_cons, List.map_append, paths, List.nodup_cons, List.mem_append, not_or,
      List.nodup_append]
    refine ⟨⟨fun mem => ?_, singleton_notMem_walk other⟩, ?_, ih₂ outer, ?_⟩
    · obtain ⟨path, mem, same⟩ := List.mem_map.mp mem
      obtain ⟨name, rest, rfl, -⟩ := exists_name_of_mem_walk mem
      cases same
    · exact List.Pairwise.map _ (fun _ _ apart same => apart (List.cons.inj same).2) (ih₁ inner)
    · -- What is inside begins with the name of the directory, the others begin with theirs.
      rintro _ mem path mem' rfl
      obtain ⟨rest, -, rfl⟩ := List.mem_map.mp mem
      obtain ⟨_, _, same, mem'⟩ := exists_name_of_mem_walk mem'
      obtain ⟨rfl, -⟩ := List.cons.inj same
      exact other mem'

end Listing

/-- A directory whose names can be told apart, all the way down. -/
structure Directory where
  listing : Listing
  wellNamed : listing.WellNamed

/-- The tree below a directory, with its entries as the walk goes over them. -/
def Directory.tree (d : Directory) : FileTree where
  entries := d.listing.walk
  distinct := Listing.nodup_walk d.wellNamed

/-- The directory stands at a path of a tree: what the tree has below the path is what the directory
holds. The order of the entries does not matter. -/
structure FileTree.Shows (t : FileTree) (base : Path) (d : Directory) : Prop where
  isDirectory : t.lookup? base = some .directory
  below : ∀ path ≠ [], ∀ entry, (base ++ path, entry) ∈ t.entries ↔ d.listing.Holds path entry

end PackageRisk
