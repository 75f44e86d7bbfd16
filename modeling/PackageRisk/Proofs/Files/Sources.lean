import Mathlib.Data.List.Nodup
import Mathlib.Data.List.Pairwise
import PackageRisk.Files.Directory
import PackageRisk.Proofs.Inspection.Malware
import PackageRisk.Proofs.Text.Parts

/-!
# Source files of a directory

The files to inspect in a directory are the regular files at any depth that have one of the wanted
extensions: each once, in the order of their paths name by name, and nothing else. The order in
which the system lists a directory does not show.
-/

namespace PackageRisk

/-! ## Extensions -/

/-- The extension is what follows the last dot, if something stands before that dot. -/
theorem extension?_eq_some_iff {name extension : String} :
    extension? name = some extension ↔
      ∃ stem, name.toList = stem ++ '.' :: extension.toList ∧ stem ≠ [] ∧
        '.' ∉ extension.toList := by
  have undotted {rest : List Char} (none : '.' ∉ rest) : ∀ c ∈ rest, (c == '.') = false := by
    intro c mem
    refine beq_eq_false_iff_ne.mpr ?_
    rintro rfl
    exact none mem
  have shorter (stem rest : List Char) :
      rest.length + 1 < (stem ++ '.' :: rest).length ↔ stem ≠ [] := by
    rw [List.length_append, List.length_cons, ← List.length_pos_iff]
    omega
  rw [extension?, Option.ite_none_right_eq_some, Option.some.injEq]
  constructor
  · rintro ⟨length, rfl⟩
    have dotted : '.' ∈ name.toList := by
      by_contra none
      rw [Text.afterLast_eq_self (undotted none)] at length
      omega
    obtain ⟨stem, rest, same, none⟩ := Text.exists_last dotted
    rw [same, Text.afterLast_append_cons rfl (undotted none), shorter] at length
    rw [same, Text.afterLast_append_cons rfl (undotted none), String.toList_ofList]
    exact ⟨stem, rfl, length, none⟩
  · rintro ⟨stem, same, some_stem, none⟩
    rw [same, Text.afterLast_append_cons rfl (undotted none), String.ofList_toList, shorter]
    exact ⟨some_stem, rfl⟩

/-- A file name has one of some extensions when it consists of a stem, a dot and the extension,
letter case and leading dots of the wanted ones apart. -/
theorem hasExtension_iff {extensions : List String} {name : String} :
    hasExtension extensions name = true ↔
      ∃ stem extension, name.toList = stem ++ '.' :: extension ∧ stem ≠ [] ∧ '.' ∉ extension ∧
        ∃ wanted ∈ extensions, Text.lower (String.ofList (wanted.toList.dropWhile (· == '.'))) =
          Text.lower (String.ofList extension) := by
  simp only [hasExtension, Option.any_eq_true, List.any_eq_true, beq_iff_eq, extension?_eq_some_iff]
  constructor
  · rintro ⟨extension, ⟨stem, same, some_stem, last⟩, wanted, listed, equal⟩
    exact ⟨stem, extension.toList, same, some_stem, last, wanted, listed, by simpa using equal⟩
  · rintro ⟨stem, extension, same, some_stem, last, wanted, listed, equal⟩
    exact ⟨String.ofList extension, ⟨stem, by simpa using same, some_stem, by simpa using last⟩,
      wanted, listed, equal⟩

/-! ## The order of paths -/

namespace Path

/-- The first path stands before the second in the order name by name. -/
def Before (a b : Path) : Prop :=
  List.Lex (· < ·) a b

variable {a b c : Path}

theorem Before.trans (h : Before a b) (h' : Before b c) : Before a c :=
  List.lex_trans String.lt_trans h h'

theorem Before.asymm (h : Before a b) : ¬Before b a :=
  List.lex_asymm (fun lt gt => String.lt_irrefl _ (String.lt_trans lt gt)) h

theorem le_iff : Path.le a b = true ↔ a = b ∨ Before a b := by
  have irrefl (name : String) : ¬name < name := String.lt_irrefl name
  fun_induction Path.le a b with
  | case1 b => cases b <;> simp [Before]
  | case2 a as => simp [Before]
  | case3 a as b bs lt =>
    exact iff_of_true rfl (.inr (.rel lt))
  | case4 a as b bs _ gt =>
    refine iff_of_false Bool.false_ne_true ?_
    rintro (same | before)
    · obtain ⟨rfl, rfl⟩ := List.cons.inj same
      exact irrefl _ gt
    · cases before with
      | rel lt => exact irrefl _ (String.lt_trans lt gt)
      | cons => exact irrefl _ gt
  | case5 a as b bs not_lt not_gt ih =>
    obtain rfl : a = b := String.le_antisymm (String.not_lt.mp not_gt) (String.not_lt.mp not_lt)
    simp only [ih, Before, List.cons_lex_cons_iff, List.cons.injEq, irrefl, false_or, true_and]

theorem le_total (a b : Path) : (Path.le a b || Path.le b a) = true := by
  fun_induction Path.le a b with
  | case1 | case3 => rfl
  | case2 => simp [Path.le]
  | case4 a as b bs _ gt => simp [Path.le, gt]
  | case5 a as b bs not_lt not_gt ih =>
    obtain rfl : a = b := String.le_antisymm (String.not_lt.mp not_gt) (String.not_lt.mp not_lt)
    simpa [Path.le, String.lt_irrefl] using ih

theorem le_trans (a b c : Path) (h : Path.le a b = true) (h' : Path.le b c = true) :
    Path.le a c = true := by
  rw [le_iff] at *
  rcases h with rfl | h
  · exact h'
  · rcases h' with rfl | h'
    · exact .inr h
    · exact .inr (h.trans h')

end Path

/-! ## Files at or below a path -/

namespace FileTree

variable {t : FileTree} {base : Path} {extensions : List String} {d : Directory}

/-- No path is met twice among the source files. -/
theorem nodup_paths_sourceFiles (t : FileTree) (base : Path) (extensions : List String) :
    ((t.sourceFiles base extensions).map Prod.fst).Nodup := by
  have paths : ((t.filesBelow base).map fun file => base ++ file.1).Nodup := by
    have distinct := ((t.filesBelow_sublist base).map Prod.fst).nodup t.distinct
    rwa [List.map_map] at distinct
  have below : ((t.filesBelow base).map Prod.fst).Nodup := by
    refine List.Nodup.of_map (base ++ ·) ?_
    rwa [List.map_map]
  rw [sourceFiles]
  refine ((List.mergeSort_perm _ _).map Prod.fst).nodup_iff.mpr ?_
  exact (List.filter_sublist.map Prod.fst).nodup below

/-- Source files are listed in the order of their paths. -/
theorem pairwise_sourceFiles (t : FileTree) (base : Path) (extensions : List String) :
    (t.sourceFiles base extensions).Pairwise fun a b => a.1.Before b.1 := by
  have ordered : (t.sourceFiles base extensions).Pairwise fun a b => Path.le a.1 b.1 = true :=
    List.pairwise_mergeSort (fun a b c => Path.le_trans a.1 b.1 c.1)
      (fun a b => Path.le_total a.1 b.1) _
  have distinct := List.pairwise_map.mp (t.nodup_paths_sourceFiles base extensions)
  refine (ordered.and distinct).imp ?_
  rintro a b ⟨le, ne⟩
  exact (Path.le_iff.mp le).resolve_left ne

/-- Source files are determined by what is among them. -/
theorem sourceFiles_ext {t' : FileTree} {base' : Path}
    (same : ∀ file, file ∈ t.sourceFiles base extensions ↔ file ∈ t'.sourceFiles base' extensions) :
    t.sourceFiles base extensions = t'.sourceFiles base' extensions := by
  have distinct (t : FileTree) (base : Path) : (t.sourceFiles base extensions).Nodup :=
    (t.nodup_paths_sourceFiles base extensions).of_map
  have perm := (List.perm_ext_iff_of_nodup (distinct t base) (distinct t' base')).mpr same
  refine perm.eq_of_pairwise (fun a b _ _ before after => ?_)
    (t.pairwise_sourceFiles base extensions) (t'.pairwise_sourceFiles base' extensions)
  exact absurd after before.asymm

/-! ## Directories in a tree -/

theorem lookup?_of_mem {path : Path} {entry : FileEntry} (some_name : path ≠ [])
    (mem : (path, entry) ∈ t.entries) : t.lookup? path = some entry := by
  rw [lookup?, if_neg (by simpa using some_name)]
  cases found : t.entries.find? (fun e => e.1 == path) with
  | none => simpa using List.find?_eq_none.mp found _ mem
  | some other =>
    have same : other.1 = path := by simpa using List.find?_some found
    rw [List.inj_on_of_nodup_map t.distinct (List.mem_of_find?_eq_some found) mem same]
    rfl

/-- A directory is shown by the tree below it. -/
theorem shows_tree (d : Directory) : d.tree.Shows [] d where
  isDirectory := rfl
  below _ _ _ := Listing.mem_walk

end FileTree

/-- No path in a directory leads upwards. -/
theorem Listing.Holds.not_upwards {listing : Listing} {path : Path} {entry : FileEntry}
    (held : listing.Holds path entry) (wellNamed : listing.WellNamed) : ".." ∉ path := by
  induction held with
  | file | link | directory => simpa using wellNamed.1.symm
  | deeper _ ih => simpa using ⟨wellNamed.1.symm, ih wellNamed.2.2.1⟩
  | afterFile _ ih | afterLink _ ih => exact ih wellNamed.2.2
  | afterDirectory _ ih => exact ih wellNamed.2.2.2

namespace FileTree

variable {t : FileTree} {base path : Path} {extensions : List String} {d : Directory}
  {content : ByteArray}

/-- The source files of a directory are the regular files in it that have one of the extensions. -/
theorem Shows.mem_sourceFiles (shows : t.Shows base d) :
    (path, content) ∈ t.sourceFiles base extensions ↔
      d.listing.Holds path (.file content) ∧
        ∃ name, path.getLast? = some name ∧ hasExtension extensions name = true := by
  rw [FileTree.mem_sourceFiles]
  by_cases here : path = []
  · -- The directory itself is no file.
    subst here
    rw [List.append_nil]
    refine iff_of_false ?_ ?_
    · rintro ⟨mem, name, named, -⟩
      have some_name : base ≠ [] := by
        rintro rfl
        cases named
      have isFile := lookup?_of_mem some_name mem
      rw [shows.isDirectory] at isFile
      cases isFile
    · rintro ⟨-, name, named, -⟩
      cases named
  · rw [shows.below path here]
    refine and_congr_right fun held => ?_
    have fileName : Path.fileName? (base ++ path) = path.getLast? := by
      have last := List.getLast?_eq_some_getLast here
      have upwards : path.getLast here ≠ ".." := fun same =>
        held.not_upwards d.wellNamed (same ▸ List.getLast_mem here)
      rw [Path.fileName?, List.getLast?_append_of_ne_nil _ here, last, Option.filter_some,
        if_pos (bne_iff_ne.mpr upwards)]
    rw [fileName]

end FileTree

/-- One thing stands at a path. -/
theorem Directory.holds_unique {d : Directory} {path : Path} {entry other : FileEntry}
    (held : d.listing.Holds path entry) (held' : d.listing.Holds path other) : entry = other := by
  have same := List.inj_on_of_nodup_map d.tree.distinct (Listing.mem_walk.mpr held)
    (Listing.mem_walk.mpr held') rfl
  exact (Prod.mk.inj same).2

/-- The source files of a directory are exactly the regular files at any depth whose names consist
of a stem, a dot and one of the extensions, leading dots and letter case apart. No link and no
directory is among them, each file is so once, and their paths ascend name by name. The order in
which directories are listed makes no difference, nor does the place of the directory in a larger
tree. Names are texts; nothing is said of directories with names that are not UTF-8. -/
theorem sourceFiles_exact (d : Directory) (extensions : List String) :
    (∀ path content, (path, content) ∈ d.tree.sourceFiles [] extensions ↔
      d.listing.Holds path (.file content) ∧
        ∃ name stem extension, path.getLast? = some name ∧ name.toList = stem ++ '.' :: extension ∧
          stem ≠ [] ∧ '.' ∉ extension ∧
          ∃ wanted ∈ extensions, Text.lower (String.ofList (wanted.toList.dropWhile (· == '.'))) =
            Text.lower (String.ofList extension)) ∧
    (∀ path entry, d.listing.Holds path entry →
      path ∈ (d.tree.sourceFiles [] extensions).map Prod.fst → ∃ content, entry = .file content) ∧
    ((d.tree.sourceFiles [] extensions).map Prod.fst).Pairwise Path.Before ∧
    (∀ other : Directory,
      (∀ path entry, other.listing.Holds path entry ↔ d.listing.Holds path entry) →
        other.tree.sourceFiles [] extensions = d.tree.sourceFiles [] extensions) ∧
    ∀ t base, FileTree.Shows t base d →
      t.sourceFiles base extensions = d.tree.sourceFiles [] extensions := by
  have shows := FileTree.shows_tree d
  have elsewhere (t : FileTree) (base : Path) (shows' : t.Shows base d) :
      t.sourceFiles base extensions = d.tree.sourceFiles [] extensions :=
    FileTree.sourceFiles_ext fun file => shows'.mem_sourceFiles.trans shows.mem_sourceFiles.symm
  refine ⟨fun path content => ?_, fun path entry held mem => ?_, ?_, fun other same => ?_,
    elsewhere⟩
  · simp only [shows.mem_sourceFiles, hasExtension_iff, exists_and_left]
  · obtain ⟨⟨path, content⟩, listed, rfl⟩ := List.mem_map.mp mem
    exact ⟨content, Directory.holds_unique held (shows.mem_sourceFiles.mp listed).1⟩
  · exact List.pairwise_map.mpr (d.tree.pairwise_sourceFiles [] extensions)
  · exact elsewhere other.tree []
      ⟨rfl, fun path _ entry => Listing.mem_walk.trans (same path entry)⟩

end PackageRisk
