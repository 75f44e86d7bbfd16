import PackageRisk.Inspection.Inspector
import PackageRisk.Registry.Archive

/-!
# Names in a tree

A path is shown with slashes between its names, and with slashes for the backslashes in them. The
names can be told apart again because none of them is empty or has a slash in it, and every archive
unpacks to such names. So the text of a path stands for the names between its slashes and
backslashes, and two paths are shown alike exactly when these are the same.
-/

namespace PackageRisk

section Intercalate

variable {α : Type} {separator part : List α} {parts front rest : List (List α)}

theorem intercalate_append (some_front : front ≠ []) (some_rest : rest ≠ []) :
    separator.intercalate (front ++ rest) =
      separator.intercalate front ++ separator ++ separator.intercalate rest := by
  induction front with
  | nil => exact absurd rfl some_front
  | cons text front ih =>
    cases front with
    | nil => simp [List.intercalate_cons_of_ne_nil some_rest]
    | cons next front =>
      have step := ih (List.cons_ne_nil next front)
      rw [List.cons_append] at step
      simp [step]

theorem subset_intercalate (mem : part ∈ parts) : part ⊆ separator.intercalate parts := by
  induction parts with
  | nil => cases mem
  | cons first parts ih =>
    by_cases last : parts = []
    · subst last
      simp [List.mem_singleton.mp mem]
    · rw [List.intercalate_cons_of_ne_nil last]
      rcases List.mem_cons.mp mem with rfl | mem
      · exact fun c mem => List.mem_append_left _ (List.mem_append_left _ mem)
      · exact fun c found => List.mem_append_right _ (ih mem found)

end Intercalate

namespace Path

/-- A name that a directory can have for what is in it. -/
structure IsName (name : String) : Prop where
  some_char : name ≠ ""
  slashless : '/' ∉ name.toList

instance (name : String) : Decidable (IsName name) :=
  decidable_of_iff (name ≠ "" ∧ '/' ∉ name.toList)
    ⟨fun h => ⟨h.1, h.2⟩, fun h => ⟨h.some_char, h.slashless⟩⟩

/-- Every name in the path can stand in a directory. -/
def Proper (path : Path) : Prop :=
  ∀ name ∈ path, IsName name

instance (path : Path) : Decidable path.Proper :=
  inferInstanceAs (Decidable (∀ name ∈ path, IsName name))

/-- The names of a path with backslashes for separators, too. -/
def slashed (path : Path) : Path :=
  path.flatMap fun name => (name.toList.splitOn '\\').map String.ofList

/-! ## Paths as they are shown -/

theorem toList_displayLabel (s : String) :
    (displayLabel s).toList = s.toList.map fun c => if c = '\\' then '/' else c := by
  simp [displayLabel]

/-- A slash for each backslash. -/
theorem map_backslash (name : List Char) :
    name.map (fun c => if c = '\\' then '/' else c) =
      ['/'].intercalate (name.splitOn '\\') := by
  induction name with
  | nil => rfl
  | cons c name ih =>
    obtain ⟨part, parts, split⟩ := List.exists_cons_of_ne_nil (List.splitOn_ne_nil '\\' name)
    rw [List.map_cons, ih, List.splitOn_cons_eq_if_modifyHead, split]
    by_cases backslash : c = '\\'
    · simp [backslash]
    · cases parts <;> simp [backslash]

theorem slashed_cons (name : String) (path : Path) :
    slashed (name :: path) = (name.toList.splitOn '\\').map String.ofList ++ slashed path :=
  List.flatMap_cons

theorem slashed_eq_nil {path : Path} : path.slashed = [] ↔ path = [] := by
  cases path with
  | nil => simp [slashed]
  | cons name path => simp [slashed_cons, List.splitOn_ne_nil]

/-- Without backslashes the names stay as they are. -/
theorem slashed_eq_self {path : Path} (plain : ∀ name ∈ path, '\\' ∉ name.toList) :
    path.slashed = path := by
  induction path with
  | nil => rfl
  | cons name path ih =>
    obtain ⟨first, others⟩ := List.forall_mem_cons.mp plain
    rw [slashed_cons, List.splitOn_eq_singleton first, ih others]
    simp

/-- A path is shown with a slash between names that a slash or a backslash separates. -/
theorem toList_display (path : Path) :
    (displayLabel path.display).toList = ['/'].intercalate (path.slashed.map String.toList) := by
  rw [toList_displayLabel]
  induction path with
  | nil => rfl
  | cons name path ih =>
    have first : ((name.toList.splitOn '\\').map String.ofList).map String.toList =
        name.toList.splitOn '\\' := by
      simp [Function.comp_def]
    rw [slashed_cons, List.map_append, first]
    by_cases last : path = []
    · subst last
      simp [display, slashed, map_backslash]
    · have some_rest : (slashed path).map String.toList ≠ [] := by
        simpa [slashed_eq_nil] using last
      rw [intercalate_append (List.splitOn_ne_nil _ _) some_rest, ← ih, ← map_backslash]
      simp [display, String.intercalate_cons_of_ne_nil last]

section Injectivity

variable {path other : Path}

theorem slashless_of_mem_slashed (proper : path.Proper) {name : String}
    (mem : name ∈ path.slashed) : '/' ∉ name.toList := by
  obtain ⟨whole, listed, part⟩ := List.mem_flatMap.mp mem
  obtain ⟨chars, listed', rfl⟩ := List.mem_map.mp part
  have joined : ['\\'].intercalate (whole.toList.splitOn '\\') = whole.toList :=
    List.intercalate_splitOn '\\'
  have within : chars ⊆ whole.toList := joined ▸ subset_intercalate listed'
  rw [String.toList_ofList]
  exact fun slash => (proper whole listed).slashless (within slash)

/-- Only the path without names is shown as nothing. -/
theorem toList_display_eq_nil (proper : path.Proper) :
    (displayLabel path.display).toList = [] ↔ path = [] := by
  refine ⟨fun empty => List.eq_nil_iff_forall_not_mem.mpr fun name mem => ?_, ?_⟩
  · rw [toList_displayLabel, List.map_eq_nil_iff, display, String.toList_intercalate] at empty
    have within : name.toList ⊆ [] := empty ▸ subset_intercalate (List.mem_map_of_mem mem)
    exact (proper name mem).some_char (String.toList_eq_nil_iff.mp (List.subset_nil.mp within))
  · rintro rfl
    rw [toList_display]
    rfl

/-- The names of a path can be read off what is shown. -/
theorem splitOn_display (proper : path.Proper) (some_name : path ≠ []) :
    (displayLabel path.display).toList.splitOn '/' = path.slashed.map String.toList := by
  rw [toList_display, List.splitOn_intercalate]
  · intro chars mem
    obtain ⟨name, listed, rfl⟩ := List.mem_map.mp mem
    exact slashless_of_mem_slashed proper listed
  · simpa [slashed_eq_nil] using some_name

/-- Paths are shown alike exactly when they have the same names, backslashes taken for
separators. -/
theorem displayLabel_display_inj (proper : path.Proper) (proper' : other.Proper) :
    displayLabel path.display = displayLabel other.display ↔ path.slashed = other.slashed := by
  constructor
  · intro same
    by_cases empty : path = []
    · have empty' : other = [] := by
        rw [← toList_display_eq_nil proper', ← same, toList_display_eq_nil proper, empty]
      rw [empty, empty']
    · have some_name : other ≠ [] := by
        rwa [ne_eq, ← toList_display_eq_nil proper', ← same, toList_display_eq_nil proper]
      have names : path.slashed.map String.toList = other.slashed.map String.toList := by
        rw [← splitOn_display proper empty, ← splitOn_display proper' some_name, same]
      exact (List.map_inj_right fun _ _ => String.toList_inj.mp).mp names
  · intro same
    rw [← String.toList_inj, toList_display, toList_display, same]

end Injectivity

end Path

/-! ## Unpacked trees -/

/-- The names between slashes have none. -/
theorem Text.slashless_of_mem_splitAt {s part : List Char}
    (mem : part ∈ splitAt (· == '/') s) : '/' ∉ part := by
  induction s generalizing part with
  | nil =>
    rw [List.mem_singleton.mp mem]
    exact List.not_mem_nil
  | cons c s ih =>
    obtain ⟨first, parts, split⟩ := List.exists_cons_of_ne_nil (splitAt_ne_nil (· == '/') s)
    rw [split] at ih
    by_cases slash : c = '/'
    · simp only [splitAt, slash, beq_self_eq_true, if_true, split] at mem
      rcases List.mem_cons.mp mem with rfl | mem
      · exact List.not_mem_nil
      · exact ih mem
    · simp only [splitAt, beq_iff_eq, slash, if_false, split] at mem
      rcases List.mem_cons.mp mem with rfl | mem
      · simpa [Ne.symm slash] using ih List.mem_cons_self
      · exact ih (List.mem_cons_of_mem _ mem)

theorem Path.slashless_of_mem_splitAt {text name : String}
    (mem : name ∈ (Text.splitAt (· == '/') text.toList).map String.ofList) :
    '/' ∉ name.toList := by
  obtain ⟨chars, part, rfl⟩ := List.mem_map.mp mem
  rw [String.toList_ofList]
  exact Text.slashless_of_mem_splitAt part

theorem Path.proper_ofString (text : String) : (Path.ofString text).Proper := by
  intro name mem
  obtain ⟨listed, named⟩ := List.mem_filter.mp mem
  exact ⟨by simp_all, slashless_of_mem_splitAt listed⟩

theorem Path.Proper.of_subset {path other : Path} (h : path.Proper) (subset : other ⊆ path) :
    other.Proper :=
  fun name mem => h name (subset mem)

theorem Path.Proper.append {path other : Path} (h : path.Proper) (h' : other.Proper) :
    Path.Proper (path ++ other) := by
  intro name mem
  exact (List.mem_append.mp mem).elim (h name) (h' name)

namespace FileTree

variable {t t' : FileTree} {path dir place : Path} {entry : FileEntry}

/-- Every name in the tree can stand in a directory. -/
def Posix (t : FileTree) : Prop :=
  ∀ found ∈ t.entries, Path.Proper found.1

instance (t : FileTree) : Decidable t.Posix :=
  inferInstanceAs (Decidable (∀ found ∈ t.entries, Path.Proper found.1))

theorem Posix.insert (h : t.Posix) (proper : path.Proper) : (t.insert path entry).Posix := by
  intro found mem
  rcases List.mem_append.mp mem with mem | mem
  · exact h found (List.mem_filter.mp mem).1
  · rw [List.mem_singleton.mp mem]
    exact proper

/-- Following links leads to names that were asked for or that stand in the text of a link. -/
theorem proper_of_resolveFrom {links : Nat} {names : List String} (proper : dir.Proper)
    (slashless : ∀ name ∈ names, '/' ∉ name.toList)
    (found : t.resolveFrom links dir names = .ok place) : place.Proper := by
  fun_induction t.resolveFrom links dir names with
  | case1 =>
    obtain rfl := Except.ok.inj found
    exact proper
  | case2 links dir name rest _ _ ih =>
    exact ih proper (List.forall_mem_cons.mp slashless).2 found
  | case3 links dir rest _ _ ih =>
    exact ih (proper.of_subset (List.dropLast_subset _)) (List.forall_mem_cons.mp slashless).2
      found
  | case4 | case5 | case6 | case9 => cases found
  | case7 dir name rest _ _ _ target _ links _ ih =>
    refine ih proper (fun name mem => ?_) found
    rcases List.mem_append.mp mem with mem | mem
    · exact Path.slashless_of_mem_splitAt mem
    · exact (List.forall_mem_cons.mp slashless).2 name mem
  | case8 links dir name rest _ special _ _ _ _ ih =>
    obtain ⟨first, others⟩ := List.forall_mem_cons.mp slashless
    have named : Path.IsName name := ⟨fun empty => special (.inl empty), first⟩
    exact ih (proper.append (List.forall_mem_singleton.mpr named)) others found

theorem proper_of_resolveFrom_root {links : Nat} (proper : path.Proper)
    (found : t.resolveFrom links [] path = .ok place) : place.Proper :=
  proper_of_resolveFrom (List.forall_mem_nil _) (fun name mem => (proper name mem).slashless) found

end FileTree

namespace Archive

open FileTree

variable {t t' : FileTree} {path place : Path}

theorem posix_of_ensureDirectory? (h : t.Posix) (proper : path.Proper)
    (made : ensureDirectory? t path = some t') : t'.Posix := by
  refine List.foldlRecOn (motive := fun made => ∀ t' : FileTree, made = some t' → t'.Posix)
    _ _ ?_ ?_ t' made
  · rintro _ ⟨⟩
    exact h
  · intro made ih n _ t' step
    obtain ⟨before, prior, step⟩ := Option.bind_eq_some_iff.mp step
    have posix := ih before prior
    have above : Path.Proper (path.take n) := proper.of_subset (List.take_subset n path)
    dsimp only at step
    split at step
    · -- What is there already stays as it is.
      split at step
      · split at step
        · obtain rfl := Option.some.inj step
          exact posix
        · cases step
      · cases step
    · split at step
      · rename_i place found
        obtain rfl := Option.some.inj step
        have leads := proper_of_resolveFrom_root (above.of_subset (List.dropLast_subset _)) found
        exact posix.insert (leads.append (above.of_subset (List.drop_subset _ _)))
      · cases step

theorem proper_of_place? (proper : path.Proper) (found : place? t path = some place) :
    place.Proper := by
  rw [place?] at found
  split at found
  · rename_i dir resolved
    obtain ⟨name, last, rfl⟩ := Option.map_eq_some_iff.mp found
    have leads := proper_of_resolveFrom_root (proper.of_subset (List.dropLast_subset _)) resolved
    have named := proper name (List.mem_of_getLast? last)
    exact leads.append (List.forall_mem_singleton.mpr named)
  · cases found

theorem proper_of_memberPath? {text : String} (found : memberPath? text = some path) :
    path.Proper := by
  rw [memberPath?] at found
  split at found
  · cases found
  · obtain rfl := Option.some.inj found
    exact Path.proper_ofString text

/-- A member is put in the place that its path leads to, if anything is put anywhere. -/
theorem unpackMember?_cases {entry : ArchiveEntry} (put : unpackMember? t entry = some t') :
    t' = t ∨ ∃ path before place what, memberPath? entry.path = some path ∧
      ensureDirectory? t path.dropLast = some before ∧ place? before path = some place ∧
      (t' = before ∨ t' = before.insert place what) := by
  rw [unpackMember?] at put
  split at put
  · exact .inl (Option.some.inj put).symm
  · exact .inl (Option.some.inj put).symm
  · rename_i path _ member
    obtain ⟨before, made, put⟩ := Option.bind_eq_some_iff.mp put
    obtain ⟨place, found, put⟩ := Option.bind_eq_some_iff.mp put
    refine .inr ⟨path, before, place, ?_⟩
    split at put
    · exact ⟨_, member, made, found, .inr (Option.some.inj put).symm⟩
    · refine ⟨.directory, member, made, found, .inl ?_⟩
      split at put
      · split at put
        · exact (Option.some.inj put).symm
        · cases put
      · cases put
    · cases put
    · exact ⟨_, member, made, found, .inr (Option.some.inj put).symm⟩
    · obtain ⟨-, put⟩ := Option.ite_none_left_eq_some.mp put
      exact ⟨_, member, made, found, .inr (Option.some.inj put).symm⟩
    · cases put
    · obtain ⟨source, -, put⟩ := Option.bind_eq_some_iff.mp put
      obtain ⟨source, -, put⟩ := Option.bind_eq_some_iff.mp put
      split at put
      · cases put
      · cases put
      · exact ⟨_, member, made, found, .inr (Option.some.inj put).symm⟩

theorem posix_of_unpackMember? {entry : ArchiveEntry} (h : t.Posix)
    (put : unpackMember? t entry = some t') : t'.Posix := by
  obtain rfl | ⟨path, before, place, what, member, made, found, rfl | rfl⟩ :=
    unpackMember?_cases put
  · exact h
  · exact posix_of_ensureDirectory? h
      ((proper_of_memberPath? member).of_subset (List.dropLast_subset _)) made
  · have proper := proper_of_memberPath? member
    have posix := posix_of_ensureDirectory? h (proper.of_subset (List.dropLast_subset _)) made
    exact posix.insert (proper_of_place? proper found)

/-- Archives unpack to names that can stand in directories. -/
theorem posix_of_unpack? {entries : List ArchiveEntry} (unpacked : unpack? entries = some t) :
    t.Posix := by
  have run (entries : List ArchiveEntry) (before : FileTree) (h : before.Posix)
      (all : entries.foldlM unpackMember? before = some t) : t.Posix := by
    induction entries generalizing before with
    | nil =>
      obtain rfl := Option.some.inj all
      exact h
    | cons entry entries ih =>
      rw [List.foldlM_cons] at all
      obtain ⟨next, put, all⟩ := Option.bind_eq_some_iff.mp all
      exact ih next (posix_of_unpackMember? h put) all
  exact run _ ∅ (List.forall_mem_nil _) unpacked

end Archive

end PackageRisk
