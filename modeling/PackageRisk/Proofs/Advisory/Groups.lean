import Mathlib.Data.List.Induction
import PackageRisk.Proofs.Ascending

/-!
# Entries and the advisories they describe

A merged entry is the outcome of the advisories that joined it, in the order in which they came:
the first in normal form, each later one absorbed. With these members kept beside it, an entry is
seen to go by the names of its members and by no others, letter case apart.
-/

namespace PackageRisk

namespace Advisory

variable {a b : Advisory} {name other : String}

theorem isNamed_iff :
    a.isNamed name = true ↔ ∃ id ∈ a.identifiers, Text.lower id = Text.lower name := by
  simp [isNamed, Text.sameIgnoringCase]

theorem isNamed_of_mem (h : name ∈ a.identifiers) : a.isNamed name = true :=
  isNamed_iff.mpr ⟨name, h, rfl⟩

/-- Letter case is no part of a name. -/
theorem isNamed_congr (same : Text.lower name = Text.lower other) :
    a.isNamed name = a.isNamed other := by
  simp only [isNamed, Text.sameIgnoringCase, same]

theorem isNamed_eq_of_mem_iff (h : ∀ id, id ∈ a.identifiers ↔ id ∈ b.identifiers) :
    a.isNamed name = b.isNamed name := by
  rw [Bool.eq_iff_iff, isNamed_iff, isNamed_iff]
  simp only [h]

/-- Two advisories are about the same vulnerability when some name is a name of both. -/
theorem sameAs_iff : a.sameAs b = true ↔ ∃ name, a.isNamed name = true ∧ b.isNamed name = true := by
  rw [sameAs, List.any_eq_true]
  constructor
  · rintro ⟨id, mem, named⟩
    exact ⟨id, isNamed_of_mem mem, named⟩
  · rintro ⟨name, first, second⟩
    obtain ⟨id, mem, same⟩ := isNamed_iff.mp first
    exact ⟨id, mem, by rw [isNamed_congr same, second]⟩

theorem sameAs_self (a : Advisory) : a.sameAs a = true :=
  sameAs_iff.mpr ⟨a.id, isNamed_of_mem List.mem_cons_self, isNamed_of_mem List.mem_cons_self⟩

theorem sameAs_comm (a b : Advisory) : a.sameAs b = b.sameAs a := by
  rw [Bool.eq_iff_iff, sameAs_iff, sameAs_iff]
  simp only [and_comm]

@[simp] theorem isNamed_normalized (a : Advisory) (name : String) :
    a.normalized.isNamed name = a.isNamed name := by
  rw [Bool.eq_iff_iff, isNamed_iff, isNamed_iff]
  constructor
  · rintro ⟨id, mem, same⟩
    refine ⟨id, ?_, same⟩
    simp only [identifiers, normalized, List.mem_cons, mem_sortUnique, List.mem_filter] at mem ⊢
    exact mem.imp_right And.left
  · rintro ⟨id, mem, same⟩
    -- An alias that the normal form drops is the id in other letters.
    by_cases own : Text.lower id = Text.lower a.id
    · exact ⟨a.id, List.mem_cons_self, own ▸ same⟩
    · refine ⟨id, ?_, same⟩
      have different : id ≠ a.id := fun h => own (h ▸ rfl)
      simp only [identifiers, normalized, List.mem_cons, mem_sortUnique, List.mem_filter,
        different, false_or] at mem ⊢
      exact ⟨mem, by simp [Text.sameIgnoringCase, own]⟩

theorem isNamed_addName (a : Advisory) (name other : String) :
    (a.addName name).isNamed other =
      (a.isNamed other || decide (Text.lower name = Text.lower other)) := by
  rw [addName]
  split
  · rename_i named
    by_cases same : Text.lower name = Text.lower other
    · simp [← isNamed_congr same, named]
    · simp [same]
  · simp [isNamed, identifiers, Text.sameIgnoringCase, Bool.or_assoc, beq_eq_decide]

theorem isNamed_foldl_addName (a : Advisory) (names : List String) (name : String) :
    (names.foldl addName a).isNamed name =
      (a.isNamed name || names.any fun id => Text.sameIgnoringCase id name) := by
  induction names generalizing a with
  | nil => simp
  | cons head names ih =>
    rw [List.foldl_cons, ih, isNamed_addName, List.any_cons, Bool.or_assoc]
    simp [Text.sameIgnoringCase, beq_eq_decide]

/-- Adding names keeps those that are there and brings in none but the given ones. -/
theorem identifiers_foldl_addName (a : Advisory) (names : List String) :
    a.identifiers ⊆ (names.foldl addName a).identifiers ∧
      ∀ id ∈ (names.foldl addName a).identifiers, id ∈ a.identifiers ∨ id ∈ names := by
  induction names generalizing a with
  | nil => exact ⟨List.Subset.refl _, fun id mem => .inl mem⟩
  | cons head names ih =>
    obtain ⟨kept, brought⟩ := ih (a.addName head)
    have step : a.identifiers ⊆ (a.addName head).identifiers ∧
        ∀ id ∈ (a.addName head).identifiers, id ∈ a.identifiers ∨ id = head := by
      rw [addName]
      split
      · exact ⟨List.Subset.refl _, fun id mem => .inl mem⟩
      · have added : ({ a with aliases := a.aliases ++ [head] } : Advisory).identifiers =
            a.identifiers ++ [head] := rfl
        rw [added]
        exact ⟨List.subset_append_left _ _, fun id mem => by simpa using mem⟩
    rw [List.foldl_cons]
    refine ⟨List.Subset.trans step.1 kept, fun id mem => ?_⟩
    rcases brought id mem with mem | mem
    · rcases step.2 id mem with mem | rfl
      · exact .inl mem
      · exact .inr List.mem_cons_self
    · exact .inr (List.mem_cons_of_mem head mem)

/-- Adding names changes nothing but the aliases. -/
theorem foldl_addName_eq (a : Advisory) (names : List String) :
    ∃ aliases, names.foldl addName a = { a with aliases := aliases } := by
  induction names generalizing a with
  | nil => exact ⟨a.aliases, rfl⟩
  | cons name names ih =>
    obtain ⟨aliases, eq⟩ := ih (a.addName name)
    refine ⟨aliases, ?_⟩
    rw [List.foldl_cons, eq, addName]
    split <;> rfl

@[simp] theorem id_foldl_addName (a : Advisory) (names : List String) :
    (names.foldl addName a).id = a.id := by
  obtain ⟨aliases, eq⟩ := foldl_addName_eq a names
  rw [eq]

@[simp] theorem sources_foldl_addName (a : Advisory) (names : List String) :
    (names.foldl addName a).sources = a.sources := by
  obtain ⟨aliases, eq⟩ := foldl_addName_eq a names
  rw [eq]

@[simp] theorem severity_foldl_addName (a : Advisory) (names : List String) :
    (names.foldl addName a).severity = a.severity := by
  obtain ⟨aliases, eq⟩ := foldl_addName_eq a names
  rw [eq]

/-- Adding sources changes nothing but the sources. -/
theorem foldl_addSource_eq (a : Advisory) (sources : List String) :
    ∃ listed, sources.foldl addSource a = { a with sources := listed } := by
  induction sources generalizing a with
  | nil => exact ⟨a.sources, rfl⟩
  | cons source sources ih =>
    obtain ⟨listed, eq⟩ := ih (a.addSource source)
    refine ⟨listed, ?_⟩
    rw [List.foldl_cons, eq, addSource]
    split <;> rfl

theorem mem_foldl_addSource {source : String} (a : Advisory) (sources : List String) :
    source ∈ (sources.foldl addSource a).sources ↔ source ∈ a.sources ∨ source ∈ sources := by
  induction sources generalizing a with
  | nil => simp
  | cons head sources ih =>
    rw [List.foldl_cons, ih, List.mem_cons, ← or_assoc]
    apply or_congr_left
    rw [addSource]
    split
    · rename_i listed
      have listed : head ∈ a.sources := by simpa using listed
      exact ⟨.inl, fun h => h.elim (fun h => h) (· ▸ listed)⟩
    · simp

/-- An advisory with the severity and the title that it has after taking in another one. -/
def raise (a b : Advisory) : Advisory :=
  { a with
    severity := a.severity.max b.severity
    title := if a.title.isEmpty then b.title else a.title }

/-- Absorbing is raising, adding names, sorting these and listing more sources. -/
theorem absorb_eq (a b : Advisory) :
    ∃ listed, a.absorb b =
      { b.identifiers.foldl addName (a.raise b) with
        aliases := (b.identifiers.foldl addName (a.raise b)).aliases.mergeSort
          fun x y => decide (x ≤ y)
        sources := listed } := by
  obtain ⟨listed, eq⟩ := foldl_addSource_eq (b.identifiers.foldl addName (a.raise b)) b.sources
  refine ⟨listed.mergeSort fun x y => decide (x ≤ y), ?_⟩
  rw [raise] at eq ⊢
  simp only [absorb, eq]

@[simp] theorem id_absorb (a b : Advisory) : (a.absorb b).id = a.id := by
  obtain ⟨listed, eq⟩ := absorb_eq a b
  rw [eq]
  exact id_foldl_addName _ _

@[simp] theorem severity_absorb (a b : Advisory) :
    (a.absorb b).severity = a.severity.max b.severity := by
  obtain ⟨listed, eq⟩ := absorb_eq a b
  rw [eq]
  exact severity_foldl_addName _ _

theorem aliases_absorb (a b : Advisory) :
    (a.absorb b).aliases =
      (b.identifiers.foldl addName (a.raise b)).aliases.mergeSort fun x y => decide (x ≤ y) := by
  obtain ⟨listed, eq⟩ := absorb_eq a b
  rw [eq]

theorem mem_sources_absorb {source : String} (a b : Advisory) :
    source ∈ (a.absorb b).sources ↔ source ∈ a.sources ∨ source ∈ b.sources := by
  have listed : source ∈ _ ↔ _ := mem_foldl_addSource
    (b.identifiers.foldl addName (a.raise b)) b.sources
  rw [sources_foldl_addName] at listed
  exact List.mem_mergeSort.trans listed

theorem mem_identifiers_absorb (a b : Advisory) (name : String) :
    name ∈ (a.absorb b).identifiers ↔
      name ∈ (b.identifiers.foldl addName (a.raise b)).identifiers := by
  rw [identifiers, identifiers, id_absorb, aliases_absorb, id_foldl_addName]
  simp [raise]

/-- Absorbing an advisory adds its names. -/
@[simp] theorem isNamed_absorb (a b : Advisory) (name : String) :
    (a.absorb b).isNamed name = (a.isNamed name || b.isNamed name) := by
  have folded := isNamed_foldl_addName (a.raise b) b.identifiers name
  exact Eq.trans (isNamed_eq_of_mem_iff fun id => mem_identifiers_absorb a b id) folded

end Advisory

/-- An entry of a merged report by its members, the first one apart. -/
structure Group where
  first : Advisory
  others : List Advisory := []
  deriving DecidableEq

namespace Group

variable {g : Group} {groups : List Group} {a b x : Advisory} {name : String}

/-- The advisories that a merged entry describes. -/
def members (g : Group) : List Advisory :=
  g.first :: g.others

/-- The merged entry. -/
def entry (g : Group) : Advisory :=
  g.others.foldl Advisory.absorb g.first.normalized

/-- A further member. -/
def add (g : Group) (x : Advisory) : Group :=
  { g with others := g.others ++ [x] }

@[simp] theorem members_single (x : Advisory) : (Group.mk x []).members = [x] := rfl

@[simp] theorem entry_add (g : Group) (x : Advisory) : (g.add x).entry = g.entry.absorb x := by
  simp [add, entry]

@[simp] theorem members_add (g : Group) (x : Advisory) :
    (g.add x).members = g.members ++ [x] := rfl

theorem isNamed_foldl_absorb (a : Advisory) (others : List Advisory) (name : String) :
    (others.foldl Advisory.absorb a).isNamed name =
      (a.isNamed name || others.any fun b => b.isNamed name) := by
  induction others generalizing a with
  | nil => simp
  | cons b others ih => simp [ih, Bool.or_assoc]

/-- An entry goes by the names of its members. -/
theorem isNamed_entry :
    g.entry.isNamed name = true ↔ ∃ a ∈ g.members, a.isNamed name = true := by
  rw [entry, isNamed_foldl_absorb, Advisory.isNamed_normalized, ← List.any_eq_true]
  rfl

theorem sameAs_entry : g.entry.sameAs x = true ↔ ∃ a ∈ g.members, a.sameAs x = true := by
  simp only [Advisory.sameAs_iff, isNamed_entry]
  constructor
  · rintro ⟨name, ⟨a, member, named⟩, shared⟩
    exact ⟨a, member, name, named, shared⟩
  · rintro ⟨a, member, name, named, shared⟩
    exact ⟨name, ⟨a, member, named⟩, shared⟩

/-- Let the first group whose entry matches an advisory take it in, or add a group for it. -/
def place (x : Advisory) : List Group → List Group
  | [] => [⟨x, []⟩]
  | g :: rest => if g.entry.sameAs x then g.add x :: rest else g :: place x rest

theorem map_entry_place (x : Advisory) (groups : List Group) :
    (place x groups).map entry = x.collect (groups.map entry) := by
  induction groups with
  | nil => rfl
  | cons g rest ih =>
    simp only [place, List.map_cons, Advisory.collect]
    split
    · simp
    · simp [ih]

/-- An advisory either matches no entry and opens a group, or joins the first that it matches. -/
theorem place_cases (x : Advisory) (groups : List Group) :
    ((∀ g ∈ groups, g.entry.sameAs x = false) ∧ place x groups = groups ++ [⟨x, []⟩]) ∨
    ∃ before g after, groups = before ++ g :: after ∧
      (∀ h ∈ before, h.entry.sameAs x = false) ∧ g.entry.sameAs x = true ∧
      place x groups = before ++ g.add x :: after := by
  induction groups with
  | nil => exact .inl ⟨by simp, rfl⟩
  | cons g rest ih =>
    cases same : g.entry.sameAs x with
    | true => exact .inr ⟨[], g, rest, rfl, by simp, same, by simp [place, same]⟩
    | false =>
      rcases ih with ⟨none, placed⟩ | ⟨before, h, after, rfl, none, joined, placed⟩
      · refine .inl ⟨List.forall_mem_cons.mpr ⟨same, none⟩, ?_⟩
        simp [place, same, placed]
      · refine .inr ⟨g :: before, h, after, rfl, List.forall_mem_cons.mpr ⟨same, none⟩, joined, ?_⟩
        simp [place, same, placed]

/-- The groups of some advisories, taken in order. -/
def ofList (advisories : List Advisory) : List Group :=
  advisories.foldl (fun groups a => place a groups) []

@[simp] theorem ofList_nil : ofList [] = [] := rfl

@[simp] theorem ofList_concat (advisories : List Advisory) (x : Advisory) :
    ofList (advisories ++ [x]) = place x (ofList advisories) := by
  simp [ofList]

/-- Every advisory is a member of one group. -/
theorem members_ofList_perm (advisories : List Advisory) :
    ((ofList advisories).flatMap members).Perm advisories := by
  induction advisories using List.reverseRecOn with
  | nil => simp
  | append_singleton advisories x ih =>
    rw [ofList_concat]
    rcases place_cases x (ofList advisories) with
      ⟨-, placed⟩ | ⟨before, g, after, split, -, -, placed⟩
    · rw [placed, List.flatMap_append]
      exact ih.append_right [x]
    · rw [placed]
      rw [split] at ih
      simp only [List.flatMap_append, List.flatMap_cons, members_add, List.append_assoc] at ih ⊢
      refine List.Perm.trans ?_ (ih.append_right [x])
      simp only [List.append_assoc]
      exact .append_left _ (.append_left _ List.perm_append_comm)

theorem mem_ofList {advisories : List Advisory} :
    (∃ g ∈ ofList advisories, a ∈ g.members) ↔ a ∈ advisories := by
  rw [← (members_ofList_perm advisories).mem_iff, List.mem_flatMap]

end Group

namespace AdvisoryReport

/-- The entries of a merged report are those of the groups. -/
theorem mergedEntries_eq (reports : List AdvisoryReport) :
    mergedEntries reports = (Group.ofList (reports.flatMap toList)).map Group.entry := by
  rw [mergedEntries]
  induction reports.flatMap toList using List.reverseRecOn with
  | nil => rfl
  | append_singleton advisories x ih =>
    rw [List.foldl_concat, ih, Group.ofList_concat, Group.map_entry_place]

end AdvisoryReport

end PackageRisk
