/-!
# Maps from names

A finite map keyed by strings, kept as a list of pairs in strictly ascending key order. The order
is part of the type, so listing a map needs no sorting and equal maps are equal as values.
-/

namespace PackageRisk

/-- Put a value under a key into an ascending list, replacing the value that was there. -/
def insertPair {α : Type} (key : String) (value : α) :
    List (String × α) → List (String × α)
  | [] => [(key, value)]
  | (k, v) :: rest =>
    if key < k then (key, value) :: (k, v) :: rest
    else if key = k then (key, value) :: rest
    else (k, v) :: insertPair key value rest

theorem mem_insertPair {α : Type} {key : String} {value : α} {pairs : List (String × α)}
    {p : String × α} (h : p ∈ insertPair key value pairs) :
    p = (key, value) ∨ p ∈ pairs := by
  induction pairs with
  | nil => exact .inl (List.mem_singleton.mp h)
  | cons head rest ih =>
    obtain ⟨k, v⟩ := head
    simp only [insertPair] at h
    split at h
    · exact List.mem_cons.mp h
    · split at h
      · rcases List.mem_cons.mp h with h | h
        · exact .inl h
        · exact .inr (List.mem_cons_of_mem _ h)
      · rcases List.mem_cons.mp h with h | h
        · exact .inr (h ▸ List.mem_cons_self)
        · exact (ih h).imp_right (List.mem_cons_of_mem _)

theorem insertPair_ascending {α : Type} (key : String) (value : α)
    {pairs : List (String × α)} (h : pairs.Pairwise fun a b => a.1 < b.1) :
    (insertPair key value pairs).Pairwise fun a b => a.1 < b.1 := by
  induction pairs with
  | nil => simp [insertPair]
  | cons head rest ih =>
    obtain ⟨k, v⟩ := head
    obtain ⟨hk, hrest⟩ := List.pairwise_cons.mp h
    simp only [insertPair]
    split
    · rename_i hlt
      refine List.pairwise_cons.mpr ⟨fun p hp => ?_, h⟩
      rcases List.mem_cons.mp hp with rfl | hp
      · exact hlt
      · exact String.lt_trans hlt (hk p hp)
    · rename_i hlt
      split
      · rename_i heq
        exact List.pairwise_cons.mpr ⟨fun p hp => heq ▸ hk p hp, hrest⟩
      · rename_i hne
        refine List.pairwise_cons.mpr ⟨fun p hp => ?_, ih hrest⟩
        rcases mem_insertPair hp with rfl | hp
        · exact Decidable.byContradiction fun hgt =>
            hne (String.le_antisymm (String.not_lt.mp hgt) (String.not_lt.mp hlt))
        · exact hk p hp

/-- A finite map from names, listed by strictly ascending name. -/
structure NameMap (α : Type) where
  entries : List (String × α)
  ascending : entries.Pairwise fun a b => a.1 < b.1

namespace NameMap

variable {α : Type}

/-- The map without entries. -/
def empty : NameMap α :=
  ⟨[], .nil⟩

instance : Inhabited (NameMap α) := ⟨empty⟩

instance : EmptyCollection (NameMap α) := ⟨empty⟩

instance [DecidableEq α] : DecidableEq (NameMap α) := fun a b =>
  decidable_of_iff (a.entries = b.entries) <| by
    cases a
    cases b
    simp

/-- The map with a value under a name; an earlier value of that name is replaced. -/
def insert (m : NameMap α) (name : String) (value : α) : NameMap α :=
  ⟨insertPair name value m.entries, insertPair_ascending name value m.ascending⟩

/-- The map of a list of pairs; of several pairs with one name the last counts. -/
def ofList (pairs : List (String × α)) : NameMap α :=
  pairs.foldl (fun m p => m.insert p.1 p.2) empty

/-- The value under a name. -/
def get? (m : NameMap α) (name : String) : Option α :=
  (m.entries.find? fun p => p.1 == name).map Prod.snd

/-- The names, ascending. -/
def names (m : NameMap α) : List String :=
  m.entries.map Prod.fst

/-- The values in the order of their names. -/
def values (m : NameMap α) : List α :=
  m.entries.map Prod.snd

/-- The number of entries. -/
def size (m : NameMap α) : Nat :=
  m.entries.length

@[simp] theorem entries_empty : (empty : NameMap α).entries = [] := rfl

@[simp] theorem entries_insert (m : NameMap α) (name : String) (value : α) :
    (m.insert name value).entries = insertPair name value m.entries := rfl

@[simp] theorem length_names (m : NameMap α) : m.names.length = m.size := by
  simp [names, size]

end NameMap

end PackageRisk
