import Mathlib.Data.List.Nodup
import PackageRisk.NameMap

/-!
# Looking up names

What is found under a name after a value was put into a map, and after all values of another map
were. A map lists each of its names once, so what is found under a name is what is listed with it.
-/

namespace PackageRisk

/-- The first entry of a name after an entry was put in. -/
theorem find?_insertPair {α : Type} (key name : String) (value : α) (pairs : List (String × α)) :
    (insertPair key value pairs).find? (·.1 == name) =
      if key = name then some (key, value) else pairs.find? (·.1 == name) := by
  induction pairs with
  | nil => by_cases own : key = name <;> simp [insertPair, own]
  | cons head rest ih =>
    obtain ⟨k, v⟩ := head
    rw [insertPair]
    split
    · by_cases own : key = name <;> simp [own]
    · split
      · rename_i same
        subst same
        by_cases own : key = name <;> simp [own]
      · rename_i other
        rw [List.find?_cons, List.find?_cons, ih]
        by_cases here : k = name
        · have foreign : key ≠ name := fun own => other (own.trans here.symm)
          simp [here, foreign]
        · have passed : (k == name) = false := beq_false_of_ne here
          simp only [passed]

namespace NameMap

variable {α β : Type} {m : NameMap α} {name : String} {value : α}

theorem nodup_names (m : NameMap α) : m.names.Nodup := by
  rw [names, List.Nodup, List.pairwise_map]
  exact m.ascending.imp String.ne_of_lt

theorem ascending_names (m : NameMap α) : m.names.Pairwise (· < ·) :=
  List.pairwise_map.mpr m.ascending

theorem get?_eq_some_iff : m.get? name = some value ↔ (name, value) ∈ m.entries := by
  rw [get?, Option.map_eq_some_iff]
  constructor
  · rintro ⟨⟨k, v⟩, found, rfl⟩
    obtain rfl : k = name := by simpa using List.find?_some found
    exact List.mem_of_find?_eq_some found
  · intro mem
    have some_entry : (m.entries.find? (·.1 == name)).isSome = true :=
      List.find?_isSome.mpr ⟨(name, value), mem, beq_self_eq_true name⟩
    obtain ⟨p, found⟩ := Option.isSome_iff_exists.mp some_entry
    have named : p.1 = name := by simpa using List.find?_some found
    have same := List.inj_on_of_nodup_map m.nodup_names (List.mem_of_find?_eq_some found) mem named
    exact ⟨p, found, congrArg Prod.snd same⟩

theorem mem_names_iff : name ∈ m.names ↔ ∃ value, m.get? name = some value := by
  simp only [get?_eq_some_iff, names, List.mem_map, Prod.exists, exists_and_right, exists_eq_right]

theorem get?_empty (name : String) : (∅ : NameMap α).get? name = none := rfl

theorem get?_insert (m : NameMap α) (key name : String) (value : α) :
    (m.insert key value).get? name = if key = name then some value else m.get? name := by
  rw [get?, entries_insert, find?_insertPair]
  split <;> rfl

/-- Of two maps, what is put in later is found first. -/
theorem get?_foldl_insert (f : String → α → β) (m : NameMap α) (other : NameMap β)
    (name : String) :
    (m.entries.foldl (fun n p => n.insert p.1 (f p.1 p.2)) other).get? name =
      ((m.get? name).map (f name)).or (other.get? name) := by
  rw [show (m.get? name).map (f name) =
    (m.entries.find? (·.1 == name)).map fun p => f name p.2 from Option.map_map ..]
  have ascending := m.ascending
  generalize m.entries = pairs at ascending ⊢
  induction pairs generalizing other with
  | nil => rfl
  | cons p pairs ih =>
    obtain ⟨first, later⟩ := List.pairwise_cons.mp ascending
    rw [List.foldl_cons, ih _ later, get?_insert, List.find?_cons]
    by_cases here : p.1 = name
    · have none : pairs.find? (·.1 == name) = none := by
        refine List.find?_eq_none.mpr fun q mem same => ?_
        have after := first q mem
        rw [here, eq_of_beq same] at after
        exact String.lt_irrefl _ after
      simp [none, here]
    · have passed : (p.1 == name) = false := beq_false_of_ne here
      simp only [passed, if_neg here]

end NameMap

end PackageRisk
