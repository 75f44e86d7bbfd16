import Mathlib.Data.Finset.Card
import PackageRisk.Inspection.Hashes

/-!
# Known hashes as a set

The known hashes stand for a mathematical set that only grows: the normal forms of all hashes given
so far, the blank one left out. It makes no difference whether a hash was given at the start or
later, nor in which form, and every call is answered as that set would answer it.
-/

namespace PackageRisk.MalwareHashes

variable {known : MalwareHashes} {given : List String} {hash name : String}

/-- The normal forms of some hashes, the blank one apart. -/
def normalForms (given : List String) : Finset String :=
  (given.map normalize).toFinset.erase ""

theorem mem_normalForms :
    name ∈ normalForms given ↔ name ≠ "" ∧ ∃ listed ∈ given, normalize listed = name := by
  rw [normalForms, Finset.mem_erase, List.mem_toFinset, List.mem_map]

theorem normalForms_concat (given : List String) (hash : String) :
    normalForms (given ++ [hash]) =
      if normalize hash = "" then normalForms given
      else insert (normalize hash) (normalForms given) := by
  ext name
  split
  · rename_i blank
    simp only [mem_normalForms, List.mem_append, List.mem_singleton]
    refine and_congr_right fun nonblank => ⟨?_, fun ⟨listed, mem, same⟩ => ⟨listed, .inl mem, same⟩⟩
    rintro ⟨listed, mem | rfl, same⟩
    · exact ⟨listed, mem, same⟩
    · exact absurd (same.symm.trans blank) nonblank
  · rename_i nonblank
    simp only [mem_normalForms, Finset.mem_insert, List.mem_append, List.mem_singleton]
    constructor
    · rintro ⟨some_char, listed, mem | rfl, same⟩
      · exact .inr ⟨some_char, listed, mem, same⟩
      · exact .inl same.symm
    · rintro (rfl | ⟨some_char, listed, mem, same⟩)
      · exact ⟨nonblank, hash, .inr rfl, rfl⟩
      · exact ⟨some_char, listed, .inl mem, same⟩

/-- The known hashes are the normal forms of the given ones, each held once. -/
structure Represents (known : MalwareHashes) (given : List String) : Prop where
  distinct : known.hashes.Nodup
  members : known.hashes.toFinset = normalForms given

theorem isNew_iff : known.isNew hash = true ↔
    normalize hash ≠ "" ∧ known.contains hash = false := by
  simp [isNew]

namespace Represents

theorem empty : Represents {} [] :=
  ⟨.nil, rfl⟩

theorem contains_iff_mem (h : known.Represents given) :
    known.contains hash = true ↔ normalize hash ∈ normalForms given := by
  rw [MalwareHashes.contains, List.contains_iff_mem, ← h.members, List.mem_toFinset]

theorem contains_iff (h : known.Represents given) : known.contains hash = true ↔
    normalize hash ≠ "" ∧ ∃ listed ∈ given, normalize listed = normalize hash :=
  h.contains_iff_mem.trans mem_normalForms

theorem size_eq (h : known.Represents given) : known.size = (normalForms given).card := by
  rw [size, ← h.members, List.toFinset_card_of_nodup h.distinct]

/-- A hash that makes no difference is blank or a member, and any other is put in. -/
theorem add (h : known.Represents given) (hash : String) :
    (known.add hash).Represents (given ++ [hash]) := by
  have member : normalize hash ∈ known.hashes ↔ normalize hash ∈ normalForms given := by
    rw [← h.members, List.mem_toFinset]
  rw [MalwareHashes.add]
  split
  · rename_i new
    obtain ⟨nonblank, unknown⟩ := isNew_iff.mp new
    have fresh : normalize hash ∉ known.hashes := by
      simpa [MalwareHashes.contains] using unknown
    refine ⟨?_, ?_⟩
    · rw [← List.concat_eq_append]
      exact h.distinct.concat fresh
    · rw [normalForms_concat, if_neg nonblank, ← h.members, List.toFinset_append,
        List.toFinset_cons, List.toFinset_nil, Finset.union_comm]
      rfl
  · rename_i old
    refine ⟨h.distinct, ?_⟩
    rw [normalForms_concat, h.members]
    split
    · rfl
    · rename_i nonblank
      have listed : normalize hash ∈ known.hashes := by
        by_contra unknown
        exact old (isNew_iff.mpr ⟨nonblank, by simpa [MalwareHashes.contains] using unknown⟩)
      exact (Finset.insert_eq_self.mpr (member.mp listed)).symm

/-- What one call preserves. -/
theorem call (h : known.Represents given) (call : HashCall) :
    (known.call call).2.Represents (given ++ call.added) := by
  cases call with
  | contains hash => rwa [call_contains, HashCall.added_contains, List.append_nil]
  | add hash => simpa only [call_add, HashCall.added_add] using h.add hash

/-- What a whole run preserves. -/
theorem after (h : known.Represents given) (calls : List HashCall) :
    (known.after calls).Represents (given ++ calls.flatMap HashCall.added) := by
  induction calls generalizing known given with
  | nil => rwa [after_nil, List.flatMap_nil, List.append_nil]
  | cons call calls ih =>
    rw [after_cons, List.flatMap_cons, ← List.append_assoc]
    exact ih (h.call call)

theorem ofList (hashes : List String) : (MalwareHashes.ofList hashes).Represents hashes := by
  have seeded : (MalwareHashes.ofList hashes) = ({} : MalwareHashes).after (hashes.map .add) := by
    simp only [MalwareHashes.ofList, MalwareHashes.after, List.foldl_map, call_add]
  have given : (hashes.map HashCall.add).flatMap HashCall.added = hashes := by
    simp only [List.flatMap_map, HashCall.added_add, List.flatMap_singleton']
  have run := Represents.empty.after (hashes.map .add)
  rwa [← seeded, given] at run

end Represents

/-- After every run of calls a hash is found exactly when it is not blank and some hash given at
the start or added since has its normal form. An addition is answered by whether the hash is neither
blank nor found before, the size counts the normal forms, and no further call takes a hash away. -/
theorem refines_growing_set (initial : List String) (past : List HashCall) :
    let known := (ofList initial).after past
    let given := initial ++ past.flatMap HashCall.added
    (∀ hash, (known.call (.contains hash)).1 = true ↔
      normalize hash ≠ "" ∧ ∃ listed ∈ given, normalize listed = normalize hash) ∧
    (∀ hash, (known.call (.add hash)).1 = true ↔
      normalize hash ≠ "" ∧ known.contains hash = false) ∧
    known.size = (normalForms given).card ∧
    ∀ call hash, known.contains hash = true → (known.call call).2.contains hash = true := by
  intro known given
  have now : known.Represents given := (Represents.ofList initial).after past
  simp only [call_contains, call_add]
  refine ⟨fun hash => now.contains_iff, fun hash => isNew_iff, now.size_eq, ?_⟩
  intro call hash found
  obtain ⟨nonblank, listed, mem, same⟩ := now.contains_iff.mp found
  exact (now.call call).contains_iff.mpr
    ⟨nonblank, listed, List.mem_append_left _ mem, same⟩

end PackageRisk.MalwareHashes
