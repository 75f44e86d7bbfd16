import Mathlib.Data.List.FinRange
import PackageRisk.Proofs.Advisory.Growth

/-!
# Which advisories an entry describes

Merging assigns every advisory to one entry, and an entry is made of the advisories assigned to it
and of nothing else: it has the id of the first one, the highest severity, the first title that is
not empty, and the names and sources of all.
-/

namespace List

theorem map_finRange_eq_zipIdx {α : Type} (l : List α) :
    (finRange l.length).map (fun i => (l.get i, i.val)) = l.zipIdx := by
  apply ext_getElem
  · simp
  · intro i _ _
    simp

end List

namespace PackageRisk

theorem Severity.rank_max (s t : Severity) : (s.max t).rank = Max.max s.rank t.rank := by
  rw [Severity.max]
  split <;> omega

theorem Severity.max_eq_or (s t : Severity) : s.max t = s ∨ s.max t = t := by
  rw [Severity.max]
  split
  · exact .inr rfl
  · exact .inl rfl

namespace Advisory

variable {e x : Advisory} {members : List Advisory}

/-- An entry tells what some advisories tell together. Names are compared without regard to letter
case, and each is spelled as in one of the advisories. -/
structure Describes (e : Advisory) (members : List Advisory) : Prop where
  id : members.head?.map Advisory.id = some e.id
  severity : (∃ a ∈ members, a.severity = e.severity) ∧
    ∀ a ∈ members, a.severity.rank ≤ e.severity.rank
  names : ∀ name, e.isNamed name = true ↔ ∃ a ∈ members, a.isNamed name = true
  spelled : ∀ name ∈ e.identifiers, ∃ a ∈ members, name ∈ a.identifiers
  sources : ∀ source, source ∈ e.sources ↔ ∃ a ∈ members, source ∈ a.sources
  title : e.title = ((members.map Advisory.title).find? fun title => !title.isEmpty).getD ""
  tidy : e.Tidy

theorem title_absorb (a b : Advisory) :
    (a.absorb b).title = if a.title.isEmpty then b.title else a.title := by
  obtain ⟨listed, eq⟩ := absorb_eq a b
  obtain ⟨aliases, named⟩ := foldl_addName_eq (a.raise b) b.identifiers
  rw [eq, named]
  rfl

theorem describes_normalized (x : Advisory) : x.normalized.Describes [x] where
  id := rfl
  severity := by simp [normalized]
  names name := by simp
  spelled name mem := by
    simp only [identifiers, normalized, List.mem_cons, mem_sortUnique, List.mem_filter] at mem ⊢
    exact ⟨x, .inl rfl, mem.imp_right And.left⟩
  sources source := by simp [normalized]
  title := by
    by_cases empty : x.title = "" <;> simp [normalized, empty]
  tidy := tidy_normalized x

theorem Describes.absorb (h : e.Describes members) (x : Advisory) :
    (e.absorb x).Describes (members ++ [x]) where
  id := by
    obtain ⟨first, head, id⟩ := Option.map_eq_some_iff.mp h.id
    rw [List.head?_append, head, id_absorb, ← id]
    rfl
  severity := by
    obtain ⟨⟨a, mem, equal⟩, highest⟩ := h.severity
    rw [severity_absorb, Severity.rank_max]
    constructor
    · rcases Severity.max_eq_or e.severity x.severity with old | new
      · exact ⟨a, List.mem_append_left _ mem, by rw [old, equal]⟩
      · exact ⟨x, by simp, new.symm⟩
    · intro b mem
      rcases List.mem_append.mp mem with mem | mem
      · exact Nat.le_trans (highest b mem) (Nat.le_max_left _ _)
      · rw [List.mem_singleton.mp mem]
        exact Nat.le_max_right _ _
  names name := by
    rw [isNamed_absorb, Bool.or_eq_true, h.names]
    simp [or_and_right, exists_or]
  spelled name mem := by
    rw [mem_identifiers_absorb] at mem
    rcases (identifiers_foldl_addName (e.raise x) x.identifiers).2 name mem with old | new
    · obtain ⟨a, member, listed⟩ := h.spelled name old
      exact ⟨a, List.mem_append_left _ member, listed⟩
    · exact ⟨x, by simp, new⟩
  sources source := by
    rw [mem_sources_absorb, h.sources]
    simp [or_and_right, exists_or]
  title := by
    rw [title_absorb, List.map_append, List.find?_append, h.title]
    cases found : (members.map Advisory.title).find? fun title => !title.isEmpty with
    | none => by_cases empty : x.title = "" <;> simp [empty]
    | some title =>
      have filled := List.find?_some found
      simp_all
  tidy := h.tidy.absorb x

/-- What is assigned to a place, in the order of the advisories. -/
def assigned {advisories : List Advisory} {places : Nat}
    (owner : Fin advisories.length → Fin places) (place : Fin places) : List Advisory :=
  ((List.finRange advisories.length).filter fun i => owner i = place).map advisories.get

/-- Places that are renamed keep what is assigned to them. -/
theorem assigned_comp {advisories : List Advisory} {m n : Nat}
    (owner : Fin advisories.length → Fin m) {rename : Fin m → Fin n}
    (injective : Function.Injective rename) (place : Fin m) :
    assigned (rename ∘ owner) (rename place) = assigned owner place := by
  simp only [assigned, Function.comp_apply, injective.eq_iff]

end Advisory

namespace Group

variable {advisories : List Advisory} {groups : List Group} {x : Advisory}

theorem describes_entry (g : Group) : g.entry.Describes g.members := by
  obtain ⟨first, others⟩ := g
  induction others using List.reverseRecOn with
  | nil => exact Advisory.describes_normalized first
  | append_singleton others x ih =>
    have grown : (Group.mk first (others ++ [x])) = (Group.mk first others).add x := rfl
    rw [grown, entry_add, members_add]
    exact ih.absorb x

/-- The members of the group at a place, if there is one. -/
def membersAt (groups : List Group) (place : Nat) : List Advisory :=
  groups[place]?.elim [] members

/-- An advisory joins the members at one place: that of the first group which it matches, or else
the place behind all groups. -/
theorem membersAt_place (x : Advisory) (groups : List Group) (p : Nat) :
    membersAt (place x groups) p =
      membersAt groups p ++ if groups.findIdx (·.entry.sameAs x) = p then [x] else [] := by
  induction groups generalizing p with
  | nil => cases p <;> simp [place, membersAt]
  | cons g rest ih =>
    rw [place, List.findIdx_cons]
    cases same : g.entry.sameAs x with
    | true => cases p <;> simp [membersAt]
    | false =>
      cases p with
      | zero => simp [membersAt]
      | succ p =>
        simp only [membersAt] at ih
        simp [membersAt, ih]

/-- The groups share out the advisories: each goes to one place. -/
theorem exists_places (advisories : List Advisory) :
    ∃ places : Nat → Nat, ∀ p, membersAt (ofList advisories) p =
      (advisories.zipIdx.filter fun q => places q.2 = p).map Prod.fst := by
  induction advisories using List.reverseRecOn with
  | nil => exact ⟨id, fun p => rfl⟩
  | append_singleton advisories x ih =>
    obtain ⟨places, shared⟩ := ih
    let last := (ofList advisories).findIdx (·.entry.sameAs x)
    refine ⟨Function.update places advisories.length last, fun p => ?_⟩
    have earlier : (advisories.zipIdx.filter fun q =>
          Function.update places advisories.length last q.2 = p) =
        advisories.zipIdx.filter fun q => places q.2 = p := by
      apply List.filter_congr
      intro q mem
      have before : q.2 < advisories.length := List.snd_lt_of_mem_zipIdx mem
      rw [Function.update_of_ne (Nat.ne_of_lt before)]
    rw [ofList_concat, membersAt_place, shared, List.zipIdx_append, List.filter_append, earlier,
      List.map_append]
    by_cases here : last = p <;> simp [last, here]

theorem membersAt_of_lt {p : Nat} (here : p < groups.length) :
    membersAt groups p = groups[p].members := by
  rw [membersAt, List.getElem?_eq_getElem here, Option.elim_some]

theorem lt_of_membersAt_ne_nil {p : Nat} (some : membersAt groups p ≠ []) :
    p < groups.length := by
  apply Decidable.byContradiction
  intro outside
  apply some
  rw [membersAt, List.getElem?_eq_none (Nat.le_of_not_lt outside), Option.elim_none]

/-- Every advisory goes to one entry, and an entry describes the advisories that go to it. -/
theorem exists_owner (advisories : List Advisory) :
    ∃ owner : Fin advisories.length → Fin ((ofList advisories).map entry).length,
      ∀ place, (((ofList advisories).map entry).get place).Describes
        (Advisory.assigned owner place) := by
  obtain ⟨places, shared⟩ := exists_places advisories
  have inside (i : Fin advisories.length) :
      places i < ((ofList advisories).map entry).length := by
    rw [List.length_map]
    apply lt_of_membersAt_ne_nil
    rw [shared]
    have listed : (advisories[i], i.val) ∈ advisories.zipIdx :=
      List.mk_mem_zipIdx_iff_getElem?.mpr (List.getElem?_eq_getElem i.isLt)
    intro none
    exact List.filter_eq_nil_iff.mp (List.map_eq_nil_iff.mp none) _ listed (decide_eq_true rfl)
  refine ⟨fun i => ⟨places i, inside i⟩, fun place => ?_⟩
  have here : place < (ofList advisories).length := by
    simpa using place.isLt
  have members : Advisory.assigned (fun i => ⟨places i, inside i⟩) place =
      (ofList advisories)[place.val].members := by
    rw [← membersAt_of_lt here, shared, ← List.map_finRange_eq_zipIdx, List.filter_map,
      List.map_map]
    simp only [Advisory.assigned, Fin.ext_iff]
    rfl
  rw [members, List.get_eq_getElem, List.getElem_map]
  exact describes_entry _

end Group

namespace AdvisoryReport

open Advisory (assigned)

/-- Merging loses nothing and invents nothing. Every advisory of the reports, taken in report order
and most severe bucket first, is assigned to one entry of the merged report. An entry tells exactly
what the advisories assigned to it tell together, of which there is at least one, and it stands,
sorted by id, in the bucket of its own severity. -/
theorem merge_attributes (reports : List AdvisoryReport) :
    (∃ owner : Fin (reports.flatMap toList).length → Fin (merge reports).toList.length,
      ∀ place, ((merge reports).toList.get place).Describes (assigned owner place)) ∧
    (merge reports).Filed := by
  refine ⟨?_, filed_merge reports⟩
  obtain ⟨owner, described⟩ := Group.exists_owner (reports.flatMap toList)
  have perm := (toList_merge_perm reports).symm
  rw [mergedEntries_eq] at perm
  -- The buckets rearrange the entries, and the advisories go with them.
  refine ⟨perm.idxBij ∘ owner, fun place => ?_⟩
  obtain ⟨first, rfl⟩ : ∃ first, perm.idxBij first = place :=
    ⟨perm.symm.idxBij place, perm.idxBij_idxBij_symm⟩
  rw [Advisory.assigned_comp owner perm.idxBij_injective, List.get_eq_getElem,
    perm.getElem_idxBij_eq_getElem]
  exact described first

end AdvisoryReport

end PackageRisk
