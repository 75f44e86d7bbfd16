import Mathlib.Data.List.Pairwise
import Mathlib.Logic.Relation
import PackageRisk.Proofs.Advisory.Groups

/-!
# When merged entries overlap

Sharing a name is not transitive: an advisory may share one name with each of two entries that
share none. It joins the first of them, and from then on the two overlap. The entries stay apart
exactly when no advisory is such a bridge, that is, when the earlier advisories that it shares a
name with were linked among each other before it came.
-/

namespace PackageRisk

namespace Advisory

/-- Some chain of advisories of a list leads from one to the other, neighbours sharing a name. -/
def Linked (advisories : List Advisory) : Advisory → Advisory → Prop :=
  Relation.EqvGen fun a b => a ∈ advisories ∧ b ∈ advisories ∧ a.sameAs b = true

/-- No advisory shares names with two earlier ones that the earlier ones do not link. -/
def Unbridged (advisories : List Advisory) : Prop :=
  ∀ before x after, advisories = before ++ x :: after →
    ∀ a ∈ before, ∀ b ∈ before, a.sameAs x = true → b.sameAs x = true → Linked before a b

variable {advisories : List Advisory} {a b c x : Advisory}

theorem Linked.of_sameAs (ha : a ∈ advisories) (hb : b ∈ advisories) (same : a.sameAs b = true) :
    Linked advisories a b :=
  .rel a b ⟨ha, hb, same⟩

theorem Linked.append (x : Advisory) (linked : Linked advisories a b) :
    Linked (advisories ++ [x]) a b :=
  linked.mono fun _ _ h =>
    ⟨List.mem_append_left _ h.1, List.mem_append_left _ h.2.1, h.2.2⟩

theorem unbridged_nil : Unbridged [] := by
  intro before x after split
  simp at split

theorem unbridged_concat :
    Unbridged (advisories ++ [x]) ↔ Unbridged advisories ∧
      ∀ a ∈ advisories, ∀ b ∈ advisories, a.sameAs x = true → b.sameAs x = true →
        Linked advisories a b := by
  constructor
  · refine fun unbridged => ⟨fun before y after split => ?_, unbridged advisories x [] rfl⟩
    exact unbridged before y (after ++ [x]) (by simp [split])
  · rintro ⟨unbridged, last⟩ before y after split
    rcases List.eq_nil_or_concat after with rfl | ⟨after, z, rfl⟩
    · obtain ⟨rfl, h⟩ := List.append_inj' split rfl
      obtain rfl : x = y := by simpa using h
      exact last
    · rw [List.concat_eq_append, ← List.cons_append, ← List.append_assoc] at split
      exact unbridged before y after (List.append_inj' split rfl).1

/-- Two advisories without a common name. -/
def Apart (a b : Advisory) : Prop :=
  a.sameAs b = false

instance : DecidableRel Apart := fun a b =>
  inferInstanceAs (Decidable (a.sameAs b = false))

instance : Std.Symm Apart where
  symm a b h := (sameAs_comm b a).trans h

theorem not_apart : ¬a.Apart b ↔ a.sameAs b = true := by
  simp [Apart]

theorem apart_absorb : (a.absorb b).Apart c ↔ a.Apart c ∧ b.Apart c := by
  rw [← not_iff_not, not_and_or]
  simp only [not_apart, sameAs_iff, isNamed_absorb, Bool.or_eq_true, or_and_right, exists_or]

theorem apart_normalized : a.Apart b.normalized ↔ a.Apart b := by
  rw [← not_iff_not]
  simp only [not_apart, sameAs_iff, isNamed_normalized]

end Advisory

namespace Group

open Advisory (Apart Linked Unbridged)

variable {advisories : List Advisory} {groups : List Group} {a b x : Advisory} {g h : Group}

/-- No two entries share a name. -/
def Separate (groups : List Group) : Prop :=
  groups.Pairwise fun g h => g.entry.Apart h.entry

theorem Separate.eq_of_sameAs (separate : Separate groups) (hg : g ∈ groups) (hh : h ∈ groups)
    (same : g.entry.sameAs h.entry = true) : g = h := by
  have : Std.Symm fun g h : Group => g.entry.Apart h.entry := ⟨fun g h => symm⟩
  apply Decidable.byContradiction
  intro different
  exact Advisory.not_apart.mpr same (List.Pairwise.forall separate hg hh different)

/-- Joining a group makes its entry meet every entry that the advisory matches. -/
theorem separate_middle_add {before after : List Group}
    (none : ∀ h ∈ before, h.entry.Apart x) :
    Separate (before ++ g.add x :: after) ↔
      Separate (before ++ g :: after) ∧ ∀ h ∈ after, h.entry.Apart x := by
  have symmetric : ∀ {g h : Group}, g.entry.Apart h.entry → h.entry.Apart g.entry := fun h => symm h
  have grown (h : Group) :
      (g.add x).entry.Apart h.entry ↔ g.entry.Apart h.entry ∧ h.entry.Apart x := by
    rw [entry_add, Advisory.apart_absorb, comm (r := Apart) (a := x)]
  rw [Separate, Separate, List.pairwise_middle symmetric, List.pairwise_middle symmetric,
    List.pairwise_cons, List.pairwise_cons]
  have met : (∀ h ∈ before ++ after, h.entry.Apart x) ↔ ∀ h ∈ after, h.entry.Apart x := by
    rw [List.forall_mem_append, and_iff_right none]
  simp only [grown, forall_and, met]
  rw [and_assoc, and_assoc]
  exact and_congr_right fun _ => and_comm

/-- An advisory leaves the entries separate when it matches at most one of them. -/
theorem separate_place :
    Separate (place x groups) ↔ Separate groups ∧
      ∀ g ∈ groups, ∀ h ∈ groups, g.entry.sameAs x = true → h.entry.sameAs x = true → g = h := by
  rcases place_cases x groups with ⟨none, placed⟩ | ⟨before, g, after, rfl, none, joined, placed⟩
  · have apart : ∀ g ∈ groups, g.entry.Apart (Group.mk x []).entry :=
      fun g hg => Advisory.apart_normalized.mpr (none g hg)
    have unmatched : ∀ g ∈ groups, ∀ h ∈ groups, g.entry.sameAs x = true →
        h.entry.sameAs x = true → g = h :=
      fun g hg h hh same => absurd (none g hg) (Advisory.not_apart.mpr same)
    rw [placed, Separate, List.pairwise_append]
    simp only [List.pairwise_singleton, List.mem_singleton, forall_eq, true_and]
    exact ⟨fun h => ⟨h.1, unmatched⟩, fun h => ⟨h.1, apart⟩⟩
  · rw [placed, separate_middle_add none]
    refine and_congr_right fun separate => ⟨fun apart => ?_, fun unique h hh => ?_⟩
    · have only : ∀ h ∈ before ++ g :: after, h.entry.sameAs x = true → h = g := by
        intro h hh same
        rcases List.mem_append.mp hh with hh | hh
        · exact absurd (none h hh) (Advisory.not_apart.mpr same)
        · rcases List.mem_cons.mp hh with rfl | hh
          · rfl
          · exact absurd (apart h hh) (Advisory.not_apart.mpr same)
      exact fun h hh k hk same same' => (only h hh same).trans (only k hk same').symm
    · apply Decidable.byContradiction
      intro matched
      have mem : h ∈ before ++ g :: after :=
        List.mem_append_right _ (List.mem_cons_of_mem _ hh)
      obtain rfl := unique g (by simp) h mem joined (Advisory.not_apart.mp matched)
      -- The group would stand twice in the list, and it does not differ from itself.
      have later := (List.pairwise_append.mp separate).2.1
      exact Advisory.not_apart.mpr (Advisory.sameAs_self _)
        ((List.pairwise_cons.mp later).1 g hh)

/-- Members of one group are linked. -/
theorem linked_of_mem (hg : g ∈ ofList advisories) (ha : a ∈ g.members) (hb : b ∈ g.members) :
    Linked advisories a b := by
  induction advisories using List.reverseRecOn generalizing g a b with
  | nil => simp at hg
  | append_singleton advisories x ih =>
    rw [ofList_concat] at hg
    rcases place_cases x (ofList advisories) with
      ⟨-, placed⟩ | ⟨before, k, after, split, -, joined, placed⟩
    · rw [placed, List.mem_append, List.mem_singleton] at hg
      rcases hg with hg | rfl
      · exact (ih hg ha hb).append x
      · rw [members_single, List.mem_singleton] at ha hb
        rw [ha, hb]
        exact .refl x
    · have old : g = k.add x ∨ g ∈ ofList advisories := by
        rw [placed, List.mem_append, List.mem_cons] at hg
        rw [split, List.mem_append, List.mem_cons]
        rcases hg with early | grown | late
        · exact .inr (.inl early)
        · exact .inl grown
        · exact .inr (.inr (.inr late))
      rcases old with rfl | hg
      · -- Everything in the group is linked to the newcomer through a member that matches it.
        have hk : k ∈ ofList advisories := split ▸ by simp
        obtain ⟨m, member, same⟩ := sameAs_entry.mp joined
        have mem : m ∈ advisories := mem_ofList.mp ⟨k, hk, member⟩
        have toNew : ∀ c ∈ (k.add x).members, Linked (advisories ++ [x]) c x := by
          intro c hc
          rw [members_add, List.mem_append, List.mem_singleton] at hc
          rcases hc with hc | rfl
          · exact ((ih hk hc member).append x).trans _ _ _
              (Linked.of_sameAs (List.mem_append_left _ mem) (by simp) same)
          · exact .refl c
        exact (toNew a ha).trans _ _ _ ((toNew b hb).symm _ _)
      · exact (ih hg ha hb).append x

/-- While the entries are separate, what is linked is in one group. -/
theorem Separate.mem_iff_of_linked (separate : Separate (ofList advisories))
    (linked : Linked advisories a b) (hg : g ∈ ofList advisories) :
    a ∈ g.members ↔ b ∈ g.members := by
  have moves : ∀ {a b}, b ∈ advisories → a.sameAs b = true → a ∈ g.members → b ∈ g.members := by
    intro a b hb same member
    obtain ⟨h, hh, member'⟩ := mem_ofList.mpr hb
    obtain ⟨name, named, named'⟩ := Advisory.sameAs_iff.mp same
    have shared : g.entry.sameAs h.entry = true :=
      Advisory.sameAs_iff.mpr
        ⟨name, isNamed_entry.mpr ⟨a, member, named⟩, isNamed_entry.mpr ⟨b, member', named'⟩⟩
    rwa [separate.eq_of_sameAs hg hh shared]
  induction linked with
  | rel a b h =>
    obtain ⟨ha, hb, same⟩ := h
    exact ⟨moves hb same, moves ha ((Advisory.sameAs_comm b a).trans same)⟩
  | refl a => rfl
  | symm a b _ ih => exact ih.symm
  | trans a b c _ _ first second => exact first.trans second

/-- The entries are separate exactly when no advisory bridges earlier ones. -/
theorem separate_ofList (advisories : List Advisory) :
    Separate (ofList advisories) ↔ Unbridged advisories := by
  induction advisories using List.reverseRecOn with
  | nil => exact ⟨fun _ => Advisory.unbridged_nil, fun _ => .nil⟩
  | append_singleton advisories x ih =>
    rw [ofList_concat, separate_place, Advisory.unbridged_concat, ← ih]
    refine and_congr_right fun separate => ⟨fun unique a ha b hb same same' => ?_, ?_⟩
    · obtain ⟨g, hg, member⟩ := mem_ofList.mpr ha
      obtain ⟨h, hh, member'⟩ := mem_ofList.mpr hb
      obtain rfl := unique g hg h hh (sameAs_entry.mpr ⟨a, member, same⟩)
        (sameAs_entry.mpr ⟨b, member', same'⟩)
      exact linked_of_mem hg member member'
    · intro linked g hg h hh same same'
      obtain ⟨a, member, same⟩ := sameAs_entry.mp same
      obtain ⟨b, member', same'⟩ := sameAs_entry.mp same'
      have joined := linked a (mem_ofList.mp ⟨g, hg, member⟩) b (mem_ofList.mp ⟨h, hh, member'⟩)
        same same'
      have shared := (separate.mem_iff_of_linked joined hg).mp member
      refine separate.eq_of_sameAs hg hh (Advisory.sameAs_iff.mpr ⟨b.id, ?_, ?_⟩)
      · exact isNamed_entry.mpr ⟨b, shared, Advisory.isNamed_of_mem List.mem_cons_self⟩
      · exact isNamed_entry.mpr ⟨b, member', Advisory.isNamed_of_mem List.mem_cons_self⟩

end Group

end PackageRisk
