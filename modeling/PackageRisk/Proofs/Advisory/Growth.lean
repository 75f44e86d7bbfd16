import PackageRisk.Proofs.Advisory.Merged
import PackageRisk.Proofs.Score.Points

/-!
# Further advisory reports

Merging one more report into others takes nothing away: every entry keeps its id and its place, and
its severity, names and sources can only grow. So the points for advisories do not fall, and a
further database of advisories never makes a package look safer.
-/

namespace List

/-- Where every element has a counterpart at its place, the counterparts are a part of the list. -/
theorem forall₂_take_of_getElem? {α β : Type} {R : α → β → Prop} {xs : List α} {ys : List β}
    (there : ∀ (i : Nat) x, xs[i]? = some x → ∃ y, ys[i]? = some y ∧ R x y) :
    Forall₂ R xs (ys.take xs.length) := by
  induction xs generalizing ys with
  | nil => exact .nil
  | cons x xs ih =>
    obtain ⟨y, first, related⟩ := there 0 x rfl
    match ys, first with
    | _ :: ys, rfl => exact .cons related (ih fun i => there (i + 1))

end List

namespace PackageRisk

theorem Severity.rank_le_max (s t : Severity) : s.rank ≤ (s.max t).rank := by
  rw [Severity.max]
  split
  · rename_i less
    exact Nat.le_of_lt less
  · exact Nat.le_refl _

namespace Advisory

variable {a b c : Advisory} {entries entries' : List Advisory}

/-- The same entry after more advisories have joined it. -/
structure Grown (a b : Advisory) : Prop where
  id : b.id = a.id
  severity : a.severity.rank ≤ b.severity.rank
  names : ∀ name, a.isNamed name = true → b.isNamed name = true
  sources : a.sources ⊆ b.sources

theorem Grown.refl (a : Advisory) : Grown a a :=
  ⟨rfl, Nat.le_refl _, fun _ h => h, List.Subset.refl _⟩

theorem Grown.trans (h : Grown a b) (h' : Grown b c) : Grown a c where
  id := h'.id.trans h.id
  severity := Nat.le_trans h.severity h'.severity
  names name named := h'.names name (h.names name named)
  sources := List.Subset.trans h.sources h'.sources

theorem grown_absorb (a b : Advisory) : Grown a (a.absorb b) where
  id := id_absorb a b
  severity := by
    rw [severity_absorb]
    exact Severity.rank_le_max _ _
  names name named := by rw [isNamed_absorb, named, Bool.true_or]
  sources _ h := (mem_sources_absorb a b).mpr (.inl h)

theorem identifiers_subset_absorb (a b : Advisory) :
    a.identifiers ⊆ (a.absorb b).identifiers := by
  intro name mem
  rw [mem_identifiers_absorb]
  exact (identifiers_foldl_addName (a.raise b) b.identifiers).1 mem

/-- The same entry with more to say: what it listed before it still lists, in the same letters. -/
structure Upgraded (a b : Advisory) : Prop extends Grown a b where
  identifiers : a.identifiers ⊆ b.identifiers

theorem Upgraded.refl (a : Advisory) : Upgraded a a :=
  ⟨.refl a, List.Subset.refl _⟩

theorem Upgraded.trans (h : Upgraded a b) (h' : Upgraded b c) : Upgraded a c :=
  ⟨h.toGrown.trans h'.toGrown, List.Subset.trans h.identifiers h'.identifiers⟩

/-- Every entry is still there, in its place. -/
def Survive (entries entries' : List Advisory) : Prop :=
  ∀ (i : Nat) a, entries[i]? = some a → ∃ b, entries'[i]? = some b ∧ Grown a b

theorem upgraded_foldl_absorb (a : Advisory) (joined : List Advisory) :
    Upgraded a (joined.foldl absorb a) := by
  induction joined generalizing a with
  | nil => exact .refl a
  | cons x joined ih =>
    exact Upgraded.trans ⟨grown_absorb a x, identifiers_subset_absorb a x⟩ (ih (a.absorb x))

/-- An advisory joins one entry at most, and no entry leaves its place. -/
theorem exists_joined_collect (x : Advisory) {i : Nat} (there : entries[i]? = some a) :
    ∃ joined : List Advisory, (x.collect entries)[i]? = some (joined.foldl absorb a) := by
  induction entries generalizing i with
  | nil => simp at there
  | cons e rest ih =>
    rw [collect]
    cases i with
    | zero =>
      obtain rfl : e = a := by simpa using there
      split
      · exact ⟨[x], rfl⟩
      · exact ⟨[], rfl⟩
    | succ i =>
      split
      · exact ⟨[], there⟩
      · exact ih there

theorem exists_joined_foldl_collect (advisories : List Advisory) {i : Nat}
    (there : entries[i]? = some a) :
    ∃ joined : List Advisory,
      (advisories.foldl (fun merged x => x.collect merged) entries)[i]? =
        some (joined.foldl absorb a) := by
  induction advisories generalizing entries a with
  | nil => exact ⟨[], there⟩
  | cons x advisories ih =>
    obtain ⟨first, there⟩ := exists_joined_collect x there
    obtain ⟨later, there⟩ := ih there
    refine ⟨first ++ later, ?_⟩
    rw [List.foldl_append]
    exact there

/-- The points for an entry. -/
def cost (e : Advisory) : Nat :=
  ScoreInput.totalPoints e.deduction?.toList

theorem Grown.cost_le (h : Grown a b) : a.cost ≤ b.cost := by
  have rank := h.severity
  unfold cost deduction?
  cases ha : a.severity <;> cases hb : b.severity <;> rw [ha, hb] at rank <;>
    simp_all [Severity.rank, ScoreInput.totalPoints]

theorem Survive.cost_le (h : Survive entries entries') :
    (entries.map cost).sum ≤ (entries'.map cost).sum := by
  induction entries generalizing entries' with
  | nil => exact Nat.zero_le _
  | cons a entries ih =>
    obtain ⟨b, first, grown⟩ := h 0 a rfl
    match entries', first with
    | _ :: entries', rfl =>
      have rest : Survive entries entries' := fun i e he => h (i + 1) e he
      exact Nat.add_le_add grown.cost_le (ih rest)

end Advisory

namespace AdvisoryReport

variable {r : AdvisoryReport} {reports more : List AdvisoryReport}

theorem Filed.advisoryPoints_eq (filed : r.Filed) :
    ScoreInput.advisoryPoints r = (r.toList.map Advisory.cost).sum := by
  have each (entries : List Advisory) :
      ScoreInput.totalPoints (entries.filterMap Advisory.deduction?) =
        (entries.map Advisory.cost).sum := by
    induction entries with
    | nil => rfl
    | cons e entries ih =>
      rw [List.map_cons, List.sum_cons, ← ih, Advisory.cost, ← ScoreInput.totalPoints_append]
      cases h : e.deduction? <;> simp [h]
  have same := (filed.deductions_perm.map Deduction.points).sum_nat
  change ScoreInput.totalPoints _ = ScoreInput.totalPoints _ at same
  rw [← each, ← same, ScoreInput.totalPoints_append, ScoreInput.totalPoints_advisoryDeductions,
    ScoreInput.totalPoints_advisoryDeductions]
  rfl

/-- Every entry is what it was before, after absorbing what joins it. -/
theorem exists_joined_mergedEntries (reports more : List AdvisoryReport) {i : Nat} {a : Advisory}
    (there : (mergedEntries reports)[i]? = some a) :
    ∃ joined : List Advisory,
      (mergedEntries (reports ++ more))[i]? = some (joined.foldl Advisory.absorb a) := by
  rw [mergedEntries, List.flatMap_append, List.foldl_append]
  exact Advisory.exists_joined_foldl_collect _ there

theorem survive_mergedEntries (reports more : List AdvisoryReport) :
    Advisory.Survive (mergedEntries reports) (mergedEntries (reports ++ more)) := by
  intro i a there
  obtain ⟨joined, there'⟩ := exists_joined_mergedEntries reports more there
  exact ⟨_, there', (Advisory.upgraded_foldl_absorb a joined).toGrown⟩

/-- The points for advisories do not fall when reports are added. -/
theorem advisoryPoints_merge_le (reports more : List AdvisoryReport) :
    ScoreInput.advisoryPoints (merge reports) ≤
      ScoreInput.advisoryPoints (merge (reports ++ more)) := by
  have total (reports : List AdvisoryReport) : ScoreInput.advisoryPoints (merge reports) =
      ((mergedEntries reports).map Advisory.cost).sum := by
    rw [(filed_merge reports).advisoryPoints_eq]
    exact ((toList_merge_perm reports).map _).sum_nat
  rw [total, total]
  exact (survive_mergedEntries reports more).cost_le

/-- The entries of a merged report are among those of the report merged with more, each with more
to say. -/
theorem exists_upgraded_merge (reports more : List AdvisoryReport) :
    ∃ kept, kept.Subperm (merge (reports ++ more)).toList ∧
      List.Forall₂ Advisory.Upgraded (merge reports).toList kept := by
  have there : List.Forall₂ Advisory.Upgraded (mergedEntries reports)
      ((mergedEntries (reports ++ more)).take (mergedEntries reports).length) := by
    apply List.forall₂_take_of_getElem?
    intro i a there
    obtain ⟨joined, there'⟩ := exists_joined_mergedEntries reports more there
    exact ⟨_, there', Advisory.upgraded_foldl_absorb a joined⟩
  -- The buckets of either report rearrange its entries.
  obtain ⟨kept, upgraded, perm⟩ := List.perm_comp_forall₂ (toList_merge_perm reports) there
  refine ⟨kept, ?_, upgraded⟩
  exact perm.subperm.trans
    ((List.take_sublist _ _).subperm.trans (toList_merge_perm (reports ++ more)).symm.subperm)

/-- A further report at the end never makes a package look safer: the score does not rise, whatever
else it depends on, and every entry stays an entry of its own with the same id, at least the same
severity and all the identifiers and sources that it had. -/
theorem score_merge_further_le (reports : List AdvisoryReport) (r : AdvisoryReport) (m : Metrics)
    (files : List FileFinding) (entries : List DependencyEntry) :
    (ScoreInput.mk m (merge (reports ++ [r])) files entries).score.value ≤
        (ScoreInput.mk m (merge reports) files entries).score.value ∧
      ∃ kept, kept.Subperm (merge (reports ++ [r])).toList ∧
        List.Forall₂ Advisory.Upgraded (merge reports).toList kept := by
  refine ⟨?_, exists_upgraded_merge reports [r]⟩
  have costs : ScoreInput.CostsLess (ScoreInput.mk m (merge reports) files entries)
      (ScoreInput.mk m (merge (reports ++ [r])) files entries) :=
    ⟨advisoryPoints_merge_le reports [r], Nat.le_refl _, Nat.le_refl _, Nat.le_refl _,
      Nat.le_refl _⟩
  refine (ScoreInput.score_le ?_ fun _ => costs).1
  intro malware
  exact malware

end AdvisoryReport

end PackageRisk
