import Mathlib.Data.List.Nodup
import PackageRisk.Proofs.Advisory.Overlap
import PackageRisk.Score.Ledger

/-!
# Merged reports

Every entry of a merged report is in normal form and stands, sorted by id, in the bucket of its
own severity. Merging such a report again changes it only by joining entries, so a second merge
leaves it alone exactly when its entries share no names, and then no advisory costs points twice.
-/

namespace PackageRisk

namespace Advisory

variable {a b : Advisory}

/-- What the score takes off for an entry; the lower severities cost nothing. -/
def deduction? (e : Advisory) : Option Deduction :=
  match e.severity with
  | .critical => some ⟨"critical vulnerability" ++ " " ++ e.id, 20⟩
  | .high => some ⟨"high severity vulnerability" ++ " " ++ e.id, 10⟩
  | _ => none

/-- The form of merged entries: names and sources ascend, and no alias repeats the id. -/
structure Tidy (a : Advisory) : Prop where
  aliases : a.aliases.Pairwise (· < ·)
  renamed : ∀ name ∈ a.aliases, Text.lower name ≠ Text.lower a.id
  sources : a.sources.Pairwise (· < ·)

theorem tidy_normalized (a : Advisory) : a.normalized.Tidy where
  aliases := sortUnique_ascending _
  renamed name h := by
    have kept := (List.mem_filter.mp (mem_sortUnique.mp h)).2
    simpa [Text.sameIgnoringCase, normalized] using kept
  sources := sortUnique_ascending _

theorem Tidy.normalized_eq (tidy : a.Tidy) : a.normalized = a := by
  have kept : a.aliases.filter (fun name => !Text.sameIgnoringCase name a.id) = a.aliases := by
    apply List.filter_eq_self.mpr
    intro name h
    simpa [Text.sameIgnoringCase] using tidy.renamed name h
  rw [normalized, kept, sortUnique_of_ascending tidy.aliases, sortUnique_of_ascending tidy.sources]

theorem foldl_addName_aliases (names : List String)
    (h : a.aliases.Nodup ∧ ∀ name ∈ a.aliases, Text.lower name ≠ Text.lower a.id) :
    (names.foldl addName a).aliases.Nodup ∧
      ∀ name ∈ (names.foldl addName a).aliases, Text.lower name ≠ Text.lower a.id := by
  induction names generalizing a with
  | nil => exact h
  | cons head names ih =>
    have step : (a.addName head).id = a.id ∧ (a.addName head).aliases.Nodup ∧
        ∀ name ∈ (a.addName head).aliases, Text.lower name ≠ Text.lower a.id := by
      rw [addName]
      split
      · exact ⟨rfl, h⟩
      · rename_i unnamed
        -- A new name is neither an alias nor the id.
        have new : head ∉ a.aliases := fun mem =>
          unnamed (isNamed_of_mem (List.mem_cons_of_mem _ mem))
        have other : Text.lower head ≠ Text.lower a.id := fun same =>
          unnamed (isNamed_iff.mpr ⟨a.id, List.mem_cons_self, same.symm⟩)
        refine ⟨rfl, ?_, ?_⟩
        · rw [← List.concat_eq_append]
          exact List.Nodup.concat new h.1
        · intro name mem
          rcases List.mem_append.mp mem with mem | mem
          · exact h.2 name mem
          · rwa [List.mem_singleton.mp mem]
    obtain ⟨id, distinct, renamed⟩ := step
    rw [List.foldl_cons]
    have rest := ih (a := a.addName head) ⟨distinct, id ▸ renamed⟩
    rwa [id] at rest

theorem foldl_addSource_nodup (sources : List String) (h : a.sources.Nodup) :
    (sources.foldl addSource a).sources.Nodup := by
  induction sources generalizing a with
  | nil => exact h
  | cons source sources ih =>
    apply ih
    rw [addSource]
    split
    · exact h
    · rename_i new
      have new : source ∉ a.sources := by simpa using new
      rw [← List.concat_eq_append]
      exact List.Nodup.concat new h

theorem Tidy.absorb (tidy : a.Tidy) (b : Advisory) : (a.absorb b).Tidy := by
  have names := foldl_addName_aliases (a := a.raise b) b.identifiers
    ⟨tidy.aliases.imp String.ne_of_lt, tidy.renamed⟩
  refine ⟨?_, ?_, ?_⟩
  · rw [aliases_absorb]
    exact sort_strictly_ascending names.1
  · intro name mem
    rw [aliases_absorb, List.mem_mergeSort] at mem
    rw [id_absorb]
    exact names.2 name mem
  · refine sort_strictly_ascending (foldl_addSource_nodup b.sources ?_)
    rw [sources_foldl_addName]
    exact tidy.sources.imp String.ne_of_lt

/-- An advisory does not stand twice among advisories without common names. -/
theorem length_le_one_of_apart {l : List Advisory} (apart : l.Pairwise Apart)
    (only : ∀ e ∈ l, e = a) : l.length ≤ 1 := by
  match l with
  | [] | [_] => simp
  | e :: f :: rest =>
    have met := (List.pairwise_cons.mp apart).1 f (by simp)
    rw [only e (by simp), only f (by simp)] at met
    exact absurd met (not_apart.mpr (sameAs_self a))

end Advisory

namespace Group

variable {g : Group} {advisories : List Advisory} {x : Advisory}

theorem tidy_entry (g : Group) : g.entry.Tidy := by
  have folded : ∀ (others : List Advisory) (a : Advisory), a.Tidy →
      (others.foldl Advisory.absorb a).Tidy := by
    intro others
    induction others with
    | nil => exact fun a tidy => tidy
    | cons b others ih => exact fun a tidy => ih (a.absorb b) (tidy.absorb b)
  exact folded g.others g.first.normalized g.first.tidy_normalized

/-- An advisory gets an entry of its own exactly when it shares no name with an earlier one. -/
theorem length_ofList_concat (advisories : List Advisory) (x : Advisory) :
    (ofList (advisories ++ [x])).length =
      (ofList advisories).length + if ∀ a ∈ advisories, a.Apart x then 1 else 0 := by
  rw [ofList_concat]
  rcases place_cases x (ofList advisories) with
    ⟨none, placed⟩ | ⟨before, g, after, split, -, joined, placed⟩
  · have apart : ∀ a ∈ advisories, a.Apart x := by
      intro a ha
      obtain ⟨g, hg, member⟩ := mem_ofList.mpr ha
      apply Decidable.byContradiction
      intro shared
      have same := sameAs_entry.mpr ⟨a, member, Advisory.not_apart.mp shared⟩
      exact Advisory.not_apart.mpr same (none g hg)
    rw [placed, if_pos apart, List.length_append, List.length_singleton]
  · have met : ¬ ∀ a ∈ advisories, a.Apart x := by
      obtain ⟨a, member, same⟩ := sameAs_entry.mp joined
      intro apart
      have ha : a ∈ advisories := mem_ofList.mp ⟨g, split ▸ by simp, member⟩
      exact Advisory.not_apart.mpr same (apart a ha)
    rw [placed, if_neg met, split]
    simp

theorem length_ofList_le (advisories : List Advisory) :
    (ofList advisories).length ≤ advisories.length := by
  induction advisories using List.reverseRecOn with
  | nil => simp
  | append_singleton advisories x ih =>
    rw [length_ofList_concat, List.length_append, List.length_singleton]
    split <;> omega

/-- Advisories without common names get an entry each. -/
theorem ofList_of_apart (apart : advisories.Pairwise Advisory.Apart) :
    ofList advisories = advisories.map (Group.mk · []) := by
  induction advisories using List.reverseRecOn with
  | nil => rfl
  | append_singleton advisories x ih =>
    obtain ⟨apart, -, last⟩ := List.pairwise_append.mp apart
    rw [ofList_concat, ih apart, List.map_append]
    rcases place_cases x (advisories.map (Group.mk · [])) with
      ⟨-, placed⟩ | ⟨before, g, after, split, -, joined, -⟩
    · exact placed
    · have mem : g ∈ advisories.map (Group.mk · []) := split ▸ by simp
      obtain ⟨a, ha, rfl⟩ := List.mem_map.mp mem
      obtain ⟨b, member, same⟩ := sameAs_entry.mp joined
      obtain rfl := List.mem_singleton.mp member
      exact absurd (last b ha x (by simp)) (Advisory.not_apart.mpr same)

/-- Where two advisories share a name, some advisory gets no entry of its own. -/
theorem apart_of_length (length : (ofList advisories).length = advisories.length) :
    advisories.Pairwise Advisory.Apart := by
  induction advisories using List.reverseRecOn with
  | nil => exact .nil
  | append_singleton advisories x ih =>
    rw [length_ofList_concat, List.length_append, List.length_singleton] at length
    have short := length_ofList_le advisories
    split at length
    · rename_i apart
      refine List.pairwise_append.mpr ⟨ih (by omega), by simp, fun a ha y hy => ?_⟩
      rw [List.mem_singleton.mp hy]
      exact apart a ha
    · omega

end Group

namespace AdvisoryReport

open Advisory (Apart Unbridged)

variable {r : AdvisoryReport} {reports : List AdvisoryReport} {advisories : List Advisory}

/-- Every advisory stands in the bucket of its severity, every bucket is sorted by id. -/
structure Filed (r : AdvisoryReport) : Prop where
  severity : ∀ s, ∀ a ∈ r.bucket s, a.severity = s
  ascending : ∀ s, (r.bucket s).Pairwise fun a b => a.id ≤ b.id

theorem bucket_sortById (r : AdvisoryReport) (s : Severity) :
    r.sortById.bucket s = (r.bucket s).mergeSort fun a b => decide (a.id ≤ b.id) := by
  cases s <;> rfl

theorem bucket_ofList (advisories : List Advisory) (s : Severity) :
    (ofList advisories).bucket s = advisories.filter (·.severity == s) := by
  cases s <;> rfl

theorem filed_sortById_ofList (advisories : List Advisory) :
    (ofList advisories).sortById.Filed where
  severity s a mem := by
    rw [bucket_sortById, bucket_ofList, List.mem_mergeSort, List.mem_filter] at mem
    exact eq_of_beq mem.2
  ascending s := by
    rw [bucket_sortById]
    exact List.pairwise_mergeSort_text Advisory.id _

theorem ext_bucket {r r' : AdvisoryReport} (h : ∀ s, r.bucket s = r'.bucket s) : r = r' := by
  obtain ⟨c, i, m, l⟩ := r
  obtain ⟨c', i', m', l'⟩ := r'
  obtain rfl : c = c' := h .critical
  obtain rfl : i = i' := h .high
  obtain rfl : m = m' := h .medium
  obtain rfl : l = l' := h .low
  rfl

/-- What is in its place in a report is found there again by its severity. -/
theorem filter_toList (severity : ∀ s, ∀ a ∈ r.bucket s, a.severity = s) (s : Severity) :
    r.toList.filter (·.severity == s) = r.bucket s := by
  have kept : ∀ t, (r.bucket t).filter (·.severity == s) = if t = s then r.bucket t else [] := by
    intro t
    split
    · rename_i same
      exact List.filter_eq_self.mpr fun a h => by simp [severity t a h, same]
    · rename_i different
      exact List.filter_eq_nil_iff.mpr fun a h => by simp [severity t a h, different]
  have listed : r.toList = r.bucket .critical ++ r.bucket .high ++ r.bucket .medium ++
      r.bucket .low := rfl
  rw [listed]
  simp only [List.filter_append, kept]
  cases s <;> simp

/-- Filing the advisories of a filed report gives the report again. -/
theorem Filed.sortById_ofList_toList (filed : r.Filed) : (ofList r.toList).sortById = r := by
  apply ext_bucket
  intro s
  rw [bucket_sortById, bucket_ofList, filter_toList filed.severity]
  exact List.mergeSort_of_pairwise ((filed.ascending s).imp decide_eq_true)

theorem toList_sortById_perm (r : AdvisoryReport) : r.sortById.toList.Perm r.toList :=
  (((List.mergeSort_perm _ _).append (List.mergeSort_perm _ _)).append
    (List.mergeSort_perm _ _)).append (List.mergeSort_perm _ _)

theorem toList_ofList_perm (advisories : List Advisory) :
    (ofList advisories).toList.Perm advisories := by
  induction advisories with
  | nil => rfl
  | cons a advisories ih =>
    refine List.Perm.trans ?_ (ih.cons a)
    -- The new advisory comes after the buckets that precede its own.
    cases h : a.severity <;>
      simp only [toList, ofList, List.filter_cons, h, reduceCtorEq, beq_iff_eq, if_true, if_false]
    case critical => exact .refl _
    case high =>
      simp only [List.append_assoc, List.cons_append]
      exact List.perm_middle
    case medium =>
      simp only [List.append_assoc, List.cons_append]
      rw [← List.append_assoc, ← List.append_assoc]
      exact List.perm_middle
    case low => exact List.perm_middle

theorem filed_merge (reports : List AdvisoryReport) : (merge reports).Filed :=
  filed_sortById_ofList _

theorem toList_merge_perm (reports : List AdvisoryReport) :
    (merge reports).toList.Perm (mergedEntries reports) :=
  (toList_sortById_perm _).trans (toList_ofList_perm _)

theorem apart_merge_iff (reports : List AdvisoryReport) :
    (merge reports).toList.Pairwise Apart ↔ Unbridged (reports.flatMap toList) := by
  rw [(toList_merge_perm reports).pairwise_iff fun h => symm h, mergedEntries_eq, List.pairwise_map]
  exact Group.separate_ofList _

/-- Merging again changes a merged report exactly when its entries overlap. -/
theorem merge_merge_iff (reports : List AdvisoryReport) :
    merge [merge reports] = merge reports ↔ (merge reports).toList.Pairwise Apart := by
  have listed : [merge reports].flatMap toList = (merge reports).toList := by simp
  constructor
  · intro same
    have length := (toList_merge_perm [merge reports]).length_eq
    rw [same, mergedEntries_eq, List.length_map, listed] at length
    exact Group.apart_of_length length.symm
  · intro apart
    have tidy : ∀ e ∈ (merge reports).toList, e.normalized = e := by
      intro e mem
      rw [(toList_merge_perm reports).mem_iff, mergedEntries_eq] at mem
      obtain ⟨g, -, rfl⟩ := List.mem_map.mp mem
      exact (Group.tidy_entry g).normalized_eq
    have entries : mergedEntries [merge reports] = (merge reports).toList := by
      rw [mergedEntries_eq, listed, Group.ofList_of_apart apart, List.map_map]
      exact (List.map_congr_left tidy).trans (List.map_id _)
    rw [merge, entries]
    exact (filed_merge reports).sortById_ofList_toList

/-- What the score takes off for the entries about an advisory. -/
def deductionsFor (r : AdvisoryReport) (x : Advisory) : List Deduction :=
  (r.toList.filter (·.sameAs x)).filterMap Advisory.deduction?

theorem Filed.advisoryDeductions_perm (filed : r.Filed) {s : Severity} (label : String)
    (points : Nat)
    (costs : ∀ e : Advisory, e.severity = s → e.deduction? = some ⟨label ++ " " ++ e.id, points⟩) :
    (ScoreInput.advisoryDeductions label points (r.bucket s)).Perm
      ((r.bucket s).filterMap Advisory.deduction?) := by
  have each : (r.bucket s).filterMap Advisory.deduction? =
      ((r.bucket s).map Advisory.id).map fun id => ⟨label ++ " " ++ id, points⟩ := by
    rw [List.map_map, ← List.filterMap_eq_map]
    exact List.filterMap_congr fun e h => costs e (filed.severity s e h)
  rw [each]
  exact (List.mergeSort_perm _ _).map _

/-- The score takes points off entry by entry. -/
theorem Filed.deductions_perm (filed : r.Filed) :
    (ScoreInput.advisoryDeductions "critical vulnerability" 20 r.critical ++
      ScoreInput.advisoryDeductions "high severity vulnerability" 10 r.high).Perm
      (r.toList.filterMap Advisory.deduction?) := by
  have free (s : Severity) (none : ∀ e : Advisory, e.severity = s → e.deduction? = none) :
      (r.bucket s).filterMap Advisory.deduction? = [] :=
    List.filterMap_eq_nil_iff.mpr fun e h => none e (filed.severity s e h)
  have moderate := free .medium fun e h => by rw [Advisory.deduction?, h]
  have low := free .low fun e h => by rw [Advisory.deduction?, h]
  have listed : r.toList.filterMap Advisory.deduction? =
      (r.bucket .critical).filterMap Advisory.deduction? ++
        (r.bucket .high).filterMap Advisory.deduction? := by
    have buckets : r.toList = r.bucket .critical ++ r.bucket .high ++ r.bucket .medium ++
        r.bucket .low := rfl
    rw [buckets, List.filterMap_append, List.filterMap_append, List.filterMap_append, moderate,
      low, List.append_nil, List.append_nil]
  have critical := filed.advisoryDeductions_perm (s := .critical) "critical vulnerability" 20
    fun e h => by rw [Advisory.deduction?, h]
  have high := filed.advisoryDeductions_perm (s := .high) "high severity vulnerability" 10
    fun e h => by rw [Advisory.deduction?, h]
  rw [listed]
  exact critical.append high

/-- Separate entries charge no advisory twice. -/
theorem length_deductionsFor_le (apart : (merge reports).toList.Pairwise Apart) {x : Advisory}
    (given : x ∈ reports.flatMap toList) : ((merge reports).deductionsFor x).length ≤ 1 := by
  obtain ⟨g, hg, member⟩ := Group.mem_ofList.mpr given
  have mem : g.entry ∈ (merge reports).toList := by
    rw [(toList_merge_perm reports).mem_iff, mergedEntries_eq]
    exact List.mem_map_of_mem hg
  -- The entry that took the advisory in has all its names, so no other one has any.
  have only : ∀ e ∈ (merge reports).toList.filter (·.sameAs x), e = g.entry := by
    intro e he
    obtain ⟨he, same⟩ := List.mem_filter.mp he
    apply Decidable.byContradiction
    intro different
    obtain ⟨name, named, named'⟩ := Advisory.sameAs_iff.mp same
    refine Advisory.not_apart.mpr (Advisory.sameAs_iff.mpr ⟨name, named, ?_⟩)
      (apart.forall he mem different)
    exact Group.isNamed_entry.mpr ⟨x, member, named'⟩
  have apart := apart.sublist (List.filter_sublist (p := (·.sameAs x)))
  exact Nat.le_trans (List.length_filterMap_le _ _) (Advisory.length_le_one_of_apart apart only)

/-- A merged report names every vulnerability in one entry only, merging it again leaves it as it
is, and the score charges no advisory twice: the first two exactly when no advisory shares names
with two earlier ones that nothing before it links, and then the third as well. -/
theorem merge_distinguishes_iff (reports : List AdvisoryReport) :
    ((merge reports).toList.Pairwise Apart ↔ Unbridged (reports.flatMap toList)) ∧
    (merge [merge reports] = merge reports ↔ Unbridged (reports.flatMap toList)) ∧
    (ScoreInput.advisoryDeductions "critical vulnerability" 20 (merge reports).critical ++
      ScoreInput.advisoryDeductions "high severity vulnerability" 10 (merge reports).high).Perm
      ((merge reports).toList.filterMap Advisory.deduction?) ∧
    (Unbridged (reports.flatMap toList) →
      ∀ x ∈ reports.flatMap toList, ((merge reports).deductionsFor x).length ≤ 1) := by
  have apart := apart_merge_iff reports
  refine ⟨apart, (merge_merge_iff reports).trans apart, (filed_merge reports).deductions_perm, ?_⟩
  exact fun unbridged x given => length_deductionsFor_le (apart.mpr unbridged) given

/-- Two advisories without a common name and one that goes by the names of both. -/
def bridging : AdvisoryReport where
  critical := [
    { id := "GHSA-1", title := "first", severity := .critical },
    { id := "CVE-2", title := "second", severity := .critical },
    { id := "OSV-3", aliases := ["CVE-2", "GHSA-1"], title := "both", severity := .critical }]

theorem mergedEntries_bridging :
    mergedEntries [bridging] =
      [⟨"GHSA-1", ["CVE-2", "OSV-3"], "first", .critical, []⟩,
        ⟨"CVE-2", [], "second", .critical, []⟩] := by
  have sort (a b : String) :
      [a, b].mergeSort (fun x y => decide (x ≤ y)) = if a ≤ b then [a, b] else [b, a] := by
    simp [List.mergeSort, List.MergeSort.Internal.splitInTwo, List.merge]
  simp [mergedEntries, bridging, toList, Advisory.collect, Advisory.normalized, Advisory.sameAs,
    Advisory.isNamed, Advisory.identifiers, Advisory.absorb, Advisory.addName,
    Text.sameIgnoringCase, Text.lower, Advisory.sortUnique, sort, Severity.max]

/-- The merged entries overlap, a second merge joins them, and the advisory with both names is
charged twice. -/
theorem merge_bridging :
    (merge [bridging]).critical =
      [⟨"CVE-2", [], "second", .critical, []⟩,
        ⟨"GHSA-1", ["CVE-2", "OSV-3"], "first", .critical, []⟩] ∧
    ¬(merge [bridging]).toList.Pairwise Apart ∧
    merge [merge [bridging]] ≠ merge [bridging] ∧
    ∃ x ∈ bridging.toList, (merge [bridging]).deductionsFor x =
      [⟨"critical vulnerability CVE-2", 20⟩, ⟨"critical vulnerability GHSA-1", 20⟩] := by
  have merged : merge [bridging] =
      { critical := [⟨"CVE-2", [], "second", .critical, []⟩,
          ⟨"GHSA-1", ["CVE-2", "OSV-3"], "first", .critical, []⟩] } := by
    rw [merge, mergedEntries_bridging]
    simp [ofList, sortById, List.mergeSort, List.MergeSort.Internal.splitInTwo]
  have overlap : ¬(merge [bridging]).toList.Pairwise Apart := by
    rw [merged]
    decide
  refine ⟨by rw [merged], overlap, mt (merge_merge_iff [bridging]).mp overlap, ?_⟩
  refine ⟨⟨"OSV-3", ["CVE-2", "GHSA-1"], "both", .critical, []⟩, by decide, ?_⟩
  rw [merged]
  decide

end AdvisoryReport

end PackageRisk
