import Mathlib.Data.Finset.Dedup
import Mathlib.Data.Finset.Disjoint
import Mathlib.Data.Multiset.Filter
import Mathlib.Data.Option.Defs
import PackageRisk.Proofs.Advisory.Attribution

/-!
# Reports in another order

What merged entries say, their ids apart, depends on the order of the reports only through bridges.
In an order without a bridge the entries are the classes of advisories linked by shared names, so
any two such orders come to the same contents. An order with a bridge never comes to these.
-/

namespace Multiset

variable {α β γ δ : Type}

/-- Related elements that are turned into related ones, or left out together, stay paired. -/
theorem Rel.filterMap {r : α → β → Prop} {p : γ → δ → Prop} {f : α → Option γ} {g : β → Option δ}
    {s : Multiset α} {t : Multiset β} (rel : Rel r s t)
    (turned : ∀ a ∈ s, ∀ b ∈ t, r a b → Option.Rel p (f a) (g b)) :
    Rel p (s.filterMap f) (t.filterMap g) := by
  induction rel with
  | zero => exact .zero
  | @cons a b s t related _ ih =>
    have rest := ih fun a ha b hb => turned a (mem_cons_of_mem ha) b (mem_cons_of_mem hb)
    have head := turned a (mem_cons_self a s) b (mem_cons_self b t) related
    generalize hc : f a = c at head
    generalize hd : g b = d at head
    cases head with
    | none => rwa [filterMap_cons_none a s hc, filterMap_cons_none b t hd]
    | some alike =>
      rw [filterMap_cons_some f a s hc, filterMap_cons_some g b t hd]
      exact .cons alike rest

end Multiset

namespace PackageRisk

theorem Severity.eq_of_rank_eq {s t : Severity} (same : s.rank = t.rank) : s = t := by
  cases s <;> cases t <;> cases same <;> rfl

namespace Advisory

variable {a b c e f x : Advisory} {members others advisories arranged : List Advisory}

/-- What an entry says, whichever of its names is its id. -/
structure Content where
  severity : Severity
  names : Finset String
  sources : Finset String
  deriving DecidableEq

/-- The content of an entry; letter case is no part of a name. -/
def content (e : Advisory) : Content where
  severity := e.severity
  names := (e.identifiers.map Text.lower).toFinset
  sources := e.sources.toFinset

theorem mem_content_names {name : String} :
    name ∈ e.content.names ↔ ∃ id ∈ e.identifiers, Text.lower id = name := by
  simp [content]

theorem lower_mem_content_names {name : String} :
    Text.lower name ∈ e.content.names ↔ e.isNamed name = true := by
  rw [mem_content_names, isNamed_iff]

theorem content_names_subset (h : ∀ name, e.isNamed name = true → f.isNamed name = true) :
    e.content.names ⊆ f.content.names := by
  intro lowered mem
  obtain ⟨id, -, rfl⟩ := mem_content_names.mp mem
  exact lower_mem_content_names.mpr (h id (lower_mem_content_names.mp mem))

theorem apart_iff_disjoint : a.Apart b ↔ Disjoint a.content.names b.content.names := by
  rw [← not_iff_not, not_apart, sameAs_iff, Finset.not_disjoint_iff]
  constructor
  · rintro ⟨name, first, second⟩
    exact ⟨Text.lower name, lower_mem_content_names.mpr first, lower_mem_content_names.mpr second⟩
  · rintro ⟨lowered, first, second⟩
    obtain ⟨id, -, rfl⟩ := mem_content_names.mp first
    exact ⟨id, lower_mem_content_names.mp first, lower_mem_content_names.mp second⟩

theorem Apart.content_ne (apart : a.Apart b) : a.content ≠ b.content := by
  intro same
  have shared : a.Apart a := by
    rw [apart_iff_disjoint] at apart ⊢
    rwa [← same] at apart
  exact not_apart.mpr (sameAs_self a) shared

/-- The content of an entry is settled by which advisories it describes. -/
theorem Describes.content_eq (h : e.Describes members) (h' : f.Describes others)
    (same : ∀ a, a ∈ members ↔ a ∈ others) : e.content = f.content := by
  have severity : e.severity = f.severity := by
    obtain ⟨⟨a, mem, highest⟩, above⟩ := h.severity
    obtain ⟨⟨b, mem', highest'⟩, above'⟩ := h'.severity
    apply Severity.eq_of_rank_eq
    apply Nat.le_antisymm
    · rw [← highest]
      exact above' a ((same a).mp mem)
    · rw [← highest']
      exact above b ((same b).mpr mem')
  have named (name : String) : e.isNamed name = true ↔ f.isNamed name = true := by
    rw [h.names, h'.names]
    simp only [same]
  have names : e.content.names = f.content.names :=
    (content_names_subset fun name => (named name).mp).antisymm
      (content_names_subset fun name => (named name).mpr)
  have sources : e.content.sources = f.content.sources := by
    ext source
    simp only [content, List.mem_toFinset, h.sources, h'.sources, same]
  cases hc : e.content
  cases hd : f.content
  simp_all [content]

/-- Advisories that share names are linked in any order. -/
theorem Linked.of_perm (perm : advisories.Perm arranged) (linked : Linked advisories a b) :
    Linked arranged a b :=
  linked.mono fun _ _ h => ⟨perm.mem_iff.mp h.1, perm.mem_iff.mp h.2.1, h.2.2⟩

/-- Two advisories bridge nothing when a third meets only one of them. -/
theorem unbridged_triple (apart : a.Apart c ∨ b.Apart c) : Unbridged [a, b, c] := by
  have one : Unbridged ([] ++ [a]) := unbridged_concat.mpr ⟨unbridged_nil, by simp⟩
  have two : Unbridged ([a] ++ [b]) := by
    refine unbridged_concat.mpr ⟨one, fun x hx y hy _ _ => ?_⟩
    rw [List.mem_singleton.mp hx, List.mem_singleton.mp hy]
    exact .refl a
  have three : Unbridged ([a, b] ++ [c]) ↔ _ := unbridged_concat
  refine three.mpr ⟨two, fun x hx y hy first second => ?_⟩
  have same : x = y := by
    simp only [List.mem_cons, List.not_mem_nil, or_false] at hx hy
    rcases hx with rfl | rfl <;> rcases hy with rfl | rfl <;> simp_all [Apart]
  rw [same]
  exact .refl y

/-- Sharing a name is transitive among some advisories. -/
def Clustered (advisories : List Advisory) : Prop :=
  ∀ a ∈ advisories, ∀ b ∈ advisories, ∀ c ∈ advisories,
    a.sameAs b = true → b.sameAs c = true → a.sameAs c = true

theorem Clustered.of_perm (perm : advisories.Perm arranged) (clustered : Clustered advisories) :
    Clustered arranged := by
  simpa only [Clustered, perm.mem_iff] using clustered

theorem Clustered.unbridged (clustered : Clustered advisories) : Unbridged advisories := by
  rintro before x after rfl a ha b hb first second
  apply Linked.of_sameAs ha hb
  rw [sameAs_comm] at second
  exact clustered a (List.mem_append_left _ ha) x (by simp) b (List.mem_append_left _ hb) first
    second

end Advisory

namespace Group

open Advisory (Apart Linked Unbridged)

variable {a b c : Advisory} {advisories arranged : List Advisory} {groups : List Group} {g : Group}

/-- In another order without a bridge the members of a group are together again. -/
theorem Separate.exists_same_members (perm : advisories.Perm arranged)
    (separate : Separate (ofList advisories)) (separate' : Separate (ofList arranged))
    (hg : g ∈ ofList advisories) :
    ∃ h ∈ ofList arranged, ∀ a, a ∈ g.members ↔ a ∈ h.members := by
  have first : g.first ∈ g.members := List.mem_cons_self
  have given : g.first ∈ advisories := mem_ofList.mp ⟨g, hg, first⟩
  obtain ⟨h, hh, first'⟩ := mem_ofList.mpr (perm.mem_iff.mp given)
  refine ⟨h, hh, fun a => ⟨fun member => ?_, fun member => ?_⟩⟩
  · have linked := (linked_of_mem hg first member).of_perm perm
    exact (separate'.mem_iff_of_linked linked hh).mp first'
  · have linked := (linked_of_mem hh first' member).of_perm perm.symm
    exact (separate.mem_iff_of_linked linked hg).mp first

theorem Separate.nodup_contents (separate : Separate groups) :
    (groups.map fun g => g.entry.content).Nodup := by
  rw [List.Nodup, List.pairwise_map]
  exact separate.imp fun apart => apart.content_ne

/-- Two orders without a bridge come to the same contents. -/
theorem Separate.contents_perm (perm : advisories.Perm arranged)
    (separate : Separate (ofList advisories)) (separate' : Separate (ofList arranged)) :
    ((ofList advisories).map fun g => g.entry.content).Perm
      ((ofList arranged).map fun g => g.entry.content) := by
  have subset {l l' : List Advisory} (perm : l.Perm l') (separate : Separate (ofList l))
      (separate' : Separate (ofList l')) {c : Advisory.Content}
      (mem : c ∈ (ofList l).map fun g => g.entry.content) :
      c ∈ (ofList l').map fun g => g.entry.content := by
    obtain ⟨g, hg, rfl⟩ := List.mem_map.mp mem
    obtain ⟨h, hh, same⟩ := separate.exists_same_members perm separate' hg
    refine List.mem_map.mpr ⟨h, hh, ?_⟩
    exact h.describes_entry.content_eq g.describes_entry fun a => (same a).symm
  rw [List.perm_ext_iff_of_nodup separate.nodup_contents separate'.nodup_contents]
  exact fun c => ⟨subset perm separate separate', subset perm.symm separate' separate⟩

/-- What comes after two lists of the same advisories opens as many entries after either. -/
theorem length_ofList_append {early early' : List Advisory} (perm : early.Perm early')
    (later : List Advisory) :
    (ofList (early ++ later)).length + (ofList early').length =
      (ofList (early' ++ later)).length + (ofList early).length := by
  induction later using List.reverseRecOn with
  | nil => simp [Nat.add_comm]
  | append_singleton later x ih =>
    have same : (∀ a ∈ early ++ later, a.Apart x) ↔ ∀ a ∈ early' ++ later, a.Apart x := by
      simp only [(perm.append_right later).mem_iff]
    rw [← List.append_assoc, ← List.append_assoc, length_ofList_concat, length_ofList_concat,
      if_congr same rfl rfl]
    omega

/-- Advisories of which one shares a name with two others that share none come to more entries
when it arrives last than when it arrives between them. -/
theorem length_ofList_bridge (first : a.sameAs b = true) (second : b.sameAs c = true)
    (apart : a.Apart c) : (ofList [a, b, c]).length = 1 ∧ (ofList [a, c, b]).length = 2 := by
  have one : (ofList [a]).length = 1 := rfl
  have ab : ¬ ∀ x ∈ [a], x.Apart b := by simpa [Advisory.not_apart] using first
  have ac : ∀ x ∈ [a], x.Apart c := by simpa using apart
  have abc : ¬ ∀ x ∈ [a, b], x.Apart c := by
    intro met
    exact Advisory.not_apart.mpr second (met b (by simp))
  have acb : ¬ ∀ x ∈ [a, c], x.Apart b := by
    intro met
    exact Advisory.not_apart.mpr first (met a (by simp))
  constructor
  · have last : (ofList ([a, b] ++ [c])).length = _ := length_ofList_concat [a, b] c
    have middle : (ofList ([a] ++ [b])).length = _ := length_ofList_concat [a] b
    rw [if_neg abc, ← List.singleton_append, middle, if_neg ab, one] at last
    exact last
  · have last : (ofList ([a, c] ++ [b])).length = _ := length_ofList_concat [a, c] b
    have middle : (ofList ([a] ++ [c])).length = _ := length_ofList_concat [a] c
    rw [if_neg acb, ← List.singleton_append, middle, if_pos ac, one] at last
    exact last

/-- Where sharing a name is not transitive, some two orders differ in the number of entries. -/
theorem exists_more_of_not_clustered (h : ¬ Advisory.Clustered advisories) :
    ∃ early late : List Advisory, early.Perm advisories ∧ late.Perm advisories ∧
      (ofList early).length < (ofList late).length := by
  rw [Advisory.Clustered] at h
  push Not at h
  obtain ⟨a, ha, b, hb, c, hc, first, second, unshared⟩ := h
  have apart : a.Apart c := by simpa [Apart] using unshared
  have distinct : [a, b, c].Nodup := by
    have ab : a ≠ b := by
      rintro rfl
      exact unshared second
    have bc : b ≠ c := by
      rintro rfl
      exact unshared first
    have ac : a ≠ c := by
      rintro rfl
      exact unshared (Advisory.sameAs_self a)
    simp [ab, bc, ac]
  have given : [a, b, c] ⊆ advisories := by simp [ha, hb, hc]
  obtain ⟨picked, same, sublist⟩ := List.subperm_of_subset distinct given
  obtain ⟨rest, split⟩ := sublist.exists_perm_append
  have perm : advisories.Perm ([a, b, c] ++ rest) := split.trans (same.append_right rest)
  have swapped : [a, b, c].Perm [a, c, b] := (List.Perm.swap c b []).cons a
  refine ⟨[a, b, c] ++ rest, [a, c, b] ++ rest, perm.symm,
    (swapped.symm.append_right rest).trans perm.symm, ?_⟩
  obtain ⟨one, two⟩ := length_ofList_bridge first second apart
  have later := length_ofList_append swapped rest
  omega

end Group

namespace AdvisoryReport

open Advisory (Clustered Content Unbridged)

variable {r : AdvisoryReport} {reports arranged : List AdvisoryReport}

/-- What the entries of a report say, with repetitions, in no order. -/
def contents (r : AdvisoryReport) : Multiset Content :=
  (r.toList.map Advisory.content : List Content)

theorem contents_merge (reports : List AdvisoryReport) :
    (merge reports).contents =
      ((Group.ofList (reports.flatMap toList)).map fun g => g.entry.content : List Content) := by
  rw [contents, Multiset.coe_eq_coe]
  refine ((toList_merge_perm reports).map Advisory.content).trans (.of_eq ?_)
  rw [mergedEntries_eq, List.map_map]
  rfl

theorem contents_eq_of_unbridged (perm : (reports.flatMap toList).Perm (arranged.flatMap toList))
    (unbridged : Unbridged (reports.flatMap toList))
    (unbridged' : Unbridged (arranged.flatMap toList)) :
    (merge reports).contents = (merge arranged).contents := by
  rw [contents_merge, contents_merge, Multiset.coe_eq_coe]
  exact Group.Separate.contents_perm perm ((Group.separate_ofList _).mpr unbridged)
    ((Group.separate_ofList _).mpr unbridged')

/-- Contents show whether entries overlap, and so whether there was a bridge. -/
theorem unbridged_iff_of_contents_eq (same : (merge reports).contents = (merge arranged).contents) :
    Unbridged (reports.flatMap toList) ↔ Unbridged (arranged.flatMap toList) := by
  have apart (r : AdvisoryReport) : r.toList.Pairwise Advisory.Apart ↔
      (r.toList.map Advisory.content).Pairwise fun c d => Disjoint c.names d.names := by
    rw [List.pairwise_map]
    exact ⟨fun h => h.imp Advisory.apart_iff_disjoint.mp,
      fun h => h.imp Advisory.apart_iff_disjoint.mpr⟩
  rw [contents, contents, Multiset.coe_eq_coe] at same
  rw [← apart_merge_iff, ← apart_merge_iff, apart, apart]
  exact same.pairwise_iff fun h => h.symm

/-! ## Sizes and deductions -/

theorem Filed.length_bucket (filed : r.Filed) (s : Severity) :
    (r.bucket s).length = r.contents.countP (·.severity = s) := by
  have filtered : (r.bucket s).Perm (r.toList.filter (·.severity == s)) := by
    have again := congrArg (bucket · s) filed.sortById_ofList_toList
    rw [bucket_sortById, bucket_ofList] at again
    rw [← again]
    exact List.mergeSort_perm _ _
  rw [filtered.length_eq, contents, Multiset.coe_countP, List.countP_map,
    ← List.countP_eq_length_filter]
  rfl

/-- The deductions for the advisories of a report. -/
def ledger (r : AdvisoryReport) : List Deduction :=
  ScoreInput.advisoryDeductions "critical vulnerability" 20 r.critical ++
    ScoreInput.advisoryDeductions "high severity vulnerability" 10 r.high

/-- The same deduction for the same content, named after an entry of one report or of the other. -/
def ChargesAlike (r r' : AdvisoryReport) (d d' : Deduction) : Prop :=
  ∃ e ∈ r.toList, ∃ f ∈ r'.toList, e.content = f.content ∧
    e.deduction? = some d ∧ f.deduction? = some d'

theorem deduction?_rel {r r' : AdvisoryReport} {e f : Advisory} (he : e ∈ r.toList)
    (hf : f ∈ r'.toList) (same : e.content = f.content) :
    Option.Rel (ChargesAlike r r') e.deduction? f.deduction? := by
  have severity : e.severity = f.severity := congrArg Content.severity same
  cases hs : e.severity with
  | critical =>
    have first : e.deduction? = some ⟨"critical vulnerability" ++ " " ++ e.id, 20⟩ := by
      rw [Advisory.deduction?, hs]
    have second : f.deduction? = some ⟨"critical vulnerability" ++ " " ++ f.id, 20⟩ := by
      rw [Advisory.deduction?, ← severity, hs]
    rw [first, second]
    exact .some ⟨e, he, f, hf, same, first, second⟩
  | high =>
    have first : e.deduction? = some ⟨"high severity vulnerability" ++ " " ++ e.id, 10⟩ := by
      rw [Advisory.deduction?, hs]
    have second : f.deduction? = some ⟨"high severity vulnerability" ++ " " ++ f.id, 10⟩ := by
      rw [Advisory.deduction?, ← severity, hs]
    rw [first, second]
    exact .some ⟨e, he, f, hf, same, first, second⟩
  | medium =>
    rw [Advisory.deduction?, Advisory.deduction?, ← severity, hs]
    exact .none
  | low =>
    rw [Advisory.deduction?, Advisory.deduction?, ← severity, hs]
    exact .none

/-- Reports with the same contents cost the same points for the same entries. -/
theorem Filed.ledger_rel {r r' : AdvisoryReport} (filed : r.Filed) (filed' : r'.Filed)
    (same : r.contents = r'.contents) :
    Multiset.Rel (ChargesAlike r r') (r.ledger : Multiset Deduction) r'.ledger := by
  have alike : Multiset.Rel (fun e f : Advisory => e.content = f.content)
      (r.toList : Multiset Advisory) r'.toList := by
    rw [← Multiset.rel_map (p := Eq), Multiset.rel_eq]
    exact same
  have charges := alike.filterMap fun e he f hf same => deduction?_rel he hf same
  rw [Multiset.filterMap_coe, Multiset.filterMap_coe] at charges
  rwa [ledger, ledger, Multiset.coe_eq_coe.mpr filed.deductions_perm,
    Multiset.coe_eq_coe.mpr filed'.deductions_perm]

/-! ## Orders of arrival -/

/-- A report of one advisory. -/
def single (a : Advisory) : AdvisoryReport where
  critical := [a]

theorem flatMap_toList_single (advisories : List Advisory) :
    (advisories.map single).flatMap toList = advisories := by
  induction advisories with
  | nil => rfl
  | cons a advisories ih => rw [List.map_cons, List.flatMap_cons, ih]; rfl

theorem card_contents_merge (reports : List AdvisoryReport) :
    (merge reports).contents.card = (Group.ofList (reports.flatMap toList)).length := by
  rw [contents_merge, Multiset.coe_card, List.length_map]

/-- Advisories of one severity get all their entries in its bucket. -/
theorem length_bucket_merge {s : Severity}
    (only : ∀ a ∈ reports.flatMap toList, a.severity = s) :
    ((merge reports).bucket s).length = (Group.ofList (reports.flatMap toList)).length := by
  rw [(filed_merge reports).length_bucket, contents_merge, Multiset.coe_countP, List.countP_map,
    List.countP_eq_length]
  intro g hg
  obtain ⟨⟨a, member, same⟩, -⟩ := g.describes_entry.severity
  have given := Group.mem_ofList.mp ⟨g, hg, member⟩
  exact decide_eq_true (same.symm.trans (only a given))

/-- However the advisories arrive, the contents are the same, exactly when sharing a name is
transitive. -/
theorem contents_eq_of_any_order_iff (reports : List AdvisoryReport) :
    (∀ arranged : List AdvisoryReport,
      (arranged.flatMap toList).Perm (reports.flatMap toList) →
        (merge arranged).contents = (merge reports).contents) ↔
      Clustered (reports.flatMap toList) := by
  constructor
  · intro same
    apply Classical.byContradiction
    intro unclustered
    obtain ⟨early, late, perm, perm', fewer⟩ := Group.exists_more_of_not_clustered unclustered
    have sizes {l : List Advisory} (perm : l.Perm (reports.flatMap toList)) :
        (Group.ofList l).length = (merge reports).contents.card := by
      rw [← same (l.map single) (by rwa [flatMap_toList_single]), card_contents_merge,
        flatMap_toList_single]
    rw [sizes perm, sizes perm'] at fewer
    exact Nat.lt_irrefl _ fewer
  · intro clustered arranged perm
    exact contents_eq_of_unbridged perm (clustered.of_perm perm.symm).unbridged clustered.unbridged

/-- Two orders of the reports. Where the one has no bridge, its merged entries have the contents of
those of the other exactly when that has none either. The same contents come with buckets of the
same sizes and with the same deductions, entries going by another id at most. And all orders of
the advisories have the same contents exactly when sharing a name is transitive. -/
theorem merge_order_iff (perm : reports.Perm arranged) :
    (Unbridged (reports.flatMap toList) →
      ((merge reports).contents = (merge arranged).contents ↔
        Unbridged (arranged.flatMap toList))) ∧
    ((merge reports).contents = (merge arranged).contents →
      (∀ s, ((merge reports).bucket s).length = ((merge arranged).bucket s).length) ∧
      Multiset.Rel (ChargesAlike (merge reports) (merge arranged))
        (merge reports).ledger (merge arranged).ledger) ∧
    ((∀ mixed : List AdvisoryReport,
      (mixed.flatMap toList).Perm (reports.flatMap toList) →
        (merge mixed).contents = (merge reports).contents) ↔
      Clustered (reports.flatMap toList)) := by
  refine ⟨fun unbridged => ⟨fun same => ?_, fun unbridged' => ?_⟩, fun same => ⟨fun s => ?_, ?_⟩,
    contents_eq_of_any_order_iff reports⟩
  · exact (unbridged_iff_of_contents_eq same).mp unbridged
  · exact contents_eq_of_unbridged (perm.flatMap_right toList) unbridged unbridged'
  · rw [(filed_merge reports).length_bucket, (filed_merge arranged).length_bucket, same]
  · exact (filed_merge reports).ledger_rel (filed_merge arranged) same

/-- An advisory that shares no name with `farBank`. -/
def nearBank : Advisory :=
  { id := "GHSA-1", title := "first", severity := .critical }

/-- An advisory that shares no name with `nearBank`. -/
def farBank : Advisory :=
  { id := "CVE-2", title := "second", severity := .critical }

/-- An advisory that goes by the names of both banks. -/
def bridge : Advisory :=
  { id := "OSV-3", aliases := ["CVE-2", "GHSA-1"], title := "both", severity := .critical }

/-- While the bridge does not come last it makes no difference when it comes. -/
theorem merge_order_chain :
    [single nearBank, single bridge, single farBank].Perm
      [single bridge, single nearBank, single farBank] ∧
    (merge [single nearBank, single bridge, single farBank]).contents =
      (merge [single bridge, single nearBank, single farBank]).contents ∧
    (merge [single nearBank, single bridge, single farBank]).critical.length =
      (merge [single bridge, single nearBank, single farBank]).critical.length := by
  have perm : [single nearBank, single bridge, single farBank].Perm
      [single bridge, single nearBank, single farBank] := .swap _ _ _
  have apart : nearBank.Apart farBank := by decide
  have unbridged : Unbridged [nearBank, bridge, farBank] := Advisory.unbridged_triple (.inl apart)
  have unbridged' : Unbridged [bridge, nearBank, farBank] := Advisory.unbridged_triple (.inr apart)
  obtain ⟨agree, sizes, -⟩ := merge_order_iff perm
  have same := (agree unbridged).mpr unbridged'
  exact ⟨perm, same, (sizes same).1 .critical⟩

/-- When the bridge comes last the banks keep an entry each. -/
theorem merge_order_bridge :
    [single nearBank, single farBank, single bridge].Perm
      [single nearBank, single bridge, single farBank] ∧
    (merge [single nearBank, single farBank, single bridge]).contents ≠
      (merge [single nearBank, single bridge, single farBank]).contents ∧
    (merge [single nearBank, single farBank, single bridge]).critical.length = 2 ∧
    (merge [single nearBank, single bridge, single farBank]).critical.length = 1 := by
  have met : nearBank.sameAs bridge = true := by decide
  have met' : bridge.sameAs farBank = true := by decide
  obtain ⟨one, two⟩ := Group.length_ofList_bridge met met' (by decide)
  have contents : (merge [single nearBank, single farBank, single bridge]).contents ≠
      (merge [single nearBank, single bridge, single farBank]).contents := by
    intro same
    have cards := congrArg Multiset.card same
    rw [card_contents_merge, card_contents_merge] at cards
    exact absurd (two.symm.trans (cards.trans one)) (by decide)
  have only (order : List Advisory) (h : order ⊆ [nearBank, farBank, bridge]) :
      ∀ a ∈ (order.map single).flatMap toList, a.severity = .critical := by
    rw [flatMap_toList_single]
    intro a mem
    have listed := h mem
    simp only [List.mem_cons, List.not_mem_nil, or_false] at listed
    rcases listed with rfl | rfl | rfl <;> rfl
  have last := length_bucket_merge (only [nearBank, farBank, bridge] (by simp))
  have middle := length_bucket_merge (only [nearBank, bridge, farBank] (by simp))
  exact ⟨(List.Perm.swap _ _ _).cons _, contents, last.trans two, middle.trans one⟩

end AdvisoryReport

end PackageRisk
