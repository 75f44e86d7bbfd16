import Mathlib.Data.Finset.Card
import PackageRisk.Proofs.NameMap
import PackageRisk.Proofs.Text.ByteOrder
import PackageRisk.Score.Metrics

/-!
# Dependencies of a release

The dependencies that a release requests are the names that it declares, each once and in the order
of its bytes, with what the first kind that declares it asks for. So there are as many requests as
the metrics count, whatever names the kinds have in common.
-/

namespace PackageRisk

namespace Release

variable {r : Release} {name : String} {request : DependencyRequest}

/-- What a release declares of one kind. -/
def declared (r : Release) : DependencyKind → NameMap String
  | .production => r.dependencies
  | .development => r.devDependencies
  | .peer => r.peerDependencies

/-- What the first kind that declares a name asks for: production before development before
peer. -/
def firstDeclared? (r : Release) (name : String) : Option DependencyRequest :=
  [DependencyKind.production, .development, .peer].findSome? fun kind =>
    ((r.declared kind).get? name).map fun spec => ⟨name, spec, kind⟩

theorem name_firstDeclared? (first : r.firstDeclared? name = some request) :
    request.name = name := by
  obtain ⟨kind, -, asked⟩ := List.exists_of_findSome?_eq_some first
  obtain ⟨spec, -, rfl⟩ := Option.map_eq_some_iff.mp asked
  rfl

theorem isSome_firstDeclared? :
    (r.firstDeclared? name).isSome = true ↔ ∃ kind, name ∈ (r.declared kind).names := by
  rw [firstDeclared?, List.findSome?_isSome_iff]
  simp only [Option.isSome_map]
  constructor
  · rintro ⟨kind, -, asked⟩
    exact ⟨kind, NameMap.mem_names_iff.mpr (Option.isSome_iff_exists.mp asked)⟩
  · rintro ⟨kind, listed⟩
    refine ⟨kind, by cases kind <;> simp, ?_⟩
    exact Option.isSome_iff_exists.mpr (NameMap.mem_names_iff.mp listed)

/-! ## Requests -/

theorem get?_addRequests (kind : DependencyKind) (declared : NameMap String)
    (requests : NameMap DependencyRequest) (name : String) :
    (addRequests kind declared requests).get? name =
      ((declared.get? name).map fun spec => ⟨name, spec, kind⟩).or (requests.get? name) :=
  NameMap.get?_foldl_insert (fun name spec => DependencyRequest.mk name spec kind) declared requests
    name

/-- The requests by name. -/
def requestMap (r : Release) : NameMap DependencyRequest :=
  addRequests .production r.dependencies
    (addRequests .development r.devDependencies (addRequests .peer r.peerDependencies ∅))

theorem requests_eq (r : Release) : r.requests = r.requestMap.values := rfl

/-- The kinds are put in last first, so the first one that declares a name is found. -/
theorem get?_requestMap (r : Release) (name : String) :
    r.requestMap.get? name = r.firstDeclared? name := by
  simp only [requestMap, get?_addRequests, NameMap.get?_empty, firstDeclared?, declared,
    List.findSome?_cons, List.findSome?_nil]
  cases r.dependencies.get? name <;> cases r.devDependencies.get? name <;>
    cases r.peerDependencies.get? name <;> rfl

theorem mem_requestMap {p : String × DependencyRequest} :
    p ∈ r.requestMap.entries ↔ r.firstDeclared? p.1 = some p.2 := by
  rw [← get?_requestMap, NameMap.get?_eq_some_iff]

theorem mem_requests_iff :
    request ∈ r.requests ↔ r.firstDeclared? request.name = some request := by
  rw [requests_eq, NameMap.values, List.mem_map]
  constructor
  · rintro ⟨p, mem, rfl⟩
    have first := mem_requestMap.mp mem
    rwa [name_firstDeclared? first]
  · exact fun first => ⟨(request.name, request), mem_requestMap.mpr first, rfl⟩

theorem map_name_requests (r : Release) : r.requests.map (·.name) = r.requestMap.names := by
  rw [requests_eq, NameMap.values, NameMap.names, List.map_map]
  exact List.map_congr_left fun p mem => name_firstDeclared? (mem_requestMap.mp mem)

theorem mem_map_name_requests :
    name ∈ r.requests.map (·.name) ↔ ∃ kind, name ∈ (r.declared kind).names := by
  rw [map_name_requests, NameMap.mem_names_iff, ← isSome_firstDeclared?, ← get?_requestMap,
    Option.isSome_iff_exists]

/-! ## Counting -/

/-- The names that a release declares, of whatever kind. -/
def declaredNames (r : Release) : Finset String :=
  r.dependencies.names.toFinset ∪ r.devDependencies.names.toFinset ∪
    r.peerDependencies.names.toFinset

theorem mem_declaredNames : name ∈ r.declaredNames ↔ ∃ kind, name ∈ (r.declared kind).names := by
  simp only [declaredNames, Finset.mem_union, List.mem_toFinset]
  constructor
  · rintro ((listed | listed) | listed)
    · exact ⟨.production, listed⟩
    · exact ⟨.development, listed⟩
    · exact ⟨.peer, listed⟩
  · rintro ⟨kind, listed⟩
    cases kind with
    | production => exact .inl (.inl listed)
    | development => exact .inl (.inr listed)
    | peer => exact .inr listed

theorem card_names (m : NameMap String) : m.names.toFinset.card = m.size := by
  rw [List.toFinset_card_of_nodup m.nodup_names, NameMap.length_names]

theorem length_requests (r : Release) : r.requests.length = r.declaredNames.card := by
  have names : (r.requests.map (·.name)).toFinset = r.declaredNames := by
    ext name
    rw [List.mem_toFinset, mem_map_name_requests, mem_declaredNames]
  rw [← names, map_name_requests, List.toFinset_card_of_nodup r.requestMap.nodup_names,
    ← map_name_requests, List.length_map]

theorem size_declared_le (r : Release) (kind : DependencyKind) :
    (r.declared kind).size ≤ r.declaredNames.card := by
  rw [← card_names]
  refine Finset.card_le_card fun name mem => ?_
  exact mem_declaredNames.mpr ⟨kind, List.mem_toFinset.mp mem⟩

theorem card_declaredNames_le (r : Release) : r.declaredNames.card ≤
    r.dependencies.size + r.devDependencies.size + r.peerDependencies.size := by
  rw [← card_names, ← card_names, ← card_names]
  exact (Finset.card_union_le _ _).trans (Nat.add_le_add_right (Finset.card_union_le _ _) _)

end Release

namespace Metrics

/-- Names that are collected unless they were seen before are counted once. -/
theorem length_foldl_unseen (names seen : List String) (distinct : seen.Nodup) :
    (names.foldl (fun seen name => if name ∈ seen then seen else name :: seen) seen).length =
      (seen.toFinset ∪ names.toFinset).card := by
  induction names generalizing seen with
  | nil => rw [List.foldl_nil, List.toFinset_nil, Finset.union_empty,
      List.toFinset_card_of_nodup distinct]
  | cons name names ih =>
    rw [List.foldl_cons, List.toFinset_cons, Finset.union_insert]
    split
    · rename_i old
      have known : name ∈ seen.toFinset ∪ names.toFinset :=
        Finset.mem_union_left _ (List.mem_toFinset.mpr old)
      rw [ih seen distinct, Finset.insert_eq_self.mpr known]
    · rename_i new
      rw [ih (name :: seen) (List.nodup_cons.mpr ⟨new, distinct⟩), List.toFinset_cons,
        Finset.insert_union]

theorem total_countDependencies (r : Release) :
    (countDependencies r).total = r.declaredNames.card := by
  rw [countDependencies, length_foldl_unseen _ _ .nil, List.toFinset_nil, Finset.empty_union,
    List.toFinset_append, List.toFinset_append, Release.declaredNames]

end Metrics

/-- A release requests every name that it declares, of whatever kind, once and in ascending order of
bytes, with what the first kind that declares it asks for. So there are as many requests as names
are counted in all, at least as many as of each kind and at most as many as of all kinds
together. -/
theorem Release.requests_agree_with_count (r : Release) :
    let count := Metrics.countDependencies r
    (r.requests.map fun request => request.name.toUTF8.data.toList).Pairwise (· < ·) ∧
    (∀ name, name ∈ r.requests.map (·.name) ↔
      name ∈ r.dependencies.names ∨ name ∈ r.devDependencies.names ∨
        name ∈ r.peerDependencies.names) ∧
    (∀ request, request ∈ r.requests ↔ r.firstDeclared? request.name = some request) ∧
    r.requests.length = count.total ∧
    (count.direct ≤ count.total ∧ count.dev ≤ count.total ∧ count.peer ≤ count.total) ∧
    count.total ≤ count.direct + count.dev + count.peer := by
  intro count
  have total : count.total = r.declaredNames.card := Metrics.total_countDependencies r
  have ascending : (r.requests.map (·.name)).Pairwise (· < ·) := by
    rw [map_name_requests]
    exact r.requestMap.ascending_names
  refine ⟨?_, fun name => ?_, fun request => mem_requests_iff, ?_, ⟨?_, ?_, ?_⟩, ?_⟩
  · rw [List.pairwise_map] at ascending ⊢
    exact ascending.imp Utf8.lt_iff_toUTF8_lt.mp
  · rw [mem_map_name_requests, ← mem_declaredNames]
    simp only [declaredNames, Finset.mem_union, List.mem_toFinset, or_assoc]
  · rw [total, length_requests]
  · rw [total]
    exact r.size_declared_le .production
  · rw [total]
    exact r.size_declared_le .development
  · rw [total]
    exact r.size_declared_le .peer
  · rw [total]
    exact r.card_declaredNames_le

end PackageRisk
