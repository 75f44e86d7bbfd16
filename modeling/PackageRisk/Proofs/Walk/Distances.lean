import PackageRisk.Dependency.Graph

/-!
# Distances in the dependency graph

Among releases that are told apart by name and version, a shortest path exists to everything that
can be reached at all, its length is unique, and only the root has distance zero. What a walk has
to report about a package or an unresolved request is unique up to the kind of the entry.
-/

namespace PackageRisk.Walk

variable {a : Assessor} {root : Release} {seconds maxDepth m n : Nat} {r r' : Release}
  {name spec : String}

theorem Reaches.eq_root_or_resolved (h : Reaches a root n r) :
    r = root ∨ ∃ name spec, a.resolve name spec = .done (.ok r) := by
  cases h with
  | root => exact .inl rfl
  | step _ _ _ resolves => exact .inr ⟨_, _, resolves⟩

/-- A release that can be reached is the one that a request is resolved to under its name and
version. -/
theorem Reaches.eq_of_resolved (coherent : a.Coherent root) (h : Reaches a root n r)
    (resolve : a.resolve name spec = .done (.ok r')) (ref : r.ref = r'.ref) : r = r' := by
  rcases h.eq_root_or_resolved with rfl | ⟨name', spec', resolve'⟩
  · exact (coherent.root resolve ref.symm).symm
  · exact coherent.resolved resolve' resolve ref

/-- Name and version determine a release that can be reached. -/
theorem Reaches.eq_of_ref_eq (coherent : a.Coherent root) (h : Reaches a root n r)
    (h' : Reaches a root m r') (ref : r.ref = r'.ref) : r = r' := by
  rcases h'.eq_root_or_resolved with rfl | ⟨name, spec, resolve⟩
  · rcases h.eq_root_or_resolved with rfl | ⟨name, spec, resolve⟩
    · rfl
    · exact coherent.root resolve ref
  · exact h.eq_of_resolved coherent resolve ref

/-- Name and version determine the release where the name of a request does. -/
theorem coherent_of_named {release : String → Release} (named : ∀ name, (release name).name = name)
    (resolves : ∀ {name spec r}, a.resolve name spec = .done (.ok r) → r = release name)
    (root : String) : a.Coherent (release root) := by
  have same {name name' : String} (ref : (release name).ref = (release name').ref) :
      release name = release name' := by
    have names : (release name).name = (release name').name := congrArg PackageRef.name ref
    rw [named, named] at names
    rw [names]
  refine ⟨fun {_ _ r} h ref => ?_, fun {_ _ r _ _ r'} h h' ref => ?_⟩
  · obtain rfl := resolves h
    exact same ref
  · obtain rfl := resolves h
    obtain rfl := resolves h'
    exact same ref

theorem Reaches.eq_root (h : Reaches a root 0 r) : r = root := by
  cases h
  rfl

theorem distance_root : Distance a root 0 root :=
  ⟨.root, fun _ _ _ _ => Nat.zero_le _⟩

theorem Distance.unique (h : Distance a root n r) (h' : Distance a root m r')
    (ref : r.ref = r'.ref) : n = m :=
  Nat.le_antisymm (h.2 m r' h'.1 ref.symm) (h'.2 n r h.1 ref)

theorem Distance.ref_ne_root (h : Distance a root n r) (pos : 0 < n) : r.ref ≠ root.ref := by
  intro ref
  have := h.2 0 root .root ref.symm
  omega

/-- A shortest path exists to everything that can be reached. -/
theorem Reaches.exists_distance (coherent : a.Coherent root) (h : Reaches a root n r) :
    ∃ m ≤ n, Distance a root m r := by
  induction n using Nat.strongRecOn with
  | ind n ih =>
    by_cases shorter : ∃ m other, Reaches a root m other ∧ other.ref = r.ref ∧ m < n
    · obtain ⟨m, other, path, ref, less⟩ := shorter
      obtain rfl := path.eq_of_ref_eq coherent h ref
      obtain ⟨k, hk, distance⟩ := ih m less path
      exact ⟨k, by omega, distance⟩
    · refine ⟨n, Nat.le_refl n, h, fun m other path ref => ?_⟩
      exact Nat.not_lt.mp fun less => shorter ⟨m, other, path, ref, less⟩

theorem AskedAt.unique (h : AskedAt a root n name spec) (h' : AskedAt a root m name spec) :
    n = m :=
  Nat.le_antisymm (h.2 m h'.1) (h'.2 n h.1)

/-- An expanded release makes its requests from the end of a shortest path to it, too. -/
theorem Asks.exists_distance (coherent : a.Coherent root) (h : Asks a root n name spec) :
    ∃ m r kind, m ≤ n ∧ Distance a root m r ∧ Expanded a root r ∧
      ⟨name, spec, kind⟩ ∈ r.requests := by
  obtain ⟨r, kind, path, expanded, asks⟩ := h
  obtain ⟨m, le, distance⟩ := path.exists_distance coherent
  exact ⟨m, r, kind, le, distance, expanded, asks⟩

/-! ## Reports -/

theorem Reportable.mono {deeper : Nat} {e : DependencyEntry} (le : maxDepth ≤ deeper)
    (h : Reportable a seconds root maxDepth e) : Reportable a seconds root deeper e := by
  cases h with
  | assessed distance depth other assess =>
    exact .assessed distance (Nat.le_trans depth le) other assess
  | unassessed distance depth other assess =>
    exact .unassessed distance (Nat.le_trans depth le) other assess
  | unresolved asked depth resolve => exact .unresolved asked (Nat.lt_of_lt_of_le depth le) resolve

theorem Reportable.depth_le {e : DependencyEntry} (h : Reportable a seconds root maxDepth e) :
    e.depth ≤ maxDepth := by
  cases h <;> assumption

theorem ReportsExactly.reportable {entries : List DependencyEntry} {e : DependencyEntry}
    (h : ReportsExactly a seconds root maxDepth entries) (he : e ∈ entries) :
    Reportable a seconds root maxDepth e :=
  (h.listed e).mp ⟨e.kind, he⟩

/-- The kind of an entry is not part of what has to be reported. -/
theorem Reportable.with_kind {e : DependencyEntry} (kind : DependencyKind)
    (h : Reportable a seconds root maxDepth e) :
    Reportable a seconds root maxDepth { e with kind := kind } := by
  cases h with
  | assessed distance depth other assess => exact .assessed distance depth other assess
  | unassessed distance depth other assess => exact .unassessed distance depth other assess
  | unresolved asked depth resolve => exact .unresolved asked depth resolve

/-- Two reports on the same package or request differ in their kinds only. -/
theorem Reportable.eq_of_key_eq (coherent : a.Coherent root) {e f : DependencyEntry}
    (he : Reportable a seconds root maxDepth e) (hf : Reportable a seconds root maxDepth f)
    (key : entryKey e = entryKey f) : { e with kind := f.kind } = f := by
  have same : ∀ {n m : Nat} {r r' : Release}, Distance a root n r → Distance a root m r' →
      (true, r.name, r.version) = (true, r'.name, r'.version) → n = m ∧ r = r' := by
    intro n m r r' hn hm key
    rw [Prod.mk.injEq, Prod.mk.injEq] at key
    have ref : r.ref = r'.ref := by rw [Release.ref, Release.ref, key.2.1, key.2.2]
    exact ⟨hn.unique hm ref, hn.1.eq_of_ref_eq coherent hm.1 ref⟩
  cases he with
  | assessed distance _ _ assess =>
    cases hf with
    | assessed distance' _ _ assess' =>
      obtain ⟨rfl, rfl⟩ := same distance distance' key
      cases assess.symm.trans assess'
      rfl
    | unassessed distance' _ _ assess' =>
      obtain ⟨rfl, rfl⟩ := same distance distance' key
      cases assess.symm.trans assess'
    | unresolved => simp [entryKey] at key
  | unassessed distance _ _ assess =>
    cases hf with
    | assessed distance' _ _ assess' =>
      obtain ⟨rfl, rfl⟩ := same distance distance' key
      cases assess.symm.trans assess'
    | unassessed distance' _ _ _ =>
      obtain ⟨rfl, rfl⟩ := same distance distance' key
      rfl
    | unresolved => simp [entryKey] at key
  | unresolved asked _ resolve =>
    cases hf with
    | assessed => simp [entryKey] at key
    | unassessed => simp [entryKey] at key
    | unresolved asked' _ resolve' =>
      simp only [entryKey, Option.isSome_none, Prod.mk.injEq, true_and] at key
      obtain ⟨rfl, rfl⟩ := key
      obtain rfl := asked.unique asked'
      cases resolve.symm.trans resolve'
      rfl

end PackageRisk.Walk
