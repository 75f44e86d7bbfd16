import PackageRisk.Proofs.Walk.Exactness

/-!
# What a walk visits

The releases that a walk assesses, level by level, and how they are recorded: each has its entry,
and no other entry tells of a release. So an entry shows malware exactly when the assessment of a
visited release does. Among releases that are told apart by name and version the visited ones are
those within reach.
-/

namespace PackageRisk.Walk

open Relation

variable {a : Assessor} {root : Release} {seconds maxDepth depth : Nat}

/-- The releases that are assessed on the levels of a walk that remain. -/
def visitedFrom (assessor : Assessor) (seconds : Nat) :
    (remaining depth : Nat) → WalkState → List Release
  | 0, _, _ => []
  | remaining + 1, depth, s =>
    if s.next.isEmpty then []
    else
      let s := level assessor seconds depth s s.next
      s.next ++ visitedFrom assessor seconds remaining (depth + 1) s

/-- The releases that a walk assesses. -/
def visited (assessor : Assessor) (seconds maxDepth : Nat) (root : Release) : List Release :=
  visitedFrom assessor seconds maxDepth 1 (start root)

/-- Entries record some releases with their assessments, and no others. -/
structure Records (a : Assessor) (assessment : Release → Assessment) (found : List Release)
    (entries : List DependencyEntry) : Prop where
  entry : ∀ d ∈ found, ∃ request depth, a.resolve request.name request.spec = .done (.ok d) ∧
    assessedEntry request depth d (assessment d) ∈ entries
  release : ∀ e ∈ entries, (e.latest = none ∧ e.malwareDetected = false) ∨
    ∃ d ∈ found, ∃ request depth, e = assessedEntry request depth d (assessment d)

section Records

variable {assessment : Release → Assessment} {found : List Release}
  {entries : List DependencyEntry}

theorem Records.of_mem_iff {found' : List Release} (h : Records a assessment found entries)
    (same : ∀ d, d ∈ found' ↔ d ∈ found) : Records a assessment found' entries where
  entry d hd := h.entry d ((same d).mp hd)
  release e he := (h.release e he).imp_right fun ⟨d, hd, made⟩ => ⟨d, (same d).mpr hd, made⟩

/-- Some entry shows malware exactly when some recorded assessment does. -/
theorem Records.any_malwareDetected (h : Records a assessment found entries) :
    entries.any (·.malwareDetected) = true ↔
      ∃ d ∈ found, (assessment d).malwareDetected = true := by
  rw [List.any_eq_true]
  constructor
  · rintro ⟨e, he, malware⟩
    rcases h.release e he with ⟨-, clean⟩ | ⟨d, hd, request, depth, rfl⟩
    · rw [clean] at malware
      cases malware
    · exact ⟨d, hd, malware⟩
  · rintro ⟨d, hd, malware⟩
    obtain ⟨request, depth, -, he⟩ := h.entry d hd
    exact ⟨_, he, malware⟩

/-- A visit finds nothing new, or a release with its entry, or that the request cannot be
resolved. -/
theorem visit_cases (assess : ∀ r, a.assess r = .answer (assessment r)) (seconds depth : Nat)
    (s : WalkState) (request : DependencyRequest) :
    ((visit a seconds depth s request).entries = s.entries ∧
      (visit a seconds depth s request).next = s.next) ∨
    (∃ d, a.resolve request.name request.spec = .done (.ok d) ∧
      (visit a seconds depth s request).entries =
        assessedEntry request depth d (assessment d) :: s.entries ∧
      (visit a seconds depth s request).next = d :: s.next) ∨
    ∃ failure, (visit a seconds depth s request).entries =
        unresolvedEntry request depth failure :: s.entries ∧
      (visit a seconds depth s request).next = s.next := by
  unfold visit
  split
  · exact .inl ⟨rfl, rfl⟩
  · cases resolve : a.resolve request.name request.spec with
    | hangs => exact .inr (.inr ⟨_, rfl, rfl⟩)
    | crashes => exact .inl ⟨rfl, rfl⟩
    | done result =>
      cases result with
      | error failure => exact .inr (.inr ⟨failure, rfl, rfl⟩)
      | ok d =>
        simp only [Lookup.within, assessRelease, assess, Lookup.answer]
        split
        · exact .inl ⟨rfl, rfl⟩
        · exact .inr (.inl ⟨d, rfl, rfl, rfl⟩)

/-- A release may be recorded with its entry. -/
theorem Records.cons {d : Release} {request : DependencyRequest}
    (h : Records a assessment found entries)
    (resolve : a.resolve request.name request.spec = .done (.ok d)) :
    Records a assessment (d :: found)
      (assessedEntry request depth d (assessment d) :: entries) where
  entry := by
    intro d' hd'
    rcases List.mem_cons.mp hd' with rfl | hd'
    · exact ⟨request, depth, resolve, List.mem_cons_self⟩
    · obtain ⟨request', depth', resolve', he⟩ := h.entry d' hd'
      exact ⟨request', depth', resolve', List.mem_cons_of_mem _ he⟩
  release := by
    intro e he
    rcases List.mem_cons.mp he with rfl | he
    · exact .inr ⟨d, List.mem_cons_self, request, depth, rfl⟩
    · refine (h.release e he).imp_right ?_
      rintro ⟨d', hd', made⟩
      exact ⟨d', List.mem_cons_of_mem d hd', made⟩

/-- An entry that tells of no release may be added. -/
theorem Records.unresolved {e : DependencyEntry} (h : Records a assessment found entries)
    (latest : e.latest = none) (clean : e.malwareDetected = false) :
    Records a assessment found (e :: entries) where
  entry := by
    intro d hd
    obtain ⟨request, depth, resolve, he⟩ := h.entry d hd
    exact ⟨request, depth, resolve, List.mem_cons_of_mem e he⟩
  release := List.forall_mem_cons.mpr ⟨.inl ⟨latest, clean⟩, h.release⟩

section Assessed

variable (assess : ∀ r, a.assess r = .answer (assessment r)) {s : WalkState}

include assess

theorem Records.visit (h : Records a assessment (found ++ s.next) s.entries)
    (request : DependencyRequest) :
    Records a assessment (found ++ (visit a seconds depth s request).next)
      (visit a seconds depth s request).entries := by
  rcases visit_cases assess seconds depth s request with
    ⟨entries, next⟩ | ⟨d, resolve, entries, next⟩ | ⟨failure, entries, next⟩ <;>
    rw [entries, next]
  · exact h
  · exact (h.cons resolve).of_mem_iff fun d' => by simp [or_left_comm]
  · exact h.unresolved rfl rfl

theorem Records.level (h : Records a assessment found s.entries) (frontier : List Release) :
    Records a assessment (found ++ (level a seconds depth s frontier).next)
      (level a seconds depth s frontier).entries := by
  have visits (requests : List DependencyRequest) {s : WalkState}
      (h : Records a assessment (found ++ s.next) s.entries) :
      Records a assessment (found ++ (requests.foldl (Walk.visit a seconds depth) s).next)
        (requests.foldl (Walk.visit a seconds depth) s).entries := by
    induction requests generalizing s with
    | nil => exact h
    | cons request requests ih => exact ih (h.visit assess request)
  have begun : Records a assessment (found ++ { s with next := [] }.next) s.entries :=
    h.of_mem_iff (by simp)
  exact (visits (frontier.flatMap Release.requests) begun).of_mem_iff (by simp [Walk.level])

theorem Records.levels (h : Records a assessment found s.entries) (remaining depth : Nat) :
    Records a assessment (found ++ visitedFrom a seconds remaining depth s)
      (levels a seconds remaining depth s).entries := by
  induction remaining generalizing found depth s with
  | zero => exact h.of_mem_iff (by simp [visitedFrom])
  | succ remaining ih =>
    rw [Walk.levels, visitedFrom]
    split
    · exact h.of_mem_iff (by simp)
    · rw [← List.append_assoc]
      exact ih (h.level assess s.next) (depth + 1)

/-- The entries of a walk record the releases that it visits. -/
theorem records_ofRelease (seconds maxDepth : Nat) (root : Release) :
    Records a assessment (visited a seconds maxDepth root)
      (ofRelease a seconds maxDepth root).entries := by
  have begun : Records a assessment [] (start root).entries :=
    ⟨fun _ hd => absurd hd List.not_mem_nil, fun _ he => absurd he List.not_mem_nil⟩
  obtain ⟨entry, release⟩ := begun.levels assess maxDepth 1
  constructor
  · intro d hd
    obtain ⟨request, depth, resolve, he⟩ := entry d hd
    exact ⟨request, depth, resolve, by simpa [ofRelease] using he⟩
  · intro e he
    exact release e (by simpa [ofRelease] using he)

end Assessed

end Records

/-! ## Visited and within reach -/

/-- Lookups that come to what an assessor says, at any time. -/
def responsesOf (a : Assessor) : Responses where
  resolve name spec _ _ l := l = a.resolve name spec
  assess release _ _ l := l = a.assess release

theorem responsesOf_follow (a : Assessor) : (responsesOf a).Follow a :=
  ⟨fun h => h, fun h => h⟩

theorem responsesOf_live (a : Assessor) : (responsesOf a).Live where
  resolve name spec _ now := ⟨now, a.resolve name spec, Nat.le_refl now, rfl⟩
  assess release _ now := ⟨now, a.assess release, Nat.le_refl now, rfl⟩

theorem ofRelease_reportsExactly (coherent : a.Coherent root) (completes : a.Completes)
    (seconds maxDepth : Nat) :
    ReportsExactly a seconds root maxDepth (ofRelease a seconds maxDepth root).entries := by
  obtain ⟨s, run, finished, eq⟩ := exists_run_ofRelease seconds (responsesOf_live a)
    (responsesOf_follow a) root maxDepth 1
  have inv : LevelInvariant a seconds root s :=
    .of_run coherent (responsesOf_follow a) completes run
  rw [eq]
  exact inv.reportsExactly coherent finished (depth_add_remaining run)

/-- An entry about a release is reported for its distance. -/
theorem Reportable.exists_distance {request : DependencyRequest} {d : Release}
    {assessment : Assessment}
    (h : Reportable a seconds root maxDepth (assessedEntry request depth d assessment)) :
    ∃ r, r.ref = d.ref ∧ r.ref ≠ root.ref ∧ depth ≤ maxDepth ∧ Distance a root depth r := by
  generalize made : assessedEntry request depth d assessment = e at h
  cases h with
  | @assessed n r _ _ distance near other =>
    injection made with name version depth
    subst depth
    exact ⟨r, by rw [Release.ref, Release.ref, name, version], other, near, distance⟩
  | @unassessed n r _ distance near other =>
    injection made with name version depth
    subst depth
    exact ⟨r, by rw [Release.ref, Release.ref, name, version], other, near, distance⟩
  | unresolved =>
    injection made with _ _ _ _ _ _ latest
    cases latest

/-- A walk whose assessments all succeed visits what is within its reach, the root apart. -/
theorem mem_visited_iff (coherent : a.Coherent root)
    (resolves : ∀ name spec, a.resolve name spec ≠ .crashes) {assessment : Release → Assessment}
    (assess : ∀ r, a.assess r = .answer (assessment r)) {d : Release} :
    d ∈ visited a seconds maxDepth root ↔
      d.ref ≠ root.ref ∧ ∃ n ≤ maxDepth, Reaches a root n d := by
  have completes : a.Completes := ⟨resolves, fun r => .inr ⟨assessment r, assess r⟩⟩
  have exact := ofRelease_reportsExactly coherent completes seconds maxDepth
  have records := records_ofRelease assess seconds maxDepth root
  constructor
  · intro hd
    obtain ⟨request, depth, resolve, he⟩ := records.entry d hd
    obtain ⟨r, ref, other, near, distance⟩ := (exact.reportable he).exists_distance
    refine ⟨ref ▸ other, depth, near, ?_⟩
    rw [← distance.1.eq_of_resolved coherent resolve ref]
    exact distance.1
  · rintro ⟨other, n, near, path⟩
    obtain ⟨m, le, distance⟩ := path.exists_distance coherent
    have report : Reportable a seconds root maxDepth
        (assessedEntry ⟨d.name, d.version, .production⟩ m d (assessment d)) :=
      .assessed distance (Nat.le_trans le near) other (assess d)
    obtain ⟨kind, he⟩ := (exact.listed _).mpr report
    rcases records.release _ he with ⟨latest, -⟩ | ⟨d', hd', request, depth, made⟩
    · cases latest
    · obtain ⟨request', -, resolve', -⟩ := records.entry d' hd'
      have ref : d.ref = d'.ref :=
        congrArg (fun e : DependencyEntry => PackageRef.mk e.name e.version) made
      rwa [path.eq_of_resolved coherent resolve' ref]

end PackageRisk.Walk
