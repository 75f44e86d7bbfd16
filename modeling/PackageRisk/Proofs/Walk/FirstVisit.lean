import PackageRisk.Proofs.Walk.Races

/-!
# The request that is visited first

A scheduler may lead a walk to any level that has something to visit, let one of the requests of
that level be visited before the others, and bring the walk to its end from there. The request then
leaves its entry, whatever else is requested on the level.
-/

namespace PackageRisk.Walk

open Relation

variable {a : Assessor} {root : Release} {seconds maxDepth n : Nat} {w : Responses}
  {request request' : DependencyRequest} {e e' : DependencyEntry}

/-! ## Runs that end, and runs that reach a level -/

section Runs

variable {maxConcurrency : Nat} {s t : Scheduled}

/-- Entries are only ever added. -/
theorem Step.entries_suffix (h : Step w seconds s t) : s.entries <:+ t.entries := by
  cases h with
  | task => exact List.suffix_refl _
  | @collect before after t outcome =>
    cases outcome with
    | visited entry release => exact List.suffix_cons entry s.entries
    | unresolved entry => exact List.suffix_cons entry s.entries
    | alreadyVisited | crashed => exact List.suffix_refl _
  | descend => exact List.suffix_refl _

/-- Wherever a walk has got to, it can be brought to its end. -/
theorem exists_finished (live : w.Live)
    (run : ReflTransGen (Step w seconds) (.start root maxDepth maxConcurrency) s) :
    ∃ t, ReflTransGen (Step w seconds) (.start root maxDepth maxConcurrency) t ∧ t.Finished ∧
      s.entries <:+ t.entries := by
  induction s using (wellFounded_step w seconds).induction with
  | h s ih =>
    by_cases next : ∃ t, Step w seconds s t
    · obtain ⟨t, step⟩ := next
      obtain ⟨u, run', finished, suffix⟩ := ih t step (run.tail step)
      exact ⟨u, run', finished, step.entries_suffix.trans suffix⟩
    · have permits : 0 < s.permits + s.holders := by
        rw [permits_of_run run]
        exact Nat.le_max_right _ _
      have finished := finished_of_stuck live permits (not_exists.mp next)
      exact ⟨s, run, finished, List.suffix_refl _⟩

/-- Between levels every permit is free. -/
theorem permits_pos_of_run
    (run : ReflTransGen (Step w seconds) (.start root maxDepth maxConcurrency) s)
    (tasks : s.tasks = []) : 0 < s.permits := by
  have permits := permits_of_run run
  rw [Scheduled.holders, tasks] at permits
  simp only [List.countP_nil] at permits
  omega

/-- A shortest path to a package leads over a package that is one step nearer. -/
theorem Distance.parent (coherent : a.Coherent root) {r : Release}
    (h : Distance a root (n + 1) r) :
    ∃ parent request, Distance a root n parent ∧ Expanded a root parent ∧
      request ∈ parent.requests := by
  obtain ⟨path, shortest⟩ := h
  cases path with
  | @step _ parent _ request path expanded asks resolve =>
    obtain ⟨m, le, distance⟩ := path.exists_distance coherent
    have := shortest (m + 1) r (.step distance.1 expanded asks resolve) rfl
    obtain rfl : m = n := by omega
    exact ⟨parent, request, distance, expanded, asks⟩

/-- With no task under way, the expanded packages at the distance of the level are those to
expand. -/
theorem LevelInvariant.mem_next (inv : LevelInvariant a seconds root s) (tasks : s.tasks = [])
    {r : Release} (distance : Distance a root s.depth r) (expanded : Expanded a root r) :
    r ∈ s.next := by
  obtain ⟨taken, found, -⟩ := inv
  rw [tasks] at taken found
  have old : r.ref ∈ s.taken.resolved := taken.mem_resolved distance.1 (Nat.le_refl _)
  exact (found.owesNext distance expanded old).resolve_right (by simp)

/-- A walk can be led to the end of the level on which a package lies. -/
theorem exists_run_between (seconds : Nat) (coherent : a.Coherent root) (live : w.Live)
    (follow : w.Follow a) (completes : a.Completes) (maxConcurrency : Nat) {r : Release}
    (distance : Distance a root n r) (near : n ≤ maxDepth) :
    ∃ s, ReflTransGen (Step w seconds) (.start root maxDepth maxConcurrency) s ∧
      s.tasks = [] ∧ s.depth = n := by
  induction n generalizing r with
  | zero => exact ⟨_, .refl, rfl, rfl⟩
  | succ n ih =>
    obtain ⟨parent, request, distance', expanded, -⟩ := distance.parent coherent
    obtain ⟨s, run, tasks, depth⟩ := ih distance' (by omega)
    have inv : LevelInvariant a seconds root s := .of_run coherent follow completes run
    have next : s.next ≠ [] :=
      List.ne_nil_of_mem (inv.mem_next tasks (depth ▸ distance') expanded)
    have room : 0 < s.remaining := by
      have := depth_add_remaining run
      omega
    have mirrors : MirrorsBetween s
        ⟨s.taken, s.calls, s.entries, s.next.reverse.mergeSort releaseLe⟩ :=
      ⟨tasks, rfl, rfl, rfl, rfl⟩
    obtain ⟨t, run', between, -, depth', -⟩ :=
      exists_run_level seconds live follow (permits_pos_of_run run tasks) room next mirrors
    exact ⟨t, run.trans run', between.tasks, by rw [depth', depth]⟩

end Runs

/-! ## The request that is visited first -/

/-- Neither the request nor the package of its entry is taken on. -/
def Fresh (taken : Taken) (request : DependencyRequest) (e : DependencyEntry) : Prop :=
  requestKey request ∉ taken.requested ∧
    (e.latest.isSome = true → PackageRef.mk e.name e.version ∉ taken.resolved)

section First

variable {s : Scheduled}

/-- What is fresh stays so when another request is taken on, with a package that is of no
concern. -/
theorem Fresh.of_other {taken taken' : Taken} (fresh : Fresh taken request' e')
    (other : requestKey request' ≠ requestKey request)
    (requested : taken'.requested = requestKey request :: taken.requested)
    (resolved : e'.latest.isSome = true → taken'.resolved = taken.resolved) :
    Fresh taken' request' e' := by
  constructor
  · rw [requested]
    exact List.not_mem_cons_of_ne_of_not_mem other fresh.1
  · intro package
    rw [resolved package]
    exact fresh.2 package

/-- A fresh request leaves its entry, and another request stays fresh unless both are about
packages. -/
theorem Leaves.visit (state : WalkState) (leaves : Leaves a seconds root n request e)
    (fresh : Fresh state.taken request e) :
    (visit a seconds (n + 1) state request).entries = e :: state.entries ∧
      ∀ request' e', requestKey request' ≠ requestKey request →
        e'.latest.isSome ≠ e.latest.isSome → Fresh state.taken request' e' →
        Fresh (visit a seconds (n + 1) state request).taken request' e' := by
  obtain ⟨unrequested, unresolved⟩ := fresh
  have unrequested : (request.name, request.spec) ∉ state.taken.requested := unrequested
  rw [Walk.visit, if_neg unrequested]
  cases leaves with
  | @assessed release assessment resolve _ assess =>
    have free : release.ref ∉ state.taken.resolved := unresolved rfl
    simp only [resolve, Lookup.within, assessRelease, if_neg free, assess, true_and]
    intro request' e' other kind fresh
    exact fresh.of_other other rfl fun package => absurd package kind
  | @unassessed release resolve _ assess =>
    have free : release.ref ∉ state.taken.resolved := unresolved rfl
    simp only [resolve, Lookup.within, assessRelease, if_neg free, assess, true_and]
    intro request' e' other kind fresh
    exact fresh.of_other other rfl fun package => absurd package kind
  | unresolved asked resolve =>
    simp only [resolve, true_and]
    intro request' e' other _ fresh
    exact fresh.of_other other rfl fun _ => rfl

/-- Nothing that a request of the next level leads to is taken on before that level. -/
theorem LevelInvariant.fresh (inv : LevelInvariant a seconds root s)
    (leaves : Leaves a seconds root s.depth request e) : Fresh s.taken request e := by
  have unreached {release : Release} (distance : Distance a root (s.depth + 1) release) :
      release.ref ∉ s.taken.resolved := by
    intro old
    obtain ⟨m, near, other, path, ref⟩ := inv.taken.reached old
    have := distance.2 m other path ref
    omega
  have unasked {release : Release} (distance : Distance a root (s.depth + 1) release)
      (resolve : a.resolve request.name request.spec = .done (.ok release)) :
      requestKey request ∉ s.taken.requested := by
    intro old
    obtain ⟨m, near, asks⟩ := inv.taken.asked old
    have := distance.2 (m + 1) release (asks.reaches resolve) rfl
    omega
  cases leaves with
  | assessed resolve distance => exact ⟨unasked distance resolve, fun _ => unreached distance⟩
  | unassessed resolve distance => exact ⟨unasked distance resolve, fun _ => unreached distance⟩
  | unresolved asked =>
    refine ⟨fun old => ?_, fun package => absurd package Bool.false_ne_true⟩
    obtain ⟨m, near, asks⟩ := inv.taken.asked old
    have := asked.2 m asks
    omega

/-- A task that has just begun can be run to its end before the others, and leaves its entry if
its request is fresh. -/
theorem Leaves.exists_run (live : w.Live) (follow : w.Follow a) (permit : 0 < s.permits)
    (level : s.depth = n + 1) (task : ⟨request, .spawned⟩ ∈ s.tasks)
    (leaves : Leaves a seconds root n request e) (fresh : Fresh s.taken request e) :
    ∃ t, ReflTransGen (Step w seconds) s t ∧ t.entries = e :: s.entries ∧
      t.permits = s.permits ∧ t.depth = s.depth ∧
      ∀ request' e', requestKey request' ≠ requestKey request →
        e'.latest.isSome ≠ e.latest.isSome → ⟨request', .spawned⟩ ∈ s.tasks →
        Fresh s.taken request' e' →
        ⟨request', .spawned⟩ ∈ t.tasks ∧ Fresh t.taken request' e' := by
  obtain ⟨before, after, tasks⟩ := List.append_of_mem task
  let state : WalkState := ⟨s.taken, s.calls, s.entries, s.next⟩
  have mirrors : Mirrors s state := ⟨rfl, rfl, rfl, rfl⟩
  obtain ⟨t, run, mirrors', tasks', permits, depth, -⟩ :=
    runsTo_visit seconds live follow permit tasks mirrors
  rw [level] at mirrors'
  obtain ⟨entries, others⟩ := leaves.visit state fresh
  refine ⟨t, run, mirrors'.entries.trans entries, permits, depth, ?_⟩
  intro request' e' other kind task' fresh'
  constructor
  · rw [tasks] at task'
    rw [tasks']
    rcases List.mem_append.mp task' with task' | task'
    · exact List.mem_append_left _ task'
    · rcases List.mem_cons.mp task' with same | task'
      · cases same
        exact absurd rfl other
      · exact List.mem_append_right _ task'
  · rw [mirrors'.taken]
    exact others request' e' other kind fresh'

end First

end PackageRisk.Walk
