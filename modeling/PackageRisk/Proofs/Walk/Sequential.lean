import PackageRisk.Proofs.Walk.Levels
import PackageRisk.Proofs.Walk.Progress

/-!
# The walk that takes one request after the other

Letting each task run from its beginning to its collection before the next one starts is one of
the schedules. It ends in the state that `Walk.ofRelease` computes, so whatever holds of the result
of every schedule holds of that function.
-/

namespace PackageRisk.Walk

open Relation

variable {w : Responses} {a : Assessor} {seconds : Nat}

/-- A scheduled walk has taken on, asked for and found what a walk state says. -/
structure Mirrors (s : Scheduled) (state : WalkState) : Prop where
  taken : s.taken = state.taken
  calls : s.calls = state.calls
  entries : s.entries = state.entries
  next : s.next = state.next

/-- From a state one of the tasks can be run to its end. The other tasks, the level and the number
of free permits are then as given. -/
def RunsTo (w : Responses) (seconds : Nat) (s : Scheduled) (permits : Nat) (rest : List Task)
    (state : WalkState) : Prop :=
  ∃ t, ReflTransGen (Step w seconds) s t ∧ Mirrors t state ∧ t.tasks = rest ∧
    t.permits = permits ∧ t.depth = s.depth ∧ t.remaining = s.remaining

section OneTask

variable {s : Scheduled} {request : DependencyRequest} {before after rest : List Task}
  {state : WalkState} {permits : Nat}

theorem RunsTo.step {t : Scheduled} (step : Step w seconds s t) (depth : t.depth = s.depth)
    (remaining : t.remaining = s.remaining) (h : RunsTo w seconds t permits rest state) :
    RunsTo w seconds s permits rest state := by
  obtain ⟨u, run, mirrors, tasks, free, hd, hr⟩ := h
  exact ⟨u, .head step run, mirrors, tasks, free, hd.trans depth, hr.trans remaining⟩

/-- Let the task take a step. -/
theorem RunsTo.of_taskStep {phase phase' : Phase} {time : Nat} {shared : Shared}
    (tasks : s.tasks = before ++ ⟨request, phase⟩ :: after) (later : s.now ≤ time)
    (step : TaskStep w seconds s.depth request { s.toShared with now := time } phase shared phase')
    (h : RunsTo w seconds (s.advance shared (before ++ ⟨request, phase'⟩ :: after)) permits
      (before ++ after) state) :
    RunsTo w seconds s permits (before ++ after) state :=
  .step (.task tasks later step) rfl rfl h

/-- Collect the task. -/
theorem RunsTo.of_finished {outcome : TaskOutcome}
    (tasks : s.tasks = before ++ ⟨request, .finished outcome⟩ :: after)
    (mirrors : Mirrors (s.collect outcome (before ++ after)) state) :
    RunsTo w seconds s s.permits (before ++ after) state :=
  .step (.collect tasks rfl) (by simp) (by simp)
    ⟨s.collect outcome (before ++ after), .refl, mirrors, by simp, by simp, rfl, rfl⟩

theorem runsTo_of_assessing (live : w.Live) (follow : w.Follow a) {release : Release} {begun : Nat}
    (tasks : s.tasks = before ++ ⟨request, .assessing release begun⟩ :: after)
    (mirrors : Mirrors s state) :
    RunsTo w seconds s (s.permits + 1) (before ++ after)
      (match a.assess release with
      | .done (.ok assessment) =>
        { state with
          entries := assessedEntry request s.depth release assessment :: state.entries
          next := release :: state.next }
      | .hangs =>
        { state with
          entries := unassessedEntry request s.depth seconds release :: state.entries }
      | .done (.error _) | .crashes => state) := by
  obtain ⟨ended, l, later, h⟩ := live.assess release begun s.now
  have answer := follow.assess h
  refine .of_taskStep tasks later (.assessed h) (.of_finished rfl ?_)
  obtain ⟨taken, calls, entries, next⟩ := mirrors
  rw [← answer]
  match l with
  | .done (.ok assessment) =>
    exact ⟨taken, calls, congrArg _ entries, congrArg _ next⟩
  | .hangs => exact ⟨taken, calls, congrArg _ entries, next⟩
  | .done (.error _) => exact ⟨taken, calls, entries, next⟩
  | .crashes => exact ⟨taken, calls, entries, next⟩

theorem runsTo_of_resolved (live : w.Live) (follow : w.Follow a) {release : Release}
    (tasks : s.tasks = before ++ ⟨request, .resolved release⟩ :: after)
    (mirrors : Mirrors s state) :
    RunsTo w seconds s (s.permits + 1) (before ++ after)
      (assessRelease a seconds s.depth request release state) := by
  obtain ⟨taken, calls, entries, next⟩ := mirrors
  rw [assessRelease]
  split
  · rename_i old
    refine .of_taskStep tasks (Nat.le_refl _) (.skipRelease (taken ▸ old)) (.of_finished rfl ?_)
    exact ⟨taken, calls, entries, next⟩
  · rename_i new
    refine .of_taskStep tasks (Nat.le_refl _) (.takeRelease (taken ▸ new)) ?_
    refine runsTo_of_assessing live follow rfl ⟨?_, congrArg _ calls, entries, next⟩
    exact congrArg (fun t : Taken => { t with resolved := release.ref :: t.resolved }) taken

theorem runsTo_of_resolving (live : w.Live) (follow : w.Follow a) {begun : Nat}
    (tasks : s.tasks = before ++ ⟨request, .resolving begun⟩ :: after) (mirrors : Mirrors s state) :
    RunsTo w seconds s (s.permits + 1) (before ++ after)
      (match (a.resolve request.name request.spec).within seconds
          (resolving request.name request.spec) with
      | .done (.ok release) => assessRelease a seconds s.depth request release state
      | .done (.error failure) =>
        { state with entries := unresolvedEntry request s.depth failure :: state.entries }
      | .hangs | .crashes => state) := by
  obtain ⟨ended, l, later, h⟩ := live.resolve request.name request.spec begun s.now
  have answer := follow.resolve h
  have ⟨taken, calls, entries, next⟩ := mirrors
  rw [← answer]
  match l, h with
  | .done (.ok release), h =>
    refine .of_taskStep tasks later (.resolved h) ?_
    exact runsTo_of_resolved live follow rfl ⟨taken, calls, entries, next⟩
  | .done (.error failure), h =>
    refine .of_taskStep tasks later (.unresolved h rfl) (.of_finished rfl ?_)
    exact ⟨taken, calls, congrArg _ entries, next⟩
  | .hangs, h =>
    refine .of_taskStep tasks later (.unresolved h rfl) (.of_finished rfl ?_)
    exact ⟨taken, calls, congrArg _ entries, next⟩
  | .crashes, h =>
    refine .of_taskStep tasks later (.crashed h) (.of_finished rfl ?_)
    exact ⟨taken, calls, entries, next⟩

/-- A request is visited as it is when nothing else goes on. -/
theorem runsTo_visit (seconds : Nat) (live : w.Live) (follow : w.Follow a) (permit : 0 < s.permits)
    (tasks : s.tasks = before ++ ⟨request, .spawned⟩ :: after) (mirrors : Mirrors s state) :
    RunsTo w seconds s s.permits (before ++ after) (visit a seconds s.depth state request) := by
  obtain ⟨taken, calls, entries, next⟩ := mirrors
  rw [visit]
  split
  · rename_i old
    refine .of_taskStep tasks (Nat.le_refl _) (.skipRequest (taken ▸ old)) (.of_finished rfl ?_)
    exact ⟨taken, calls, entries, next⟩
  · rename_i new
    refine .of_taskStep tasks (Nat.le_refl _) (.takeRequest (taken ▸ new)) ?_
    refine .of_taskStep rfl (Nat.le_refl _) (.acquire permit) ?_
    have restored : s.permits = s.permits - 1 + 1 := (Nat.sub_add_cancel permit).symm
    rw [restored]
    refine runsTo_of_resolving live follow rfl ⟨?_, congrArg _ calls, entries, next⟩
    exact congrArg (fun t : Taken =>
      { t with requested := (request.name, request.spec) :: t.requested }) taken

end OneTask

/-! ## Levels -/

variable {s : Scheduled} {state : WalkState}

/-- The tasks of some requests can be run one after the other. -/
theorem runsTo_visits (seconds : Nat) (live : w.Live) (follow : w.Follow a)
    (requests : List DependencyRequest) (permit : 0 < s.permits)
    (tasks : s.tasks = requests.map fun request => { request })
    (mirrors : Mirrors s state) :
    RunsTo w seconds s s.permits [] (requests.foldl (visit a seconds s.depth) state) := by
  induction requests generalizing s state with
  | nil => exact ⟨s, .refl, mirrors, tasks, rfl, rfl, rfl⟩
  | cons request rest ih =>
    have tasks : s.tasks =
        [] ++ ⟨request, .spawned⟩ :: rest.map fun request => ({ request } : Task) := tasks
    obtain ⟨t, run, mirrors', tasks', permits, depth, remaining⟩ :=
      runsTo_visit seconds live follow permit tasks mirrors
    obtain ⟨u, run', mirrors'', tasks'', permits', depth', remaining'⟩ :=
      ih (permits ▸ permit) tasks' mirrors'
    rw [depth] at mirrors''
    exact ⟨u, run.trans run', mirrors'', tasks'', permits'.trans permits, depth'.trans depth,
      remaining'.trans remaining⟩

/-- Between levels the releases to expand are the same, too, once they are put in order. -/
structure MirrorsBetween (s : Scheduled) (state : WalkState) : Prop where
  tasks : s.tasks = []
  taken : s.taken = state.taken
  calls : s.calls = state.calls
  entries : s.entries = state.entries
  next : s.next.reverse.mergeSort releaseLe = state.next

theorem MirrorsBetween.next_eq_nil (h : MirrorsBetween s state) :
    s.next = [] ↔ state.next = [] := by
  rw [← h.next, ← List.length_eq_zero_iff, ← List.length_eq_zero_iff, List.length_mergeSort,
    List.length_reverse]

/-- A level can be visited one request after the other. -/
theorem exists_run_level (seconds : Nat) (live : w.Live) (follow : w.Follow a)
    (permit : 0 < s.permits) (room : 0 < s.remaining) (next : s.next ≠ [])
    (mirrors : MirrorsBetween s state) :
    ∃ t, ReflTransGen (Step w seconds) s t ∧
      MirrorsBetween t (level a seconds (s.depth + 1) state state.next) ∧
      t.permits = s.permits ∧ t.depth = s.depth + 1 ∧ t.remaining = s.remaining - 1 := by
  have tasks : s.descend.tasks = (state.next.flatMap Release.requests).map
      fun request => { request } := by
    rw [← mirrors.next]
    rfl
  have before : Mirrors s.descend { state with next := [] } :=
    ⟨mirrors.taken, mirrors.calls, mirrors.entries, rfl⟩
  obtain ⟨t, run, after, empty, permits, depth, remaining⟩ :=
    runsTo_visits seconds live follow _ (s := s.descend) permit tasks before
  refine ⟨t, .head (.descend mirrors.tasks next room) run, ?_, permits, depth, remaining⟩
  exact ⟨empty, after.taken, after.calls, after.entries, by rw [after.next]; rfl⟩

theorem exists_run_levels (seconds : Nat) (live : w.Live) (follow : w.Follow a)
    (permit : 0 < s.permits) (mirrors : MirrorsBetween s state) {remaining depth : Nat}
    (hremaining : s.remaining = remaining) (hdepth : s.depth + 1 = depth) :
    ∃ t, ReflTransGen (Step w seconds) s t ∧ t.Finished ∧
      t.entries = (levels a seconds remaining depth state).entries ∧
      t.calls = (levels a seconds remaining depth state).calls := by
  induction remaining generalizing s state depth with
  | zero => exact ⟨s, .refl, ⟨mirrors.tasks, .inr hremaining⟩, mirrors.entries, mirrors.calls⟩
  | succ remaining ih =>
    subst hdepth
    rw [levels]
    by_cases next : s.next = []
    · rw [if_pos (by simp [mirrors.next_eq_nil.mp next])]
      exact ⟨s, .refl, ⟨mirrors.tasks, .inl next⟩, mirrors.entries, mirrors.calls⟩
    · rw [if_neg (by simpa [mirrors.next_eq_nil] using next)]
      obtain ⟨t, run, mirrors', permits, depth', remaining'⟩ :=
        exists_run_level seconds live follow permit (by omega) next mirrors
      obtain ⟨u, run', finished, entries, calls⟩ :=
        ih (permits ▸ permit) mirrors' (by omega) (congrArg (· + 1) depth')
      exact ⟨u, run.trans run', finished, entries, calls⟩

/-- `Walk.ofRelease` is the outcome of a run, whatever the number of permits. -/
theorem exists_run_ofRelease (seconds : Nat) (live : w.Live) (follow : w.Follow a) (root : Release)
    (maxDepth maxConcurrency : Nat) :
    ∃ s, ReflTransGen (Step w seconds) (.start root maxDepth maxConcurrency) s ∧ s.Finished ∧
      ofRelease a seconds maxDepth root = ⟨s.result, s.calls.reverse⟩ := by
  have mirrors : MirrorsBetween (.start root maxDepth maxConcurrency) (start root) :=
    ⟨rfl, rfl, rfl, rfl, List.mergeSort_singleton root⟩
  obtain ⟨s, run, finished, entries, calls⟩ := exists_run_levels seconds
    (s := .start root maxDepth maxConcurrency) live follow (Nat.le_max_right maxConcurrency 1)
    mirrors rfl rfl
  refine ⟨s, run, finished, ?_⟩
  rw [Scheduled.result, entries, calls]
  rfl

end PackageRisk.Walk
