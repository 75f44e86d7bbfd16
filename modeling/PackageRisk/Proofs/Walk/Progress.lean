import Mathlib.Algebra.GroupWithZero.Nat
import Mathlib.Logic.Relation
import PackageRisk.Dependency.Schedule

/-!
# Every scheduled walk comes to an end

A step of a task brings it closer to being finished, collecting a task removes it, and beginning a
level uses one up; so no walk goes on for ever, whatever the scheduler does. Permits are conserved:
those that are free and those that tasks hold make up the initial number. A walk in which every
lookup ends in the end is therefore never stuck before it is finished.
-/

namespace PackageRisk.Walk

open Relation

variable {w : Responses} {seconds : Nat}

/-- An upper bound on the steps that a task still takes, its collection included. -/
def Phase.stepsLeft : Phase → Nat
  | spawned => 6
  | waiting => 5
  | resolving _ => 4
  | resolved _ => 3
  | assessing _ _ => 2
  | finished _ => 1

/-- The steps that the tasks of the current level still take. -/
def Scheduled.stepsLeft (s : Scheduled) : Nat :=
  (s.tasks.map (·.phase.stepsLeft)).sum

theorem TaskStep.stepsLeft_lt {depth : Nat} {request : DependencyRequest} {s s' : Shared}
    {phase phase' : Phase} (h : TaskStep w seconds depth request s phase s' phase') :
    phase'.stepsLeft < phase.stepsLeft := by
  cases h <;> simp [Phase.stepsLeft]

/-- A step begins a level, or leaves the levels as they are and brings the tasks forward. -/
theorem Step.decreases {s t : Scheduled} (h : Step w seconds s t) :
    t.remaining < s.remaining ∨
      t.remaining = s.remaining ∧ t.stepsLeft < s.stepsLeft := by
  cases h with
  | task tasks _ step =>
    have := step.stepsLeft_lt
    refine .inr ⟨rfl, ?_⟩
    simp only [Scheduled.stepsLeft, Scheduled.tasks_advance, tasks, List.map_append,
      List.map_cons, List.sum_append, List.sum_cons]
    omega
  | collect tasks finished =>
    refine .inr ⟨by simp, ?_⟩
    simp only [Scheduled.stepsLeft, Scheduled.tasks_collect, tasks, List.map_append,
      List.map_cons, List.sum_append, List.sum_cons, finished, Phase.stepsLeft]
    omega
  | descend _ _ room =>
    rw [Scheduled.remaining_descend]
    omega

/-- No walk goes on for ever. -/
theorem wellFounded_step (w : Responses) (seconds : Nat) :
    WellFounded fun t s => Step w seconds s t := by
  have order := (Prod.lex Nat.lt_wfRel Nat.lt_wfRel).wf
  refine Subrelation.wf ?_ (InvImage.wf (fun s : Scheduled => (s.remaining, s.stepsLeft)) order)
  intro t s h
  rcases h.decreases with h | ⟨h, h'⟩
  · exact .left _ _ h
  · change Prod.Lex _ _ (t.remaining, t.stepsLeft) (s.remaining, s.stepsLeft)
    rw [h]
    exact .right _ h'

/-! ## Permits -/

/-- One if a task in this phase holds a permit. -/
def Phase.permit (phase : Phase) : Nat :=
  if phase.holdsPermit then 1 else 0

theorem TaskStep.permits {depth : Nat} {request : DependencyRequest} {s s' : Shared}
    {phase phase' : Phase} (h : TaskStep w seconds depth request s phase s' phase') :
    s'.permits + phase'.permit = s.permits + phase.permit := by
  cases h <;> simp [Phase.permit, Phase.holdsPermit]
  case acquire permit => omega

/-- The permits held are those of one task and those of the others. -/
theorem Scheduled.holders_eq {s : Scheduled} {before after : List Task} {t : Task}
    (h : s.tasks = before ++ t :: after) :
    s.holders = (before ++ after).countP (·.phase.holdsPermit) + t.phase.permit := by
  simp only [holders, h, List.countP_append, List.countP_cons, Phase.permit]
  omega

/-- A step conserves the permits, free and held. -/
theorem Step.permits {s t : Scheduled} (h : Step w seconds s t) :
    t.permits + t.holders = s.permits + s.holders := by
  cases h with
  | @task before after t _ shared phase tasks _ step =>
    have moved : shared.permits + phase.permit = s.permits + t.phase.permit := step.permits
    have left := Scheduled.holders_eq tasks
    have right : (s.advance shared (before ++ { t with phase } :: after)).holders =
        (before ++ after).countP (·.phase.holdsPermit) + phase.permit :=
      Scheduled.holders_eq (t := { t with phase }) rfl
    rw [Scheduled.toShared_advance]
    omega
  | @collect before after t outcome tasks finished =>
    have left := Scheduled.holders_eq tasks
    have right : (s.collect outcome (before ++ after)).holders =
        (before ++ after).countP (·.phase.holdsPermit) := by
      rw [Scheduled.holders, Scheduled.tasks_collect]
    have none : t.phase.permit = 0 := by simp [finished, Phase.permit, Phase.holdsPermit]
    rw [Scheduled.toShared_collect]
    omega
  | descend tasks _ _ =>
    have none : ∀ requests : List DependencyRequest,
        (requests.map fun request => ({ request } : Task)).countP (·.phase.holdsPermit) = 0 := by
      intro requests
      simp [List.countP_eq_zero, Phase.holdsPermit]
    simp [Scheduled.holders, Scheduled.descend, tasks, none]

theorem permits_of_run {root : Release} {maxDepth maxConcurrency : Nat} {s : Scheduled}
    (h : ReflTransGen (Step w seconds) (.start root maxDepth maxConcurrency) s) :
    s.permits + s.holders = max maxConcurrency 1 := by
  induction h with
  | refl => rfl
  | tail _ step ih => rw [step.permits, ih]

/-! ## Progress -/

/-- Every lookup ends at some time, however late it is asked about. -/
structure Responses.Live (w : Responses) : Prop where
  resolve : ∀ name spec begun now, ∃ ended l, now ≤ ended ∧ w.resolve name spec begun ended l
  assess : ∀ release begun now, ∃ ended l, now ≤ ended ∧ w.assess release begun ended l

/-- A task that is neither finished nor waiting can go on by itself. -/
theorem exists_taskStep (seconds : Nat) (live : w.Live) (depth : Nat) (t : Task) (s : Shared)
    (busy : t.phase ≠ .waiting) (unfinished : ∀ outcome, t.phase ≠ .finished outcome) :
    ∃ time s' phase', s.now ≤ time ∧
      TaskStep w seconds depth t.request { s with now := time } t.phase s' phase' := by
  obtain ⟨request, phase⟩ := t
  cases phase with
  | spawned =>
    by_cases taken : (request.name, request.spec) ∈ s.taken.requested
    · exact ⟨s.now, _, _, Nat.le_refl _, .skipRequest taken⟩
    · exact ⟨s.now, _, _, Nat.le_refl _, .takeRequest taken⟩
  | waiting => exact absurd rfl busy
  | resolving begun =>
    obtain ⟨ended, l, later, h⟩ := live.resolve request.name request.spec begun s.now
    cases l with
    | done result =>
      cases result with
      | ok release => exact ⟨ended, _, _, later, .resolved h⟩
      | error failure => exact ⟨ended, _, _, later, .unresolved h rfl⟩
    | hangs => exact ⟨ended, _, _, later, .unresolved h rfl⟩
    | crashes => exact ⟨ended, _, _, later, .crashed h⟩
  | resolved release =>
    by_cases taken : release.ref ∈ s.taken.resolved
    · exact ⟨s.now, _, _, Nat.le_refl _, .skipRelease taken⟩
    · exact ⟨s.now, _, _, Nat.le_refl _, .takeRelease taken⟩
  | assessing release begun =>
    obtain ⟨ended, l, later, h⟩ := live.assess release begun s.now
    exact ⟨ended, _, _, later, .assessed h⟩
  | finished outcome => exact absurd rfl (unfinished outcome)

/-- A walk with a permit to give that cannot go on is finished. -/
theorem finished_of_stuck (live : w.Live) {s : Scheduled} (permits : 0 < s.permits + s.holders)
    (stuck : ∀ t, ¬ Step w seconds s t) : s.Finished := by
  by_cases empty : s.tasks = []
  · refine ⟨empty, Classical.byContradiction fun unfinished => ?_⟩
    rw [not_or] at unfinished
    exact stuck _ (.descend empty unfinished.1 (Nat.pos_of_ne_zero unfinished.2))
  · -- No task can go on, so all are waiting, no permit is held, and one of them may have it.
    have waiting : ∀ t ∈ s.tasks, t.phase = .waiting := by
      intro t ht
      obtain ⟨before, after, tasks⟩ := List.append_of_mem ht
      apply Classical.byContradiction
      intro busy
      by_cases finished : ∃ outcome, t.phase = .finished outcome
      · obtain ⟨outcome, h⟩ := finished
        exact stuck _ (.collect tasks h)
      · obtain ⟨time, s', phase', later, step⟩ :=
          exists_taskStep seconds live s.depth t s.toShared busy
            fun outcome h => finished ⟨outcome, h⟩
        exact stuck _ (.task tasks later step)
    have free : s.holders = 0 := by
      apply List.countP_eq_zero.mpr
      intro t ht
      rw [waiting t ht]
      exact Bool.false_ne_true
    obtain ⟨t, rest, tasks⟩ := List.exists_cons_of_ne_nil empty
    obtain ⟨request, phase⟩ := t
    obtain rfl : phase = .waiting := waiting ⟨request, phase⟩ (by simp [tasks])
    have tasks : s.tasks = [] ++ ⟨request, .waiting⟩ :: rest := tasks
    refine absurd (Step.task tasks (Nat.le_refl _) (.acquire ?_)) (stuck _)
    change 0 < s.permits
    omega

end PackageRisk.Walk
