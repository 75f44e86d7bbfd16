import PackageRisk.Dependency.Walk

/-!
# Walks under a scheduler

The requests of a level are visited by tasks that run side by side, at most a fixed number of them
with a permit to look something up. Taking on a request, taking on a release, the beginning and
the end of a lookup and the collection of a finished task are single steps, and any task may make
the next one. A level begins when every task of the level before it has been collected.

Which outcome a lookup has, and when, is left open by `Responses`. An assessor with fixed
latencies has the responses of `TimedAssessor.responses`: its lookups are answered in time or
stopped by the limit, and the time spent waiting for a permit counts for neither.
-/

namespace PackageRisk

/-- A lookup that takes a fixed time, in nanoseconds. -/
structure Timed (α : Type) where
  latency : Nat
  value : α

namespace Timed

variable {α : Type}

/-- What a lookup comes to under a limit on its time. -/
def cut (limit : Nat) (t : Timed (Except Failure α)) : Lookup α :=
  if limit < t.latency then .hangs else .done t.value

/-- A lookup is answered once its latency has passed, or stopped once the limit has passed; with a
latency equal to the limit either may happen. -/
def Ends (limit : Nat) (t : Timed (Except Failure α)) (begun ended : Nat) (l : Lookup α) : Prop :=
  (t.latency ≤ limit ∧ begun + t.latency ≤ ended ∧ l = .done t.value) ∨
    (limit ≤ t.latency ∧ begun + limit ≤ ended ∧ l = .hangs)

end Timed

namespace Walk

/-- What the lookups of a walk may come to: one that began at a time may end at another with an
outcome. A lookup that the limit stops hangs. -/
structure Responses where
  resolve : (name spec : String) → (begun ended : Nat) → Lookup Release → Prop
  assess : (release : Release) → (begun ended : Nat) → Lookup Assessment → Prop

/-- What a task leaves to be collected. -/
inductive TaskOutcome where
  | visited (entry : DependencyEntry) (release : Release)
  | unresolved (entry : DependencyEntry)
  | alreadyVisited
  | crashed

/-- How far a task has come. A lookup is known by the time at which it began. -/
inductive Phase where
  | spawned
  | waiting
  | resolving (begun : Nat)
  | resolved (release : Release)
  | assessing (release : Release) (begun : Nat)
  | finished (outcome : TaskOutcome)

/-- A task keeps its permit from its first lookup until it is finished. -/
def Phase.holdsPermit : Phase → Bool
  | resolving _ | resolved _ | assessing _ _ => true
  | spawned | waiting | finished _ => false

/-- The task of a request. -/
structure Task where
  request : DependencyRequest
  phase : Phase := .spawned

/-- What the tasks of a walk share: the time, the free permits, and what is taken on and asked
for. Calls stand last first. -/
structure Shared where
  now : Nat := 0
  permits : Nat
  taken : Taken := {}
  calls : List WalkCall := []

/-- What a task leaves when the assessment of its release has ended. -/
def assessmentOutcome (request : DependencyRequest) (depth seconds : Nat) (release : Release) :
    Lookup Assessment → TaskOutcome
  | .done (.ok assessment) => .visited (assessedEntry request depth release assessment) release
  | .hangs => .unresolved (unassessedEntry request depth seconds release)
  | .done (.error _) | .crashes => .crashed

/-- One step of the task of a request on a level. -/
inductive TaskStep (w : Responses) (seconds depth : Nat) (request : DependencyRequest) :
    Shared → Phase → Shared → Phase → Prop
  | skipRequest {s : Shared} (taken : (request.name, request.spec) ∈ s.taken.requested) :
      TaskStep w seconds depth request s .spawned s (.finished .alreadyVisited)
  | takeRequest {s : Shared} (free : (request.name, request.spec) ∉ s.taken.requested) :
      TaskStep w seconds depth request s .spawned
        { s with taken := { s.taken with
            requested := (request.name, request.spec) :: s.taken.requested } }
        .waiting
  | acquire {s : Shared} (permit : 0 < s.permits) :
      TaskStep w seconds depth request s .waiting
        { s with
          permits := s.permits - 1
          calls := .resolve request.name request.spec :: s.calls }
        (.resolving s.now)
  | resolved {s : Shared} {begun : Nat} {release : Release}
      (ended : w.resolve request.name request.spec begun s.now (.done (.ok release))) :
      TaskStep w seconds depth request s (.resolving begun) s (.resolved release)
  | unresolved {s : Shared} {begun : Nat} {l : Lookup Release} {failure : Failure}
      (ended : w.resolve request.name request.spec begun s.now l)
      (failed : l.within seconds (resolving request.name request.spec) = .done (.error failure)) :
      TaskStep w seconds depth request s (.resolving begun) { s with permits := s.permits + 1 }
        (.finished (.unresolved (unresolvedEntry request depth failure)))
  | crashed {s : Shared} {begun : Nat}
      (ended : w.resolve request.name request.spec begun s.now .crashes) :
      TaskStep w seconds depth request s (.resolving begun) { s with permits := s.permits + 1 }
        (.finished .crashed)
  | skipRelease {s : Shared} {release : Release} (taken : release.ref ∈ s.taken.resolved) :
      TaskStep w seconds depth request s (.resolved release) { s with permits := s.permits + 1 }
        (.finished .alreadyVisited)
  | takeRelease {s : Shared} {release : Release} (free : release.ref ∉ s.taken.resolved) :
      TaskStep w seconds depth request s (.resolved release)
        { s with
          taken := { s.taken with resolved := release.ref :: s.taken.resolved }
          calls := .assess release.ref :: s.calls }
        (.assessing release s.now)
  | assessed {s : Shared} {release : Release} {begun : Nat} {l : Lookup Assessment}
      (ended : w.assess release begun s.now l) :
      TaskStep w seconds depth request s (.assessing release begun)
        { s with permits := s.permits + 1 }
        (.finished (assessmentOutcome request depth seconds release l))

/-- The state of a walk under a scheduler: the level and the number of levels that may follow it,
the tasks of the level that are not collected yet, the entries so far and the releases to expand
on the next level. Entries and releases stand last first. -/
structure Scheduled extends Shared where
  depth : Nat := 0
  remaining : Nat
  tasks : List Task := []
  entries : List DependencyEntry := []
  next : List Release

namespace Scheduled

/-- Before the first level the root is taken on and to be expanded. There is always a permit. -/
def start (root : Release) (maxDepth maxConcurrency : Nat) : Scheduled where
  permits := max maxConcurrency 1
  taken := ⟨[], [root.ref]⟩
  remaining := maxDepth
  next := [root]

/-- What the tasks share and the tasks themselves have changed. -/
def advance (s : Scheduled) (shared : Shared) (tasks : List Task) : Scheduled :=
  { s with toShared := shared, tasks := tasks }

/-- Collect what a finished task leaves; the other tasks stay. -/
def collect (s : Scheduled) (outcome : TaskOutcome) (others : List Task) : Scheduled :=
  match outcome with
  | .visited entry release =>
    { s with tasks := others, entries := entry :: s.entries, next := release :: s.next }
  | .unresolved entry => { s with tasks := others, entries := entry :: s.entries }
  | .alreadyVisited | .crashed => { s with tasks := others }

/-- The next level has a task for each request of the releases to expand. -/
def descend (s : Scheduled) : Scheduled :=
  { s with
    depth := s.depth + 1
    remaining := s.remaining - 1
    tasks := ((s.next.reverse.mergeSort releaseLe).flatMap Release.requests).map fun request =>
      { request }
    next := [] }

/-- Every task is collected, and there is nothing to expand or no level left. -/
def Finished (s : Scheduled) : Prop :=
  s.tasks = [] ∧ (s.next = [] ∨ s.remaining = 0)

/-- The entries by depth, name and version. -/
def result (s : Scheduled) : List DependencyEntry :=
  s.entries.reverse.mergeSort entryLe

/-- The tasks that hold a permit. -/
def holders (s : Scheduled) : Nat :=
  s.tasks.countP (·.phase.holdsPermit)

@[simp] theorem tasks_advance (s : Scheduled) (shared : Shared) (tasks : List Task) :
    (s.advance shared tasks).tasks = tasks := rfl

@[simp] theorem toShared_advance (s : Scheduled) (shared : Shared) (tasks : List Task) :
    (s.advance shared tasks).toShared = shared := rfl

@[simp] theorem depth_advance (s : Scheduled) (shared : Shared) (tasks : List Task) :
    (s.advance shared tasks).depth = s.depth := rfl

@[simp] theorem remaining_advance (s : Scheduled) (shared : Shared) (tasks : List Task) :
    (s.advance shared tasks).remaining = s.remaining := rfl

@[simp] theorem entries_advance (s : Scheduled) (shared : Shared) (tasks : List Task) :
    (s.advance shared tasks).entries = s.entries := rfl

@[simp] theorem next_advance (s : Scheduled) (shared : Shared) (tasks : List Task) :
    (s.advance shared tasks).next = s.next := rfl

@[simp] theorem tasks_collect (s : Scheduled) (outcome : TaskOutcome) (others : List Task) :
    (s.collect outcome others).tasks = others := by
  cases outcome <;> rfl

@[simp] theorem toShared_collect (s : Scheduled) (outcome : TaskOutcome) (others : List Task) :
    (s.collect outcome others).toShared = s.toShared := by
  cases outcome <;> rfl

@[simp] theorem depth_collect (s : Scheduled) (outcome : TaskOutcome) (others : List Task) :
    (s.collect outcome others).depth = s.depth := by
  cases outcome <;> rfl

@[simp] theorem remaining_collect (s : Scheduled) (outcome : TaskOutcome) (others : List Task) :
    (s.collect outcome others).remaining = s.remaining := by
  cases outcome <;> rfl

@[simp] theorem toShared_descend (s : Scheduled) : s.descend.toShared = s.toShared := rfl

@[simp] theorem depth_descend (s : Scheduled) : s.descend.depth = s.depth + 1 := rfl

@[simp] theorem remaining_descend (s : Scheduled) :
    s.descend.remaining = s.remaining - 1 := rfl

@[simp] theorem entries_descend (s : Scheduled) : s.descend.entries = s.entries := rfl

@[simp] theorem next_descend (s : Scheduled) : s.descend.next = [] := rfl

end Scheduled

/-- One step of a walk: a task goes on, now or later; a finished task is collected; or, all tasks
being collected, the next level begins. -/
inductive Step (w : Responses) (seconds : Nat) : Scheduled → Scheduled → Prop
  | task {s : Scheduled} {before after : List Task} {t : Task} {time : Nat} {shared : Shared}
      {phase : Phase} (tasks : s.tasks = before ++ t :: after) (later : s.now ≤ time)
      (step : TaskStep w seconds s.depth t.request { s.toShared with now := time } t.phase
        shared phase) :
      Step w seconds s (s.advance shared (before ++ { t with phase } :: after))
  | collect {s : Scheduled} {before after : List Task} {t : Task} {outcome : TaskOutcome}
      (tasks : s.tasks = before ++ t :: after) (finished : t.phase = .finished outcome) :
      Step w seconds s (s.collect outcome (before ++ after))
  | descend {s : Scheduled} (tasks : s.tasks = []) (next : s.next ≠ []) (room : 0 < s.remaining) :
      Step w seconds s s.descend

end Walk

/-- How dependencies are resolved and scored when every lookup takes a fixed time. -/
structure TimedAssessor where
  resolve : (name spec : String) → Timed (Except Failure Release)
  assess : Release → Timed Assessment

namespace TimedAssessor

/-- The assessment of a release; it never fails. -/
def assessment (t : TimedAssessor) (release : Release) : Timed (Except Failure Assessment) :=
  ⟨(t.assess release).latency, .ok (t.assess release).value⟩

/-- What the lookups come to under a limit on the time of each. -/
def toAssessor (t : TimedAssessor) (limit : Nat) : Assessor where
  resolve name spec := (t.resolve name spec).cut limit
  assess release := (t.assessment release).cut limit

/-- The lookups as a walk with a limit on the time of each meets them. -/
def responses (t : TimedAssessor) (limit : Nat) : Walk.Responses where
  resolve name spec := (t.resolve name spec).Ends limit
  assess release := (t.assessment release).Ends limit

/-- The limit in whole seconds, as messages give it. Times are in nanoseconds. -/
def seconds (limit : Nat) : Nat :=
  limit / Instant.nanosPerSecond

/-- One step of a walk with a limit on the time of each lookup. -/
def Step (t : TimedAssessor) (limit : Nat) : Walk.Scheduled → Walk.Scheduled → Prop :=
  Walk.Step (t.responses limit) (seconds limit)

end TimedAssessor

end PackageRisk
