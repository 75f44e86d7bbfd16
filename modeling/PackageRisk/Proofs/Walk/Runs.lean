import PackageRisk.Proofs.Walk.Levels
import PackageRisk.Proofs.Walk.Progress

/-!
# Runs of a walk

The level invariant holds at the start and is kept by every step, so it holds in every state that
some schedule leads to. Once a walk is finished nothing is owed any more, and its entries report
exactly what there is to report, whichever schedule was followed.
-/

namespace PackageRisk.Walk

open Relation

variable {a : Assessor} {root : Release} {seconds depth : Nat} {w : Responses}

/-! ## Collecting a task -/

section Collect

variable {taken : Taken} {before after : List Task} {t : Task} {outcome : TaskOutcome}
  {entries : List DependencyEntry} {next : List Release}

/-- What a task that does not owe it is not needed for is owed by the others. -/
theorem exists_task_of_collect {P : Task → Prop} (owed : ∃ u ∈ before ++ t :: after, P u)
    (free : ¬ P t) : ∃ u ∈ before ++ after, P u := by
  obtain ⟨u, hu, hP⟩ := owed
  rcases List.mem_append.mp hu with hu | hu
  · exact ⟨u, List.mem_append_left _ hu, hP⟩
  · rcases List.mem_cons.mp hu with rfl | hu
    · exact absurd hP free
    · exact ⟨u, List.mem_append_right _ hu, hP⟩

theorem mem_of_mem_collect {u : Task} (hu : u ∈ before ++ after) : u ∈ before ++ t :: after := by
  rcases List.mem_append.mp hu with hu | hu
  · exact List.mem_append_left _ hu
  · exact List.mem_append_right _ (List.mem_cons_of_mem _ hu)

theorem TakenInvariant.collect
    (inv : TakenInvariant a root depth taken (before ++ t :: after))
    (finished : t.phase = .finished outcome) :
    TakenInvariant a root depth taken (before ++ after) where
  asked := inv.asked
  requested := inv.requested
  owesRequest asks level := (inv.owesRequest asks level).imp_right fun owed =>
    exists_task_of_collect owed fun ⟨spawned, _⟩ => by simp [finished] at spawned
  reached := inv.reached
  rootTaken := inv.rootTaken
  resolved := inv.resolved
  owesRelease hp resolve := (inv.owesRelease hp resolve).imp_right fun owed =>
    exists_task_of_collect owed fun ⟨may, _⟩ => by simp [finished, Phase.mayReach] at may

/-- An entry that is collected is accounted for as it was when it was owed. -/
theorem account_collect {entry : DependencyEntry} (owed : t.owed = some (entryKey entry)) :
    (account (before ++ after) (entry :: entries)).Perm
      (account (before ++ t :: after) entries) := by
  refine .trans ?_ (account_perm t).symm
  rw [owed]
  exact List.perm_middle

theorem AccountInvariant.of_perm {tasks tasks' : List Task} {entries' : List DependencyEntry}
    (inv : AccountInvariant a seconds root taken tasks entries)
    (perm : (account tasks' entries').Perm (account tasks entries)) :
    AccountInvariant a seconds root taken tasks' entries' where
  distinct := perm.nodup_iff.mpr inv.distinct
  covered hk := inv.covered (perm.mem_iff.mp hk)
  complete covered due := perm.mem_iff.mpr (inv.complete covered due)

/-- A report may be added to the entries. -/
theorem FoundInvariant.report {tasks : List Task} {e : DependencyEntry}
    (inv : FoundInvariant a seconds root depth taken tasks entries next)
    (report : Reportable a seconds root depth e) :
    FoundInvariant a seconds root depth taken tasks (e :: entries) next where
  sound := inv.sound
  reportable := by
    intro f hf
    cases List.mem_cons.mp hf with
    | inl eq => exact eq ▸ report
    | inr hf => exact inv.reportable hf
  expandable := inv.expandable
  owesNext := inv.owesNext

/-- An expanded release at the distance of the level may be added to those to expand. -/
theorem FoundInvariant.expand {tasks : List Task} {r : Release}
    (inv : FoundInvariant a seconds root depth taken tasks entries next)
    (distance : Distance a root depth r) (expanded : Expanded a root r) :
    FoundInvariant a seconds root depth taken tasks entries (r :: next) where
  sound := inv.sound
  reportable := inv.reportable
  expandable := by
    intro r' hr'
    cases List.mem_cons.mp hr' with
    | inl eq => exact eq ▸ ⟨distance, expanded⟩
    | inr hr' => exact inv.expandable hr'
  owesNext distance' expanded' hr' :=
    (inv.owesNext distance' expanded' hr').imp_left (List.mem_cons_of_mem r)

/-- A task may be dropped once it owes no release to expand that is not there already. -/
theorem FoundInvariant.drop
    (inv : FoundInvariant a seconds root depth taken (before ++ t :: after) entries next)
    (provided : ∀ r, t.phase.mayExpand r → r ∈ next) :
    FoundInvariant a seconds root depth taken (before ++ after) entries next where
  sound ht := inv.sound (mem_of_mem_collect ht)
  reportable := inv.reportable
  expandable := inv.expandable
  owesNext {r} distance expanded hr := by
    by_cases there : r ∈ next
    · exact .inl there
    · apply (inv.owesNext distance expanded hr).imp_right
      intro owed
      exact exists_task_of_collect owed fun may => there (provided r may)

theorem LevelInvariant.collect {s : Scheduled} (inv : LevelInvariant a seconds root s)
    (tasks : s.tasks = before ++ t :: after) (finished : t.phase = .finished outcome) :
    LevelInvariant a seconds root (s.collect outcome (before ++ after)) := by
  obtain ⟨takenInv, found, accounts⟩ := inv
  rw [tasks] at takenInv found accounts
  have sound := (found.sound (t := t) (by simp)).2
  rw [finished] at sound
  have takenInv' := takenInv.collect finished
  cases outcome with
  | visited entry release =>
    obtain ⟨distance, expanded, report⟩ := sound
    refine ⟨takenInv', ((found.report report).expand distance expanded).drop ?_,
      accounts.of_perm (account_collect (by simp [Task.owed, finished]))⟩
    intro r may
    obtain rfl : release = r := by simpa [finished, Phase.mayExpand] using may
    exact List.mem_cons_self
  | unresolved entry =>
    refine ⟨takenInv', (found.report sound).drop ?_,
      accounts.of_perm (account_collect (by simp [Task.owed, finished]))⟩
    intro r may
    simp [finished, Phase.mayExpand] at may
  | alreadyVisited | crashed =>
    refine ⟨takenInv', found.drop ?_, accounts.of_perm ?_⟩
    · intro r may
      simp [finished, Phase.mayExpand] at may
    · have nothing : t.owed = none := by simp [Task.owed, finished]
      have perm : (t.owed.toList ++ Walk.account (before ++ after) s.entries).Perm
          (Walk.account (before ++ t :: after) s.entries) := (account_perm t).symm
      rwa [nothing] at perm

end Collect

/-! ## Beginning a level -/

section Descend

variable {s : Scheduled}

/-- The requests of the releases to expand. -/
def Scheduled.requests (s : Scheduled) : List DependencyRequest :=
  (s.next.reverse.mergeSort releaseLe).flatMap Release.requests

theorem Scheduled.mem_requests {request : DependencyRequest} :
    request ∈ s.requests ↔ ∃ r ∈ s.next, request ∈ r.requests := by
  simp [requests]

theorem Scheduled.mem_tasks_descend {t : Task} :
    t ∈ s.descend.tasks ↔ ∃ request, request ∈ s.requests ∧ t = { request } := by
  change t ∈ s.requests.map _ ↔ _
  simp [eq_comm]

theorem account_descend (entries : List DependencyEntry) :
    account s.descend.tasks entries = account [] entries := by
  have none : s.descend.tasks.filterMap Task.owed = [] := by
    apply List.filterMap_eq_nil_iff.mpr
    intro t ht
    obtain ⟨request, _, rfl⟩ := Scheduled.mem_tasks_descend.mp ht
    rfl
  rw [account, none]
  rfl

/-- With no task under way, every request down to the level is taken on. -/
theorem TakenInvariant.mem_requested {taken : Taken} (inv : TakenInvariant a root depth taken [])
    {n : Nat} {p : String × String} (asks : Asks a root n p.1 p.2) (near : n < depth) :
    p ∈ taken.requested := by
  by_cases level : n + 1 = depth
  · exact (inv.owesRequest asks level).resolve_right (by simp)
  · exact inv.requested asks (by omega)

/-- With no task under way, every release down to the level is taken on. -/
theorem TakenInvariant.mem_resolved {taken : Taken} (inv : TakenInvariant a root depth taken [])
    {n : Nat} {r : Release} (path : Reaches a root n r) (near : n ≤ depth) :
    r.ref ∈ taken.resolved := by
  cases path with
  | root => exact inv.rootTaken
  | @step m parent _ request path expanded asks resolve =>
    have hp : (request.name, request.spec) ∈ taken.requested :=
      inv.mem_requested ⟨parent, request.kind, path, expanded, asks⟩ (by omega)
    exact (inv.owesRelease hp resolve).resolve_right (by simp)

theorem LevelInvariant.descend (coherent : a.Coherent root)
    (inv : LevelInvariant a seconds root s) (tasks : s.tasks = []) :
    LevelInvariant a seconds root s.descend := by
  obtain ⟨takenInv, found, accounts⟩ := inv
  rw [tasks] at takenInv found accounts
  refine ⟨⟨?_, ?_, ?_, ?_, takenInv.rootTaken, ?_, ?_⟩, ⟨?_, ?_, ?_, ?_⟩, ?_⟩
  · intro p hp
    obtain ⟨n, near, asks⟩ := takenInv.asked hp
    exact ⟨n, Nat.lt_succ_of_lt near, asks⟩
  · intro n p asks near
    exact takenInv.mem_requested asks (Nat.lt_of_succ_lt_succ near)
  · intro n p asks level
    obtain ⟨m, r, kind, le, distance, expanded, asks'⟩ := asks.exists_distance coherent
    have le' : m ≤ s.depth := Nat.le_trans le (Nat.le_of_eq (Nat.succ.inj level))
    rcases Nat.lt_or_eq_of_le le' with near | rfl
    · exact .inl (takenInv.mem_requested ⟨r, kind, distance.1, expanded, asks'⟩ near)
    · have hr : r ∈ s.next := (found.owesNext distance expanded
        (takenInv.mem_resolved distance.1 (Nat.le_refl _))).resolve_right (by simp)
      refine .inr ⟨{ request := ⟨p.1, p.2, kind⟩ }, ?_, rfl, rfl⟩
      exact Scheduled.mem_tasks_descend.mpr ⟨_, Scheduled.mem_requests.mpr ⟨r, hr, asks'⟩, rfl⟩
  · intro q hq
    obtain ⟨n, near, r, path, ref⟩ := takenInv.reached hq
    exact ⟨n, Nat.le_succ_of_le near, r, path, ref⟩
  · intro n r path near
    exact takenInv.mem_resolved path (Nat.le_of_lt_succ near)
  · intro p r hp resolve
    exact .inl ((takenInv.owesRelease hp resolve).resolve_right (by simp))
  · intro t ht
    obtain ⟨request, hrequest, rfl⟩ := Scheduled.mem_tasks_descend.mp ht
    obtain ⟨r, hr, asks⟩ := Scheduled.mem_requests.mp hrequest
    obtain ⟨distance, expanded⟩ := found.expandable hr
    exact ⟨⟨s.depth, rfl, r, request.kind, distance.1, expanded, asks⟩, trivial⟩
  · exact fun he => (found.reportable he).mono (Nat.le_succ _)
  · simp
  · intro r distance expanded hr
    obtain ⟨n, near, r', path, ref⟩ := takenInv.reached hr
    exact absurd (distance.2 n r' path ref) (Nat.not_le.mpr (Nat.lt_succ_of_le near))
  · exact accounts.of_perm (.of_eq (account_descend s.entries))

end Descend

/-! ## Runs -/

theorem LevelInvariant.start (maxDepth maxConcurrency : Nat) :
    LevelInvariant a seconds root (.start root maxDepth maxConcurrency) := by
  refine ⟨⟨?_, ?_, ?_, ?_, List.mem_singleton_self _, ?_, ?_⟩, ⟨?_, ?_, ?_, ?_⟩, ⟨?_, ?_, ?_⟩⟩
  · simp [Scheduled.start]
  · intro n p _ near
    exact absurd near (Nat.not_lt_zero _)
  · intro n p _ level
    exact absurd level (Nat.succ_ne_zero n)
  · intro q hq
    obtain rfl : q = root.ref := by simpa [Scheduled.start] using hq
    exact ⟨0, Nat.le_refl 0, root, .root, rfl⟩
  · intro n r _ near
    exact absurd near (Nat.not_lt_zero n)
  · simp [Scheduled.start]
  · simp [Scheduled.start]
  · simp [Scheduled.start]
  · intro r hr
    obtain rfl : r = root := by simpa [Scheduled.start] using hr
    exact ⟨distance_root, .inl rfl⟩
  · intro r distance _ _
    exact .inl (by rw [distance.1.eq_root]; exact List.mem_singleton_self _)
  · exact List.nodup_nil
  · exact fun hk => absurd hk List.not_mem_nil
  · rintro ⟨isRelease, name, version⟩ covered
    cases isRelease <;> simp [Scheduled.start, Covers] at covered

/-- Every step keeps the invariant. -/
theorem LevelInvariant.step (coherent : a.Coherent root) (follow : w.Follow a)
    (completes : a.Completes) {s s' : Scheduled} (inv : LevelInvariant a seconds root s)
    (h : Step w seconds s s') : LevelInvariant a seconds root s' := by
  cases h with
  | @task before after t time shared phase tasks later step =>
    obtain ⟨takenInv, found, accounts⟩ := inv
    rw [tasks] at takenInv found accounts
    have move := step.move follow completes
    exact ⟨takenInv.move (found.sound (by simp)) move, found.move coherent takenInv move,
      accounts.move takenInv.rootTaken move⟩
  | collect tasks finished => exact inv.collect tasks finished
  | descend tasks _ _ => exact inv.descend coherent tasks

theorem LevelInvariant.of_run (coherent : a.Coherent root) (follow : w.Follow a)
    (completes : a.Completes) {maxDepth maxConcurrency : Nat} {s : Scheduled}
    (h : ReflTransGen (Step w seconds) (.start root maxDepth maxConcurrency) s) :
    LevelInvariant a seconds root s := by
  induction h with
  | refl => exact .start maxDepth maxConcurrency
  | tail _ step ih => exact ih.step coherent follow completes step

end PackageRisk.Walk
