import Mathlib.Data.List.Nodup
import PackageRisk.Proofs.Walk.Exactness

/-!
# Nothing is done twice

What holds of a walk whatever its lookups come to and whenever they end. A request is resolved
once at most and a package is assessed once at most, the root never; at most as many tasks as there
are permits are at their lookups; and every entry lies within the depth of the walk and is the only
one about its package, or about its request if that could not be resolved.

Each of these is about a list in which everything stands once and is covered by what is taken on.
A step of a task takes something off such a list, leaves it, or adds what was not covered before.
-/

namespace PackageRisk

/-- The request that a call resolves. -/
def WalkCall.request? : WalkCall → Option (String × String)
  | .resolve name spec => some (name, spec)
  | .assess _ => none

/-- The package that a call assesses. -/
def WalkCall.package? : WalkCall → Option PackageRef
  | .resolve _ _ => none
  | .assess package => some package

namespace Walk

open Relation

/-! ## Lists that account for what is taken on -/

/-- Everything in a list stands there once and is covered. -/
structure Accounted {κ : Type} (covered : κ → Prop) (l : List κ) : Prop where
  nodup : l.Nodup
  covered : ∀ k ∈ l, covered k

/-- The second list is part of the first one, or it has something more that becomes covered. -/
def Accrues {κ : Type} (covered covered' : κ → Prop) (l l' : List κ) : Prop :=
  l'.Sublist l ∨ ∃ k, l' = k :: l ∧ ¬ covered k ∧ covered' k

section Accounted

variable {κ : Type} {covered covered' : κ → Prop} {l l' others : List κ}

theorem Accounted.of_perm (h : Accounted covered l) (perm : l'.Perm l) : Accounted covered l' :=
  ⟨perm.nodup_iff.mpr h.nodup, fun k hk => h.covered k (perm.mem_iff.mp hk)⟩

theorem Accounted.accrue (h : Accounted covered (l ++ others))
    (mono : ∀ k, covered k → covered' k) (step : Accrues covered covered' l l') :
    Accounted covered' (l' ++ others) := by
  rcases step with part | ⟨k, rfl, new, now⟩
  · have part : (l' ++ others).Sublist (l ++ others) := part.append_right others
    exact ⟨part.nodup h.nodup, fun k hk => mono k (h.covered k (part.subset hk))⟩
  · refine ⟨List.nodup_cons.mpr ⟨fun hk => new (h.covered k hk), h.nodup⟩, ?_⟩
    exact List.forall_mem_cons.mpr ⟨now, fun k hk => mono k (h.covered k hk)⟩

end Accounted

/-! ## Steps of a task -/

variable {w : Responses} {seconds depth : Nat} {root : Release} {request : DependencyRequest}
  {s s' : Shared} {phase phase' : Phase} {before after : List Task}

/-- The request that a task has taken on and not yet begun to resolve. -/
def Task.pending (t : Task) : Option (String × String) :=
  match t.phase with
  | .waiting => some (requestKey t.request)
  | _ => none

/-- What is asked for, or about to be, by one task stands beside what the others are about to ask
for. -/
theorem requests_perm (calls : List WalkCall) (t : Task) :
    (calls.filterMap WalkCall.request? ++ (before ++ t :: after).filterMap Task.pending).Perm
      (t.pending.toList ++ calls.filterMap WalkCall.request? ++
        (before ++ after).filterMap Task.pending) := by
  refine ((filterMap_tasks_perm Task.pending t).append_left _).trans ?_
  rw [← List.append_assoc]
  exact List.perm_append_comm.append_right _

theorem TaskStep.requested_mono (h : TaskStep w seconds depth request s phase s' phase')
    {p : String × String} (hp : p ∈ s.taken.requested) : p ∈ s'.taken.requested := by
  cases h <;> simp [hp]

theorem TaskStep.resolved_mono (h : TaskStep w seconds depth request s phase s' phase')
    {p : PackageRef} (hp : p ∈ s.taken.resolved) : p ∈ s'.taken.resolved := by
  cases h <;> simp [hp]

/-- A request is resolved, or about to be, by the task that has taken it on. -/
theorem TaskStep.accrues_requests (h : TaskStep w seconds depth request s phase s' phase') :
    Accrues (· ∈ s.taken.requested) (· ∈ s'.taken.requested)
      ((Task.pending ⟨request, phase⟩).toList ++ s.calls.filterMap WalkCall.request?)
      ((Task.pending ⟨request, phase'⟩).toList ++ s'.calls.filterMap WalkCall.request?) := by
  cases h with
  | takeRequest free => exact .inr ⟨_, rfl, free, List.mem_cons_self⟩
  | _ => exact .inl (List.Sublist.refl _)

/-- A package is assessed by the task that has taken it on. -/
theorem TaskStep.accrues_packages (h : TaskStep w seconds depth request s phase s' phase')
    (rootTaken : root.ref ∈ s.taken.resolved) :
    Accrues (fun p => p ∈ s.taken.resolved ∧ p ≠ root.ref)
      (fun p => p ∈ s'.taken.resolved ∧ p ≠ root.ref)
      (s.calls.filterMap WalkCall.package?) (s'.calls.filterMap WalkCall.package?) := by
  cases h with
  | @takeRelease release free =>
    have other : release.ref ≠ root.ref := fun ref => free (ref ▸ rootTaken)
    exact .inr ⟨_, rfl, fun taken => free taken.1, List.mem_cons_self, other⟩
  | _ => exact .inl (List.Sublist.refl _)

/-- An entry is about what its task has taken on, whatever became of it. -/
theorem TaskStep.accrues_owed (h : TaskStep w seconds depth request s phase s' phase')
    (rootTaken : root.ref ∈ s.taken.resolved) :
    Accrues (Covers root s.taken) (Covers root s'.taken)
      (Task.owed ⟨request, phase⟩).toList (Task.owed ⟨request, phase'⟩).toList := by
  cases h with
  | takeRequest free => exact .inr ⟨_, rfl, free, List.mem_cons_self⟩
  | @takeRelease release free =>
    have other : release.ref ≠ root.ref := fun ref => free (ref ▸ rootTaken)
    exact .inr ⟨_, rfl, fun taken => free taken.1, List.mem_cons_self, other⟩
  | @assessed release begun l ended =>
    match l with
    | .done (.ok assessment) => exact .inl (List.Sublist.refl _)
    | .hangs => exact .inl (List.Sublist.refl _)
    | .done (.error failure) => exact .inl (List.nil_sublist _)
    | .crashes => exact .inl (List.nil_sublist _)
  | resolved | crashed => exact .inl (List.nil_sublist _)
  | skipRequest | acquire | unresolved | skipRelease => exact .inl (List.Sublist.refl _)

/-- A task leaves an entry for the level that it is on. -/
def Phase.Leaves (depth : Nat) : Phase → Prop
  | .finished (.visited entry _) | .finished (.unresolved entry) => entry.depth = depth
  | _ => True

theorem TaskStep.leaves (h : TaskStep w seconds depth request s phase s' phase') :
    phase'.Leaves depth := by
  cases h with
  | @assessed release begun l ended =>
    match l with
    | .done (.ok assessment) => exact rfl
    | .hangs => exact rfl
    | .done (.error failure) => trivial
    | .crashes => trivial
  | unresolved => exact rfl
  | _ => trivial

/-! ## The invariant -/

/-- What holds in every state of a walk: what is asked for, what is assessed and what the entries
are about stands once and is taken on, and entries are for the levels so far. -/
structure OnceInvariant (root : Release) (s : Scheduled) : Prop where
  rootTaken : root.ref ∈ s.taken.resolved
  requests : Accounted (· ∈ s.taken.requested)
    (s.calls.filterMap WalkCall.request? ++ s.tasks.filterMap Task.pending)
  packages : Accounted (fun p => p ∈ s.taken.resolved ∧ p ≠ root.ref)
    (s.calls.filterMap WalkCall.package?)
  entries : Accounted (Covers root s.taken) (account s.tasks s.entries)
  begun : s.tasks ≠ [] → 0 < s.depth
  leaves : ∀ t ∈ s.tasks, t.phase.Leaves s.depth
  depths : ∀ e ∈ s.entries, 0 < e.depth ∧ e.depth ≤ s.depth

theorem OnceInvariant.start (root : Release) (maxDepth maxConcurrency : Nat) :
    OnceInvariant root (.start root maxDepth maxConcurrency) where
  rootTaken := List.mem_singleton_self _
  requests := ⟨List.nodup_nil, fun _ hk => absurd hk List.not_mem_nil⟩
  packages := ⟨List.nodup_nil, fun _ hk => absurd hk List.not_mem_nil⟩
  entries := ⟨List.nodup_nil, fun _ hk => absurd hk List.not_mem_nil⟩
  begun h := absurd rfl h
  leaves _ ht := absurd ht List.not_mem_nil
  depths _ he := absurd he List.not_mem_nil

section Step

variable {s : Scheduled} {t : Task}

theorem OnceInvariant.task {shared : Shared} {phase : Phase} {time : Nat}
    (inv : OnceInvariant root s) (tasks : s.tasks = before ++ t :: after)
    (step : TaskStep w seconds s.depth t.request { s.toShared with now := time } t.phase shared
      phase) :
    OnceInvariant root (s.advance shared (before ++ { t with phase } :: after)) := by
  obtain ⟨rootTaken, requests, packages, entries, begun, leaves, depths⟩ := inv
  rw [tasks] at requests entries begun leaves
  have covers_mono : ∀ k, Covers root s.taken k → Covers root shared.taken k := by
    rintro ⟨isRelease, name, version⟩ covered
    cases isRelease with
    | false => exact step.requested_mono covered
    | true => exact ⟨step.resolved_mono covered.1, covered.2⟩
  refine ⟨step.resolved_mono rootTaken, ?_, ?_, ?_, fun _ => begun (by simp), ?_, depths⟩
  · have requests := (requests.of_perm (requests_perm s.calls t).symm).accrue
      (fun _ => step.requested_mono) step.accrues_requests
    exact requests.of_perm (requests_perm shared.calls { t with phase })
  · have packages := (packages.of_perm (.of_eq (List.append_nil _))).accrue
      (fun _ taken => ⟨step.resolved_mono taken.1, taken.2⟩) (step.accrues_packages rootTaken)
    rwa [List.append_nil] at packages
  · have entries := (entries.of_perm (account_perm t).symm).accrue covers_mono
      (step.accrues_owed rootTaken)
    exact entries.of_perm (account_perm { t with phase })
  · exact forall_task_of_step leaves step.leaves

theorem OnceInvariant.collect {outcome : TaskOutcome} (inv : OnceInvariant root s)
    (tasks : s.tasks = before ++ t :: after) (finished : t.phase = .finished outcome) :
    OnceInvariant root (s.collect outcome (before ++ after)) := by
  obtain ⟨rootTaken, requests, packages, entries, begun, leaves, depths⟩ := inv
  rw [tasks] at requests entries begun leaves
  have level : 0 < s.depth := begun (by simp)
  have pending : t.pending = none := by rw [Task.pending, finished]
  have requests := requests.of_perm (requests_perm s.calls t).symm
  rw [pending] at requests
  have leaves_others : ∀ u ∈ before ++ after, u.phase.Leaves s.depth :=
    fun u hu => leaves u (mem_of_mem_collect hu)
  have leaves_own : Phase.Leaves s.depth (.finished outcome) := finished ▸ leaves t (by simp)
  have depths_cons {entry : DependencyEntry} (own : entry.depth = s.depth) :
      ∀ e ∈ entry :: s.entries, 0 < e.depth ∧ e.depth ≤ s.depth :=
    List.forall_mem_cons.mpr ⟨⟨Nat.lt_of_lt_of_eq level own.symm, Nat.le_of_eq own⟩, depths⟩
  cases outcome with
  | visited entry release =>
    exact ⟨rootTaken, requests, packages,
      entries.of_perm (account_collect (by simp [Task.owed, finished])), fun _ => level,
      leaves_others, depths_cons leaves_own⟩
  | unresolved entry =>
    exact ⟨rootTaken, requests, packages,
      entries.of_perm (account_collect (by simp [Task.owed, finished])), fun _ => level,
      leaves_others, depths_cons leaves_own⟩
  | alreadyVisited | crashed =>
    have owed : t.owed = none := by simp [Task.owed, finished]
    have entries := entries.of_perm (account_perm t).symm
    rw [owed] at entries
    exact ⟨rootTaken, requests, packages, entries, fun _ => level, leaves_others, depths⟩

theorem OnceInvariant.descend (inv : OnceInvariant root s) (tasks : s.tasks = []) :
    OnceInvariant root s.descend := by
  obtain ⟨rootTaken, requests, packages, entries, begun, leaves, depths⟩ := inv
  rw [tasks] at requests entries
  have spawned : ∀ t ∈ s.descend.tasks, t.phase = .spawned := by
    intro t ht
    obtain ⟨request, _, rfl⟩ := Scheduled.mem_tasks_descend.mp ht
    rfl
  have pending : s.descend.tasks.filterMap Task.pending = [] :=
    List.filterMap_eq_nil_iff.mpr fun t ht => by rw [Task.pending, spawned t ht]
  refine ⟨rootTaken, ?_, packages, ?_, fun _ => Nat.succ_pos _, ?_, ?_⟩
  · rw [pending]
    exact requests
  · exact entries.of_perm (.of_eq (account_descend s.entries))
  · intro t ht
    rw [spawned t ht]
    trivial
  · exact fun e he => ⟨(depths e he).1, Nat.le_succ_of_le (depths e he).2⟩

theorem OnceInvariant.step {s' : Scheduled} (inv : OnceInvariant root s)
    (h : Step w seconds s s') : OnceInvariant root s' := by
  cases h with
  | task tasks _ step => exact inv.task tasks step
  | collect tasks finished => exact inv.collect tasks finished
  | descend tasks _ _ => exact inv.descend tasks

theorem OnceInvariant.of_run {maxDepth maxConcurrency : Nat}
    (h : ReflTransGen (Step w seconds) (.start root maxDepth maxConcurrency) s) :
    OnceInvariant root s := by
  induction h with
  | refl => exact .start root maxDepth maxConcurrency
  | tail _ step ih => exact ih.step step

end Step

/-! ## Calls and entries -/

section Counts

variable {α κ : Type} {l : List α}

/-- What is listed by a key, each key once, is listed once. -/
theorem count_le_one_of_nodup_filterMap [BEq α] [LawfulBEq α] {f : α → Option κ} {a : α} {k : κ}
    (nodup : (l.filterMap f).Nodup) (key : f a = some k) : l.count a ≤ 1 := by
  classical
  calc l.count a ≤ l.countP fun b => f b == some k :=
        List.countP_mono_left fun b _ same => by rw [eq_of_beq same, key]; exact beq_self_eq_true _
    _ = (l.filterMap f).count k := (List.count_filterMap ..).symm
    _ ≤ 1 := List.nodup_iff_count_le_one.mp nodup k

/-- Elements that differ in one key differ in any key that determines it. -/
theorem nodup_map_of_determines {β : Type} {f : α → κ} {g : α → β} (nodup : (l.map f).Nodup)
    (determines : ∀ a ∈ l, ∀ b ∈ l, g a = g b → f a = f b) : (l.map g).Nodup := by
  rw [List.Nodup, List.pairwise_map] at nodup ⊢
  exact nodup.imp_of_mem fun ha hb different same => different (determines _ ha _ hb same)

end Counts

/-- What is promised of every state of a walk, whatever became of its lookups. -/
structure DoneOnce (root : Release) (maxDepth maxConcurrency : Nat) (s : Scheduled) : Prop where
  resolve : ∀ name spec, s.calls.count (.resolve name spec) ≤ 1
  assess : ∀ package, s.calls.count (.assess package) ≤ 1
  rootApart : .assess root.ref ∉ s.calls
  concurrency : s.holders ≤ max 1 maxConcurrency
  depth : ∀ e ∈ s.result, 1 ≤ e.depth ∧ e.depth ≤ maxDepth
  packages : ((s.result.filter (·.latest.isSome)).map fun e =>
    PackageRef.mk e.name e.version).Nodup
  otherPackages : ∀ e ∈ s.result, e.latest.isSome = true → PackageRef.mk e.name e.version ≠ root.ref
  requests : ((s.result.filter (·.latest.isNone)).map fun e => (e.name, e.version)).Nodup

/-- In every state that a scheduler can lead a walk to, whatever its lookups come to, each request
has been resolved once at most, each package has been assessed once at most and the root never, no
more tasks hold a permit than there are permits, and entries lie within the depth of the walk, one
for each package other than the root and one for each request that could not be resolved. -/
theorem doneOnce_of_run (w : Responses) (seconds maxDepth maxConcurrency : Nat) (root : Release)
    (s : Scheduled) (run : ReflTransGen (Step w seconds) (.start root maxDepth maxConcurrency) s) :
    DoneOnce root maxDepth maxConcurrency s := by
  have inv := OnceInvariant.of_run run
  have mem_result {e : DependencyEntry} : e ∈ s.result ↔ e ∈ s.entries := s.result_perm.mem_iff
  have keys : (s.result.map entryKey).Nodup :=
    (s.result_perm.map entryKey).nodup_iff.mpr (List.nodup_append.mp inv.entries.nodup).2.1
  have keys_filter (p : DependencyEntry → Bool) : ((s.result.filter p).map entryKey).Nodup :=
    (List.filter_sublist.map entryKey).nodup keys
  exact {
    resolve name spec :=
      count_le_one_of_nodup_filterMap (List.nodup_append.mp inv.requests.nodup).1 rfl
    assess package := count_le_one_of_nodup_filterMap inv.packages.nodup rfl
    rootApart called :=
      (inv.packages.covered root.ref (List.mem_filterMap.mpr ⟨_, called, rfl⟩)).2 rfl
    concurrency := by
      have permits := permits_of_run run
      omega
    depth e he := by
      have depths := inv.depths e (mem_result.mp he)
      have levels := depth_add_remaining run
      omega
    packages := nodup_map_of_determines (keys_filter _) fun e he f hf same => by
      obtain ⟨name, version⟩ := PackageRef.mk.inj same
      rw [entryKey, entryKey, (List.mem_filter.mp he).2, (List.mem_filter.mp hf).2, name, version]
    otherPackages e he resolved := by
      have covered := inv.entries.covered (entryKey e)
        (List.mem_append_right _ (List.mem_map_of_mem (mem_result.mp he)))
      rw [entryKey, resolved] at covered
      exact covered.2
    requests := nodup_map_of_determines (keys_filter _) fun e he f hf same => by
      obtain ⟨name, version⟩ := Prod.mk.inj same
      have he := Option.isSome_eq_false_iff.mpr (List.mem_filter.mp he).2
      have hf := Option.isSome_eq_false_iff.mpr (List.mem_filter.mp hf).2
      rw [entryKey, entryKey, he, hf, name, version] }

open TimedAssessor in
/-- A finished walk over the small graph, with two permits. -/
theorem doneOnce_small : ∃ s,
    ReflTransGen (Step (small.responses 30000000000) 30) (.start (smallRelease "app") 3 2) s ∧
      s.Finished ∧ DoneOnce (smallRelease "app") 3 2 s := by
  obtain ⟨s, run, finished, -⟩ := exists_run_ofRelease 30 (responses_live small_avoids)
    (responses_follow small_avoids) (smallRelease "app") 3 2
  exact ⟨s, run, finished, doneOnce_of_run _ 30 3 2 (smallRelease "app") s run⟩

end Walk

end PackageRisk
