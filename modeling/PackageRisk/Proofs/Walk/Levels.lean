import PackageRisk.Dependency.Schedule
import PackageRisk.Proofs.Walk.Distances

/-!
# What holds on every level of a walk

The invariant of a walk whose lookups follow an assessor. On level `k` everything taken on is
asked for or reached within `k` steps; everything that lies nearer is taken on already; and
whatever the level owes, a request to take on, a release to take on, an entry or a release to
expand, is either there or owed by a task that is still under way. When the last task is
collected nothing is owed any more, and the next level may begin.
-/

namespace PackageRisk.Walk

/-- The lookups of a walk come to what an assessor says. -/
structure Responses.Follow (w : Responses) (a : Assessor) : Prop where
  resolve : ∀ {name spec begun ended l}, w.resolve name spec begun ended l →
    l = a.resolve name spec
  assess : ∀ {release begun ended l}, w.assess release begun ended l → l = a.assess release

end Walk

/-- No lookup crashes, and an assessment does not fail. -/
structure Assessor.Completes (a : Assessor) : Prop where
  resolve : ∀ name spec, a.resolve name spec ≠ .crashes
  assess : ∀ r, a.assess r = .hangs ∨ ∃ assessment, a.assess r = .done (.ok assessment)

namespace Walk

variable {a : Assessor} {root : Release} {seconds depth : Nat} {w : Responses}

/-- The name and declared version of a request. -/
def requestKey (request : DependencyRequest) : String × String :=
  (request.name, request.spec)

/-- One step of a task, as far as it bears on what is taken on, when lookups follow an assessor. -/
inductive Move (a : Assessor) (seconds depth : Nat) (request : DependencyRequest) :
    Taken → Phase → Taken → Phase → Prop
  | skipRequest {taken : Taken} (old : requestKey request ∈ taken.requested) :
      Move a seconds depth request taken .spawned taken (.finished .alreadyVisited)
  | takeRequest {taken : Taken} (new : requestKey request ∉ taken.requested) :
      Move a seconds depth request taken .spawned
        { taken with requested := requestKey request :: taken.requested } .waiting
  | acquire {taken : Taken} {begun : Nat} :
      Move a seconds depth request taken .waiting taken (.resolving begun)
  | resolved {taken : Taken} {begun : Nat} {release : Release}
      (resolve : a.resolve request.name request.spec = .done (.ok release)) :
      Move a seconds depth request taken (.resolving begun) taken (.resolved release)
  | unresolved {taken : Taken} {begun : Nat} {failure : Failure}
      (resolve : (a.resolve request.name request.spec).within seconds
        (resolving request.name request.spec) = .done (.error failure)) :
      Move a seconds depth request taken (.resolving begun) taken
        (.finished (.unresolved (unresolvedEntry request depth failure)))
  | skipRelease {taken : Taken} {release : Release} (old : release.ref ∈ taken.resolved) :
      Move a seconds depth request taken (.resolved release) taken (.finished .alreadyVisited)
  | takeRelease {taken : Taken} {release : Release} {begun : Nat}
      (new : release.ref ∉ taken.resolved) :
      Move a seconds depth request taken (.resolved release)
        { taken with resolved := release.ref :: taken.resolved } (.assessing release begun)
  | assessed {taken : Taken} {release : Release} {begun : Nat} {assessment : Assessment}
      (assess : a.assess release = .done (.ok assessment)) :
      Move a seconds depth request taken (.assessing release begun) taken
        (.finished (.visited (assessedEntry request depth release assessment) release))
  | unassessed {taken : Taken} {release : Release} {begun : Nat}
      (assess : a.assess release = .hangs) :
      Move a seconds depth request taken (.assessing release begun) taken
        (.finished (.unresolved (unassessedEntry request depth seconds release)))

/-- Time, permits and calls do not bear on where a task goes. -/
theorem TaskStep.move (follow : w.Follow a) (completes : a.Completes)
    {request : DependencyRequest} {s s' : Shared} {phase phase' : Phase}
    (h : TaskStep w seconds depth request s phase s' phase') :
    Move a seconds depth request s.taken phase s'.taken phase' := by
  cases h with
  | skipRequest taken => exact .skipRequest taken
  | takeRequest free => exact .takeRequest free
  | acquire => exact .acquire
  | resolved ended => exact .resolved (follow.resolve ended).symm
  | unresolved ended failed => exact .unresolved (follow.resolve ended ▸ failed)
  | crashed ended => exact absurd (follow.resolve ended).symm (completes.resolve _ _)
  | skipRelease taken => exact .skipRelease taken
  | takeRelease free => exact .takeRelease free
  | @assessed release _ _ ended =>
    obtain rfl := follow.assess ended
    rcases completes.assess release with h | ⟨assessment, h⟩
    · rw [h]
      exact .unassessed h
    · rw [h]
      exact .assessed h

/-! ## What tasks owe -/

/-- The task may still turn out to lead to a release. -/
def Phase.mayReach (r : Release) : Phase → Prop
  | waiting | resolving _ => True
  | resolved release => release = r
  | spawned | assessing _ _ | finished _ => False

/-- The task may still leave a release to expand. -/
def Phase.mayExpand (r : Release) : Phase → Prop
  | assessing release _ | finished (.visited _ release) => release = r
  | _ => False

/-- What the entry is about that a task may still leave. -/
def Task.owed (t : Task) : Option (Bool × String × String) :=
  match t.phase with
  | .waiting | .resolving _ => some (false, requestKey t.request)
  | .assessing release _ => some (true, release.name, release.version)
  | .finished (.visited entry _) | .finished (.unresolved entry) => some (entryKey entry)
  | .spawned | .resolved _ | .finished .alreadyVisited | .finished .crashed => none

/-- What the entries are about that are there or owed. -/
def account (tasks : List Task) (entries : List DependencyEntry) :
    List (Bool × String × String) :=
  tasks.filterMap Task.owed ++ entries.map entryKey

/-- What an entry may be about: a request or a release that is taken on, other than the root. -/
def Covers (root : Release) (taken : Taken) : Bool × String × String → Prop
  | (false, request) => request ∈ taken.requested
  | (true, name, version) => ⟨name, version⟩ ∈ taken.resolved ∧ ⟨name, version⟩ ≠ root.ref

/-- There has to be an entry for every release, and for a request that cannot be resolved. -/
def Due (a : Assessor) (seconds : Nat) : Bool × String × String → Prop
  | (false, name, spec) => ∃ failure,
    (a.resolve name spec).within seconds (resolving name spec) = .done (.error failure)
  | (true, _, _) => True

/-! ## The invariant -/

/-- What is taken on, against the distances in the graph. -/
structure TakenInvariant (a : Assessor) (root : Release) (depth : Nat) (taken : Taken)
    (tasks : List Task) : Prop where
  asked : ∀ {p}, p ∈ taken.requested → ∃ n < depth, Asks a root n p.1 p.2
  requested : ∀ {n p}, Asks a root n p.1 p.2 → n + 1 < depth → p ∈ taken.requested
  owesRequest : ∀ {n p}, Asks a root n p.1 p.2 → n + 1 = depth →
    p ∈ taken.requested ∨ ∃ t ∈ tasks, t.phase = .spawned ∧ requestKey t.request = p
  reached : ∀ {q}, q ∈ taken.resolved → ∃ n ≤ depth, ∃ r, Reaches a root n r ∧ r.ref = q
  rootTaken : root.ref ∈ taken.resolved
  resolved : ∀ {n r}, Reaches a root n r → n < depth → r.ref ∈ taken.resolved
  owesRelease : ∀ {p r}, p ∈ taken.requested → a.resolve p.1 p.2 = .done (.ok r) →
    r.ref ∈ taken.resolved ∨ ∃ t ∈ tasks, t.phase.mayReach r ∧ requestKey t.request = p

/-- A task pursues a request of the level, and what it has found is right. -/
def Task.Sound (a : Assessor) (seconds : Nat) (root : Release) (depth : Nat) (t : Task) : Prop :=
  (∃ n, n + 1 = depth ∧ Asks a root n t.request.name t.request.spec) ∧
    match t.phase with
    | .waiting | .resolving _ => ∃ n, n + 1 = depth ∧ AskedAt a root n t.request.name t.request.spec
    | .resolved release => a.resolve t.request.name t.request.spec = .done (.ok release)
    | .assessing release _ => Distance a root depth release
    | .finished (.visited entry release) =>
      Distance a root depth release ∧ Expanded a root release ∧
        Reportable a seconds root depth entry
    | .finished (.unresolved entry) => Reportable a seconds root depth entry
    | .spawned | .finished .alreadyVisited | .finished .crashed => True

/-- What has been found, against what there is to report and to expand. -/
structure FoundInvariant (a : Assessor) (seconds : Nat) (root : Release) (depth : Nat)
    (taken : Taken) (tasks : List Task) (entries : List DependencyEntry) (next : List Release) :
    Prop where
  sound : ∀ {t : Task}, t ∈ tasks → t.Sound a seconds root depth
  reportable : ∀ {e}, e ∈ entries → Reportable a seconds root depth e
  expandable : ∀ {r}, r ∈ next → Distance a root depth r ∧ Expanded a root r
  owesNext : ∀ {r}, Distance a root depth r → Expanded a root r → r.ref ∈ taken.resolved →
    r ∈ next ∨ ∃ t ∈ tasks, t.phase.mayExpand r

/-- Every entry that is there or owed is so once, and nothing that is taken on is without one. -/
structure AccountInvariant (a : Assessor) (seconds : Nat) (root : Release) (taken : Taken)
    (tasks : List Task) (entries : List DependencyEntry) : Prop where
  distinct : (account tasks entries).Nodup
  covered : ∀ {k}, k ∈ account tasks entries → Covers root taken k
  complete : ∀ {k}, Covers root taken k → Due a seconds k → k ∈ account tasks entries

/-- The invariant of a walk. -/
structure LevelInvariant (a : Assessor) (seconds : Nat) (root : Release) (s : Scheduled) :
    Prop where
  taken : TakenInvariant a root s.depth s.taken s.tasks
  found : FoundInvariant a seconds root s.depth s.taken s.tasks s.entries s.next
  account : AccountInvariant a seconds root s.taken s.tasks s.entries

/-! ## Steps of a task -/

section Move

variable {request : DependencyRequest} {taken taken' : Taken} {phase phase' : Phase}
  {before after : List Task} {entries : List DependencyEntry} {next : List Release}

theorem Move.requested_mono (h : Move a seconds depth request taken phase taken' phase')
    {p : String × String} (hp : p ∈ taken.requested) : p ∈ taken'.requested := by
  cases h <;> simp [hp]

theorem Move.resolved_mono (h : Move a seconds depth request taken phase taken' phase')
    {q : PackageRef} (hq : q ∈ taken.resolved) : q ∈ taken'.resolved := by
  cases h <;> simp [hq]

/-- What some task owes is owed still after a step of one task, or the step has provided it. -/
theorem exists_task_of_step {P : Task → Prop} {Q : Prop} {t t' : Task}
    (owed : ∃ u ∈ before ++ t :: after, P u) (step : P t → Q ∨ P t') :
    Q ∨ ∃ u ∈ before ++ t' :: after, P u := by
  obtain ⟨u, hu, hP⟩ := owed
  rcases List.mem_append.mp hu with hu | hu
  · exact .inr ⟨u, List.mem_append_left _ hu, hP⟩
  · rcases List.mem_cons.mp hu with rfl | hu
    · exact (step hP).imp_right fun hP' => ⟨t', by simp, hP'⟩
    · exact .inr ⟨u, by simp [hu], hP⟩

/-- What holds of all tasks holds of them still after a step of one of them, if it holds of that
one. -/
theorem forall_task_of_step {P : Task → Prop} {t t' : Task} (all : ∀ u ∈ before ++ t :: after, P u)
    (own : P t') : ∀ u ∈ before ++ t' :: after, P u := by
  rw [List.forall_mem_append, List.forall_mem_cons] at all ⊢
  exact ⟨all.1, own, all.2.2⟩

/-- The level's requests lead one level down. -/
theorem Asks.reaches {n : Nat} {name spec : String} {r : Release} (h : Asks a root n name spec)
    (resolve : a.resolve name spec = .done (.ok r)) : Reaches a root (n + 1) r := by
  obtain ⟨parent, kind, path, expanded, asks⟩ := h
  exact .step path expanded asks resolve

theorem TakenInvariant.move
    (inv : TakenInvariant a root depth taken (before ++ ⟨request, phase⟩ :: after))
    (sound : Task.Sound a seconds root depth ⟨request, phase⟩)
    (move : Move a seconds depth request taken phase taken' phase') :
    TakenInvariant a root depth taken' (before ++ ⟨request, phase'⟩ :: after) where
  asked {p} hp := by
    by_cases old : p ∈ taken.requested
    · exact inv.asked old
    · -- Only the request of the task itself can be new.
      obtain rfl : p = requestKey request := by
        cases move <;> simp_all
      obtain ⟨n, hn, asks⟩ := sound.1
      exact ⟨n, by omega, asks⟩
  requested asks near := move.requested_mono (inv.requested asks near)
  owesRequest {n p} asks level := by
    rcases inv.owesRequest asks level with hp | owed
    · exact .inl (move.requested_mono hp)
    · refine exists_task_of_step owed fun ⟨spawned, key⟩ => .inl ?_
      cases spawned
      subst key
      cases move with
      | skipRequest old => exact old
      | takeRequest new => exact List.mem_cons_self
  reached {q} hq := by
    by_cases old : q ∈ taken.resolved
    · exact inv.reached old
    · obtain ⟨n, hn, asks⟩ := sound.1
      cases move with
      | @takeRelease release _ new =>
        obtain rfl : q = release.ref := by simp_all
        exact ⟨n + 1, by omega, release, asks.reaches sound.2, rfl⟩
      | _ => exact absurd hq old
  rootTaken := move.resolved_mono inv.rootTaken
  resolved path near := move.resolved_mono (inv.resolved path near)
  owesRelease {p r} hp resolve := by
    by_cases old : p ∈ taken.requested
    · rcases inv.owesRelease old resolve with hr | owed
      · exact .inl (move.resolved_mono hr)
      · apply exists_task_of_step owed
        rintro ⟨may, key⟩
        subst key
        cases move with
        | skipRequest | takeRequest | assessed | unassessed => exact may.elim
        | acquire => exact .inr ⟨trivial, rfl⟩
        | resolved resolve' =>
          refine .inr ⟨?_, rfl⟩
          change a.resolve request.name request.spec = _ at resolve
          rw [resolve'] at resolve
          cases resolve
          rfl
        | unresolved resolve' =>
          change a.resolve request.name request.spec = _ at resolve
          rw [resolve] at resolve'
          cases resolve'
        | skipRelease known =>
          cases may
          exact .inl known
        | takeRelease new =>
          cases may
          exact .inl List.mem_cons_self
    · cases move with
      | takeRequest new =>
        obtain rfl : p = requestKey request := by simp_all
        exact .inr ⟨⟨request, .waiting⟩, by simp, trivial, rfl⟩
      | _ => exact absurd hp old

/-- A task keeps to the request of the level, and what it finds is right: a request that is new
was not asked for on an earlier level, and a release that is new was not reached there. -/
theorem Task.Sound.move
    (inv : TakenInvariant a root depth taken (before ++ ⟨request, phase⟩ :: after))
    (sound : Task.Sound a seconds root depth ⟨request, phase⟩)
    (move : Move a seconds depth request taken phase taken' phase') :
    Task.Sound a seconds root depth ⟨request, phase'⟩ := by
  obtain ⟨n, level, asks⟩ := sound.1
  refine ⟨sound.1, ?_⟩
  cases move with
  | skipRequest | skipRelease => trivial
  | takeRequest new =>
    refine ⟨n, level, asks, fun m earlier => Nat.not_lt.mp fun less => new ?_⟩
    exact inv.requested (p := requestKey request) earlier (by omega)
  | acquire => exact sound.2
  | resolved resolve => exact resolve
  | unresolved resolve =>
    obtain ⟨m, hm, asked⟩ := sound.2
    obtain rfl : m + 1 = depth := hm
    exact .unresolved asked (Nat.lt_succ_self m) resolve
  | @takeRelease release _ new =>
    have path : Reaches a root (n + 1) release := asks.reaches sound.2
    refine ⟨level ▸ path, fun m other earlier ref => Nat.not_lt.mp fun less => new ?_⟩
    exact ref ▸ inv.resolved earlier less
  | assessed assess =>
    have distance : Distance a root depth _ := sound.2
    refine ⟨distance, .inr ⟨_, assess⟩, ?_⟩
    exact .assessed distance (Nat.le_refl depth) (distance.ref_ne_root (by omega)) assess
  | unassessed assess =>
    have distance : Distance a root depth _ := sound.2
    exact .unassessed distance (Nat.le_refl depth) (distance.ref_ne_root (by omega)) assess

theorem FoundInvariant.move (coherent : a.Coherent root)
    (takenInv : TakenInvariant a root depth taken (before ++ ⟨request, phase⟩ :: after))
    (inv : FoundInvariant a seconds root depth taken (before ++ ⟨request, phase⟩ :: after) entries
      next)
    (move : Move a seconds depth request taken phase taken' phase') :
    FoundInvariant a seconds root depth taken' (before ++ ⟨request, phase'⟩ :: after) entries
      next where
  sound {t} ht :=
    have own := (inv.sound (by simp)).move takenInv move
    forall_task_of_step (fun _ hu => inv.sound hu) own t ht
  reportable := inv.reportable
  expandable := inv.expandable
  owesNext {r} distance expanded hr := by
    obtain ⟨n, level, _⟩ := (inv.sound (t := ⟨request, phase⟩) (by simp)).1
    by_cases old : r.ref ∈ taken.resolved
    · rcases inv.owesNext distance expanded old with hr | owed
      · exact .inl hr
      · apply exists_task_of_step owed
        intro may
        cases move with
        | assessed => exact .inr may
        | unassessed assess =>
          -- A release whose assessment was stopped is not expanded.
          obtain rfl : _ = r := may
          rcases expanded with ref | ⟨assessment, h⟩
          · exact absurd ref (distance.ref_ne_root (by omega))
          · rw [assess] at h
            cases h
        | _ => exact may.elim
    · cases move with
      | @takeRelease release _ new =>
        have sound := inv.sound (t := ⟨request, .resolved release⟩) (by simp)
        have path : Reaches a root (n + 1) release := Asks.reaches ‹_› sound.2
        have ref : release.ref = r.ref := by simp_all
        exact .inr ⟨_, List.mem_append_right _ List.mem_cons_self,
          path.eq_of_ref_eq coherent distance.1 ref⟩
      | _ => exact absurd hr old

/-! ### Entries -/

/-- What one task adds to a list stands beside what the others add. -/
theorem filterMap_tasks_perm {κ : Type} (f : Task → Option κ) (t : Task) :
    ((before ++ t :: after).filterMap f).Perm ((f t).toList ++ (before ++ after).filterMap f) := by
  have head : (t :: (before ++ after)).filterMap f =
      (f t).toList ++ (before ++ after).filterMap f := by
    cases h : f t <;> simp [h]
  exact head ▸ List.perm_middle.filterMap f

/-- What is there or owed is owed by one task, or it is there or owed by the others. -/
theorem account_perm (t : Task) :
    (account (before ++ t :: after) entries).Perm
      (t.owed.toList ++ account (before ++ after) entries) := by
  rw [account, account, ← List.append_assoc]
  exact (filterMap_tasks_perm Task.owed t).append_right _

theorem mem_account {t : Task} {k : Bool × String × String} :
    k ∈ account (before ++ t :: after) entries ↔
      t.owed = some k ∨ k ∈ account (before ++ after) entries := by
  rw [(account_perm t).mem_iff, List.mem_append, Option.mem_toList]

theorem Move.covers_mono (h : Move a seconds depth request taken phase taken' phase')
    {k : Bool × String × String} (hk : Covers root taken k) : Covers root taken' k := by
  obtain ⟨isRelease, name, version⟩ := k
  cases isRelease with
  | false => exact h.requested_mono hk
  | true => exact ⟨h.resolved_mono hk.1, hk.2⟩

/-- A step leaves a task what it owes, or frees it of a request that was resolved, or makes it owe
an entry about what it has just taken on. -/
theorem Move.owed (rootTaken : root.ref ∈ taken.resolved)
    (h : Move a seconds depth request taken phase taken' phase') :
    (taken' = taken ∧ Task.owed ⟨request, phase'⟩ = Task.owed ⟨request, phase⟩) ∨
    (taken' = taken ∧ Task.owed ⟨request, phase'⟩ = none ∧
      ∀ k, Task.owed ⟨request, phase⟩ = some k → ¬ Due a seconds k) ∨
    ∃ k, Task.owed ⟨request, phase⟩ = none ∧ Task.owed ⟨request, phase'⟩ = some k ∧
      ¬ Covers root taken k ∧ Covers root taken' k ∧
      ∀ k', Covers root taken' k' → k' = k ∨ Covers root taken k' := by
  cases h with
  | skipRequest | acquire | unresolved | skipRelease | assessed | unassessed =>
    exact .inl ⟨rfl, rfl⟩
  | takeRequest new =>
    refine .inr (.inr ⟨(false, requestKey request), rfl, rfl, new, List.mem_cons_self, ?_⟩)
    rintro ⟨isRelease, name, version⟩ covered
    cases isRelease with
    | false =>
      exact (List.mem_cons.mp covered).imp_left fun key => by rw [key]
    | true => exact .inr covered
  | resolved resolve =>
    refine .inr (.inl ⟨rfl, rfl, fun k owed due => ?_⟩)
    obtain rfl : (false, requestKey request) = k := Option.some.inj owed
    obtain ⟨failure, failed⟩ := due
    rw [resolve] at failed
    cases failed
  | @takeRelease release _ new =>
    have other : release.ref ≠ root.ref := fun ref => new (ref ▸ rootTaken)
    refine .inr (.inr ⟨(true, release.name, release.version), rfl, rfl,
      fun covered => new covered.1, ⟨List.mem_cons_self, other⟩, ?_⟩)
    rintro ⟨isRelease, name, version⟩ covered
    cases isRelease with
    | false => exact .inr covered
    | true =>
      rcases List.mem_cons.mp covered.1 with ref | old
      · cases ref
        exact .inl rfl
      · exact .inr ⟨old, covered.2⟩

theorem AccountInvariant.move (rootTaken : root.ref ∈ taken.resolved)
    (inv : AccountInvariant a seconds root taken (before ++ ⟨request, phase⟩ :: after) entries)
    (move : Move a seconds depth request taken phase taken' phase') :
    AccountInvariant a seconds root taken' (before ++ ⟨request, phase'⟩ :: after) entries := by
  have distinct := (account_perm ⟨request, phase⟩).nodup_iff.mp inv.distinct
  rcases move.owed rootTaken with ⟨rfl, owed⟩ | ⟨rfl, owed', owed⟩ |
    ⟨k, owed, owed', new, covered, others⟩
  · -- The task owes what it owed.
    refine ⟨?_, fun hk => inv.covered ?_, fun covered due => ?_⟩
    · rw [(account_perm _).nodup_iff, owed]
      exact distinct
    · rwa [mem_account, ← owed, ← mem_account]
    · rw [mem_account, owed, ← mem_account]
      exact inv.complete covered due
  · -- The task owes nothing any more, and nothing was due.
    refine ⟨?_, fun hk => inv.covered ?_, fun covered due => ?_⟩
    · rw [(account_perm _).nodup_iff, owed']
      exact (List.nodup_append.mp distinct).2.1
    · rw [mem_account, owed'] at hk
      exact mem_account.mpr (.inr (hk.resolve_left (by simp)))
    · rcases mem_account.mp (inv.complete covered due) with h | h
      · exact absurd due (owed _ h)
      · exact mem_account.mpr (.inr h)
  · -- The task owes an entry about something new.
    have old : ∀ {k'}, k' ∈ account (before ++ after) entries → Covers root taken k' := fun h =>
      inv.covered (mem_account.mpr (.inr h))
    refine ⟨?_, fun hk => ?_, fun {k'} covered' due => ?_⟩
    · rw [(account_perm _).nodup_iff, owed']
      rw [owed] at distinct
      exact List.nodup_cons.mpr ⟨fun h => new (old h), distinct⟩
    · rcases mem_account.mp hk with h | h
      · rw [owed'] at h
        cases h
        exact covered
      · exact move.covers_mono (old h)
    · rcases others k' covered' with rfl | h
      · exact mem_account.mpr (.inl owed')
      · refine mem_account.mpr (.inr ?_)
        rcases mem_account.mp (inv.complete h due) with h | h
        · rw [owed] at h
          cases h
        · exact h

end Move

end PackageRisk.Walk
