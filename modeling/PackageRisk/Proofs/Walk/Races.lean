import Mathlib.Data.List.Nodup
import PackageRisk.Proofs.Walk.Exactness

/-!
# Races between requests

Requests made at the same distance from the root are visited side by side. When several lead to the
same package, or to entries that the order of the result does not tell apart, the one that is taken
on first decides what the entry says, or which entry comes first. Every entry of a walk is traced to
such a request; so without races there is one way only to list what there is to report.
-/

namespace PackageRisk.Walk

open Relation

variable {a : Assessor} {root : Release} {seconds maxDepth depth n : Nat} {w : Responses}
  {request request' : DependencyRequest} {e e' : DependencyEntry}

/-- An expanded package at a distance makes a request. -/
def Contends (a : Assessor) (root : Release) (n : Nat) (request : DependencyRequest) : Prop :=
  ∃ r, Distance a root n r ∧ Expanded a root r ∧ request ∈ r.requests

/-- The entry that a request made at a distance leads to when it is visited before the others. -/
inductive Leaves (a : Assessor) (seconds : Nat) (root : Release) (n : Nat)
    (request : DependencyRequest) : DependencyEntry → Prop
  | assessed {release : Release} {assessment : Assessment}
      (resolve : a.resolve request.name request.spec = .done (.ok release))
      (distance : Distance a root (n + 1) release)
      (assess : a.assess release = .done (.ok assessment)) :
      Leaves a seconds root n request (assessedEntry request (n + 1) release assessment)
  | unassessed {release : Release}
      (resolve : a.resolve request.name request.spec = .done (.ok release))
      (distance : Distance a root (n + 1) release) (assess : a.assess release = .hangs) :
      Leaves a seconds root n request (unassessedEntry request (n + 1) seconds release)
  | unresolved {failure : Failure} (asked : AskedAt a root n request.name request.spec)
      (resolve : (a.resolve request.name request.spec).within seconds
        (resolving request.name request.spec) = .done (.error failure)) :
      Leaves a seconds root n request (unresolvedEntry request (n + 1) failure)

/-- Requests made at the same distance do not lead to different entries of the same name and
version. -/
def RaceFree (a : Assessor) (seconds : Nat) (root : Release) (maxDepth : Nat) : Prop :=
  ∀ n < maxDepth, ∀ request request' e e', Contends a root n request → Contends a root n request' →
    Leaves a seconds root n request e → Leaves a seconds root n request' e' →
    e.name = e'.name → e.version = e'.version → e = e'

theorem Leaves.depth_eq (h : Leaves a seconds root n request e) : e.depth = n + 1 := by
  cases h <;> rfl

/-- Whether an entry is about a package depends on the name and declared version only. -/
theorem Leaves.isSome_latest_eq (h : Leaves a seconds root n request e)
    (h' : Leaves a seconds root n request' e') (key : requestKey request = requestKey request') :
    e.latest.isSome = e'.latest.isSome := by
  obtain ⟨name, spec⟩ := Prod.mk.inj key
  cases h with
  | assessed resolve | unassessed resolve =>
    cases h' with
    | assessed | unassessed => rfl
    | unresolved _ resolve' =>
      rw [← name, ← spec, resolve] at resolve'
      cases resolve'
  | unresolved _ resolve =>
    cases h' with
    | assessed resolve' | unassessed resolve' =>
      rw [name, spec, resolve'] at resolve
      cases resolve
    | unresolved => rfl

theorem Leaves.kind_eq (h : Leaves a seconds root n request e) : e.kind = request.kind := by
  cases h <;> rfl

/-- What a request leads to is to be reported. -/
theorem Leaves.reportable (h : Leaves a seconds root n request e) :
    Reportable a seconds root (n + 1) e := by
  cases h with
  | assessed _ distance assess =>
    exact .assessed distance (Nat.le_refl _) (distance.ref_ne_root (Nat.succ_pos n)) assess
  | unassessed _ distance assess =>
    exact .unassessed distance (Nat.le_refl _) (distance.ref_ne_root (Nat.succ_pos n)) assess
  | unresolved asked resolve => exact .unresolved asked (Nat.lt_succ_self n) resolve

/-- There are no races when the requests made at the same distance are of one kind, and no package
has the name and version of a request that cannot be resolved. -/
theorem RaceFree.of_kinds (coherent : a.Coherent root)
    (kinds : ∀ n request request', Contends a root n request → Contends a root n request' →
      request.kind = request'.kind)
    (apart : ∀ n request request' e e', Leaves a seconds root n request e →
      Leaves a seconds root n request' e' → e.name = e'.name → e.version = e'.version →
      e.latest.isSome = e'.latest.isSome) : RaceFree a seconds root maxDepth := by
  intro n _ request request' e e' contends contends' leaves leaves' name version
  have about := apart n request request' e e' leaves leaves' name version
  have key : entryKey e = entryKey e' := by rw [entryKey, entryKey, about, name, version]
  have kind : e.kind = e'.kind := by
    rw [leaves.kind_eq, leaves'.kind_eq]
    exact kinds n request request' contends contends'
  have same := leaves.reportable.eq_of_key_eq coherent leaves'.reportable key
  rwa [← kind] at same

/-! ## Where entries come from -/

/-- Some request made at a distance leads to the entry. -/
def Raised (a : Assessor) (seconds : Nat) (root : Release) (e : DependencyEntry) : Prop :=
  ∃ n request, Contends a root n request ∧ Leaves a seconds root n request e

/-- The request of a task is made one level higher up, and leads to what the task has found. -/
def Task.Traced (a : Assessor) (seconds : Nat) (root : Release) (depth : Nat) (t : Task) : Prop :=
  ∃ n, n + 1 = depth ∧ Contends a root n t.request ∧
    match t.phase with
    | .assessing release _ => a.resolve t.request.name t.request.spec = .done (.ok release)
    | .finished (.visited entry _) | .finished (.unresolved entry) =>
      Leaves a seconds root n t.request entry
    | _ => True

theorem Task.Traced.move {taken taken' : Taken} {phase phase' : Phase}
    (sound : Task.Sound a seconds root depth ⟨request, phase⟩)
    (traced : Task.Traced a seconds root depth ⟨request, phase⟩)
    (move : Move a seconds depth request taken phase taken' phase') :
    Task.Traced a seconds root depth ⟨request, phase'⟩ := by
  obtain ⟨n, rfl, contends, found⟩ := traced
  refine ⟨n, rfl, contends, ?_⟩
  cases move with
  | skipRequest | takeRequest | acquire | resolved | skipRelease => trivial
  | unresolved resolve =>
    obtain ⟨m, level, asked⟩ := sound.2
    obtain rfl : m = n := Nat.succ.inj level
    exact .unresolved asked resolve
  | takeRelease => exact sound.2
  | assessed assess => exact .assessed found sound.2 assess
  | unassessed assess => exact .unassessed found sound.2 assess

/-- The tasks and the entries of a walk are traced to requests. -/
structure TraceInvariant (a : Assessor) (seconds : Nat) (root : Release) (s : Scheduled) :
    Prop where
  tasks : ∀ t ∈ s.tasks, t.Traced a seconds root s.depth
  entries : ∀ e ∈ s.entries, Raised a seconds root e

theorem TraceInvariant.step (follow : w.Follow a) (completes : a.Completes) {s s' : Scheduled}
    (levels : LevelInvariant a seconds root s) (inv : TraceInvariant a seconds root s)
    (h : Step w seconds s s') : TraceInvariant a seconds root s' := by
  cases h with
  | @task before after t time shared phase tasks later step =>
    have old : t ∈ s.tasks := tasks ▸ List.mem_append_right _ List.mem_cons_self
    have own := (inv.tasks t old).move (levels.found.sound old) (step.move follow completes)
    exact ⟨forall_task_of_step (tasks ▸ inv.tasks) own, inv.entries⟩
  | @collect before after t outcome tasks finished =>
    have others : ∀ u ∈ before ++ after, u.Traced a seconds root s.depth :=
      fun u hu => inv.tasks u (tasks ▸ mem_of_mem_collect hu)
    obtain ⟨n, -, contends, found⟩ :=
      inv.tasks t (tasks ▸ List.mem_append_right _ List.mem_cons_self)
    rw [finished] at found
    cases outcome with
    | visited entry release =>
      exact ⟨others, List.forall_mem_cons.mpr ⟨⟨n, t.request, contends, found⟩, inv.entries⟩⟩
    | unresolved entry =>
      exact ⟨others, List.forall_mem_cons.mpr ⟨⟨n, t.request, contends, found⟩, inv.entries⟩⟩
    | alreadyVisited | crashed => exact ⟨others, inv.entries⟩
  | descend tasks next room =>
    refine ⟨fun t ht => ?_, inv.entries⟩
    obtain ⟨request, hrequest, rfl⟩ := Scheduled.mem_tasks_descend.mp ht
    obtain ⟨r, hr, asks⟩ := Scheduled.mem_requests.mp hrequest
    obtain ⟨distance, expanded⟩ := levels.found.expandable hr
    exact ⟨s.depth, rfl, ⟨r, distance, expanded, asks⟩, trivial⟩

theorem TraceInvariant.of_run (coherent : a.Coherent root) (follow : w.Follow a)
    (completes : a.Completes) {maxConcurrency : Nat} {s : Scheduled}
    (h : ReflTransGen (Step w seconds) (.start root maxDepth maxConcurrency) s) :
    TraceInvariant a seconds root s := by
  induction h with
  | refl =>
    exact ⟨fun _ ht => absurd ht List.not_mem_nil, fun _ he => absurd he List.not_mem_nil⟩
  | tail run step ih =>
    exact ih.step follow completes (.of_run coherent follow completes run) step

/-! ## Without races -/

theorem entryLe_antisymm (le : entryLe e e' = true) (ge : entryLe e' e = true) :
    e.depth = e'.depth ∧ e.name = e'.name ∧ e.version = e'.version := by
  rw [entryLe_iff] at le ge
  grind

theorem entryLe_of_eq (depth : e.depth = e'.depth) (name : e.name = e'.name)
    (version : e.version = e'.version) : entryLe e e' = true :=
  entryLe_iff.mpr (.inr ⟨depth, .inr ⟨name, Std.le_of_eq version⟩⟩)

/-- Without races the entries down to the depth of the walk are told apart by their places. -/
theorem RaceFree.eq_of_raised (free : RaceFree a seconds root maxDepth)
    (raised : Raised a seconds root e) (raised' : Raised a seconds root e')
    (near : e.depth ≤ maxDepth) (depth : e.depth = e'.depth) (name : e.name = e'.name)
    (version : e.version = e'.version) : e = e' := by
  obtain ⟨n, request, contends, leaves⟩ := raised
  obtain ⟨m, request', contends', leaves'⟩ := raised'
  rw [leaves.depth_eq] at near depth
  obtain rfl : n = m := by
    rw [leaves'.depth_eq] at depth
    omega
  exact free n (by omega) request request' e e' contends contends' leaves leaves' name version

section Lists

variable {entries entries' : List DependencyEntry}

theorem RaceFree.subset (free : RaceFree a seconds root maxDepth)
    (exact : ReportsExactly a seconds root maxDepth entries)
    (exact' : ReportsExactly a seconds root maxDepth entries')
    (raised : ∀ e ∈ entries, Raised a seconds root e)
    (raised' : ∀ e ∈ entries', Raised a seconds root e) : entries ⊆ entries' := by
  intro e he
  have report := exact.reportable he
  -- The other list has the entry up to its kind, and that is settled by the requests.
  obtain ⟨kind, he'⟩ := (exact'.listed e).mpr report
  have same : e = { e with kind := kind } :=
    free.eq_of_raised (raised e he) (raised' _ he') report.depth_le rfl rfl rfl
  rwa [same]

/-- Without races there is one way to list what there is to report. -/
theorem RaceFree.eq_of_reportsExactly (free : RaceFree a seconds root maxDepth)
    (exact : ReportsExactly a seconds root maxDepth entries)
    (exact' : ReportsExactly a seconds root maxDepth entries')
    (raised : ∀ e ∈ entries, Raised a seconds root e)
    (raised' : ∀ e ∈ entries', Raised a seconds root e) : entries = entries' := by
  have perm : entries.Perm entries' := by
    have nodup := List.Nodup.of_map entryKey exact.distinct
    have nodup' := List.Nodup.of_map entryKey exact'.distinct
    apply (List.perm_ext_iff_of_nodup nodup nodup').mpr
    intro e
    exact ⟨fun he => free.subset exact exact' raised raised' he,
      fun he => free.subset exact' exact raised' raised he⟩
  apply perm.eq_of_pairwise _ exact.ordered exact'.ordered
  intro e e' he he' le ge
  obtain ⟨depth, name, version⟩ := entryLe_antisymm le ge
  have near := (exact.reportable he).depth_le
  exact free.eq_of_raised (raised e he) (raised' e' he') near depth name version

end Lists

end PackageRisk.Walk
