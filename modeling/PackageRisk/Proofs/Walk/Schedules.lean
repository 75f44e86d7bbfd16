import PackageRisk.Proofs.Walk.FirstVisit

/-!
# Where schedules make a difference

Walks under different schedules have the same result exactly when there are no races. Where requests
race, one schedule visits one of them first and another schedule the other one, and the results
differ in an entry or in the order of two entries. In a diamond whose sides declare what they share
as dependencies of different kinds there is such a race.
-/

namespace PackageRisk.Walk

open Relation

variable {a : Assessor} {root : Release} {seconds maxDepth n : Nat} {w : Responses}
  {request request' : DependencyRequest} {e e' : DependencyEntry}

/-- Two elements of a list without repetitions stand in one order only. -/
theorem eq_of_pair_sublists {α : Type} {l : List α} {x y : α} (nodup : l.Nodup)
    (h : [x, y].Sublist l) (h' : [y, x].Sublist l) : x = y := by
  induction l with
  | nil => cases h
  | cons z l ih =>
    obtain ⟨new, nodup⟩ := List.nodup_cons.mp nodup
    cases h with
    | cons _ h =>
      cases h' with
      | cons _ h' => exact ih nodup h h'
      | cons_cons _ h' => exact absurd (h.subset (by simp)) new
    | cons_cons _ h =>
      cases h' with
      | cons _ h' => exact absurd (h'.subset (by simp)) new
      | cons_cons _ h' => rfl

/-- Entries that the order does not tell apart stay in the order in which they were found. -/
theorem pair_sublist_result {s : Scheduled} (h : [e', e].Sublist s.entries)
    (le : entryLe e e' = true) : [e, e'].Sublist s.result := by
  apply List.pair_sublist_mergeSort entryLe_trans entryLe_total le
  exact List.reverse_sublist.mpr h

/-- Walks that finish under any two schedules, with any numbers of permits, have the same result. -/
def SameResults (w : Responses) (seconds : Nat) (root : Release) (maxDepth : Nat) : Prop :=
  ∀ maxConcurrency maxConcurrency' s s',
    ReflTransGen (Step w seconds) (.start root maxDepth maxConcurrency) s → s.Finished →
    ReflTransGen (Step w seconds) (.start root maxDepth maxConcurrency') s' → s'.Finished →
    s.result = s'.result

section Schedules

variable (coherent : a.Coherent root) (live : w.Live) (follow : w.Follow a)
  (completes : a.Completes)

include coherent live follow completes

/-- A walk can be led to where the requests made at a distance are about to be visited. -/
theorem exists_run_begun (maxConcurrency : Nat) (near : n < maxDepth)
    (contends : Contends a root n request) :
    ∃ s, ReflTransGen (Step w seconds) (.start root maxDepth maxConcurrency) s ∧
      0 < s.permits ∧ s.depth = n + 1 ∧
      ∀ request e, Contends a root n request → Leaves a seconds root n request e →
        ⟨request, .spawned⟩ ∈ s.tasks ∧ Fresh s.taken request e := by
  obtain ⟨r, distance, expanded, asks⟩ := contends
  obtain ⟨s, run, tasks, rfl⟩ := exists_run_between seconds coherent live follow completes
    maxConcurrency distance (Nat.le_of_lt near)
  have inv : LevelInvariant a seconds root s := .of_run coherent follow completes run
  have room : 0 < s.remaining := by
    have := depth_add_remaining run
    omega
  have next : s.next ≠ [] := List.ne_nil_of_mem (inv.mem_next tasks distance expanded)
  have permit : 0 < s.permits := permits_pos_of_run run tasks
  refine ⟨s.descend, run.tail (.descend tasks next room), permit, rfl, ?_⟩
  intro request' e contends leaves
  obtain ⟨r', distance', expanded', asks'⟩ := contends
  have requests : request' ∈ s.requests :=
    Scheduled.mem_requests.mpr ⟨r', inv.mem_next tasks distance' expanded', asks'⟩
  exact ⟨Scheduled.mem_tasks_descend.mpr ⟨request', requests, rfl⟩, inv.fresh leaves⟩

/-- Some schedule visits a request before the others of its level. -/
theorem exists_finished_first (near : n < maxDepth) (contends : Contends a root n request)
    (leaves : Leaves a seconds root n request e) :
    ∃ s, ReflTransGen (Step w seconds) (.start root maxDepth 1) s ∧ s.Finished ∧
      e ∈ s.result := by
  obtain ⟨s, run, permit, level, begun⟩ :=
    exists_run_begun coherent live follow completes 1 near contends
  obtain ⟨task, fresh⟩ := begun request e contends leaves
  obtain ⟨t, visit, entries, -⟩ := leaves.exists_run live follow permit level task fresh
  obtain ⟨u, run, finished, suffix⟩ := exists_finished live (run.trans visit)
  have he : e ∈ u.entries := suffix.subset (entries ▸ List.mem_cons_self)
  exact ⟨u, run, finished, u.result_perm.mem_iff.mpr he⟩

/-- Some schedule visits one request first and another one next, where one of them leads to a
package and the other one does not. -/
theorem exists_finished_pair (near : n < maxDepth) (contends : Contends a root n request)
    (leaves : Leaves a seconds root n request e) (contends' : Contends a root n request')
    (leaves' : Leaves a seconds root n request' e') (le : entryLe e e' = true)
    (kind : e'.latest.isSome ≠ e.latest.isSome) :
    ∃ s, ReflTransGen (Step w seconds) (.start root maxDepth 1) s ∧ s.Finished ∧
      [e, e'].Sublist s.result := by
  obtain ⟨s, run, permit, level, begun⟩ :=
    exists_run_begun coherent live follow completes 1 near contends
  obtain ⟨task, fresh⟩ := begun request e contends leaves
  obtain ⟨task', fresh'⟩ := begun request' e' contends' leaves'
  have other : requestKey request' ≠ requestKey request := by
    intro key
    exact kind (leaves'.isSome_latest_eq leaves key)
  obtain ⟨t, visit, entries, permits, depth, others⟩ :=
    leaves.exists_run live follow permit level task fresh
  obtain ⟨task', fresh'⟩ := others request' e' other kind task' fresh'
  obtain ⟨u, visit', entries', -⟩ :=
    leaves'.exists_run live follow (permits ▸ permit) (depth.trans level) task' fresh'
  obtain ⟨v, run, finished, suffix⟩ := exists_finished live ((run.trans visit).trans visit')
  have pair : [e', e].Sublist u.entries := by
    rw [entries', entries]
    simp
  exact ⟨v, run, finished, pair_sublist_result (pair.trans suffix.sublist) le⟩

/-- Where all schedules come to the same, there are no races. -/
theorem RaceFree.of_sameResults (same : SameResults w seconds root maxDepth) :
    RaceFree a seconds root maxDepth := by
  intro n near request request' e e' contends contends' leaves leaves' name version
  have depth : e.depth = e'.depth := by rw [leaves.depth_eq, leaves'.depth_eq]
  have keys {s : Scheduled} (run : ReflTransGen (Step w seconds) (.start root maxDepth 1) s)
      (finished : s.Finished) : (s.result.map entryKey).Nodup :=
    ((LevelInvariant.of_run coherent follow completes run).reportsExactly coherent finished
      (depth_add_remaining run)).distinct
  by_cases kind : e'.latest.isSome = e.latest.isSome
  · -- The entries are about the same; whichever is found first is listed, and no other.
    obtain ⟨s, run, finished, he⟩ :=
      exists_finished_first coherent live follow completes near contends leaves
    obtain ⟨s', run', finished', he'⟩ :=
      exists_finished_first coherent live follow completes near contends' leaves'
    rw [same 1 1 s' s run' finished' run finished] at he'
    have key : entryKey e = entryKey e' := by rw [entryKey, entryKey, kind, name, version]
    exact List.inj_on_of_nodup_map (keys run finished) he he' key
  · -- Both entries are listed, in the order in which they are found.
    obtain ⟨s, run, finished, pair⟩ := exists_finished_pair coherent live follow completes near
      contends leaves contends' leaves' (entryLe_of_eq depth name version) kind
    obtain ⟨s', run', finished', pair'⟩ := exists_finished_pair coherent live follow completes near
      contends' leaves' contends leaves (entryLe_of_eq depth.symm name.symm version.symm)
      (Ne.symm kind)
    rw [same 1 1 s' s run' finished' run finished] at pair'
    exact eq_of_pair_sublists (keys run finished).of_map pair pair'

/-- Where lookups follow an assessor, all schedules come to the same exactly when there are no
races. -/
theorem sameResults_iff_raceFree :
    SameResults w seconds root maxDepth ↔ RaceFree a seconds root maxDepth := by
  refine ⟨.of_sameResults coherent live follow completes, fun free => ?_⟩
  intro maxConcurrency maxConcurrency' s s' run finished run' finished'
  have reports {c : Nat} {s : Scheduled}
      (run : ReflTransGen (Step w seconds) (.start root maxDepth c) s) (finished : s.Finished) :
      ReportsExactly a seconds root maxDepth s.result ∧
        ∀ e ∈ s.result, Raised a seconds root e := by
    have inv : LevelInvariant a seconds root s := .of_run coherent follow completes run
    have trace : TraceInvariant a seconds root s := .of_run coherent follow completes run
    exact ⟨inv.reportsExactly coherent finished (depth_add_remaining run),
      fun e he => trace.entries e (s.result_perm.mem_iff.mp he)⟩
  obtain ⟨exact, raised⟩ := reports run finished
  obtain ⟨exact', raised'⟩ := reports run' finished'
  exact free.eq_of_reportsExactly exact exact' raised raised'

end Schedules

end PackageRisk.Walk

namespace PackageRisk.TimedAssessor

open Relation Walk

/-- Where no lookup takes exactly as long as the limit, so in particular where none times out,
walks over a graph have one result under all schedules and with all numbers of permits exactly when
no two requests made at the same distance from the root race. -/
theorem same_results_iff (calls : TimedAssessor) (limit maxDepth : Nat) (root : Release)
    (avoids : calls.Avoids limit) (coherent : (calls.toAssessor limit).Coherent root) :
    SameResults (calls.responses limit) (seconds limit) root maxDepth ↔
      RaceFree (calls.toAssessor limit) (seconds limit) root maxDepth :=
  sameResults_iff_raceFree coherent (responses_live avoids) (responses_follow avoids)
    (toAssessor_completes calls limit)

/-! ### Two graphs -/

/-- In the small graph every dependency is a production dependency. -/
theorem production_of_contends_small {n : Nat} {request : DependencyRequest}
    (h : Contends (small.toAssessor 30000000000) (smallRelease "app") n request) :
    request.kind = .production := by
  obtain ⟨r, distance, -, asks⟩ := h
  obtain ⟨name, rfl⟩ : ∃ name, r = smallRelease name := by
    rcases distance.1.eq_root_or_resolved with rfl | ⟨name, spec, resolve⟩
    · exact ⟨"app", rfl⟩
    · exact ⟨name, (resolve_small resolve).2⟩
  exact Release.kind_of_mem_requests rfl rfl asks

/-- In the small graph `lost` is the one name that is not resolved. -/
theorem isSome_latest_of_leaves_small {n : Nat} {request : DependencyRequest} {e : DependencyEntry}
    (h : Leaves (small.toAssessor 30000000000) 30 (smallRelease "app") n request e) :
    e.latest.isSome = true ↔ e.name ≠ "lost" := by
  cases h with
  | assessed resolve | unassessed resolve =>
    obtain ⟨known, rfl⟩ := resolve_small resolve
    exact ⟨fun _ => known, fun _ => rfl⟩
  | unresolved _ resolve =>
    refine ⟨fun package => absurd package Bool.false_ne_true, fun known => ?_⟩
    have known : request.name ≠ "lost" := known
    simp [toAssessor, Timed.cut, small, known, Lookup.within] at resolve

theorem small_raceFree :
    RaceFree (small.toAssessor 30000000000) 30 (smallRelease "app") 3 := by
  apply RaceFree.of_kinds small_coherent
  · intro n request request' contends contends'
    rw [production_of_contends_small contends, production_of_contends_small contends']
  · intro n request request' e e' leaves leaves' name _
    rw [Bool.eq_iff_iff, isSome_latest_of_leaves_small leaves,
      isSome_latest_of_leaves_small leaves', name]

theorem small_same_results :
    SameResults (small.responses 30000000000) 30 (smallRelease "app") 3 :=
  (same_results_iff small 30000000000 3 (smallRelease "app") small_avoids small_coherent).mpr
    small_raceFree

/-- The releases of a diamond: `left` has `shared` as a peer dependency, `right` as a production
dependency. -/
def diamondRelease (name : String) : Release where
  name := name
  version := "1.0.0"
  latest := "1.0.0"
  dependencies := .ofList <|
    if name = "app" then [("left", "^1"), ("right", "^1")]
    else if name = "right" then [("shared", "^1")]
    else []
  peerDependencies := .ofList (if name = "left" then [("shared", "^1")] else [])

/-- In the diamond every lookup is answered at once. -/
def diamond : TimedAssessor where
  resolve name _ := ⟨0, .ok (diamondRelease name)⟩
  assess _ := ⟨0, ⟨90, false⟩⟩

theorem diamond_avoids : diamond.Avoids 30000000000 :=
  ⟨fun _ _ => Nat.noConfusion, fun _ => Nat.noConfusion⟩

theorem resolve_diamond {name spec : String} {r : Release}
    (h : (diamond.toAssessor 30000000000).resolve name spec = .done (.ok r)) :
    r = diamondRelease name := by
  cases h
  rfl

theorem diamond_coherent :
    (diamond.toAssessor 30000000000).Coherent (diamondRelease "app") :=
  coherent_of_named (fun _ => rfl) resolve_diamond "app"

/-- The sides of the diamond make their requests at distance one. -/
theorem contends_diamond {side : DependencyRequest} (hside : side ∈ (diamondRelease "app").requests)
    {request : DependencyRequest} (h : request ∈ (diamondRelease side.name).requests) :
    Contends (diamond.toAssessor 30000000000) (diamondRelease "app") 1 request := by
  have path : Reaches (diamond.toAssessor 30000000000) (diamondRelease "app") 1
      (diamondRelease side.name) := .step .root (.inl rfl) hside rfl
  refine ⟨_, ⟨path, fun m other path' ref => ?_⟩, .inr ⟨_, rfl⟩, h⟩
  apply Nat.pos_of_ne_zero
  rintro rfl
  rw [path'.eq_root] at ref
  have name : "app" = side.name := congrArg PackageRef.name ref
  have others : ∀ side ∈ (diamondRelease "app").requests, "app" ≠ side.name := by decide
  exact others side hside name

/-- What the sides of the diamond share lies at distance two. -/
theorem distance_shared : Distance (diamond.toAssessor 30000000000) (diamondRelease "app") 2
    (diamondRelease "shared") := by
  have right : ⟨"right", "^1", .production⟩ ∈ (diamondRelease "app").requests := by decide
  have shared : ⟨"shared", "^1", .production⟩ ∈ (diamondRelease "right").requests := by decide
  have path : Reaches (diamond.toAssessor 30000000000) (diamondRelease "app") 1
      (diamondRelease "right") := .step .root (.inl rfl) right rfl
  refine ⟨.step path (.inr ⟨_, rfl⟩) shared rfl, fun m other path' ref => ?_⟩
  have name : other.name = "shared" := congrArg PackageRef.name ref
  cases path' with
  | root => exact absurd name (by decide)
  | @step m parent _ request path' _ asks resolve =>
    apply Nat.succ_le_succ
    apply Nat.pos_of_ne_zero
    rintro rfl
    obtain rfl := path'.eq_root
    obtain rfl := resolve_diamond resolve
    have sides : ∀ side ∈ (diamondRelease "app").requests, side.name ≠ "shared" := by decide
    exact sides request asks name

/-- Walks over the diamond differ, with every lookup answered at once: the entry of `shared` has the
kind of whichever request is taken on first. -/
theorem diamond_results_differ :
    ¬ SameResults (diamond.responses 30000000000) 30 (diamondRelease "app") 2 := by
  intro same
  have free : RaceFree (diamond.toAssessor 30000000000) 30 (diamondRelease "app") 2 :=
    .of_sameResults diamond_coherent (responses_live diamond_avoids)
      (responses_follow diamond_avoids) (toAssessor_completes diamond 30000000000) same
  have left : ⟨"left", "^1", .production⟩ ∈ (diamondRelease "app").requests := by decide
  have right : ⟨"right", "^1", .production⟩ ∈ (diamondRelease "app").requests := by decide
  have peer : ⟨"shared", "^1", .peer⟩ ∈ (diamondRelease "left").requests := by decide
  have production : ⟨"shared", "^1", .production⟩ ∈ (diamondRelease "right").requests := by decide
  have same := free 1 (by decide) _ _ _ _ (contends_diamond left peer)
    (contends_diamond right production)
    (.assessed rfl distance_shared rfl) (.assessed rfl distance_shared rfl) rfl rfl
  cases congrArg DependencyEntry.kind same

end PackageRisk.TimedAssessor
