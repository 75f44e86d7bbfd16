import PackageRisk.Proofs.Walk.Runs
import PackageRisk.Proofs.Walk.Sequential

/-!
# What a walk reports

Whatever the scheduler does, a walk over an assessor with fixed latencies ends, and its entries
report exactly what lies within its depth in the dependency graph: every package but the root once,
at its distance, and every request that could not be resolved once, below the nearest release
that makes it.
-/

namespace PackageRisk.Walk

open Relation

variable {a : Assessor} {root : Release} {seconds maxDepth maxConcurrency : Nat} {w : Responses}
  {s : Scheduled}

theorem entryLe_iff {e f : DependencyEntry} :
    entryLe e f = true ↔ e.depth < f.depth ∨ e.depth = f.depth ∧
      (e.name < f.name ∨ e.name = f.name ∧ e.version ≤ f.version) := by
  rw [entryLe]
  grind

theorem entryLe_total (e f : DependencyEntry) : (entryLe e f || entryLe f e) = true := by
  rw [Bool.or_eq_true, entryLe_iff, entryLe_iff]
  grind

theorem entryLe_trans (e f g : DependencyEntry) (hef : entryLe e f = true)
    (hfg : entryLe f g = true) : entryLe e g = true := by
  rw [entryLe_iff] at *
  grind

theorem Scheduled.result_perm (s : Scheduled) : s.result.Perm s.entries :=
  (List.mergeSort_perm _ _).trans (List.reverse_perm _)

theorem Scheduled.result_ordered (s : Scheduled) :
    s.result.Pairwise fun e f => entryLe e f :=
  List.pairwise_mergeSort entryLe_trans entryLe_total _

/-- Levels that are begun are taken from those that remain. -/
theorem depth_add_remaining (h : ReflTransGen (Step w seconds)
    (.start root maxDepth maxConcurrency) s) : s.depth + s.remaining = maxDepth := by
  induction h with
  | refl => exact Nat.zero_add maxDepth
  | tail _ step ih =>
    cases step with
    | task => exact ih
    | collect => simpa using ih
    | descend _ _ room =>
      rw [Scheduled.depth_descend, Scheduled.remaining_descend]
      omega

/-- When nothing is left to expand, everything that can be reached at all is near enough. -/
theorem LevelInvariant.exists_distance (coherent : a.Coherent root)
    (inv : LevelInvariant a seconds root s) (tasks : s.tasks = []) (next : s.next = []) {n : Nat}
    {r : Release} (path : Reaches a root n r) : ∃ m ≤ s.depth, Distance a root m r := by
  induction path with
  | root => exact ⟨0, Nat.zero_le _, distance_root⟩
  | @step n r target request path expanded asks resolve ih =>
    obtain ⟨m, near, distance⟩ := ih
    have below : m < s.depth := by
      apply Nat.lt_of_le_of_ne near
      intro level
      subst level
      have taken := inv.taken
      rw [tasks] at taken
      have owed := inv.found.owesNext distance expanded (taken.mem_resolved distance.1 near)
      simp [tasks, next] at owed
    obtain ⟨k, hk, distance'⟩ :=
      (Reaches.step distance.1 expanded asks resolve).exists_distance coherent
    exact ⟨k, by omega, distance'⟩

/-- A finished walk has gone as deep as there was anything to report. -/
theorem LevelInvariant.reportable_of_finished (coherent : a.Coherent root)
    (inv : LevelInvariant a seconds root s) (finished : s.Finished)
    (levels : s.depth + s.remaining = maxDepth) {e : DependencyEntry}
    (report : Reportable a seconds root maxDepth e) :
    Reportable a seconds root s.depth e := by
  obtain ⟨tasks, next | remaining⟩ := finished
  · have near : ∀ {n r}, Distance a root n r → n ≤ s.depth := by
      intro n r distance
      obtain ⟨m, hm, distance'⟩ := inv.exists_distance coherent tasks next distance.1
      exact distance.unique distance' rfl ▸ hm
    cases report with
    | assessed distance _ other assess => exact .assessed distance (near distance) other assess
    | unassessed distance _ other assess => exact .unassessed distance (near distance) other assess
    | @unresolved n name spec _ _ asked _ resolve =>
      refine .unresolved asked ?_ resolve
      obtain ⟨m, r, kind, le, distance, expanded, asks⟩ := asked.1.exists_distance coherent
      have least : n ≤ m := asked.2 m ⟨r, kind, distance.1, expanded, asks⟩
      apply Nat.lt_of_le_of_ne (Nat.le_trans least (near distance))
      intro level
      -- A release at the last level would be left to expand.
      have taken := inv.taken
      rw [tasks] at taken
      obtain rfl : m = s.depth := Nat.le_antisymm (near distance) (level ▸ least)
      have owed := inv.found.owesNext distance expanded
        (taken.mem_resolved distance.1 (Nat.le_refl _))
      simp [tasks, next] at owed
  · have depth : maxDepth = s.depth := by omega
    exact depth ▸ report

/-- What there is to report has its entry when no task is left. -/
theorem LevelInvariant.exists_entry (coherent : a.Coherent root)
    (inv : LevelInvariant a seconds root s) (tasks : s.tasks = []) {e : DependencyEntry}
    (report : Reportable a seconds root s.depth e) :
    ∃ kind, { e with kind := kind } ∈ s.entries := by
  obtain ⟨taken, found, accounts⟩ := inv
  rw [tasks] at taken accounts
  have covered : Covers root s.taken (entryKey e) ∧ Due a seconds (entryKey e) := by
    cases report with
    | assessed distance near other => exact ⟨⟨taken.mem_resolved distance.1 near, other⟩, trivial⟩
    | unassessed distance near other =>
      exact ⟨⟨taken.mem_resolved distance.1 near, other⟩, trivial⟩
    | unresolved asked near resolve =>
      exact ⟨taken.mem_requested (p := (_, _)) asked.1 near, _, resolve⟩
  obtain ⟨f, hf, key⟩ := List.mem_map.mp (accounts.complete covered.1 covered.2)
  refine ⟨f.kind, ?_⟩
  rwa [report.eq_of_key_eq coherent (found.reportable hf) key.symm]

theorem LevelInvariant.reportsExactly (coherent : a.Coherent root)
    (inv : LevelInvariant a seconds root s) (finished : s.Finished)
    (levels : s.depth + s.remaining = maxDepth) :
    ReportsExactly a seconds root maxDepth s.result where
  ordered := s.result_ordered
  distinct := by
    have distinct := inv.account.distinct
    rw [finished.1] at distinct
    exact (s.result_perm.map entryKey).nodup_iff.mpr distinct
  listed e := by
    constructor
    · rintro ⟨kind, he⟩
      have report := inv.found.reportable (s.result_perm.mem_iff.mp he)
      exact (report.mono (by omega)).with_kind e.kind
    · intro report
      obtain ⟨kind, he⟩ := inv.exists_entry coherent finished.1
        (inv.reportable_of_finished coherent finished levels report)
      exact ⟨kind, s.result_perm.mem_iff.mpr he⟩

end PackageRisk.Walk

namespace PackageRisk.TimedAssessor

open Relation Walk

/-- No lookup takes exactly as long as the limit. -/
def Avoids (calls : TimedAssessor) (limit : Nat) : Prop :=
  (∀ name spec, (calls.resolve name spec).latency ≠ limit) ∧
    ∀ r, (calls.assess r).latency ≠ limit

variable {calls : TimedAssessor} {limit : Nat}

theorem ends_iff {α : Type} {t : Timed (Except Failure α)} {begun ended : Nat} {l : Lookup α}
    (other : t.latency ≠ limit) :
    t.Ends limit begun ended l ↔ begun + min t.latency limit ≤ ended ∧ l = t.cut limit := by
  unfold Timed.Ends Timed.cut
  split <;> grind

theorem responses_follow (avoids : calls.Avoids limit) :
    (calls.responses limit).Follow (calls.toAssessor limit) where
  resolve h := ((ends_iff (avoids.1 _ _)).mp h).2
  assess h := ((ends_iff (avoids.2 _)).mp h).2

theorem responses_live (avoids : calls.Avoids limit) : (calls.responses limit).Live where
  resolve name spec begun now :=
    ⟨now + (begun + limit), _, Nat.le_add_right _ _,
      (ends_iff (avoids.1 name spec)).mpr ⟨by omega, rfl⟩⟩
  assess release begun now :=
    ⟨now + (begun + limit), _, Nat.le_add_right _ _,
      (ends_iff (t := calls.assessment release) (avoids.2 release)).mpr ⟨by omega, rfl⟩⟩

theorem toAssessor_completes (calls : TimedAssessor) (limit : Nat) :
    (calls.toAssessor limit).Completes where
  resolve name spec := by
    simp only [toAssessor, Timed.cut]
    split <;> simp
  assess r := by
    by_cases slow : limit < (calls.assessment r).latency
    · exact .inl (if_pos slow)
    · exact .inr ⟨_, if_neg slow⟩

/-- Entries report exactly what a walk of some depth has to report when each lookup is limited. -/
def Reports (calls : TimedAssessor) (limit : Nat) (root : Release) (maxDepth : Nat)
    (entries : List DependencyEntry) : Prop :=
  ReportsExactly (calls.toAssessor limit) (seconds limit) root maxDepth entries

/-- The releases of a small graph: `left` and `right` share a dependency under two declared
versions, and `right` leads back to `app`. -/
def smallRelease (name : String) : Release where
  name := name
  version := "1.0.0"
  latest := "1.1.0"
  dependencies := .ofList <|
    if name = "app" then [("left", "^1"), ("right", "^1"), ("lost", "*")]
    else if name = "left" then [("shared", "^1")]
    else if name = "right" then [("shared", "~1"), ("app", "^1")]
    else if name = "shared" then [("deep", "1")]
    else []

/-- In the small graph nobody knows `lost`, and to assess `shared` takes half a minute too long. -/
def small : TimedAssessor where
  resolve name _ :=
    ⟨1, if name = "lost" then .error (.metadataNotFound name) else .ok (smallRelease name)⟩
  assess r := ⟨if r.name = "shared" then 60000000000 else 1, ⟨90, false⟩⟩

theorem small_avoids : small.Avoids 30000000000 := by
  refine ⟨fun name spec => by simp [small], fun r => ?_⟩
  by_cases shared : r.name = "shared" <;> simp [small, shared]

/-- In the small graph a request is resolved to the release of its name. -/
theorem resolve_small {name spec : String} {r : Release}
    (h : (small.toAssessor 30000000000).resolve name spec = .done (.ok r)) :
    name ≠ "lost" ∧ r = smallRelease name := by
  by_cases lost : name = "lost"
  · simp [toAssessor, Timed.cut, small, lost] at h
  · simp only [toAssessor, Timed.cut, small, lost] at h
    cases h
    exact ⟨lost, rfl⟩

theorem small_coherent : (small.toAssessor 30000000000).Coherent (smallRelease "app") :=
  coherent_of_named (fun _ => rfl) (fun h => (resolve_small h).2) "app"

end PackageRisk.TimedAssessor
