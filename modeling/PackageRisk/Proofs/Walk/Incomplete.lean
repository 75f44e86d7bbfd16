import PackageRisk.Proofs.Score.Rearrangement
import PackageRisk.Proofs.Walk.Exactness

/-!
# Incomplete entries

A walk that fails to learn something about a dependency says so in its entry, and gives it no score
or the neutral one and no malware. The neutral score is just not low enough to count, so such
entries have no part in a score, whatever went wrong and in whatever order.
-/

namespace PackageRisk.Walk

open Relation

/-- The entries that tasks leave. -/
inductive Recorded (seconds : Nat) : DependencyEntry → Prop
  | unresolved (request : DependencyRequest) (depth : Nat) (failure : Failure) :
      Recorded seconds (unresolvedEntry request depth failure)
  | unassessed (request : DependencyRequest) (depth : Nat) (release : Release) :
      Recorded seconds (unassessedEntry request depth seconds release)
  | assessed (request : DependencyRequest) (depth : Nat) (release : Release)
      (assessment : Assessment) :
      Recorded seconds (assessedEntry request depth release assessment)

/-- The entry that a task has ready. -/
def Phase.entry? : Phase → Option DependencyEntry
  | finished (.visited entry _) | finished (.unresolved entry) => some entry
  | _ => none

variable {w : Responses} {seconds depth : Nat} {root : Release} {request : DependencyRequest}

theorem TaskStep.recorded {s s' : Shared} {phase phase' : Phase}
    (h : TaskStep w seconds depth request s phase s' phase') :
    ∀ e ∈ phase'.entry?, Recorded seconds e := by
  cases h with
  | unresolved ended failed =>
    rintro e ⟨⟩
    exact .unresolved request depth _
  | @assessed release begun l ended =>
    match l with
    | .done (.ok assessment) =>
      rintro e ⟨⟩
      exact .assessed request depth release assessment
    | .hangs =>
      rintro e ⟨⟩
      exact .unassessed request depth release
    | .done (.error failure) => rintro e ⟨⟩
    | .crashes => rintro e ⟨⟩
  | _ => rintro e ⟨⟩

/-- Whatever is ready or collected is an entry that a task has left. -/
structure RecordInvariant (seconds : Nat) (s : Scheduled) : Prop where
  tasks : ∀ t ∈ s.tasks, ∀ e ∈ t.phase.entry?, Recorded seconds e
  entries : ∀ e ∈ s.entries, Recorded seconds e

theorem RecordInvariant.step {s s' : Scheduled} (inv : RecordInvariant seconds s)
    (h : Step w seconds s s') : RecordInvariant seconds s' := by
  obtain ⟨all, entries⟩ := inv
  cases h with
  | task tasks _ step =>
    rw [tasks] at all
    exact ⟨forall_task_of_step all step.recorded, entries⟩
  | @collect before after t outcome tasks finished =>
    rw [tasks] at all
    have others : ∀ u ∈ before ++ after, ∀ e ∈ u.phase.entry?, Recorded seconds e :=
      fun u hu => all u (mem_of_mem_collect hu)
    have own := all t (List.mem_append_right _ List.mem_cons_self)
    rw [finished] at own
    cases outcome with
    | visited entry release => exact ⟨others, List.forall_mem_cons.mpr ⟨own entry rfl, entries⟩⟩
    | unresolved entry => exact ⟨others, List.forall_mem_cons.mpr ⟨own entry rfl, entries⟩⟩
    | alreadyVisited | crashed => exact ⟨others, entries⟩
  | descend tasks next room =>
    refine ⟨fun t ht => ?_, entries⟩
    obtain ⟨request, -, rfl⟩ := Scheduled.mem_tasks_descend.mp ht
    rintro e ⟨⟩

theorem RecordInvariant.of_run {maxDepth maxConcurrency : Nat} {s : Scheduled}
    (h : ReflTransGen (Step w seconds) (.start root maxDepth maxConcurrency) s) :
    RecordInvariant seconds s := by
  induction h with
  | refl =>
    exact ⟨fun _ ht => absurd ht List.not_mem_nil, fun _ he => absurd he List.not_mem_nil⟩
  | tail _ step ih => exact ih.step step

/-- An entry with something missing does not weigh. -/
theorem Recorded.weighs_eq_false {e : DependencyEntry} (h : Recorded seconds e)
    (missing : e.missingInfo.isNone = false) : e.weighs = false := by
  cases h with
  | unresolved request depth failure =>
    cases network : failure.isNetwork <;>
      simp [DependencyEntry.weighs, unresolvedEntry, network, neutralScore,
        ScoreInput.riskyDependencyScore]
  | unassessed request depth release => rfl
  | assessed request depth release assessment => exact absurd missing (by simp [assessedEntry])

/-- Incomplete entries neither help nor hurt. Whatever the lookups of a walk come to and in
whatever order its tasks go on, in every state the score made from its entries, with all its
deductions, is the score made from those of them that miss nothing. -/
theorem score_of_complete_entries (w : Responses) (seconds maxDepth maxConcurrency : Nat)
    (root : Release) (s : Scheduled)
    (run : ReflTransGen (Step w seconds) (.start root maxDepth maxConcurrency) s)
    (metrics : Metrics) (advisories : AdvisoryReport) (files : List FileFinding) :
    (ScoreInput.mk metrics advisories files s.result).score =
      (ScoreInput.mk metrics advisories files (s.result.filter (·.missingInfo.isNone))).score := by
  have recorded : ∀ e ∈ s.result, Recorded seconds e := fun e he =>
    (RecordInvariant.of_run run).entries e (s.result_perm.mem_iff.mp he)
  have weighing : s.result.filter DependencyEntry.weighs =
      (s.result.filter (·.missingInfo.isNone)).filter DependencyEntry.weighs := by
    rw [List.filter_filter]
    refine List.filter_congr fun e he => ?_
    cases complete : e.missingInfo.isNone with
    | true => exact (Bool.and_true _).symm
    | false =>
      rw [Bool.and_false]
      exact (recorded e he).weighs_eq_false complete
  exact ScoreInput.score_eq_of_weighing (.of_eq weighing) metrics advisories files

open TimedAssessor

/-- A release whose dependencies go wrong in different ways, and its dependencies. -/
def frailRelease (name : String) : Release where
  name := name
  version := "1.0.0"
  dependencies := .ofList <|
    if name = "app" then [("down", "^1"), ("lib", "^1"), ("lost", "*"), ("slow", "^1")] else []

/-- The registry cannot be reached for `down` and does not know `lost`, and to assess `slow` takes
half a minute too long. -/
def frail : TimedAssessor where
  resolve name _ :=
    ⟨1, if name = "down" then .error (.network "refused")
      else if name = "lost" then .error (.metadataNotFound name)
      else .ok (frailRelease name)⟩
  assess r := ⟨if r.name = "slow" then 60000000000 else 1, ⟨40, false⟩⟩

theorem frail_avoids : frail.Avoids 30000000000 := by
  refine ⟨fun name spec => by simp [frail], fun r => ?_⟩
  by_cases slow : r.name = "slow" <;> simp [frail, slow]

/-- Of the four entries of a walk three are incomplete, and the score is made from the other. -/
theorem score_of_complete_entries_frail : ∃ s,
    ReflTransGen (Step (frail.responses 30000000000) 30) (.start (frailRelease "app") 1 2) s ∧
      s.Finished ∧ s.result.length = 4 ∧ s.result.countP (·.missingInfo.isSome) = 3 ∧
      (ScoreInput.mk {} {} [] s.result).score =
        (ScoreInput.mk {} {} [] (s.result.filter (·.missingInfo.isNone))).score := by
  obtain ⟨s, run, finished, outcome⟩ := exists_run_ofRelease 30 (responses_live frail_avoids)
    (responses_follow frail_avoids) (frailRelease "app") 1 2
  have entries : s.result.Perm
      (levels (frail.toAssessor 30000000000) 30 1 1 (start (frailRelease "app"))).entries := by
    have result : s.result = _ := (congrArg Result.entries outcome).symm
    rw [result]
    exact (List.mergeSort_perm _ _).trans (List.reverse_perm _)
  refine ⟨s, run, finished, ?_, ?_,
    score_of_complete_entries _ 30 1 2 (frailRelease "app") s run {} {} []⟩
  · rw [entries.length_eq]
    decide +kernel
  · rw [entries.countP_eq]
    decide +kernel

end PackageRisk.Walk
