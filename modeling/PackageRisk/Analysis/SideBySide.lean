import Mathlib.Data.List.Nodup
import PackageRisk.Analysis.Analyzer

/-!
# Advisory sources side by side

The sources are queried at the same time, each in a task of its own, so their replies come in in any
order; a task that crashes hands in nothing. A reply carries the place of its source, and what came
in is sorted by these places in the end. The outcome does not depend on the order.
-/

namespace PackageRisk

/-- What the task of a source hands in: its reply, with the place of the source. -/
structure PlacedReply where
  place : Nat
  source : String
  result : Lookup AdvisoryReport

namespace PlacedReply

/-- What the tasks of some sources hand in; the first source has the given place. -/
def ofResults : List (String × Lookup AdvisoryReport) → (place : Nat) → List PlacedReply
  | [], _ => []
  | (_, .crashes) :: results, place => ofResults results (place + 1)
  | (source, result) :: results, place => ⟨place, source, result⟩ :: ofResults results (place + 1)

/-- The results of the sources whose tasks did not crash. -/
def survivors (results : List (String × Lookup AdvisoryReport)) :
    List (String × Lookup AdvisoryReport) :=
  results.filter fun (_, result) => !(result matches .crashes)

/-- Replies by the places of their sources. -/
def inPlace (replies : List PlacedReply) : List (String × Lookup AdvisoryReport) :=
  (replies.mergeSort fun x y => decide (x.place ≤ y.place)).map fun reply =>
    (reply.source, reply.result)

end PlacedReply

/-- What an analysis may gather about a release: the sources reply in some order. Which entries the
walk of the dependencies ends with is left open. -/
structure Analyzer.Gathers (a : Analyzer) (r : Release) (g : Gathered) : Prop where
  publisher : g.publisher = a.lookupPublisher r
  downloads : g.downloads =
    a.timed ("fetching download counts for " ++ r.name) (a.registry.downloads r.name)
  advisories : ∃ replies, List.Perm replies (PlacedReply.ofResults (a.queryTimed r.ref) 0) ∧
    g.advisories = PlacedReply.inPlace replies
  files : g.files = a.inspectRelease r

/-! ## Independence of the order -/

namespace PlacedReply

variable {results : List (String × Lookup AdvisoryReport)} {replies : List PlacedReply}

theorem place_ofResults (results : List (String × Lookup AdvisoryReport)) (first : Nat) :
    (ofResults results first).Pairwise (·.place < ·.place) ∧
      ∀ reply ∈ ofResults results first, first ≤ reply.place := by
  have cons {first : Nat} {result : PlacedReply} {later : List PlacedReply}
      (place : result.place = first)
      (ascending : later.Pairwise (·.place < ·.place))
      (above : ∀ reply ∈ later, first < reply.place) :
      (result :: later).Pairwise (·.place < ·.place) ∧
        ∀ reply ∈ result :: later, first ≤ reply.place := by
    rw [List.pairwise_cons, List.forall_mem_cons, place]
    exact ⟨⟨above, ascending⟩, Nat.le_refl first, fun reply mem => Nat.le_of_lt (above reply mem)⟩
  induction results generalizing first with
  | nil => exact ⟨.nil, fun _ mem => absurd mem List.not_mem_nil⟩
  | cons result results ih =>
    obtain ⟨ascending, above⟩ := ih (first + 1)
    obtain ⟨source, result⟩ := result
    cases result with
    | crashes => exact ⟨ascending, fun reply mem => Nat.le_of_lt (above reply mem)⟩
    | hangs => exact cons rfl ascending above
    | done reply => exact cons rfl ascending above

theorem map_ofResults (results : List (String × Lookup AdvisoryReport)) (first : Nat) :
    (ofResults results first).map (fun reply => (reply.source, reply.result)) =
      survivors results := by
  induction results generalizing first with
  | nil => rfl
  | cons result results ih =>
    obtain ⟨source, result⟩ := result
    cases result with
    | crashes => exact ih (first + 1)
    | hangs => exact congrArg ((source, .hangs) :: ·) (ih (first + 1))
    | done reply => exact congrArg ((source, .done reply) :: ·) (ih (first + 1))

/-- Whatever order replies come in, they end up in the order of their sources. -/
theorem inPlace_of_perm (perm : replies.Perm (ofResults results 0)) :
    inPlace replies = survivors results := by
  obtain ⟨ascending, -⟩ := place_ofResults results 0
  have distinct : ((ofResults results 0).map place).Nodup :=
    List.pairwise_map.mpr (ascending.imp Nat.ne_of_lt)
  have sorted : (replies.mergeSort fun x y => decide (x.place ≤ y.place)).Pairwise
      fun x y => x.place ≤ y.place := by
    refine (List.pairwise_mergeSort ?_ ?_ replies).imp of_decide_eq_true
    · intro x y z hxy hyz
      exact decide_eq_true (Nat.le_trans (of_decide_eq_true hxy) (of_decide_eq_true hyz))
    · intro x y
      simpa using Nat.le_total x.place y.place
  have perm := (List.mergeSort_perm replies fun x y => decide (x.place ≤ y.place)).trans perm
  -- No two replies share a place, so the sorted list is the only one with these members.
  have same := perm.eq_of_pairwise (fun x y hx hy le ge =>
    List.inj_on_of_nodup_map distinct (perm.mem_iff.mp hx) hy (Nat.le_antisymm le ge))
    sorted (ascending.imp Nat.le_of_lt)
  rw [inPlace, same, map_ofResults]

/-- What takes no notice of a crash can be read off the survivors. -/
theorem filterMap_survivors {α : Type} (f : String × Lookup AdvisoryReport → Option α)
    (silent : ∀ source, f (source, .crashes) = none) :
    (survivors results).filterMap f = results.filterMap f := by
  rw [survivors, List.filterMap_filter]
  refine List.filterMap_congr fun (source, result) _ => ?_
  cases result with
  | crashes => exact (silent source).symm
  | hangs => rfl
  | done reply => rfl

end PlacedReply

theorem Analyzer.reportsOf_survivors (results : List (String × Lookup AdvisoryReport)) :
    reportsOf (PlacedReply.survivors results) = reportsOf results :=
  PlacedReply.filterMap_survivors _ fun _ => rfl

end PackageRisk
