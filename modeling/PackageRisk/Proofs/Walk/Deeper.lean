import Mathlib.Data.List.Basic
import PackageRisk.Dependency.Walk

/-!
# Deeper and stricter walks

Two walks that resolve alike and assess everything they resolve take on the same requests and
releases in the same order, whatever their assessments are. So a walk that goes deeper and judges
more severely has a counterpart for every entry of the other one: the same package in the same
version, with malware if there was malware and with a score that is not higher.
-/

namespace PackageRisk

/-- The second assessment is not the better one. -/
structure Assessment.Darkens (x y : Assessment) : Prop where
  score : y.score ≤ x.score
  malware : x.malwareDetected = true → y.malwareDetected = true

/-- The second entry is about the same package and does not make it look better. -/
structure DependencyEntry.Darkens (e f : DependencyEntry) : Prop where
  name : f.name = e.name
  version : f.version = e.version
  malware : e.malwareDetected = true → f.malwareDetected = true
  score : ∀ n, e.score = some n → ∃ m, f.score = some m ∧ m ≤ n

theorem DependencyEntry.Darkens.refl (e : DependencyEntry) : e.Darkens e :=
  ⟨rfl, rfl, fun h => h, fun n h => ⟨n, h, Nat.le_refl n⟩⟩

/-- Two assessors that resolve alike, in finite time, and assess everything, the second one more
severely. -/
structure Assessor.Stricter (a b : Assessor) : Prop where
  resolve : b.resolve = a.resolve
  resolves : ∀ name spec, ∃ result, a.resolve name spec = .done result
  assess : ∀ r, ∃ x y, a.assess r = .answer x ∧ b.assess r = .answer y ∧ x.Darkens y

namespace Walk

variable {a b : Assessor} {s t : WalkState} {seconds seconds' depth : Nat}
  {request : DependencyRequest} {requests : List DependencyRequest} {frontier : List Release}

/-- The second walk has taken on the same, and has a counterpart for every entry. -/
structure Darkens (s t : WalkState) : Prop where
  taken : t.taken = s.taken
  next : t.next = s.next
  entries : ∀ e ∈ s.entries, ∃ f ∈ t.entries, e.Darkens f

theorem Darkens.assessRelease (strict : a.Stricter b) (h : Darkens s t) (r : Release) :
    Darkens (assessRelease a seconds depth request r s)
      (assessRelease b seconds' depth request r t) := by
  obtain ⟨x, y, first, second, darkens⟩ := strict.assess r
  unfold Walk.assessRelease
  rw [h.taken]
  split
  · exact h
  · simp only [first, second, Lookup.answer]
    refine ⟨rfl, by rw [h.next], fun e he => ?_⟩
    rcases List.mem_cons.mp he with rfl | he
    · refine ⟨_, List.mem_cons_self, rfl, rfl, darkens.malware, ?_⟩
      rintro n ⟨⟩
      exact ⟨y.score, rfl, darkens.score⟩
    · obtain ⟨f, hf, darker⟩ := h.entries e he
      exact ⟨f, List.mem_cons_of_mem _ hf, darker⟩

theorem Darkens.visit (strict : a.Stricter b) (h : Darkens s t) (request : DependencyRequest) :
    Darkens (visit a seconds depth s request) (visit b seconds' depth t request) := by
  obtain ⟨result, resolved⟩ := strict.resolves request.name request.spec
  unfold Walk.visit
  rw [h.taken, strict.resolve, resolved]
  split
  · exact h
  · cases result with
    | ok r =>
      have taken_on : Darkens
          { s with
            taken := { s.taken with
              requested := (request.name, request.spec) :: s.taken.requested }
            calls := .resolve request.name request.spec :: s.calls }
          { t with
            taken := { s.taken with
              requested := (request.name, request.spec) :: s.taken.requested }
            calls := .resolve request.name request.spec :: t.calls } :=
        ⟨rfl, h.next, h.entries⟩
      exact taken_on.assessRelease strict r
    | error failure =>
      refine ⟨rfl, h.next, fun e he => ?_⟩
      rcases List.mem_cons.mp he with rfl | he
      · exact ⟨_, List.mem_cons_self, .refl _⟩
      · obtain ⟨f, hf, darker⟩ := h.entries e he
        exact ⟨f, List.mem_cons_of_mem _ hf, darker⟩

theorem Darkens.level (strict : a.Stricter b) (h : Darkens s t) (frontier : List Release) :
    Darkens (level a seconds depth s frontier) (level b seconds' depth t frontier) := by
  have folded : ∀ {s t : WalkState}, Darkens s t →
      Darkens ((frontier.flatMap Release.requests).foldl (Walk.visit a seconds depth) s)
        ((frontier.flatMap Release.requests).foldl (Walk.visit b seconds' depth) t) := by
    induction frontier.flatMap Release.requests with
    | nil => exact fun h => h
    | cons request requests ih => exact fun h => ih (h.visit strict request)
  have start : Darkens { s with next := [] } { t with next := [] } := ⟨h.taken, rfl, h.entries⟩
  obtain ⟨taken, next, entries⟩ := folded start
  exact ⟨taken, by simp only [Walk.level, next], entries⟩

/-! ## More levels -/

theorem entries_assessRelease (r : Release) {entries : List DependencyEntry}
    (h : s.entries = entries) :
    entries ⊆ (assessRelease a seconds depth request r s).entries := by
  subst h
  rw [assessRelease]
  split
  · exact List.Subset.refl _
  · dsimp only
    split <;> simp

theorem entries_visit : s.entries ⊆ (visit a seconds depth s request).entries := by
  rw [visit]
  split
  · exact List.Subset.refl _
  · dsimp only
    split
    · exact entries_assessRelease _ rfl
    · simp
    · exact List.Subset.refl _
    · exact List.Subset.refl _

theorem entries_level : s.entries ⊆ (level a seconds depth s frontier).entries := by
  have folded (requests : List DependencyRequest) (s : WalkState) :
      s.entries ⊆ (requests.foldl (visit a seconds depth) s).entries := by
    induction requests generalizing s with
    | nil => exact List.Subset.refl _
    | cons request requests ih => exact List.Subset.trans entries_visit (ih _)
  exact folded (frontier.flatMap Release.requests) { s with next := [] }

/-- Entries stay. -/
theorem entries_levels (remaining depth : Nat) (s : WalkState) :
    s.entries ⊆ (levels a seconds remaining depth s).entries := by
  induction remaining generalizing depth s with
  | zero => exact List.Subset.refl _
  | succ remaining ih =>
    rw [levels]
    split
    · exact List.Subset.refl _
    · exact List.Subset.trans entries_level (ih _ _)

/-- A walk with at least as many levels has a counterpart for every entry. -/
theorem Darkens.levels (strict : a.Stricter b) {remaining more : Nat} (le : remaining ≤ more)
    (h : Darkens s t) (depth : Nat) :
    ∀ e ∈ (levels a seconds remaining depth s).entries,
      ∃ f ∈ (levels b seconds' more depth t).entries, e.Darkens f := by
  induction remaining generalizing more depth s t with
  | zero =>
    intro e he
    obtain ⟨f, hf, darker⟩ := h.entries e he
    exact ⟨f, entries_levels more depth t hf, darker⟩
  | succ remaining ih =>
    obtain ⟨more, rfl⟩ := Nat.exists_eq_add_of_le' (Nat.le_trans (Nat.succ_pos _) le)
    unfold Walk.levels
    rw [h.next]
    split
    · exact h.entries
    · exact ih (Nat.le_of_succ_le_succ le) (h.level strict s.next) (depth + 1)

theorem exists_darkens_ofRelease (strict : a.Stricter b) {maxDepth more : Nat}
    (le : maxDepth ≤ more) (root : Release) :
    ∀ e ∈ (ofRelease a seconds maxDepth root).entries,
      ∃ f ∈ (ofRelease b seconds' more root).entries, e.Darkens f := by
  have begun : Darkens (start root) (start root) := ⟨rfl, rfl, fun e he => ⟨e, he, .refl e⟩⟩
  intro e he
  simp only [ofRelease, List.mem_mergeSort, List.mem_reverse] at he ⊢
  exact begun.levels strict le 1 e he

end Walk

end PackageRisk
