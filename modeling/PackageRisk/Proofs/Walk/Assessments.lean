import Mathlib.Data.List.Basic
import PackageRisk.Dependency.Walk

/-!
# What a walk makes of assessments

The root is taken on before a walk begins, so its assessment is never asked for: assessors that
resolve alike and agree on everything else lead to the same walk. What is assessed leaves an entry
that tells how the assessment ended, unless the task crashed, and entries about releases come from
assessments only.
-/

namespace PackageRisk

/-- Two assessors resolve alike and agree on all releases but the root. -/
structure Assessor.AgreesBelow (root : Release) (a b : Assessor) : Prop where
  resolve : b.resolve = a.resolve
  assess : ∀ d, d.ref ≠ root.ref → b.assess d = a.assess d

namespace Walk

variable {a b : Assessor} {root : Release} {seconds depth : Nat} {s : WalkState}

/-! ## Walks that agree -/

theorem resolved_assessRelease (request : DependencyRequest) (d : Release)
    {resolved : List PackageRef} (h : s.taken.resolved = resolved) :
    resolved ⊆ (assessRelease a seconds depth request d s).taken.resolved := by
  subst h
  unfold assessRelease
  split
  · exact List.Subset.refl _
  · dsimp only
    split <;> exact List.subset_cons_self _ _

/-- What is taken on stays so. -/
theorem resolved_visit (request : DependencyRequest) :
    s.taken.resolved ⊆ (visit a seconds depth s request).taken.resolved := by
  unfold visit
  split
  · exact List.Subset.refl _
  · dsimp only
    split
    · exact resolved_assessRelease request _ rfl
    · exact List.Subset.refl _
    · exact List.Subset.refl _
    · exact List.Subset.refl _

theorem resolved_visits (requests : List DependencyRequest) :
    s.taken.resolved ⊆ (requests.foldl (visit a seconds depth) s).taken.resolved := by
  induction requests generalizing s with
  | nil => exact List.Subset.refl _
  | cons request requests ih => exact List.Subset.trans (resolved_visit request) ih

section Agreement

variable (agree : Assessor.AgreesBelow root a b)

include agree

theorem assessRelease_agree (request : DependencyRequest) (d : Release)
    (taken : root.ref ∈ s.taken.resolved) :
    assessRelease b seconds depth request d s = assessRelease a seconds depth request d s := by
  unfold assessRelease
  split
  · rfl
  · rename_i free
    have other : d.ref ≠ root.ref := by
      intro same
      exact free (same ▸ taken)
    simp only [agree.assess d other]

theorem visit_agree (request : DependencyRequest) (taken : root.ref ∈ s.taken.resolved) :
    visit b seconds depth s request = visit a seconds depth s request := by
  unfold visit
  rw [agree.resolve]
  split
  · rfl
  · dsimp only
    split
    · exact assessRelease_agree agree request _ taken
    · rfl
    · rfl
    · rfl

theorem visits_agree (requests : List DependencyRequest) (taken : root.ref ∈ s.taken.resolved) :
    requests.foldl (visit b seconds depth) s = requests.foldl (visit a seconds depth) s := by
  induction requests generalizing s with
  | nil => rfl
  | cons request requests ih =>
    rw [List.foldl_cons, List.foldl_cons, visit_agree agree request taken]
    exact ih (resolved_visit request taken)

theorem levels_agree (remaining depth : Nat) (taken : root.ref ∈ s.taken.resolved) :
    levels b seconds remaining depth s = levels a seconds remaining depth s := by
  induction remaining generalizing depth s with
  | zero => rfl
  | succ remaining ih =>
    have same : level b seconds depth s s.next = level a seconds depth s s.next := by
      simp only [level, visits_agree agree _ (s := { s with next := [] }) taken]
    rw [levels, levels, same]
    split
    · rfl
    · exact ih _ (resolved_visits _ taken)

/-- Assessors that agree below the root lead to the same walk. -/
theorem ofRelease_agree (seconds maxDepth : Nat) :
    ofRelease b seconds maxDepth root = ofRelease a seconds maxDepth root := by
  unfold ofRelease
  rw [levels_agree agree maxDepth 1 (List.mem_singleton_self _)]

end Agreement

/-! ## Entries about assessments -/

/-- The entry of a release that a request was resolved to, by the way its assessment ended. -/
inductive EntryOf (a : Assessor) (seconds : Nat) (d : Release) : DependencyEntry → Prop
  | assessed {request : DependencyRequest} {depth : Nat} {assessment : Assessment}
      (resolve : a.resolve request.name request.spec = .answer d)
      (assess : a.assess d = .answer assessment) :
      EntryOf a seconds d (assessedEntry request depth d assessment)
  | unassessed {request : DependencyRequest} {depth : Nat}
      (resolve : a.resolve request.name request.spec = .answer d) (assess : a.assess d = .hangs) :
      EntryOf a seconds d (unassessedEntry request depth seconds d)

/-- Something is missing about a release exactly when its assessment took too long. -/
theorem EntryOf.isSome_missingInfo {d : Release} {e : DependencyEntry}
    (h : EntryOf a seconds d e) : e.missingInfo.isSome = true ↔ a.assess d = .hangs := by
  cases h with
  | assessed resolve assess =>
    rw [assess]
    exact ⟨nofun, nofun⟩
  | unassessed resolve assess => exact iff_of_true rfl assess

/-- The task that assesses a release leaves nothing behind. -/
def Loses (a : Assessor) (d : Release) : Prop :=
  a.assess d = .crashes ∨ ∃ failure, a.assess d = .done (.error failure)

/-- Every assessment asked for leaves an entry unless its task is lost, and every entry that tells
of a release comes from an assessment. -/
structure Accounts (a : Assessor) (seconds : Nat) (calls : List WalkCall)
    (entries : List DependencyEntry) : Prop where
  visited : ∀ package, .assess package ∈ calls → ∃ d : Release, d.ref = package ∧
    ((∃ e ∈ entries, EntryOf a seconds d e) ∨ Loses a d)
  told : ∀ e ∈ entries, e.latest.isSome = true → ∃ d, EntryOf a seconds d e

section Accounts

variable {calls : List WalkCall} {entries : List DependencyEntry} {d : Release}

/-- A request may be resolved without an assessment. -/
theorem Accounts.resolve (h : Accounts a seconds calls entries) (name spec : String) :
    Accounts a seconds (.resolve name spec :: calls) entries := by
  refine ⟨fun package called => h.visited package ?_, h.told⟩
  rcases List.mem_cons.mp called with same | called
  · cases same
  · exact called

/-- An entry that tells of no release may be added. -/
theorem Accounts.unresolved {e : DependencyEntry} (h : Accounts a seconds calls entries)
    (latest : e.latest = none) : Accounts a seconds calls (e :: entries) where
  visited package called := by
    obtain ⟨d, ref, outcome⟩ := h.visited package called
    refine ⟨d, ref, outcome.imp_left ?_⟩
    rintro ⟨f, hf, about⟩
    exact ⟨f, List.mem_cons_of_mem e hf, about⟩
  told := by
    refine List.forall_mem_cons.mpr ⟨?_, h.told⟩
    rw [latest]
    nofun

/-- An assessment may be asked for and leave its entry. -/
theorem Accounts.recorded {e : DependencyEntry} (h : Accounts a seconds calls entries)
    (about : EntryOf a seconds d e) :
    Accounts a seconds (.assess d.ref :: calls) (e :: entries) where
  visited package called := by
    rcases List.mem_cons.mp called with same | called
    · cases same
      exact ⟨d, rfl, .inl ⟨e, List.mem_cons_self, about⟩⟩
    · obtain ⟨d', ref, outcome⟩ := h.visited package called
      refine ⟨d', ref, outcome.imp_left ?_⟩
      rintro ⟨f, hf, about⟩
      exact ⟨f, List.mem_cons_of_mem e hf, about⟩
  told := List.forall_mem_cons.mpr ⟨fun _ => ⟨d, about⟩, h.told⟩

/-- An assessment may be asked for whose task is lost. -/
theorem Accounts.lost (h : Accounts a seconds calls entries) (lost : Loses a d) :
    Accounts a seconds (.assess d.ref :: calls) entries where
  visited package called := by
    rcases List.mem_cons.mp called with same | called
    · cases same
      exact ⟨d, rfl, .inr lost⟩
    · exact h.visited package called
  told := h.told

theorem Accounts.assessRelease {request : DependencyRequest}
    (h : Accounts a seconds s.calls s.entries)
    (resolve : a.resolve request.name request.spec = .answer d) :
    Accounts a seconds (assessRelease a seconds depth request d s).calls
      (assessRelease a seconds depth request d s).entries := by
  unfold Walk.assessRelease
  split
  · exact h
  · dsimp only
    split
    · rename_i assessment assess
      exact h.recorded (.assessed resolve assess)
    · rename_i assess
      exact h.recorded (.unassessed resolve assess)
    · rename_i failure assess
      exact h.lost (.inr ⟨failure, assess⟩)
    · rename_i assess
      exact h.lost (.inl assess)

theorem Accounts.visit (h : Accounts a seconds s.calls s.entries) (request : DependencyRequest) :
    Accounts a seconds (visit a seconds depth s request).calls
      (visit a seconds depth s request).entries := by
  have asked := h.resolve request.name request.spec
  unfold Walk.visit
  split
  · exact h
  · cases resolve : a.resolve request.name request.spec with
    | hangs => exact asked.unresolved rfl
    | crashes => exact asked
    | done result =>
      cases result with
      | error failure => exact asked.unresolved rfl
      | ok d => exact Accounts.assessRelease asked resolve

theorem Accounts.level (h : Accounts a seconds s.calls s.entries) (frontier : List Release) :
    Accounts a seconds (level a seconds depth s frontier).calls
      (level a seconds depth s frontier).entries := by
  have visits (requests : List DependencyRequest) {s : WalkState}
      (h : Accounts a seconds s.calls s.entries) :
      Accounts a seconds (requests.foldl (Walk.visit a seconds depth) s).calls
        (requests.foldl (Walk.visit a seconds depth) s).entries := by
    induction requests generalizing s with
    | nil => exact h
    | cons request requests ih => exact ih (h.visit request)
  exact visits (frontier.flatMap Release.requests) (s := { s with next := [] }) h

theorem Accounts.levels (h : Accounts a seconds s.calls s.entries) (remaining depth : Nat) :
    Accounts a seconds (levels a seconds remaining depth s).calls
      (levels a seconds remaining depth s).entries := by
  induction remaining generalizing depth s with
  | zero => exact h
  | succ remaining ih =>
    rw [Walk.levels]
    split
    · exact h
    · exact ih (h.level s.next) (depth + 1)

/-- The entries of a walk account for what it assessed. -/
theorem accounts_ofRelease (a : Assessor) (seconds maxDepth : Nat) (root : Release) :
    Accounts a seconds (ofRelease a seconds maxDepth root).calls
      (ofRelease a seconds maxDepth root).entries := by
  have begun : Accounts a seconds (start root).calls (start root).entries :=
    ⟨fun _ called => absurd called List.not_mem_nil, fun _ he => absurd he List.not_mem_nil⟩
  obtain ⟨visited, told⟩ := begun.levels maxDepth 1
  constructor
  · intro package called
    obtain ⟨d, ref, outcome⟩ := visited package (by simpa [ofRelease] using called)
    refine ⟨d, ref, outcome.imp_left ?_⟩
    rintro ⟨e, he, about⟩
    exact ⟨e, by simpa [ofRelease] using he, about⟩
  · intro e he
    exact told e (by simpa [ofRelease] using he)

end Accounts

end Walk

end PackageRisk
