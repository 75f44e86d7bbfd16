import PackageRisk.Analysis.SideBySide
import PackageRisk.Proofs.Analysis.Strictness
import PackageRisk.Proofs.Inspection.Malware
import PackageRisk.Proofs.Walk.Assessments

/-!
# Mended lookups

A lookup that fails is mended when a neutral success takes its place. Reports and scores are made of
the values of lookups, and a failed lookup has the neutral value, so a mended one changes neither.
-/

namespace PackageRisk

/-! ## Single lookups -/

namespace Lookup

variable {α : Type}

/-- The lookup ends with a failure or takes too long. -/
inductive Fails : Lookup α → Prop
  | failed (failure : Failure) : Fails (.done (.error failure))
  | late : Fails .hangs

/-- The second lookup is the first one, or a neutral success where the first one fails. -/
inductive Mended (neutral : α) (l : Lookup α) : Lookup α → Prop
  | unchanged : Mended neutral l l
  | mended (fails : l.Fails) : Mended neutral l (.answer neutral)

variable {neutral : α} {l l' : Lookup α}

/-- A lookup that never ends fails when its time is up. -/
theorem Fails.within (fails : l.Fails) (seconds : Nat) (activity : String) :
    ∃ failure, l.within seconds activity = .done (.error failure) := by
  cases fails with
  | failed failure => exact ⟨failure, rfl⟩
  | late => exact ⟨_, rfl⟩

theorem Mended.within (h : Mended neutral l l') (seconds : Nat) (activity : String) :
    Mended neutral (l.within seconds activity) (l'.within seconds activity) := by
  cases h with
  | unchanged => exact .unchanged
  | mended fails =>
    obtain ⟨failure, eq⟩ := fails.within seconds activity
    exact .mended (eq ▸ .failed failure)

/-- Mending does not change the value. -/
theorem Mended.valueOr (h : Mended neutral l l') :
    Analyzer.valueOr neutral l' = Analyzer.valueOr neutral l := by
  cases h with
  | unchanged => rfl
  | mended fails => cases fails <;> rfl

theorem Mended.crashes_iff (h : Mended neutral l l') : l' = .crashes ↔ l = .crashes := by
  cases h with
  | unchanged => rfl
  | mended fails => cases fails <;> exact ⟨nofun, nofun⟩

end Lookup

/-- The second source is the first one, with the queries about some packages mended. -/
structure AdvisorySource.Mends (concerned : PackageRef → Prop) (s t : AdvisorySource) : Prop where
  name : t.name = s.name
  query : ∀ package, (s.query package).Mended {} (t.query package)
  unconcerned : ∀ package, ¬ concerned package → t.query package = s.query package

/-- The second list of results has the same sources, and some results are mended. -/
def MendedResults (results mended : List (String × Lookup AdvisoryReport)) : Prop :=
  List.Forall₂ (fun p q => q.1 = p.1 ∧ p.2.Mended {} q.2) results mended

namespace Analyzer

variable {results mended : List (String × Lookup AdvisoryReport)}

/-- The advisories of all reports are those in the values of the lookups. -/
theorem flatMap_reportsOf (results : List (String × Lookup AdvisoryReport)) :
    (reportsOf results).flatMap AdvisoryReport.toList =
      results.flatMap fun p => (valueOr {} p.2).toList := by
  induction results with
  | nil => rfl
  | cons p results ih =>
    obtain ⟨source, result⟩ := p
    rw [List.flatMap_cons, ← ih]
    match result with
    | .done (.ok report) => rfl
    | .done (.error failure) => rfl
    | .hangs => rfl
    | .crashes => rfl

/-- Empty reports in place of failures do not change the merged report. -/
theorem merge_mended (h : MendedResults results mended) :
    AdvisoryReport.merge (reportsOf mended) = AdvisoryReport.merge (reportsOf results) := by
  have values : (results.flatMap fun p => (valueOr {} p.2).toList) =
      mended.flatMap fun p => (valueOr {} p.2).toList := by
    induction h with
    | nil => rfl
    | cons first _ ih => rw [List.flatMap_cons, List.flatMap_cons, ih, first.2.valueOr]
  simp only [AdvisoryReport.merge, AdvisoryReport.mergedEntries, flatMap_reportsOf, values]

/-! ## Gathered lookups -/

/-- The second collection is the first one with some lookups mended. -/
structure Gathered.Mends (g h : Gathered) : Prop where
  publisher : g.publisher.Mended none h.publisher
  downloads : g.downloads.Mended 0 h.downloads
  advisories : AdvisoryReport.merge (reportsOf h.advisories) = .merge (reportsOf g.advisories)
  files : g.files.Mended [] h.files
  dependencies : h.dependencies = g.dependencies

/-- Mended lookups lead to the same report, its warnings apart. -/
theorem Gathered.Mends.report {g h : Gathered} (mends : g.Mends h) (r : Release) (now : Instant) :
    h.report r now = { g.report r now with warnings := h.warnings } := by
  simp only [Gathered.report, Gathered.evidence, Evidence.report, Evidence.scoreInput,
    mends.publisher.valueOr, mends.downloads.valueOr, mends.files.valueOr, mends.advisories,
    mends.dependencies]

/-! ## Analyzers -/

variable {a b : Analyzer} {concerned : PackageRef → Prop} {d : Release}

/-- The second analyzer is the first one, with the advisories and files of some packages mended. -/
structure Mends (concerned : PackageRef → Prop) (a b : Analyzer) : Prop where
  release : b.registry.release = a.registry.release
  tree : ∀ r, (a.registry.tree r).Mended ∅ (b.registry.tree r)
  unconcerned : ∀ r, ¬ concerned r.ref → b.registry.tree r = a.registry.tree r
  sources : List.Forall₂ (AdvisorySource.Mends concerned) a.sources b.sources
  inspector : b.inspector = a.inspector
  limits : b.limits = a.limits
  now : b.now = a.now

theorem inspectTree_empty (inspector : Inspector) (extensions : List String) :
    inspector.inspectTree ∅ "" extensions = [] := by
  have none : (∅ : FileTree).sources "" extensions = [] := by
    rw [List.eq_nil_iff_forall_not_mem]
    intro file listed
    obtain ⟨path, content, name, entry, -⟩ := FileTree.mem_sources_root.mp listed
    exact absurd entry List.not_mem_nil
  rw [Inspector.inspectTree, none]
  rfl

theorem Mends.inspectRelease (h : Mends concerned a b) (r : Release) :
    (a.inspectRelease r).Mended [] (b.inspectRelease r) := by
  have timed := (h.tree r).within a.limits.timeoutSeconds ("downloading " ++ r.ref.display)
  unfold Analyzer.inspectRelease Analyzer.timed
  rw [h.inspector, h.limits]
  generalize (a.registry.tree r).within a.limits.timeoutSeconds _ = l at timed
  generalize (b.registry.tree r).within a.limits.timeoutSeconds _ = l' at timed
  cases timed with
  | unchanged => exact .unchanged
  | mended fails =>
    simp only [Lookup.answer, inspectTree_empty]
    cases fails with
    | failed failure => exact .mended (.failed failure)
    | late => exact .mended .late

theorem Mends.inspectRelease_eq (h : Mends concerned a b) {r : Release}
    (unconcerned : ¬ concerned r.ref) : b.inspectRelease r = a.inspectRelease r := by
  unfold Analyzer.inspectRelease Analyzer.timed
  rw [h.inspector, h.limits, h.unconcerned r unconcerned]

theorem Mends.queryAll (h : Mends concerned a b) (package : PackageRef) :
    MendedResults (a.queryAll package) (b.queryAll package) := by
  unfold MendedResults Analyzer.queryAll
  rw [List.forall₂_map_left_iff, List.forall₂_map_right_iff]
  exact h.sources.imp fun s t mends => ⟨mends.name, mends.query package⟩

theorem Mends.queryTimed (h : Mends concerned a b) (package : PackageRef) :
    MendedResults (a.queryTimed package) (b.queryTimed package) := by
  unfold MendedResults Analyzer.queryTimed Analyzer.timed
  rw [List.forall₂_map_left_iff, List.forall₂_map_right_iff, h.limits]
  refine h.sources.imp fun s t mends => ⟨mends.name, ?_⟩
  rw [mends.name]
  exact (mends.query package).within _ _

/-! ## Assessments -/

/-- Some query about the package never ends. -/
def Waits (a : Analyzer) (package : PackageRef) : Prop :=
  ∃ source ∈ a.sources, source.query package = .hangs

/-- The files of the release are asked for, and the task that does so crashes. -/
def Breaks (a : Analyzer) (d : Release) : Prop :=
  a.limits.inspectDependencyFiles = true ∧ a.registry.tree d = .crashes

theorem any_queryAll_iff (a : Analyzer) (package : PackageRef) :
    (a.queryAll package).any (fun (_, result) => result matches .hangs) = true ↔
      a.Waits package := by
  have hangs (l : Lookup AdvisoryReport) : (l matches .hangs) = true ↔ l = .hangs := by
    cases l <;> simp
  simp only [queryAll, List.any_map, List.any_eq_true, Function.comp_apply, hangs, Waits]

theorem inspectRelease_eq_crashes_iff (a : Analyzer) (d : Release) :
    a.inspectRelease d = .crashes ↔ a.registry.tree d = .crashes := by
  unfold Analyzer.inspectRelease Analyzer.timed
  match a.registry.tree d with
  | .done (.ok tree) => exact ⟨nofun, nofun⟩
  | .done (.error failure) => exact ⟨nofun, nofun⟩
  | .hangs => exact ⟨nofun, nofun⟩
  | .crashes => exact ⟨fun _ => rfl, fun _ => rfl⟩

/-- An assessment crashes with the task that fetches the files. -/
theorem assess_of_breaks (breaks : a.Breaks d) : a.assess d = .crashes := by
  unfold assess
  rw [if_pos breaks.1, (a.inspectRelease_eq_crashes_iff d).mpr breaks.2]

theorem assess_of_steady (steady : ¬ a.Breaks d) :
    a.assess d =
      if (a.queryAll d.ref).any (fun (_, result) => result matches .hangs) then .hangs
      else .answer (a.scoreAlone d (reportsOf (a.queryAll d.ref)) (a.dependencyFindings d)) := by
  have value : a.dependencyFindings d =
      valueOr [] (if a.limits.inspectDependencyFiles then a.inspectRelease d else .answer []) := by
    unfold dependencyFindings findings
    split <;> rfl
  have files : (if a.limits.inspectDependencyFiles then a.inspectRelease d else .answer []) ≠
      .crashes := by
    split
    · rename_i inspects
      exact fun crashed => steady ⟨inspects, (a.inspectRelease_eq_crashes_iff d).mp crashed⟩
    · nofun
  rw [value]
  unfold assess
  dsimp only
  generalize (if a.limits.inspectDependencyFiles then a.inspectRelease d else .answer []) = l
    at files
  cases l with
  | crashes => exact absurd rfl files
  | hangs => rfl
  | done result => cases result <;> rfl

/-- Unless it crashes, an assessment takes too long if some query does. -/
theorem assess_of_waits (steady : ¬ a.Breaks d) (waits : a.Waits d.ref) :
    a.assess d = .hangs := by
  rw [assess_of_steady steady, if_pos ((a.any_queryAll_iff d.ref).mpr waits)]

/-- An assessment that comes to an end scores the release from whatever was answered. -/
theorem assess_of_replies (steady : ¬ a.Breaks d) (replies : ¬ a.Waits d.ref) :
    a.assess d =
      .answer (a.scoreAlone d (reportsOf (a.queryAll d.ref)) (a.dependencyFindings d)) := by
  rw [assess_of_steady steady, if_neg ((a.any_queryAll_iff d.ref).not.mpr replies)]

theorem Mends.findings (h : Mends concerned a b) (r : Release) : b.findings r = a.findings r :=
  (h.inspectRelease r).valueOr

theorem Mends.dependencyFindings (h : Mends concerned a b) (r : Release) :
    b.dependencyFindings r = a.dependencyFindings r := by
  unfold Analyzer.dependencyFindings
  rw [h.limits, h.findings]

theorem Mends.scoreAlone (h : Mends concerned a b) (r : Release) :
    b.scoreAlone r (reportsOf (b.queryAll r.ref)) (b.dependencyFindings r) =
      a.scoreAlone r (reportsOf (a.queryAll r.ref)) (a.dependencyFindings r) := by
  unfold Analyzer.scoreAlone
  rw [h.now, h.dependencyFindings, merge_mended (h.queryAll r.ref)]

/-- Mending changes no assessment, as long as no query ends that took too long before. -/
theorem Mends.assess (h : Mends concerned a b) (waits : b.Waits d.ref ↔ a.Waits d.ref) :
    b.assess d = a.assess d := by
  -- A crash is no failure, so mending leaves it, and the three ways to end stay apart.
  have breaks : b.Breaks d ↔ a.Breaks d := by
    rw [Breaks, Breaks, h.limits, (h.tree d).crashes_iff]
  by_cases broken : a.Breaks d
  · rw [assess_of_breaks broken, assess_of_breaks (breaks.mpr broken)]
  · have steady := breaks.not.mpr broken
    by_cases waiting : a.Waits d.ref
    · rw [assess_of_waits broken waiting, assess_of_waits steady (waits.mpr waiting)]
    · rw [assess_of_replies broken waiting, assess_of_replies steady (waits.not.mpr waiting),
        h.scoreAlone]

theorem Mends.queryAll_eq (h : Mends concerned a b) {package : PackageRef}
    (unconcerned : ¬ concerned package) : b.queryAll package = a.queryAll package := by
  symm
  unfold Analyzer.queryAll
  rw [← List.forall₂_eq_eq_eq, List.forall₂_map_left_iff, List.forall₂_map_right_iff]
  refine h.sources.imp fun s t mends => ?_
  rw [mends.name, mends.unconcerned package unconcerned]

theorem Mends.queryTimed_eq (h : Mends concerned a b) {package : PackageRef}
    (unconcerned : ¬ concerned package) : b.queryTimed package = a.queryTimed package := by
  symm
  unfold Analyzer.queryTimed Analyzer.timed
  rw [← List.forall₂_eq_eq_eq, List.forall₂_map_left_iff, List.forall₂_map_right_iff, h.limits]
  refine h.sources.imp fun s t mends => ?_
  rw [mends.name, mends.unconcerned package unconcerned]

/-- Queries about packages that mending does not concern take too long as they did before. -/
theorem Mends.waits_iff (h : Mends concerned a b) {package : PackageRef}
    (unconcerned : ¬ concerned package) : b.Waits package ↔ a.Waits package := by
  rw [← any_queryAll_iff, ← any_queryAll_iff, h.queryAll_eq unconcerned]

end Analyzer

end PackageRisk
