import PackageRisk.Proofs.Analysis.Mended

/-!
# Failures of single lookups

Once the release is found, an analysis ends with a report. A lookup of its own that fails costs one
line among the warnings and nothing else: the report is the one that a neutral success in its place
would have led to. The lines stand in the order of the lookups, not in that of their failures, and
the lines about dependencies follow.
-/

namespace PackageRisk

/-- The line about a lookup that failed or took too long, if it did. -/
def complaint {α : Type} (what : String) (seconds : Nat) (activity : String) :
    Lookup α → List String
  | .done (.error failure) => [what ++ ": " ++ failure.message]
  | .hangs => [what ++ ": " ++ (Lookup.timeoutFailure seconds activity).message]
  | .done (.ok _) | .crashes => []

/-- The line about a dependency about which something is missing. -/
def DependencyEntry.complaint (e : DependencyEntry) : List String :=
  match e.missingInfo with
  | some info => ["dependency " ++ e.name ++ "@" ++ e.version ++ " incomplete: " ++ info]
  | none => []

namespace Analyzer

/-- A line for every lookup about a release that failed, in the order of the report, then the lines
about some entries. -/
def complaints (a : Analyzer) (r : Release) (entries : List DependencyEntry) : List String :=
  (publisherName? r).toList.flatMap (fun name =>
      complaint "publisher lookup failed" a.limits.timeoutSeconds ("fetching publisher " ++ name)
        (a.registry.publisher name)) ++
    complaint "download count unavailable" a.limits.timeoutSeconds
      ("fetching download counts for " ++ r.name) (a.registry.downloads r.name) ++
    a.sources.flatMap (fun source =>
      complaint (source.name ++ " advisories unavailable") a.limits.timeoutSeconds
        ("querying " ++ source.name ++ " advisories for " ++ r.ref.display)
        (source.query r.ref)) ++
    complaint "package contents not inspected" a.limits.timeoutSeconds
      ("downloading " ++ r.ref.display) (a.registry.tree r) ++
    entries.flatMap DependencyEntry.complaint

/-- The second analyzer is the first one, with lookups of its own about a release mended. -/
structure MendsRoot (r : Release) (a b : Analyzer) : Prop extends Mends (· = r.ref) a b where
  publisher : ∀ name, (a.registry.publisher name).Mended none (b.registry.publisher name)
  downloads : ∀ name, (a.registry.downloads name).Mended 0 (b.registry.downloads name)

/-- No task crashes that the analysis of a release cannot do without. -/
structure Steady (a : Analyzer) (r : Release) : Prop where
  publisher : ∀ name, publisherName? r = some name → a.registry.publisher name ≠ .crashes
  downloads : a.registry.downloads r.name ≠ .crashes
  tree : a.registry.tree r ≠ .crashes

variable {a b : Analyzer} {r : Release} {g h : Gathered} {name version : String}

/-! ## Warnings -/

theorem warning?_timed {α : Type} (a : Analyzer) (what activity : String) (l : Lookup α) :
    (warning? what (a.timed activity l)).toList =
      complaint what a.limits.timeoutSeconds activity l := by
  match l with
  | .done (.ok _) => rfl
  | .done (.error _) => rfl
  | .hangs => rfl
  | .crashes => rfl

theorem entryWarning?_eq (e : DependencyEntry) : (entryWarning? e).toList = e.complaint := by
  unfold entryWarning? DependencyEntry.complaint
  cases e.missingInfo <;> rfl

theorem Gathers.advisories_eq (gathers : a.Gathers r g) :
    g.advisories = PlacedReply.survivors (a.queryTimed r.ref) := by
  obtain ⟨replies, perm, eq⟩ := gathers.advisories
  rw [eq, PlacedReply.inPlace_of_perm perm]

/-- The lines about advisory sources stand in the order of the sources. -/
theorem Gathers.advisoryWarnings (gathers : a.Gathers r g) :
    (g.advisories.filterMap fun (source, result) =>
        warning? (source ++ " advisories unavailable") result) =
      a.sources.flatMap fun source =>
        complaint (source.name ++ " advisories unavailable") a.limits.timeoutSeconds
          ("querying " ++ source.name ++ " advisories for " ++ r.ref.display)
          (source.query r.ref) := by
  rw [gathers.advisories_eq, PlacedReply.filterMap_survivors _ fun _ => rfl, queryTimed,
    List.filterMap_map, List.filterMap_eq_flatMap_toList]
  exact List.flatMap_congr fun source _ => warning?_timed a _ _ _

/-- The line about the publisher is missing if nobody is asked for. -/
theorem publisherWarning (a : Analyzer) (r : Release) :
    (warning? "publisher lookup failed" (a.lookupPublisher r)).toList =
      (publisherName? r).toList.flatMap fun name =>
        complaint "publisher lookup failed" a.limits.timeoutSeconds
          ("fetching publisher " ++ name) (a.registry.publisher name) := by
  unfold lookupPublisher
  cases publisherName? r with
  | none => rfl
  | some name =>
    rw [warning?_timed]
    exact (List.append_nil _).symm

theorem filesWarning (a : Analyzer) (r : Release) :
    (warning? "package contents not inspected" (a.inspectRelease r)).toList =
      complaint "package contents not inspected" a.limits.timeoutSeconds
        ("downloading " ++ r.ref.display) (a.registry.tree r) := by
  rw [← warning?_timed, inspectRelease]
  cases a.timed ("downloading " ++ r.ref.display) (a.registry.tree r) with
  | done result => cases result <;> rfl
  | hangs => rfl
  | crashes => rfl

/-- The warnings are the lines about what failed. -/
theorem Gathers.warnings (gathers : a.Gathers r g) :
    g.warnings = a.complaints r g.dependencies := by
  have entries : g.dependencies.filterMap entryWarning? =
      g.dependencies.flatMap DependencyEntry.complaint := by
    rw [List.filterMap_eq_flatMap_toList]
    exact List.flatMap_congr fun e _ => entryWarning?_eq e
  rw [Gathered.warnings, complaints, gathers.publisher, publisherWarning, gathers.downloads,
    warning?_timed, gathers.advisoryWarnings, gathers.files, filesWarning, entries]

/-! ## Reports -/

theorem Gathered.crashed_eq_false (publisher : g.publisher ≠ .crashes)
    (downloads : g.downloads ≠ .crashes) (files : g.files ≠ .crashes) : g.crashed = false := by
  unfold Gathered.crashed
  cases hp : g.publisher <;> cases hd : g.downloads <;> cases hf : g.files <;> simp_all

theorem timed_ne_crashes {α : Type} {l : Lookup α} (a : Analyzer) (activity : String)
    (h : l ≠ .crashes) : a.timed activity l ≠ .crashes := by
  cases l with
  | crashes => exact absurd rfl h
  | hangs => nofun
  | done result => nofun

theorem Steady.lookupPublisher (steady : a.Steady r) : a.lookupPublisher r ≠ .crashes := by
  unfold Analyzer.lookupPublisher
  cases asked : publisherName? r with
  | none => nofun
  | some name => exact timed_ne_crashes a _ (steady.publisher name asked)

theorem Steady.inspectRelease (steady : a.Steady r) : a.inspectRelease r ≠ .crashes :=
  (a.inspectRelease_eq_crashes_iff r).not.mpr steady.tree

theorem Gathers.not_crashed (gathers : a.Gathers r g) (steady : a.Steady r) :
    g.crashed = false := by
  apply Gathered.crashed_eq_false
  · rw [gathers.publisher]
    exact steady.lookupPublisher
  · rw [gathers.downloads]
    exact timed_ne_crashes a _ steady.downloads
  · rw [gathers.files]
    exact steady.inspectRelease

/-- The order in which sources reply leaves no trace in the report. -/
theorem Gathers.report_eq (gathers : a.Gathers r g)
    (walked : g.dependencies = (a.walk r).entries) :
    g.report r a.now = (a.gather r).report r a.now := by
  have warnings : g.warnings = (a.gather r).warnings := by
    rw [Gathered.warnings, gathers.advisories_eq, PlacedReply.filterMap_survivors _ fun _ => rfl,
      gathers.publisher, gathers.downloads, gathers.files, walked]
    rfl
  simp only [Gathered.report, Gathered.evidence, warnings, gathers.publisher, gathers.downloads,
    gathers.files, gathers.advisories_eq, reportsOf_survivors, walked]
  rfl

/-- What is gathered when the sources reply in their own order. -/
theorem exists_gathers (a : Analyzer) (r : Release) (entries : List DependencyEntry) :
    ∃ g, a.Gathers r g ∧ g.dependencies = entries :=
  ⟨{ a.gather r with
      advisories := PlacedReply.inPlace (PlacedReply.ofResults (a.queryTimed r.ref) 0)
      dependencies := entries },
    ⟨rfl, rfl, ⟨_, .refl _, rfl⟩, rfl⟩, rfl⟩

/-- A release with a name and a version that the registry answers with is the one analysed. -/
theorem root_eq (found : a.registry.release name (requestedVersion version) = .answer r)
    (named : Text.isBlankText r.name = false) (numbered : Text.isBlankText r.version = false) :
    a.root name version = .answer r := by
  unfold root
  simp only [found, timed, Lookup.answer, Lookup.within, named, numbered, Bool.or_self,
    Bool.false_eq_true, if_false]

theorem analyze_of_root (root : a.root name version = .answer r) (steady : a.Steady r) :
    a.analyze name version = .answer ((a.gather r).report r a.now) := by
  have quiet : (a.gather r).crashed = false :=
    Gathered.crashed_eq_false steady.lookupPublisher (timed_ne_crashes a _ steady.downloads)
      steady.inspectRelease
  rw [analyze, root]
  simp only [Lookup.answer, quiet, Bool.false_eq_true, if_false]

/-! ## Mended analyses -/

theorem MendsRoot.lookupPublisher (mends : MendsRoot r a b) :
    (a.lookupPublisher r).Mended none (b.lookupPublisher r) := by
  unfold Analyzer.lookupPublisher Analyzer.timed
  rw [mends.limits]
  cases publisherName? r with
  | none => exact .unchanged
  | some name => exact (mends.publisher name).within _ _

theorem MendsRoot.gathered (mends : MendsRoot r a b) (first : a.Gathers r g)
    (second : b.Gathers r h) (walked : h.dependencies = g.dependencies) : g.Mends h where
  publisher := by
    rw [first.publisher, second.publisher]
    exact mends.lookupPublisher
  downloads := by
    rw [first.downloads, second.downloads, timed, timed, mends.limits]
    exact (mends.downloads r.name).within _ _
  advisories := by
    rw [first.advisories_eq, second.advisories_eq, reportsOf_survivors, reportsOf_survivors]
    exact merge_mended (mends.queryTimed r.ref)
  files := by
    rw [first.files, second.files]
    exact mends.inspectRelease r
  dependencies := walked

/-- Lookups about the root have no part in the walk. -/
theorem MendsRoot.walk (mends : MendsRoot r a b) : b.walk r = a.walk r := by
  have agree : Assessor.AgreesBelow r a.assessor b.assessor :=
    ⟨mends.release, fun d other => mends.assess (mends.waits_iff other)⟩
  rw [Analyzer.walk, Analyzer.walk, mends.limits, Walk.ofRelease_agree agree]

theorem MendsRoot.steady (mends : MendsRoot r a b) (steady : a.Steady r) : b.Steady r where
  publisher name asked :=
    (mends.publisher name).crashes_iff.not.mpr (steady.publisher name asked)
  downloads := (mends.downloads r.name).crashes_iff.not.mpr steady.downloads
  tree := (mends.tree r).crashes_iff.not.mpr steady.tree

/-- How the analysis of a release takes failures. -/
structure Degrades (a : Analyzer) (name version : String) (r : Release) : Prop where
  /-- There is a report, and it is the same in whatever order the sources reply. -/
  answers : ∃ report, a.analyze name version = .answer report ∧
    ∀ g, a.Gathers r g → g.dependencies = (a.walk r).entries → g.report r a.now = report
  /-- With any entries there is a report, and its warnings are the lines about what failed. -/
  warns : ∀ g, a.Gathers r g → g.crashed = false ∧
    (g.report r a.now).warnings = a.complaints r g.dependencies
  /-- With the same entries, mended lookups lead to the same report, its warnings apart. -/
  mends : ∀ b, MendsRoot r a b → ∀ g h, a.Gathers r g → b.Gathers r h →
    h.dependencies = g.dependencies →
    h.report r b.now = { g.report r a.now with warnings := b.complaints r g.dependencies }
  /-- The mended analysis has the same entries. -/
  walks : ∀ b, MendsRoot r a b → ∃ report, a.analyze name version = .answer report ∧
    b.analyze name version =
      .answer { report with warnings := b.complaints r report.dependencies }

/-- Every analysis of a release with a name and a version ends with a report, whatever becomes of
the lookups of its publisher, its downloads, its advisories and its files and whatever entries its
dependencies leave. A lookup that fails has one line among the warnings, in a fixed order, and the
rest of the report is what a neutral success would have led to. -/
theorem analyze_degrades (a : Analyzer) (name version : String) (r : Release)
    (found : a.registry.release name (requestedVersion version) = .answer r)
    (named : Text.isBlankText r.name = false) (numbered : Text.isBlankText r.version = false)
    (steady : a.Steady r) : a.Degrades name version r := by
  have analyzed := analyze_of_root (root_eq found named numbered) steady
  refine ⟨⟨_, analyzed, fun g gathers walked => gathers.report_eq walked⟩, ?_, ?_, ?_⟩
  · intro g gathers
    exact ⟨gathers.not_crashed steady, gathers.warnings⟩
  · intro b mends g h first second walked
    rw [mends.now, (mends.gathered first second walked).report, second.warnings, walked]
  · intro b mends
    have found' : b.registry.release name (requestedVersion version) = .answer r := by
      rw [mends.release, found]
    have analyzed' := analyze_of_root (root_eq found' named numbered) (mends.steady steady)
    refine ⟨_, analyzed, ?_⟩
    obtain ⟨g, first, walked⟩ := exists_gathers a r (a.walk r).entries
    obtain ⟨h, second, walked'⟩ := exists_gathers b r (b.walk r).entries
    have same : h.dependencies = g.dependencies := by rw [walked', walked, mends.walk]
    have report := (mends.gathered first second same).report r a.now
    rw [first.report_eq walked, second.warnings, same, walked] at report
    rw [analyzed', ← second.report_eq walked', mends.now, report]
    rfl

/-- A release with a maintainer. -/
def brokenRelease : Release :=
  { name := "app", version := "1.0.0", maintainers := ["ann"] }

/-- A registry that knows a release and fails at everything else. -/
def brokenRegistry : Registry where
  release _ _ := .answer brokenRelease
  publisher _ := .done (.error (.network "refused"))
  downloads _ := .hangs
  tree _ := .done (.error (.network "refused"))

/-- An analyzer of which only the release can be had. -/
def brokenAnalyzer : Analyzer where
  registry := brokenRegistry
  sources := [⟨"audit", fun _ => .hangs⟩, ⟨"osv", fun _ => .done (.error (.network "refused"))⟩]
  inspector := {}
  limits := {}
  now := ⟨0, 0, 0⟩

theorem walk_broken : (brokenAnalyzer.walk brokenRelease).entries = [] := by
  decide +kernel

/-- Every lookup fails, and each has its line. -/
theorem analyze_degrades_broken : ∃ report,
    brokenAnalyzer.analyze "app" "latest" = .answer report ∧
    report.warnings = [
      "publisher lookup failed: network error: refused",
      "download count unavailable: network error: timed out after 30s while " ++
        "fetching download counts for app",
      "audit advisories unavailable: network error: timed out after 30s while " ++
        "querying audit advisories for app@1.0.0",
      "osv advisories unavailable: network error: refused",
      "package contents not inspected: network error: refused"] := by
  have steady : brokenAnalyzer.Steady brokenRelease := ⟨fun _ _ => nofun, nofun, nofun⟩
  obtain ⟨⟨report, analyzed, settled⟩, warns, -, -⟩ := analyze_degrades brokenAnalyzer "app"
    "latest" brokenRelease rfl (by decide) (by decide) steady
  obtain ⟨g, gathers, walked⟩ := exists_gathers brokenAnalyzer brokenRelease []
  refine ⟨report, analyzed, ?_⟩
  rw [← settled g gathers (walked.trans walk_broken.symm), (warns g gathers).2, walked]
  decide

end Analyzer

end PackageRisk
