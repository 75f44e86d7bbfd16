import PackageRisk.Analysis.Report
import PackageRisk.Dependency.Walk
import PackageRisk.Inspection.Inspector

/-!
# Analysing packages

An analysis looks up a release, its publisher, its downloads, its advisories and its files, walks
its dependencies and scores what it found. Only a failure to find the release itself is fatal;
every other failure leaves a warning and a neutral value. A dependency is scored from its own
release, advisories and files.
-/

namespace PackageRisk

/-- Where packages come from. -/
structure Registry where
  release : (name requested : String) → Lookup Release
  publisher : (username : String) → Lookup (Option Publisher)
  downloads : (name : String) → Lookup Nat
  tree : Release → Lookup FileTree

/-- A database of advisories. -/
structure AdvisorySource where
  name : String
  query : PackageRef → Lookup AdvisoryReport

/-- The limits of an analysis. -/
structure AnalysisLimits where
  maxDepth : Nat := 3
  timeoutSeconds : Nat := 30
  inspectDependencyFiles : Bool := true
  extensions : List String := defaultExtensions
  deriving DecidableEq, Repr

/-- Everything that an analysis consults. -/
structure Analyzer where
  registry : Registry
  sources : List AdvisorySource
  inspector : Inspector
  limits : AnalysisLimits
  now : Instant

/-- What an analysis asked of the registry. -/
inductive RegistryCall where
  | release (name requested : String)
  | publisher (username : String)
  | downloads (name : String)
  | tree (package : PackageRef)
  deriving DecidableEq, Repr

namespace Analyzer

/-- A lookup of an analyzer, with its time limit. -/
def timed {α : Type} (a : Analyzer) (activity : String) (l : Lookup α) : Lookup α :=
  l.within a.limits.timeoutSeconds activity

/-- The findings in the files of a release. -/
def inspectRelease (a : Analyzer) (r : Release) : Lookup (List FileFinding) :=
  match a.timed ("downloading " ++ r.ref.display) (a.registry.tree r) with
  | .done (.ok tree) => .answer (a.inspector.inspectTree tree "" a.limits.extensions)
  | .done (.error failure) => .done (.error failure)
  | .hangs => .hangs
  | .crashes => .crashes

/-- The answers of the advisory sources that answered, in order. A source that crashed has none. -/
def reportsOf (results : List (String × Lookup AdvisoryReport)) : List AdvisoryReport :=
  results.filterMap fun (_, result) =>
    match result with
    | .done (.ok report) => some report
    | _ => none

/-- The answer of every source about a package, without a time limit. -/
def queryAll (a : Analyzer) (package : PackageRef) : List (String × Lookup AdvisoryReport) :=
  a.sources.map fun source => (source.name, source.query package)

/-- The score of a release by itself, from some advisory reports and findings. -/
def scoreAlone (a : Analyzer) (r : Release) (reports : List AdvisoryReport)
    (files : List FileFinding) : Assessment :=
  let score := ScoreInput.score
    { metrics := .ofRelease r none a.now, advisories := .merge reports, files := files }
  ⟨score.value, score.malwareDetected⟩

/-- Score a dependency. Files that cannot be had count for nothing, as do sources that fail. The
limit on the whole assessment strikes together with that on a single source, so a source that
hangs makes the assessment hang. -/
def assess (a : Analyzer) (r : Release) : Lookup Assessment :=
  let results := a.queryAll r.ref
  let files := if a.limits.inspectDependencyFiles then a.inspectRelease r else .answer []
  match files with
  | .crashes => .crashes
  | files =>
    if results.any (fun (_, result) => result matches .hangs) then .hangs
    else
      let findings :=
        match files with
        | .done (.ok findings) => findings
        | _ => []
      .answer (a.scoreAlone r (reportsOf results) findings)

/-- How the walk resolves and scores dependencies. -/
def assessor (a : Analyzer) : Assessor :=
  ⟨a.registry.release, a.assess⟩

/-- The user whose account speaks for a release: the first maintainer, or else the author. -/
def publisherName? (r : Release) : Option String :=
  (r.maintainers.head?.or r.author).filter fun name => !Text.isBlankText name

/-- Look up the publisher of a release. -/
def lookupPublisher (a : Analyzer) (r : Release) : Lookup (Option Publisher) :=
  match publisherName? r with
  | none => .answer none
  | some name => a.timed ("fetching publisher " ++ name) (a.registry.publisher name)

/-- The warning for a lookup that failed. -/
def warning? {α : Type} (what : String) : Lookup α → Option String
  | .done (.error failure) => some (what ++ ": " ++ failure.message)
  | _ => none

/-- The value of a lookup, or a neutral one if it failed. -/
def valueOr {α : Type} (neutral : α) : Lookup α → α
  | .done (.ok a) => a
  | _ => neutral

/-- The answer of every source about the root package, with a time limit. -/
def queryTimed (a : Analyzer) (package : PackageRef) : List (String × Lookup AdvisoryReport) :=
  a.sources.map fun source =>
    (source.name,
      a.timed ("querying " ++ source.name ++ " advisories for " ++ package.display)
        (source.query package))

/-- The warning for a dependency about which something is missing. -/
def entryWarning? (e : DependencyEntry) : Option String :=
  e.missingInfo.map fun info =>
    "dependency " ++ e.name ++ "@" ++ e.version ++ " incomplete: " ++ info

/-- What an analysis of a release gathers. -/
structure Gathered where
  publisher : Lookup (Option Publisher)
  downloads : Lookup Nat
  advisories : List (String × Lookup AdvisoryReport)
  files : Lookup (List FileFinding)
  dependencies : List DependencyEntry

/-- The warnings of what was gathered, in a fixed order. -/
def Gathered.warnings (g : Gathered) : List String :=
  (warning? "publisher lookup failed" g.publisher).toList ++
    (warning? "download count unavailable" g.downloads).toList ++
    (g.advisories.filterMap fun (source, result) =>
      warning? (source ++ " advisories unavailable") result) ++
    (warning? "package contents not inspected" g.files).toList ++
    g.dependencies.filterMap entryWarning?

/-- The evidence in what was gathered about a release. -/
def Gathered.evidence (g : Gathered) (r : Release) (now : Instant) : Evidence :=
  let publisher := valueOr none g.publisher
  { release := r
    monthlyDownloads := valueOr 0 g.downloads
    metrics := .ofRelease r publisher now
    publisherTrust := PackageRisk.publisherTrust publisher now
    advisories := .merge (reportsOf g.advisories)
    files := valueOr [] g.files
    dependencies := g.dependencies
    warnings := g.warnings }

/-- The walk of the dependencies of a release. -/
def walk (a : Analyzer) (r : Release) : Walk.Result :=
  Walk.ofRelease a.assessor a.limits.timeoutSeconds a.limits.maxDepth r

/-- Gather everything about a release. -/
def gather (a : Analyzer) (r : Release) : Gathered where
  publisher := a.lookupPublisher r
  downloads :=
    a.timed ("fetching download counts for " ++ r.name) (a.registry.downloads r.name)
  advisories := a.queryTimed r.ref
  files := a.inspectRelease r
  dependencies := (a.walk r).entries

/-- The report on a release from what was gathered about it. -/
def Gathered.report (g : Gathered) (r : Release) (now : Instant) : AnalysisReport :=
  let evidence := g.evidence r now
  evidence.report evidence.scoreInput.score

/-- A task that the analysis itself waits for crashed. -/
def Gathered.crashed (g : Gathered) : Bool :=
  g.publisher matches .crashes || g.downloads matches .crashes || g.files matches .crashes

/-- The requested version without blanks around it; a blank request means the latest version. -/
def requestedVersion (version : String) : String :=
  let text := Text.trim version
  if text = "" then "latest" else text

/-- The release to analyse; it must have a name and a version. -/
def root (a : Analyzer) (name version : String) : Lookup Release :=
  let requested := requestedVersion version
  match a.timed ("fetching metadata for " ++ name ++ "@" ++ requested)
      (a.registry.release name requested) with
  | .done (.ok r) =>
    if Text.isBlankText r.name || Text.isBlankText r.version then
      .done (.error (Failure.wrap name
        (.invalidScanResult "registry returned a package without name or version")))
    else .answer r
  | .done (.error failure) => .done (.error (failure.wrap name))
  | .hangs => .hangs
  | .crashes => .crashes

/-- Analyse a package in a requested version. -/
def analyze (a : Analyzer) (name version : String) : Lookup AnalysisReport :=
  match a.root name version with
  | .done (.ok r) =>
    let g := a.gather r
    if g.crashed then .crashes else .answer (g.report r a.now)
  | .done (.error failure) => .done (.error failure)
  | .hangs => .hangs
  | .crashes => .crashes

/-- What the registry is asked for on behalf of a step of the walk. -/
def callsOfWalk (a : Analyzer) : WalkCall → List RegistryCall
  | .resolve name spec => [.release name spec]
  | .assess package => if a.limits.inspectDependencyFiles then [.tree package] else []

/-- What the registry is asked for in an analysis. -/
def calls (a : Analyzer) (name version : String) : List RegistryCall :=
  .release name (requestedVersion version) ::
    match a.root name version with
    | .done (.ok r) =>
      (publisherName? r).toList.map .publisher ++ [.downloads r.name, .tree r.ref] ++
        (a.walk r).calls.flatMap a.callsOfWalk
    | _ => []

end Analyzer

end PackageRisk
