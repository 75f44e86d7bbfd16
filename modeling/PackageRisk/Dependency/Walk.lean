import PackageRisk.Dependency.Lookup
import PackageRisk.Score.Ledger

/-!
# Walking dependencies

A walk visits the dependencies of a release level by level. A request is taken on by name and
declared version before it is resolved, and a release by name and resolved version before it is
assessed, so cycles and diamonds end and nothing is assessed twice. A request that cannot be
resolved and an assessment that takes too long leave an entry that says so; only releases that
were assessed are expanded.
-/

namespace PackageRisk

/-- The outcome of scoring a dependency by itself. -/
structure Assessment where
  score : Nat
  malwareDetected : Bool
  deriving DecidableEq, Repr

/-- How dependencies are resolved and scored. -/
structure Assessor where
  resolve : (name spec : String) → Lookup Release
  assess : Release → Lookup Assessment

/-- What a walk has asked for. -/
inductive WalkCall where
  | resolve (name spec : String)
  | assess (package : PackageRef)
  deriving DecidableEq, Repr

/-- What a walk has taken on so far. -/
structure Taken where
  requested : List (String × String) := []
  resolved : List PackageRef := []
  deriving DecidableEq, Repr

/-- The state of a walk within a level: what is taken on, calls and entries so far, and the releases
to expand on the next level. Calls and entries stand last first. -/
structure WalkState where
  taken : Taken := {}
  calls : List WalkCall := []
  entries : List DependencyEntry := []
  next : List Release := []

namespace Walk

/-- The entry of a request that could not be resolved. An unknown package has no score; when the
network failed it has the neutral one. -/
def unresolvedEntry (request : DependencyRequest) (depth : Nat) (failure : Failure) :
    DependencyEntry where
  name := request.name
  version := request.spec
  depth := depth
  kind := request.kind
  score := if failure.isNetwork then some neutralScore else none
  malwareDetected := false
  missingInfo := some failure.message

/-- The entry of a release whose assessment took too long. -/
def unassessedEntry (request : DependencyRequest) (depth seconds : Nat) (release : Release) :
    DependencyEntry where
  name := release.name
  version := release.version
  depth := depth
  kind := request.kind
  score := some neutralScore
  malwareDetected := false
  latest := some release.latest
  missingInfo := some ("assessment timed out after " ++ toString seconds ++ "s")

/-- The entry of a release that was assessed. -/
def assessedEntry (request : DependencyRequest) (depth : Nat) (release : Release)
    (assessment : Assessment) : DependencyEntry where
  name := release.name
  version := release.version
  depth := depth
  kind := request.kind
  score := some assessment.score
  malwareDetected := assessment.malwareDetected
  latest := some release.latest

/-- What is being resolved, in words. -/
def resolving (name spec : String) : String :=
  "resolving " ++ name ++ "@" ++ spec

/-- Assess a release that a request was resolved to, unless it is taken on already. -/
def assessRelease (assessor : Assessor) (seconds depth : Nat) (request : DependencyRequest)
    (release : Release) (s : WalkState) : WalkState :=
  if release.ref ∈ s.taken.resolved then s
  else
    let s := { s with
      taken := { s.taken with resolved := release.ref :: s.taken.resolved }
      calls := .assess release.ref :: s.calls }
    match assessor.assess release with
    | .done (.ok assessment) =>
      { s with
        entries := assessedEntry request depth release assessment :: s.entries
        next := release :: s.next }
    | .hangs => { s with entries := unassessedEntry request depth seconds release :: s.entries }
    | .done (.error _) | .crashes => s

/-- Visit a request, unless it is taken on already. -/
def visit (assessor : Assessor) (seconds depth : Nat) (s : WalkState)
    (request : DependencyRequest) : WalkState :=
  if (request.name, request.spec) ∈ s.taken.requested then s
  else
    let s := { s with
      taken := { s.taken with
        requested := (request.name, request.spec) :: s.taken.requested }
      calls := .resolve request.name request.spec :: s.calls }
    match (assessor.resolve request.name request.spec).within seconds
        (resolving request.name request.spec) with
    | .done (.ok release) => assessRelease assessor seconds depth request release s
    | .done (.error failure) =>
      { s with entries := unresolvedEntry request depth failure :: s.entries }
    | .hangs | .crashes => s

/-- Releases in the order of their names and versions. -/
def releaseLe (a b : Release) : Bool :=
  if a.name < b.name then true
  else if b.name < a.name then false
  else decide (a.version ≤ b.version)

/-- Visit all requests of some releases; the releases to expand next are then in order. -/
def level (assessor : Assessor) (seconds depth : Nat) (s : WalkState)
    (frontier : List Release) : WalkState :=
  let requests := frontier.flatMap Release.requests
  let s := requests.foldl (visit assessor seconds depth) { s with next := [] }
  { s with next := s.next.reverse.mergeSort releaseLe }

/-- Visit level after level while levels remain and there is something to expand. -/
def levels (assessor : Assessor) (seconds : Nat) :
    (remaining depth : Nat) → WalkState → WalkState
  | 0, _, s => s
  | remaining + 1, depth, s =>
    if s.next.isEmpty then s
    else levels assessor seconds remaining (depth + 1) (level assessor seconds depth s s.next)

/-- Entries by depth, name and version. -/
def entryLe (a b : DependencyEntry) : Bool :=
  if a.depth < b.depth then true
  else if b.depth < a.depth then false
  else if a.name < b.name then true
  else if b.name < a.name then false
  else decide (a.version ≤ b.version)

/-- What a walk found and what it asked for, in order. -/
structure Result where
  entries : List DependencyEntry
  calls : List WalkCall
  deriving DecidableEq, Repr

/-- The state of a walk before its first level: the root is taken on and to be expanded. -/
def start (root : Release) : WalkState where
  taken := ⟨[], [root.ref]⟩
  next := [root]

/-- Walk the dependencies of a release, `maxDepth` levels deep. -/
def ofRelease (assessor : Assessor) (seconds maxDepth : Nat) (root : Release) : Result :=
  let s := levels assessor seconds maxDepth 1 (start root)
  ⟨s.entries.reverse.mergeSort entryLe, s.calls.reverse⟩

/-- The most permits for lookups at a time that there can be. -/
def mostPermits : Nat := Nat.pow 2 61 - 1

/-- Resolve a package and walk its dependencies. The walk asks for its permits before its first
level and crashes when it asks for more than there can be. -/
def ofRequest (assessor : Assessor) (seconds maxDepth maxConcurrency : Nat) (name spec : String) :
    Lookup Result × List WalkCall :=
  match (assessor.resolve name spec).within seconds (resolving name spec) with
  | .done (.ok root) =>
    if mostPermits < maxConcurrency then (.crashes, [.resolve name spec])
    else
      let result := ofRelease assessor seconds maxDepth root
      (.answer result, .resolve name spec :: result.calls)
  | .done (.error failure) => (.done (.error failure), [.resolve name spec])
  | .hangs => (.hangs, [.resolve name spec])
  | .crashes => (.crashes, [.resolve name spec])

end Walk

end PackageRisk
