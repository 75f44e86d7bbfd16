import PackageRisk.Advisory.Basic
import PackageRisk.Json.Decode
import PackageRisk.Json.Writer
import PackageRisk.Package.Release
import PackageRisk.Registry.Service
import PackageRisk.Web.Exchange

/-!
# Registry audits

Advisories from the audit service of a registry. It answers with a bucket for each severity, each
either a bare count or a list of entries; advisories without an id of their own get one that
names the package, the severity and their number.
-/

namespace PackageRisk.Audit

open Json

/-- The name under which the audit service is listed as a source. -/
def sourceName : String := "npm-audit"

/-- An entry of a bucket. -/
inductive Entry where
  | name (id : String)
  | advisory (id source : Option Value) (title : Option String) (cves : List String)

/-- A bucket of an answer. -/
inductive Bucket where
  | count (n : Nat)
  | entries (entries : List Entry)

/-- The buckets of an answer. -/
structure Buckets where
  critical : Bucket := .count 0
  high : Bucket := .count 0
  moderate : Bucket := .count 0
  low : Bucket := .count 0

/-- Read an entry. -/
def listed? : Value → Option Entry
  | .str id => some (.name id)
  | v => do
    let values ← objectMembers?
      [⟨["id"], false⟩, ⟨["source"], false⟩, ⟨["title"], false⟩, ⟨["cves"], true⟩] v
    return .advisory (← optional? some (memberAt values 0)) (← optional? some (memberAt values 1))
      (← optional? text? (memberAt values 2)) (← withDefault? [] (list? text?) (memberAt values 3))

/-- Read a bucket, which stands inside three objects. -/
def bucket? (v : Value) : Option Bucket := do
  match ← free? 3 v with
  | .arr elements => (elements.mapM listed?).map .entries
  | v => (unsigned? v).map .count

/-- Read the buckets. -/
def buckets? (v : Value) : Option Buckets := do
  let values ← recordMembers?
    [⟨["critical"], true⟩, ⟨["high"], true⟩, ⟨["moderate"], true⟩, ⟨["low"], true⟩] v
  let read (i : Nat) := withDefault? (.count 0) bucket? (memberAt values i)
  return ⟨← read 0, ← read 1, ← read 2, ← read 3⟩

/-- Read an answer; it may have no buckets at all. -/
def answer? (v : Value) : Option (Option Buckets) := do
  let metadata? (v : Value) : Option (Option Buckets) := do
    let values ← recordMembers? [⟨["vulnerabilities"], false⟩] v
    optional? buckets? (memberAt values 0)
  let values ← recordMembers? [⟨["metadata"], false⟩] v
  return (← optional? metadata? (memberAt values 0)).join

/-- The id of an advisory that has none of its own. -/
def syntheticId (package : PackageRef) (severity : Severity) (index : Nat) : String :=
  "npm-audit:" ++ package.display ++ ":" ++ severity.label ++ ":" ++ toString (index + 1)

/-- The id that a free value stands for. -/
def idText? : Option Value → Option String
  | some (.str s) => some s
  | some (.int n) => some (toString n)
  | some (.float x) => some (floatText x)
  | _ => none

/-- The advisory of an entry. -/
def Entry.toAdvisory (package : PackageRef) (severity : Severity) (index : Nat) :
    Entry → Advisory
  | .name id => { id := id, title := id, severity := severity, sources := [sourceName] }
  | .advisory id source title cves =>
    let id := (idText? (id.or source)).getD (syntheticId package severity index)
    { id := id, aliases := cves, title := title.getD id, severity := severity,
      sources := [sourceName] }

/-- The advisories of a bucket. -/
def Bucket.advisories (package : PackageRef) (severity : Severity) : Bucket → List Advisory
  | .count n =>
    (List.range n).map fun i =>
      { id := syntheticId package severity i
        title := severity.label ++ " severity advisory reported by npm audit"
        severity := severity
        sources := [sourceName] }
  | .entries listed => listed.mapIdx fun i e => e.toAdvisory package severity i

/-- The report of an answer. -/
def report (package : PackageRef) : Option Buckets → AdvisoryReport
  | none => {}
  | some b =>
    { critical := b.critical.advisories package .critical
      high := b.high.advisories package .high
      moderate := b.moderate.advisories package .medium
      low := b.low.advisories package .low }

/-- What is posted to the audit service. -/
def question (package : PackageRef) : Value :=
  .obj [("name", .str package.name), ("version", .str package.version),
    ("requires", .obj [(package.name, .str package.version)])]

/-- Ask the audit service of a registry about a package. -/
def query (service : RegistryService) (network : Network) (package : PackageRef) :
    Except Failure AdvisoryReport :=
  match exchange network (service.address "-/npm/v1/security/audits")
      (some (question package)) with
  | .error fault => .error (fault.detailed "unable to query npm audit API")
  | .ok (_, response) =>
    if response.status = 404 then .ok {}
    else if !response.isSuccess then .error (statusFailure "npm audit API" response.status)
    else (response.decode "npm audit" answer?).map (report package)

end PackageRisk.Audit
