import PackageRisk.Advisory.Basic
import PackageRisk.Json.Decode
import PackageRisk.Package.Release
import PackageRisk.Web.Exchange

/-!
# The OSV database

Advisories from the open database of vulnerabilities. A record without a severity that is
understood counts as moderate, and one without a summary goes by its id.
-/

namespace PackageRisk.Osv

open Json

/-- The name under which the database is listed as a source. -/
def sourceName : String := "osv"

/-- Where the database answers unless configured otherwise. -/
def defaultUrl : String := "https://api.osv.dev/v1/query"

/-- Read the severity label of a record. -/
def severityLabel? (v : Value) : Option (Option String) := do
  let values ← recordMembers? [⟨["severity"], false⟩] v
  optional? text? (memberAt values 0)

/-- Read a record. -/
def advisory? (v : Value) : Option Advisory := do
  let values ← recordMembers?
    [⟨["id"], false⟩, ⟨["aliases"], true⟩, ⟨["summary"], false⟩, ⟨["database_specific"], true⟩] v
  let id ← required? text? (memberAt values 0)
  let aliases ← withDefault? [] (list? text?) (memberAt values 1)
  let summary ← optional? text? (memberAt values 2)
  let label := (← optional? severityLabel? (memberAt values 3)).join
  return {
    id := id
    aliases := aliases
    title := summary.getD id
    severity := (label.bind Severity.ofLabel?).getD .medium
    sources := [sourceName] }

/-- Read an answer. -/
def answer? (v : Value) : Option (List Advisory) := do
  let values ← recordMembers? [⟨["vulns"], true⟩] v
  withDefault? [] (list? advisory?) (memberAt values 0)

/-- What is posted to the database. -/
def question (package : PackageRef) : Value :=
  .obj [("package", .obj [("name", .str package.name), ("ecosystem", .str "npm")]),
    ("version", .str package.version)]

/-- Ask the database about a package. -/
def query (url : String) (network : Network) (package : PackageRef) :
    Except Failure AdvisoryReport :=
  match exchange network url (some (question package)) with
  | .error fault => .error (fault.brief "unable to query OSV advisory API")
  | .ok (_, response) =>
    if response.status = 404 then .ok {}
    else if 500 ≤ response.status ∧ response.status < 600 then
      .error (.network ("OSV advisory API server error " ++ statusText response.status))
    else if !response.isSuccess then
      .error (statusFailure "OSV advisory API" response.status)
    else (response.decode "OSV advisory" answer?).map AdvisoryReport.ofList

end PackageRisk.Osv
