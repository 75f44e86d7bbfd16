import PackageRisk.Instant.Text
import PackageRisk.Json.Decode
import PackageRisk.Package.Release
import PackageRisk.Text.Blank
import PackageRisk.Text.Letters

/-!
# Registry documents

The JSON documents of a package registry: packages with their versions, accounts, and download
counts. People and licenses are written either as a text or as an object with a name.
-/

namespace PackageRisk

/-- One version of a package as a registry describes it. -/
structure VersionRecord where
  description : Option String
  author : Option String
  license : Option String
  maintainers : List String
  scripts : NameMap String
  dependencies : NameMap String
  devDependencies : NameMap String
  peerDependencies : NameMap String
  dist : Distribution

/-- A package as a registry describes it. -/
structure PackageDocument where
  tags : NameMap String
  versions : NameMap VersionRecord
  times : NameMap String

/-- An account as a registry describes it. -/
structure AccountDocument where
  name : Option String
  verified : Option Bool
  created : Option String
  packageCount : Option Nat
  deriving DecidableEq, Repr

namespace PackageDocument

open Json

/-- The name of a person, without an address after it. -/
def personName? (raw : String) : Option String :=
  let name := Text.trimChars (Text.beforeFirst (fun c => c == '<' || c == '(') raw.toList)
  if name.isEmpty then none else some (String.ofList name)

/-- A text, or an object with a text under a name; `level` containers stand around it. -/
def textOrMember? (level : Nat) (name : String) (v : Value) : Option (Option String) := do
  match ← free? level v with
  | .str s => some (some s)
  | v =>
    let values ← objectMembers? [⟨[name], false⟩] v
    optional? text? (memberAt values 0)

/-- A person. -/
def person? (level : Nat) (v : Value) : Option (Option String) :=
  (textOrMember? level "name" v).map fun raw => raw.bind personName?

/-- The archive of a version. -/
def distribution? (v : Value) : Option Distribution := do
  let values ← recordMembers?
    [⟨["tarball"], false⟩, ⟨["size", "unpackedSize"], false⟩, ⟨["fileCount"], false⟩,
      ⟨["files"], true⟩] v
  return {
    tarball := ← optional? text? (memberAt values 0)
    size := ← optional? unsigned? (memberAt values 1)
    fileCount := ← optional? unsigned? (memberAt values 2)
    files := ← withDefault? [] (list? text?) (memberAt values 3) }

/-- A version. -/
def version? (v : Value) : Option VersionRecord := do
  let values ← recordMembers?
    [⟨["description"], false⟩, ⟨["author"], false⟩, ⟨["license"], false⟩, ⟨["maintainers"], true⟩,
      ⟨["scripts"], true⟩, ⟨["dependencies"], true⟩, ⟨["devDependencies"], true⟩,
      ⟨["peerDependencies"], true⟩, ⟨["dist"], true⟩] v
  let maintainers ← withDefault? [] (list? (person? 4)) (memberAt values 3)
  return {
    description := ← optional? text? (memberAt values 0)
    author := (← optional? (person? 3) (memberAt values 1)).join
    license := (← optional? (textOrMember? 3 "type") (memberAt values 2)).join
    maintainers := maintainers.filterMap id
    scripts := ← withDefault? ∅ (map? text?) (memberAt values 4)
    dependencies := ← withDefault? ∅ (map? text?) (memberAt values 5)
    devDependencies := ← withDefault? ∅ (map? text?) (memberAt values 6)
    peerDependencies := ← withDefault? ∅ (map? text?) (memberAt values 7)
    dist := ← withDefault? {} distribution? (memberAt values 8) }

/-- A package document. -/
def read? (v : Value) : Option PackageDocument := do
  let values ← recordMembers? [⟨["dist-tags"], true⟩, ⟨["versions"], true⟩, ⟨["time"], true⟩] v
  return {
    tags := ← withDefault? ∅ (map? text?) (memberAt values 0)
    versions := ← withDefault? ∅ (map? version?) (memberAt values 1)
    times := ← withDefault? ∅ (map? text?) (memberAt values 2) }

/-- The release of a version of the document. -/
def release (document : PackageDocument) (name version latest : String) (record : VersionRecord) :
    Release where
  name := name
  version := version
  latest := latest
  description := record.description
  author := record.author
  license := record.license
  maintainers := record.maintainers
  scripts := record.scripts
  dependencies := record.dependencies
  devDependencies := record.devDependencies
  peerDependencies := record.peerDependencies
  published := (document.times.get? version).bind Instant.parse?
  dist := record.dist

end PackageDocument

namespace AccountDocument

open Json

/-- A number of packages: a count, or a list of them. -/
def packageCount? : Value → Option Nat
  | .arr elements => (free? 1 (.arr elements)).map fun _ => elements.length
  | v => unsigned? v

/-- An account document. -/
def read? (v : Value) : Option AccountDocument := do
  let values ← recordMembers?
    [⟨["name"], false⟩, ⟨["verified"], false⟩, ⟨["created"], false⟩, ⟨["packages"], false⟩] v
  return {
    name := ← optional? text? (memberAt values 0)
    verified := ← optional? bool? (memberAt values 1)
    created := ← optional? text? (memberAt values 2)
    packageCount := ← optional? packageCount? (memberAt values 3) }

/-- The publisher that an account stands for. -/
def publisher (document : AccountDocument) (username : String) : Publisher where
  username := document.name.getD username
  verified := document.verified.getD false
  created := document.created.bind Instant.parse?
  packageCount := document.packageCount.getD 0

end AccountDocument

/-- The number of downloads in a download document. -/
def downloadCount? (v : Json.Value) : Option Nat := do
  let values ← Json.recordMembers? [⟨["downloads"], false⟩] v
  return (← Json.optional? Json.unsigned? (Json.memberAt values 0)).getD 0

end PackageRisk
