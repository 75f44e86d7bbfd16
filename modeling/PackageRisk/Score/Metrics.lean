import PackageRisk.Package.Release
import PackageRisk.Pattern.Basic
import PackageRisk.Text.Letters

/-!
# Release metrics

Signals that follow from the registry's record of a release alone: its scripts, its published
files, its dependencies and its age; and the reputation of its publisher.
-/

namespace PackageRisk

/-- How many names a release depends on, in all and by kind. -/
structure DependencyCount where
  total : Nat := 0
  direct : Nat := 0
  dev : Nat := 0
  peer : Nat := 0
  deriving DecidableEq, Repr

/-- A named script of a release. -/
structure ScriptEntry where
  name : String
  command : String
  deriving DecidableEq, Repr

/-- Signals of a release as a whole. -/
structure Metrics where
  hasSuspiciousScripts : Bool := false
  suspiciousScripts : List ScriptEntry := []
  hasExecScripts : Bool := false
  hasMinifiedCode : Bool := false
  hasLockFile : Bool := false
  hasSecurityPolicy : Bool := false
  dependencyCount : DependencyCount := {}
  lastUpdateAgeDays : Option Int := none
  publisherVerified : Bool := false
  scriptCount : Nat := 0
  deriving DecidableEq, Repr

namespace Metrics

/-- Texts that make a script command suspicious. -/
def suspiciousCommands : List String :=
  ["curl", "wget", "eval", "exec", "download", "http", "env", "export", "npm explore", "npm hook",
    "npm prefix", "npm root", "npm config", "npm get", "npm set"]

/-- Files that pin the versions of dependencies. -/
def lockFiles : List String :=
  ["package-lock.json", "yarn.lock", "pnpm-lock.yaml"]

/-- Average bytes per file below which a release counts as minified. -/
def minifiedAverageBytes : Nat := 1024

/-- A command that runs a package. -/
def execScript : Search :=
  let invoking (tool : String) (action : Pattern) : Pattern :=
    .all [.wordEdge, .text tool, .someBlanks, action, .wordEdge]
  ⟨.any [invoking "npm" (.text "exec"),
    .all [.wordEdge, .text "npx", .one ⟨[.blank], false⟩],
    invoking "yarn" (.text "exec"),
    invoking "pnpm" (.anyText ["exec", "dlx"])], false⟩

/-- A command contains one of the suspicious texts, letter case apart. -/
def isSuspicious (command : String) : Bool :=
  let lowered := (Text.lower command).toList
  suspiciousCommands.any fun needle => Text.occursIn needle.toList lowered

/-- The scripts with a suspicious command, by name. -/
def suspiciousScriptsOf (r : Release) : List ScriptEntry :=
  (r.scripts.entries.filter fun (_, command) => isSuspicious command).map fun (name, command) =>
    ⟨name, command⟩

/-- The last name of a published path. -/
def baseName (file : String) : String :=
  String.ofList (Text.afterLast (· == '/') file.toList)

/-- The files are small on average. -/
def isMinified (dist : Distribution) : Bool :=
  match dist.size, dist.fileCount with
  | some size, some count => 0 < count && size / count < minifiedAverageBytes
  | _, _ => false

/-- The number of declared names, each counted once in the total. -/
def countDependencies (r : Release) : DependencyCount where
  total := (r.dependencies.names ++ r.devDependencies.names ++ r.peerDependencies.names)
    |>.foldl (fun seen name => if name ∈ seen then seen else name :: seen) ([] : List String)
    |>.length
  direct := r.dependencies.size
  dev := r.devDependencies.size
  peer := r.peerDependencies.size

/-- The metrics of a release at a point in time. -/
def ofRelease (r : Release) (publisher : Option Publisher) (now : Instant) : Metrics where
  hasSuspiciousScripts := !(suspiciousScriptsOf r).isEmpty
  suspiciousScripts := suspiciousScriptsOf r
  hasExecScripts := r.scripts.values.any fun command => execScript.occursIn command.toList
  hasMinifiedCode := isMinified r.dist
  hasLockFile := r.dist.files.any fun file => lockFiles.contains (baseName file)
  hasSecurityPolicy := r.dist.files.any fun file =>
    Text.sameIgnoringCase (baseName file) "security.md"
  dependencyCount := countDependencies r
  lastUpdateAgeDays := r.published.map fun published => (now.daysSince published : Int)
  publisherVerified := publisher.any (·.verified)
  scriptCount := r.scripts.size

end Metrics

/-- The score of what is not known to be good or bad. -/
def neutralScore : Nat := 50

/-- The reputation of a publisher from 0 to 100. Verification, age and the number of packages
raise it; an unknown publisher has the neutral score. -/
def publisherTrust (publisher : Option Publisher) (now : Instant) : Nat :=
  match publisher with
  | none => neutralScore
  | some p =>
    let verified := if p.verified then 35 else 0
    let age :=
      match p.created with
      | none => 0
      | some created => min (now.daysSince created / 365 * 2) 10
    min (neutralScore + verified + age + min (p.packageCount / 2) 5) 100

end PackageRisk
