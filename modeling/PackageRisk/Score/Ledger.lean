import PackageRisk.Advisory.Merge
import PackageRisk.Inspection.Finding
import PackageRisk.Package.Release
import PackageRisk.Score.Metrics

/-!
# Risk scores

A package starts with a hundred points and loses some for every finding; each loss is listed with
its reason. Known malware, in the package or in a dependency, takes everything at once. Points are
counted in 32 bits: a sum or a product that is larger stands at the largest number.
-/

namespace PackageRisk

/-- What is known about a package reached through dependencies. The version is the declared one
when it could not be resolved, and what is missing is then said. -/
structure DependencyEntry where
  name : String
  version : String
  depth : Nat
  kind : DependencyKind
  score : Option Nat
  malwareDetected : Bool
  latest : Option String := none
  missingInfo : Option String := none
  deriving DecidableEq, Repr

/-- Points lost for a reason. -/
structure Deduction where
  reason : String
  points : Nat
  deriving DecidableEq, Repr

/-- A score from 0 to 100, higher being safer, and how it came about. -/
structure RiskScore where
  value : Nat
  deductions : List Deduction
  malwareDetected : Bool
  deriving DecidableEq, Repr

/-- The risk band of a score. -/
def riskLevel (value : Nat) : Severity :=
  if 100 < value then .critical
  else if 80 ≤ value then .low
  else if 50 ≤ value then .medium
  else if 30 ≤ value then .high
  else .critical

/-- Everything a score depends on. -/
structure ScoreInput where
  metrics : Metrics := {}
  advisories : AdvisoryReport := {}
  files : List FileFinding := []
  dependencies : List DependencyEntry := []
  deriving DecidableEq, Repr

namespace ScoreInput

/-- The score of a package without findings. -/
def maxScore : Nat := 100

/-- Dependencies that score below this count against a package. -/
def riskyDependencyScore : Nat := 50

/-- The largest number of points that is counted, the greatest of 32 bits. -/
def pointLimit : Nat := 4294967295

/-- A number of points as far as it is counted. -/
def saturate (points : Nat) : Nat :=
  min points pointLimit

/-- The points for a number of findings, each at a price, with a cap on all of them. -/
def cappedPoints (count price cap : Nat) : Nat :=
  min (saturate (saturate count * price)) cap

/-- Findings in path order. -/
def sortedFiles (input : ScoreInput) : List FileFinding :=
  input.files.mergeSort fun a b => decide (a.path ≤ b.path)

/-- Dependency entries in the order of their names, versions and depths. -/
def entryLe (a b : DependencyEntry) : Bool :=
  if a.name < b.name then true
  else if b.name < a.name then false
  else if a.version < b.version then true
  else if b.version < a.version then false
  else a.depth ≤ b.depth

/-- Dependencies in order. -/
def sortedDependencies (input : ScoreInput) : List DependencyEntry :=
  input.dependencies.mergeSort entryLe

/-- Why the package counts as malware, if it does: the first malicious file, or else the first
malicious dependency. -/
def malwareReason? (input : ScoreInput) : Option String :=
  match input.sortedFiles.find? (·.isKnownMalware) with
  | some file => some ("known malware detected in " ++ file.path)
  | none =>
    (input.sortedDependencies.find? (·.malwareDetected)).map fun entry =>
      "known malware detected in dependency " ++ entry.name ++ "@" ++ entry.version

/-- One deduction for each advisory of a bucket, by id. -/
def advisoryDeductions (label : String) (points : Nat) (bucket : List Advisory) :
    List Deduction :=
  ((bucket.map Advisory.id).mergeSort fun a b => decide (a ≤ b)).map fun id =>
    ⟨label ++ " " ++ id, points⟩

/-- Deductions for the metrics of the release. -/
def metricDeductions (m : Metrics) : List Deduction :=
  let scripts := String.intercalate ", " (Advisory.sortUnique (m.suspiciousScripts.map (·.name)))
  (if m.hasSuspiciousScripts then [⟨"suspicious install scripts (" ++ scripts ++ ")", 15⟩]
    else []) ++
  (if m.hasExecScripts then [⟨"scripts invoke package executors", 20⟩] else []) ++
  (if 100 < m.dependencyCount.total then
      [⟨"large dependency set (" ++ toString m.dependencyCount.total ++ " packages)", 10⟩]
    else []) ++
  (match m.lastUpdateAgeDays with
    | some days => if 365 < days then [⟨"not updated for " ++ toString days ++ " days", 10⟩] else []
    | none => [⟨"publish date unknown", 10⟩]) ++
  (if m.hasLockFile then [] else [⟨"no lock file published", 5⟩])

/-- The categories of suspicious code in some files, in order. -/
def categories (files : List FileFinding) : List PatternCategory :=
  PatternCategory.all.filter fun c => files.any fun f => f.patterns.any (·.category == c)

/-- One deduction for all suspicious code, five points a category and forty at most. -/
def patternDeductions (files : List FileFinding) : List Deduction :=
  match categories files with
  | [] => []
  | found =>
    let labels := String.intercalate ", " (found.map PatternCategory.label)
    [⟨"suspicious code patterns (" ++ labels ++ ")", cappedPoints found.length 5 40⟩]

/-- The network issues of a file in order, each once. -/
def distinctIssues (f : FileFinding) : List NetworkIssue :=
  (f.networkIssues.mergeSort NetworkIssue.le).eraseReps

/-- Deductions for one file. -/
def fileDeductions (f : FileFinding) : List Deduction :=
  (if f.suspiciousFilename then [⟨"suspicious filename " ++ f.path, 30⟩] else []) ++
  (if f.obfuscated then [⟨"obfuscated code in " ++ f.path, 20⟩] else []) ++
  (if f.dangerousPermissions then
      [⟨"dangerous file permission operation in " ++ f.path, 20⟩]
    else []) ++
  (distinctIssues f).map fun issue => ⟨issue.description ++ " in " ++ f.path, 10⟩

/-- The dependencies with a low score as `name@version`, sorted, each once. -/
def riskyDependencies (entries : List DependencyEntry) : List String :=
  Advisory.sortUnique <|
    (entries.filter fun e => e.score.any (· < riskyDependencyScore)).map fun e =>
      e.name ++ "@" ++ e.version

/-- One deduction for all risky dependencies, five points each and twenty at most. -/
def dependencyDeductions (entries : List DependencyEntry) : List Deduction :=
  match riskyDependencies entries with
  | [] => []
  | risky =>
    [⟨"high-risk dependencies (" ++ String.intercalate ", " risky ++ ")",
      cappedPoints risky.length 5 20⟩]

/-- Every deduction of a package without malware: advisories, metrics, suspicious code, files and
dependencies, in this order. -/
def deductions (input : ScoreInput) : List Deduction :=
  advisoryDeductions "critical vulnerability" 20 input.advisories.critical ++
  advisoryDeductions "high severity vulnerability" 10 input.advisories.high ++
  metricDeductions input.metrics ++
  patternDeductions input.files ++
  input.sortedFiles.flatMap fileDeductions ++
  dependencyDeductions input.dependencies

/-- The points of some deductions, however many they are. -/
def totalPoints (deductions : List Deduction) : Nat :=
  (deductions.map Deduction.points).foldr (· + ·) 0

/-- The points of some deductions, added up one after the other as far as they are counted. -/
def countedPoints (deductions : List Deduction) : Nat :=
  deductions.foldl (fun total d => saturate (total + d.points)) 0

/-- What some deductions leave of a score. -/
def pointsLeft (deductions : List Deduction) : Nat :=
  maxScore - countedPoints deductions

/-- A number, if it fits into a byte. -/
def byte? (n : Nat) : Option Nat :=
  if n < 256 then some n else none

/-- The score that some deductions come to. Those that cost nothing are not listed. -/
def settle (deductions : List Deduction) : RiskScore :=
  let listed := deductions.filter fun d => 0 < d.points
  ⟨(byte? (pointsLeft listed)).getD maxScore, listed, false⟩

/-- The score of a package. -/
def score (input : ScoreInput) : RiskScore :=
  match input.malwareReason? with
  | some reason => ⟨0, [⟨reason, maxScore⟩], true⟩
  | none => settle input.deductions

end ScoreInput

end PackageRisk
