import PackageRisk.Score.Ledger

/-!
# Analysis reports

Everything known about an analysed package, with what follows from it: outdated dependencies,
the suspicious code of all files, and advice when the score is low.
-/

namespace PackageRisk

/-- General information about a package. -/
structure BasicInfo where
  description : Option String
  author : Option String
  license : Option String
  maintainers : List String
  latest : String
  published : Option Instant
  monthlyDownloads : Nat
  deriving DecidableEq, Repr

/-- The general information in a release. -/
def BasicInfo.ofRelease (r : Release) (monthlyDownloads : Nat) : BasicInfo :=
  ⟨r.description, r.author, r.license, r.maintainers, r.latest, r.published, monthlyDownloads⟩

/-- A piece of advice. -/
structure Recommendation where
  title : String
  description : String
  deriving DecidableEq, Repr

/-- A direct dependency that is not used in its latest version. -/
structure OutdatedDependency where
  name : String
  current : String
  latest : String
  deriving DecidableEq, Repr

/-- The suspicious code of all files, in file order. -/
def flattenPatterns (findings : List FileFinding) : List SuspiciousPattern :=
  findings.flatMap (·.patterns)

/-- The outdated version of an entry, if it is a direct dependency and its latest version is known
and a different one. -/
def DependencyEntry.outdated? (e : DependencyEntry) : Option OutdatedDependency :=
  match e.latest with
  | some latest =>
    if e.depth = 1 ∧ latest ≠ "" ∧ e.version ≠ latest then some ⟨e.name, e.version, latest⟩
    else none
  | none => none

/-- The outdated direct dependencies. -/
def outdatedDependencies (entries : List DependencyEntry) : List OutdatedDependency :=
  entries.filterMap DependencyEntry.outdated?

/-- Scores from here on need no advice. -/
def adviceCeiling : Nat := 80

/-- Advice for a package with a low score. -/
def recommendations (score : RiskScore) (metrics : Metrics) (advisories : AdvisoryReport)
    (findings : List FileFinding) : List Recommendation :=
  if adviceCeiling ≤ score.value then []
  else
    let critical := advisories.critical.length
    let obfuscated := findings.countP (·.obfuscated)
    let scripts := String.intercalate ", " (metrics.suspiciousScripts.map (·.name))
    (if score.malwareDetected then
      [⟨"Known Malware",
        "Package or one of its dependencies matches a known malware fingerprint. " ++
          "Do not install it."⟩]
    else []) ++
    (if 0 < critical then
      [⟨"Critical Vulnerabilities",
        toString critical ++ " critical security vulnerabilities detected. " ++
          "Strongly recommend finding an alternative package."⟩]
    else []) ++
    (if metrics.hasSuspiciousScripts then
      [⟨"Suspicious Scripts",
        "Package contains potentially dangerous npm scripts (" ++ scripts ++
          "). Review them carefully."⟩]
    else []) ++
    (if metrics.hasLockFile then []
    else
      [⟨"Missing Lock File", "Package lacks a lock file. Dependencies may be unstable."⟩]) ++
    (if 0 < obfuscated then
      [⟨"Obfuscated Code",
        toString obfuscated ++ " file(s) look obfuscated. " ++
          "Inspect them manually before trusting this package."⟩]
    else [])

/-- Everything known about an analysed package. -/
structure AnalysisReport where
  package : PackageRef
  info : BasicInfo
  metrics : Metrics
  publisherTrust : Nat
  advisories : AdvisoryReport
  files : List FileFinding
  suspiciousPatterns : List SuspiciousPattern
  dependencies : List DependencyEntry
  outdated : List OutdatedDependency
  score : RiskScore
  riskLevel : Severity
  recommendations : List Recommendation
  warnings : List String
  deriving DecidableEq, Repr

/-- What a score and a report are made of. -/
structure Evidence where
  release : Release
  monthlyDownloads : Nat := 0
  metrics : Metrics := {}
  publisherTrust : Nat := neutralScore
  advisories : AdvisoryReport := {}
  files : List FileFinding := []
  dependencies : List DependencyEntry := []
  warnings : List String := []

/-- What the score of some evidence depends on. -/
def Evidence.scoreInput (e : Evidence) : ScoreInput :=
  ⟨e.metrics, e.advisories, e.files, e.dependencies⟩

/-- The report of some evidence with a score. -/
def Evidence.report (e : Evidence) (score : RiskScore) : AnalysisReport where
  package := e.release.ref
  info := .ofRelease e.release e.monthlyDownloads
  metrics := e.metrics
  publisherTrust := e.publisherTrust
  advisories := e.advisories
  files := e.files
  suspiciousPatterns := flattenPatterns e.files
  dependencies := e.dependencies
  outdated := outdatedDependencies e.dependencies
  score := score
  riskLevel := riskLevel score.value
  recommendations := PackageRisk.recommendations score e.metrics e.advisories e.files
  warnings := e.warnings

end PackageRisk
