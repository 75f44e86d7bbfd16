import PackageRisk.Analysis.Report
import PackageRisk.Instant.Text
import PackageRisk.Json.Writer

/-!
# Reports as JSON

The JSON form of reports and of everything in them. Members stand in a fixed order; a few are left
out when there is nothing to say.
-/

namespace PackageRisk

open Json

/-- The JSON form of an advisory. -/
def Advisory.toJson (a : Advisory) : Value :=
  .obj [("id", .str a.id), ("aliases", .ofTexts a.aliases), ("title", .str a.title),
    ("severity", .str a.severity.label), ("sources", .ofTexts a.sources)]

/-- The JSON form of an advisory report. -/
def AdvisoryReport.toJson (r : AdvisoryReport) : Value :=
  let bucket (advisories : List Advisory) : Value := .arr (advisories.map Advisory.toJson)
  .obj [("critical", bucket r.critical), ("high", bucket r.high), ("moderate", bucket r.moderate),
    ("low", bucket r.low)]

/-- The JSON form of suspicious code. -/
def SuspiciousPattern.toJson (p : SuspiciousPattern) : Value :=
  .obj ([("category", .str p.category.label), ("description", .str p.description),
    ("severity", .str p.severity.label)] ++ memberIfSome "file" (p.file.map .str) ++
    memberIfSome "context" (p.context.map .str))

/-- The JSON form of a network issue. -/
def NetworkIssue.toJson : NetworkIssue → Value
  | suspiciousUrl host => .obj [("kind", .str "suspicious_url"), ("host", .str host)]
  | socketConnection => .obj [("kind", .str "socket_connection")]
  | envExfiltration => .obj [("kind", .str "env_exfiltration")]

/-- The JSON form of a file's branching. -/
def Complexity.toJson (c : Complexity) : Value :=
  .obj [("cyclomatic", .int c.cyclomatic), ("is_complex", .bool c.isComplex)]

/-- The JSON form of a file finding. -/
def FileFinding.toJson (f : FileFinding) : Value :=
  .obj ([("path", .str f.path), ("content_hash", .ofText? f.contentHash),
    ("patterns", .arr (f.patterns.map SuspiciousPattern.toJson)),
    ("suspicious_filename", .bool f.suspiciousFilename), ("obfuscated", .bool f.obfuscated),
    ("obfuscation_density", .float f.obfuscationDensity),
    ("network_issues", .arr (f.networkIssues.map NetworkIssue.toJson)),
    ("dangerous_permissions", .bool f.dangerousPermissions),
    ("complexity", (f.complexity.map Complexity.toJson).getD .null),
    ("is_known_malware", .bool f.isKnownMalware)] ++ memberIfSome "error" (f.error.map .str))

/-- The JSON form of a dependency count. -/
def DependencyCount.toJson (c : DependencyCount) : Value :=
  .obj [("total", .int c.total), ("direct", .int c.direct), ("dev", .int c.dev),
    ("peer", .int c.peer)]

/-- The JSON form of release metrics. -/
def Metrics.toJson (m : Metrics) : Value :=
  let script (s : ScriptEntry) : Value :=
    .obj [("name", .str s.name), ("command", .str s.command)]
  .obj [("has_suspicious_scripts", .bool m.hasSuspiciousScripts),
    ("suspicious_scripts", .arr (m.suspiciousScripts.map script)),
    ("has_exec_scripts", .bool m.hasExecScripts), ("has_minified_code", .bool m.hasMinifiedCode),
    ("has_lock_file", .bool m.hasLockFile), ("has_security_policy", .bool m.hasSecurityPolicy),
    ("dependency_count", m.dependencyCount.toJson),
    ("last_update_age_days", (m.lastUpdateAgeDays.map Value.int).getD .null),
    ("publisher_verified", .bool m.publisherVerified), ("script_count", .int m.scriptCount)]

/-- The JSON form of a dependency entry. -/
def DependencyEntry.toJson (e : DependencyEntry) : Value :=
  .obj ([("name", .str e.name), ("version", .str e.version), ("depth", .int e.depth),
    ("kind", .str e.kind.label), ("score", .ofNat? e.score),
    ("malware_detected", .bool e.malwareDetected)] ++
    memberIfSome "latest" (e.latest.map .str) ++
    memberIfSome "missing_info" (e.missingInfo.map .str))

/-- The JSON form of a score. -/
def RiskScore.toJson (s : RiskScore) : Value :=
  let deduction (d : Deduction) : Value :=
    .obj [("reason", .str d.reason), ("points", .int d.points)]
  .obj [("value", .int s.value), ("deductions", .arr (s.deductions.map deduction)),
    ("malware_detected", .bool s.malwareDetected)]

/-- The JSON form of a package reference. -/
def PackageRef.toJson (p : PackageRef) : Value :=
  .obj [("name", .str p.name), ("version", .str p.version)]

/-- The JSON form of general information. -/
def BasicInfo.toJson (i : BasicInfo) : Value :=
  .obj [("description", .ofText? i.description), ("author", .ofText? i.author),
    ("license", .ofText? i.license), ("maintainers", .ofTexts i.maintainers),
    ("latest", .str i.latest), ("published", .ofText? (i.published.map Instant.display)),
    ("monthly_downloads", .int i.monthlyDownloads)]

/-- The JSON form of an outdated dependency. -/
def OutdatedDependency.toJson (o : OutdatedDependency) : Value :=
  .obj [("name", .str o.name), ("current", .str o.current), ("latest", .str o.latest)]

/-- The JSON form of a piece of advice. -/
def Recommendation.toJson (r : Recommendation) : Value :=
  .obj [("title", .str r.title), ("description", .str r.description)]

/-- The JSON form of a report. -/
def AnalysisReport.toJson (r : AnalysisReport) : Value :=
  .obj [("package", r.package.toJson), ("info", r.info.toJson), ("metrics", r.metrics.toJson),
    ("publisher_trust", .int r.publisherTrust), ("vulnerabilities", r.advisories.toJson),
    ("file_findings", .arr (r.files.map FileFinding.toJson)),
    ("suspicious_patterns", .arr (r.suspiciousPatterns.map SuspiciousPattern.toJson)),
    ("dependencies", .arr (r.dependencies.map DependencyEntry.toJson)),
    ("outdated_dependencies", .arr (r.outdated.map OutdatedDependency.toJson)),
    ("score", r.score.toJson), ("risk_level", .str r.riskLevel.label),
    ("recommendations", .arr (r.recommendations.map Recommendation.toJson)),
    ("warnings", .ofTexts r.warnings)]

end PackageRisk
