import PackageRisk.Analysis.Json

/-!
# Reports as text

The forms in which a report is shown: the bare score, JSON on several lines, and text in sections,
with details on request.
-/

namespace PackageRisk

/-- A text with spaces after it up to a width in characters. -/
def padRight (width : Nat) (text : String) : String :=
  text ++ String.ofList (List.replicate (width - text.length) ' ')

/-- Yes or no. -/
def yesNo (b : Bool) : String :=
  if b then "Yes" else "No"

/-- The title of the bucket of a severity. -/
def Severity.bucketTitle : Severity → String
  | critical => "Critical"
  | high => "High"
  | medium => "Moderate"
  | low => "Low"

/-- What a file finding says in short: flags, categories in order, network issues, and an error. -/
def FileFinding.flags (f : FileFinding) : List String :=
  (if f.isKnownMalware then ["known malware"] else []) ++
    (if f.suspiciousFilename then ["suspicious filename"] else []) ++
    (if f.obfuscated then ["obfuscated (density " ++ f.obfuscationDensity.fixedText 3 ++ ")"]
      else []) ++
    (if f.dangerousPermissions then ["dangerous permissions"] else []) ++
    Advisory.sortUnique (f.patterns.map (·.category.label)) ++
    f.networkIssues.map NetworkIssue.description ++ f.error.toList

namespace AnalysisReport

/-- The line under a section title. -/
def rule : String :=
  String.ofList (List.replicate 50 '-')

/-- A section title with a line under it. -/
def heading (title : String) : List String :=
  [title, rule]

/-- A section after other lines. -/
def furtherHeading (title : String) : List String :=
  "" :: heading title

/-- The section that sums the package up. -/
def summaryLines (r : AnalysisReport) : List String :=
  heading "Package Analysis Summary" ++
    ["Package:        " ++ r.package.name,
      "Version:        " ++ r.package.version,
      "Security Score: " ++ toString r.score.value ++ "/100 (" ++ r.riskLevel.label ++ " risk)",
      "Author:         " ++ r.info.author.getD "Unknown",
      "License:        " ++ r.info.license.getD "Not specified",
      "Downloads:      " ++ toString r.info.monthlyDownloads ++ " last month"]

/-- A line for a deduction. -/
def deductionLine (d : Deduction) : String :=
  "  -" ++ padRight 3 (toString d.points) ++ " " ++ d.reason

/-- The section on advisories, the publisher and the deductions. -/
def securityLines (r : AnalysisReport) : List String :=
  furtherHeading "Security Analysis" ++
    ([Severity.critical, .high, .medium, .low].map fun severity =>
      padRight 9 (severity.bucketTitle ++ ":") ++ " " ++
        toString (r.advisories.bucket severity).length) ++
    ["Publisher trust: " ++ toString r.publisherTrust ++ "/100"] ++
    (if r.score.deductions.isEmpty then []
    else ["", "Deductions:"] ++ r.score.deductions.map deductionLine)

/-- The lines on the advisories of a serious bucket. -/
def advisoryLines (r : AnalysisReport) (severity : Severity) : List String :=
  match r.advisories.bucket severity with
  | [] => []
  | bucket =>
    (severity.bucketTitle ++ " Vulnerabilities:") ::
      (bucket.map fun a =>
        "- " ++ a.id ++ ": " ++ a.title ++ " [" ++ String.intercalate ", " a.sources ++ "]") ++
      [""]

/-- The line for a dependency, indented by its depth. -/
def dependencyLine (e : DependencyEntry) : String :=
  String.ofList (List.replicate (2 * (e.depth - 1)) ' ') ++ "- " ++ e.name ++ "@" ++ e.version ++
    " (" ++ e.kind.shortLabel ++ ", score " ++ e.score.elim "n/a" toString ++ ")" ++
    (if e.malwareDetected then " MALWARE" else "") ++
    e.missingInfo.elim "" fun info => " [" ++ info ++ "]"

/-- The lines on dependencies. -/
def dependencyLines (r : AnalysisReport) : List String :=
  let counts := r.metrics.dependencyCount
  ["Dependencies:"] ++
    (if r.dependencies.isEmpty then ["- none"] else r.dependencies.map dependencyLine) ++
    ["Total: " ++ toString counts.total ++ " (" ++ toString counts.direct ++ " direct, " ++
      toString counts.dev ++ " dev, " ++ toString counts.peer ++ " peer)"] ++
    (if r.outdated.isEmpty then []
    else
      "Outdated:" :: r.outdated.map fun o =>
        "- " ++ o.name ++ ": " ++ o.current ++ " (latest " ++ o.latest ++ ")")

/-- The lines on the metrics. -/
def metricLines (m : Metrics) : List String :=
  ["", "Security Metrics:", "Suspicious scripts: " ++ yesNo m.hasSuspiciousScripts] ++
    (m.suspiciousScripts.map fun s => "  " ++ s.name ++ ": " ++ s.command) ++
    ["Exec scripts: " ++ yesNo m.hasExecScripts,
      "Minified code: " ++ yesNo m.hasMinifiedCode,
      "Lock file: " ++ yesNo m.hasLockFile,
      "Security policy: " ++ yesNo m.hasSecurityPolicy,
      "Publisher verified: " ++ yesNo m.publisherVerified,
      "Script count: " ++ toString m.scriptCount,
      "Last update: " ++
        m.lastUpdateAgeDays.elim "unknown" fun days => toString days ++ " days ago"]

/-- The files that deserve a line of their own. -/
def flaggedFiles (r : AnalysisReport) : List FileFinding :=
  r.files.filter fun f => f.hasRisk || f.error.isSome

/-- The lines for a file. -/
def fileLines (f : FileFinding) : List String :=
  ("- " ++ f.path ++ ": " ++ String.intercalate ", " f.flags) ::
    f.patterns.filterMap fun p => p.context.map fun context =>
      "    " ++ p.description ++ ": " ++ context

/-- The section with all details. -/
def detailLines (r : AnalysisReport) : List String :=
  furtherHeading "Detailed Analysis" ++ r.advisoryLines .critical ++ r.advisoryLines .high ++
    r.dependencyLines ++ metricLines r.metrics ++
    ["", "Files: " ++ toString r.files.length ++ " inspected, " ++
      toString r.flaggedFiles.length ++ " flagged"] ++
    r.flaggedFiles.flatMap fileLines

/-- Advice with an empty line between two pieces. -/
def adviceLines : List Recommendation → List String
  | [] => []
  | [a] => [a.title, a.description]
  | a :: rest => a.title :: a.description :: "" :: adviceLines rest

/-- The section with advice. -/
def recommendationLines (r : AnalysisReport) : List String :=
  furtherHeading "Recommendations" ++
    if r.recommendations.isEmpty then ["No security concerns found for this package."]
    else adviceLines r.recommendations

/-- The section with warnings, if there are any. -/
def warningLines (r : AnalysisReport) : List String :=
  if r.warnings.isEmpty then []
  else furtherHeading "Warnings" ++ r.warnings.map ("- " ++ ·)

/-- The report as text. -/
def renderText (r : AnalysisReport) (detailed : Bool) : String :=
  String.intercalate "\n" <|
    r.summaryLines ++ r.securityLines ++ (if detailed then r.detailLines else []) ++
      r.recommendationLines ++ r.warningLines

/-- The report as JSON on several lines. -/
def renderJson (r : AnalysisReport) : String :=
  r.toJson.pretty

/-- The bare score. -/
def renderScore (r : AnalysisReport) : String :=
  toString r.score.value

end AnalysisReport

end PackageRisk
