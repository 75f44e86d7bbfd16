import PackageRisk.Analysis.Analyzer
import PackageRisk.Analysis.Render
import PackageRisk.Command.Invocation
import PackageRisk.Settings.Policy
import PackageRisk.Settings.Store

/-!
# Running commands

What a command prints, how it ends, and which file it writes. Reports go to standard output, and
everything that speaks against an installation to standard error. The exit status tells failures
apart: those of the configuration, those of the network, and all others together with packages
that are blocked.
-/

namespace PackageRisk

/-- What surrounds a command: the places of the configuration files, the environment's policy, and
how an analyzer is set up. -/
structure Surroundings where
  global : Option SettingsPlace
  project : Option SettingsPlace
  policy : Option String
  analyzer : Settings → Analyzer

/-- How a command ended. -/
structure Outcome where
  exit : Nat
  stdout : String := ""
  stderr : String := ""
  written : Option SettingsPlace := none

/-- Why a command failed: the causes, outermost first, and the failure among them. -/
structure CommandError where
  chain : List String
  failure? : Option Failure
  deriving DecidableEq, Repr

namespace CommandError

/-- A failure by itself. -/
def ofFailure (f : Failure) : CommandError :=
  ⟨f.chain, some f⟩

/-- An error of the settings as it is. -/
def ofSettings (e : SettingsError) : CommandError :=
  ⟨e.chain, e.failure?⟩

/-- The causes in one line. -/
def message (e : CommandError) : String :=
  String.intercalate ": " e.chain

/-- An error in loading the settings. It always counts as one of the configuration. -/
def ofLoading (e : SettingsError) : CommandError :=
  match e.failure? with
  | some _ => ofSettings e
  | none => ofFailure (.invalidConfiguration (ofSettings e).message)

/-- The exit status. -/
def exit (e : CommandError) : Nat :=
  match e.failure?.map Failure.kind with
  | some .invalidConfiguration => 2
  | some .network => 3
  | _ => 1

/-- What kind of error it is, in words. -/
def label (e : CommandError) : String :=
  match e.exit with
  | 2 => "Configuration error"
  | 3 => "Network error"
  | _ => "Security check failed"

/-- The end of a command that failed. -/
def outcome (e : CommandError) : Outcome :=
  { exit := e.exit, stderr := e.label ++ ": " ++ e.message ++ "\n" }

end CommandError

namespace Command

/-- The exit status of a program whose task crashed. -/
def crashStatus : Nat := 101

/-- Lines, each with its end. -/
def lines (texts : List String) : String :=
  String.join (texts.map (· ++ "\n"))

/-- The settings around a command. -/
def loadSettings (w : Surroundings) : Except CommandError Settings :=
  (Settings.load w.global w.project).mapError .ofLoading

/-- A report in a form. -/
def render (r : AnalysisReport) : ReportForm → String
  | .text detailed => r.renderText detailed
  | .json => r.renderJson
  | .score => r.renderScore

/-- Analyse a package and go on with its report. -/
def withReport (analyzer : Analyzer) (package version : String)
    (next : AnalysisReport → Outcome) : Outcome :=
  match analyzer.analyze package version with
  | .done (.ok report) => next report
  | .done (.error failure) => (CommandError.ofFailure failure).outcome
  | .hangs | .crashes => { exit := crashStatus }

/-- Show the report on a package. -/
def analyze (w : Surroundings) (package version : String) (form : ReportForm) : Outcome :=
  match loadSettings w with
  | .error e => e.outcome
  | .ok settings =>
    withReport (w.analyzer settings) package version fun report =>
      { exit := 0, stdout := render report form ++ "\n" }

/-- The lines on the settings that were changed. -/
def changeLines (u : SettingsUpdate) : List String :=
  let bool (b : Bool) := if b then "true" else "false"
  (u.autoCheck.map fun b => "- Auto-check: " ++ bool b).toList ++
    (u.scoreThreshold.map fun n => "- Score threshold: " ++ toString n).toList ++
    (u.blockInstall.map fun b => "- Block install: " ++ bool b).toList

/-- Change settings in the global file. -/
def configure (w : Surroundings) (autoCheck : Option Bool) (scoreThreshold : Option Int)
    (blockInstall : Option Bool) : Outcome :=
  let threshold : Except Failure (Option Nat) :=
    match scoreThreshold with
    | some value => (checkThreshold value).map some
    | none => .ok none
  match threshold with
  | .error failure => (CommandError.ofFailure failure).outcome
  | .ok threshold =>
    let update : SettingsUpdate := ⟨autoCheck, threshold, blockInstall⟩
    if update.isEmpty then { exit := 0, stdout := "No configuration changes made\n" }
    else
      match update.save w.global with
      | .error e => (CommandError.ofSettings e).outcome
      | .ok place =>
        { exit := 0
          stdout :=
            lines (("Configuration updated (" ++ place.path ++ "):") :: changeLines update)
          written := some place }

/-- The lines on a package that is blocked. -/
def warningLines (policy : InstallPolicy) (report : AnalysisReport) : List String :=
  ("Security warning for " ++ report.package.display ++ ": score " ++
      toString report.score.value ++ "/100 is below the threshold of " ++
      toString policy.scoreThreshold) ::
    (report.score.deductions.map fun d =>
      "- " ++ d.reason ++ " (-" ++ toString d.points ++ ")") ++
    ["To install anyway, rerun with --force"]

/-- The verdict on a package. -/
def verdict (policy : InstallPolicy) (report : AnalysisReport) : Outcome :=
  if policy.blocks report.score.value then
    { exit := 1, stderr := lines (warningLines policy report) }
  else
    { exit := 0
      stdout := report.package.display ++ " passed security check (score " ++
        toString report.score.value ++ "/100)\n" }

/-- Check a package before it is installed. -/
def preinstall (w : Surroundings) (package version : String) (force : Bool) : Outcome :=
  if force then
    { exit := 0
      stderr := "Force install requested, skipping security check for " ++ package ++ "\n" }
  else
    match loadSettings w with
    | .error e => e.outcome
    | .ok settings =>
      match InstallPolicy.resolve settings w.policy with
      | .error failure => (CommandError.ofFailure failure).outcome
      | .ok policy => withReport (w.analyzer settings) package version (verdict policy)

/-- The name and version of the program. -/
def versionText : String := "guardpkg 0.1.0\n"

/-- The exit status of a command line that is no invocation. -/
def misuseStatus : Nat := 2

/-- How the program is used, in short. -/
def usage : String :=
  lines ["Pre-install risk scoring for npm packages",
    "",
    "Usage: guardpkg [OPTIONS] <COMMAND>",
    "",
    "Commands:",
    "  analyze     Analyze an npm package and print its risk report",
    "  config      Persist settings into the global config file",
    "  preinstall  Decide whether installing a package should be blocked",
    "  help        Print this message or the help of the given subcommand(s)",
    "",
    "Options:",
    "      --verbose  Log every analysis stage to stderr",
    "  -h, --help     Print help",
    "  -V, --version  Print version"]

/-- How a command is used, in short. -/
def commandUsage : CommandName → String
  | .analyze =>
    lines ["Analyze an npm package and print its risk report",
      "",
      "Usage: guardpkg analyze [OPTIONS] <PACKAGE>",
      "",
      "Arguments:",
      "  <PACKAGE>  ",
      "",
      "Options:",
      "  -d, --detailed           Show dependencies, metrics and per-file findings",
      "      --verbose            Log every analysis stage to stderr",
      "  -s, --score-only         Print only the 0-100 score",
      "      --json               Print the full report as JSON",
      "  -v, --version <VERSION>  Version, dist-tag or semver range to analyze [default: latest]",
      "  -h, --help               Print help"]
  | .config =>
    lines ["Persist settings into the global config file",
      "",
      "Usage: guardpkg config [OPTIONS]",
      "",
      "Options:",
      "      --auto-check <AUTO_CHECK>            [possible values: true, false]",
      "      --verbose                            Log every analysis stage to stderr",
      "      --score-threshold <SCORE_THRESHOLD>  ",
      "      --block-install <BLOCK_INSTALL>      [possible values: true, false]",
      "  -h, --help                               Print help"]
  | .preinstall =>
    lines ["Decide whether installing a package should be blocked",
      "",
      "Usage: guardpkg preinstall [OPTIONS] <PACKAGE>",
      "",
      "Arguments:",
      "  <PACKAGE>  ",
      "",
      "Options:",
      "  -v, --version <VERSION>  [default: latest]",
      "      --verbose            Log every analysis stage to stderr",
      "      --force              Skip the check and allow the install",
      "  -h, --help               Print help"]

/-- Carry out an invocation. -/
def invoke (w : Surroundings) : Invocation → Outcome
  | .analyze package version form => analyze w package version form
  | .configure autoCheck scoreThreshold blockInstall =>
    configure w autoCheck scoreThreshold blockInstall
  | .preinstall package version force => preinstall w package version force
  | .showHelp none => { exit := 0, stdout := usage }
  | .showHelp (some command) => { exit := 0, stdout := commandUsage command }
  | .showVersion => { exit := 0, stdout := versionText }

/-- Run a command line. -/
def run (w : Surroundings) (arguments : List String) : Outcome :=
  match Invocation.parse arguments with
  | .ok invocation => invoke w invocation
  | .error _ => { exit := misuseStatus, stderr := usage }

end Command

end PackageRisk
