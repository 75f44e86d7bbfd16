import PackageRisk.Command.Arguments

/-!
# Invocations

What a command line asks for: an analysis in one of three forms, a change of settings, or the
check before an installation.
-/

namespace PackageRisk

/-- The form in which a report is shown. -/
inductive ReportForm where
  | text (detailed : Bool)
  | json
  | score
  deriving DecidableEq, Repr

/-- The commands. -/
inductive CommandName where
  | analyze
  | config
  | preinstall
  deriving DecidableEq, Repr

/-- What a command line asks for. -/
inductive Invocation where
  | analyze (package version : String) (form : ReportForm)
  | configure (autoCheck : Option Bool) (scoreThreshold : Option Int) (blockInstall : Option Bool)
  | preinstall (package version : String) (force : Bool)
  | showHelp (topic : Option CommandName)
  | showVersion
  deriving DecidableEq, Repr

/-- The command with a name. -/
def CommandName.ofText? (text : String) : Option CommandName :=
  match text with
  | "analyze" => some .analyze
  | "config" => some .config
  | "preinstall" => some .preinstall
  | _ => none

namespace Invocation

/-- The option for more output, which every command knows. -/
def verbose : OptionRule :=
  { name := "verbose" }

/-- The option for a package version. -/
def versionOption : OptionRule :=
  { name := "version", letter := some 'v', takesValue := true }

/-- An option that takes a truth value. -/
def boolOption (name : String) : OptionRule :=
  { name := name, takesValue := true, accepts := fun v => v == "true" || v == "false" }

/-- The arguments that a command knows. -/
def rules : CommandName → ArgumentRules
  | .analyze =>
    { options := [verbose, { name := "detailed", letter := some 'd' },
        { name := "score-only", letter := some 's' }, { name := "json" }, versionOption]
      words := 1 }
  | .config =>
    { options := [verbose, boolOption "auto-check",
        { name := "score-threshold", takesValue := true
          accepts := fun v => (Text.integer? v.toList).isSome },
        boolOption "block-install"]
      words := 0 }
  | .preinstall =>
    { options := [verbose, versionOption, { name := "force" }]
      words := 1 }

/-- The truth value of an option. -/
def boolValue? (a : Arguments) (name : String) : Option Bool :=
  (a.value? name).map (· == "true")

/-- The requested version, the latest one unless another is asked for. -/
def versionOf (a : Arguments) : String :=
  (a.value? "version").getD "latest"

/-- The invocation of a command with arguments. A package has to be named, and a report has one
form only. -/
def ofArguments (command : CommandName) (a : Arguments) : Except ArgumentStop Invocation :=
  match command, a.words with
  | .analyze, [package] =>
    if a.has "json" && a.has "score-only" then .error .misuse
    else
      let form : ReportForm :=
        if a.has "json" then .json
        else if a.has "score-only" then .score
        else .text (a.has "detailed")
      .ok (.analyze package (versionOf a) form)
  | .config, _ =>
    .ok (.configure (boolValue? a "auto-check")
      ((a.value? "score-threshold").bind fun v => Text.integer? v.toList)
      (boolValue? a "block-install"))
  | .preinstall, [package] => .ok (.preinstall package (versionOf a) (a.has "force"))
  | _, _ => .error .misuse

/-- The invocation of a command with its arguments as they are written. -/
def ofCommand (command : CommandName) (arguments : List String) :
    Except ArgumentStop Invocation :=
  match Arguments.read (rules command) arguments with
  | .ok a => ofArguments command a
  | .error .help => .ok (.showHelp (some command))
  | .error stop => .error stop

/-- The invocation of the help command. -/
def ofHelpTopics : List String → Except ArgumentStop Invocation
  | [] | ["help"] => .ok (.showHelp none)
  | [topic] =>
    match CommandName.ofText? topic with
    | some command => .ok (.showHelp (some command))
    | none => .error .misuse
  | _ => .error .misuse

/-- What the letters before a command ask for. -/
def ofLetters : List Char → Except ArgumentStop Invocation
  | 'h' :: _ => .ok (.showHelp none)
  | 'V' :: _ => .ok .showVersion
  | _ => .error .misuse

/-- Read a command line; `verbose` says that the option for more output was given before. -/
def parseFrom (verbose : Bool) : List String → Except ArgumentStop Invocation
  | [] => .error .misuse
  | argument :: rest =>
    match argument with
    | "--verbose" => if verbose then .error .misuse else parseFrom true rest
    | "--help" => .ok (.showHelp none)
    | "--version" => .ok .showVersion
    | "help" => ofHelpTopics rest
    | _ =>
      match CommandName.ofText? argument, argument.toList with
      | some command, _ => ofCommand command rest
      | none, '-' :: letters => ofLetters letters
      | none, _ => .error .misuse

/-- Read a command line. -/
def parse (arguments : List String) : Except ArgumentStop Invocation :=
  parseFrom false arguments

end Invocation

end PackageRisk
