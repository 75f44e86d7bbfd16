import PackageRisk.Text.Integer
import PackageRisk.Text.Letters

/-!
# Command line arguments

Options have a long name after two hyphens and may have a letter after one hyphen; letters can
stand together. The value of an option follows its name, behind an equals sign or as the next
argument, and then does not begin with a hyphen; after a letter it may also follow at once. After
two lone hyphens everything is a word. No option may be given twice.
-/

namespace PackageRisk

/-- An option that a command knows. Only some values are accepted. -/
structure OptionRule where
  name : String
  letter : Option Char := none
  takesValue : Bool := false
  accepts : String → Bool := fun _ => true

/-- The options that a command knows, and the greatest number of words after it. -/
structure ArgumentRules where
  options : List OptionRule
  words : Nat

/-- Why the reading of arguments ended early. -/
inductive ArgumentStop where
  | misuse
  | help
  deriving DecidableEq, Repr

/-- What was given: options with their values, those without one having an empty value, and
words. -/
structure Arguments where
  options : List (String × String) := []
  words : List String := []
  deriving DecidableEq, Repr

namespace Arguments

/-- The value of an option. -/
def value? (a : Arguments) (name : String) : Option String :=
  (a.options.find? fun o => o.1 == name).map Prod.snd

/-- The option was given. -/
def has (a : Arguments) (name : String) : Bool :=
  (a.value? name).isSome

/-- Give an option a value. -/
def give (a : Arguments) (rule : OptionRule) (value : String) : Except ArgumentStop Arguments :=
  if a.has rule.name || !rule.accepts value then .error .misuse
  else .ok { a with options := a.options ++ [(rule.name, value)] }

/-- Add words, as far as the rules allow them. -/
def addWords (a : Arguments) (rules : ArgumentRules) (words : List String) :
    Except ArgumentStop Arguments :=
  if rules.words < a.words.length + words.length then .error .misuse
  else .ok { a with words := a.words ++ words }

/-- Read a long option without its hyphens. The rule that comes with the answer is that of an
option whose value is to follow. -/
def readLong (rules : ArgumentRules) (a : Arguments) (text : List Char) :
    Except ArgumentStop (Arguments × Option OptionRule) := do
  let name := Text.beforeFirst (· == '=') text
  let rest := text.drop name.length
  if name = "help".toList ∧ rest = [] then throw .help
  match rules.options.find? fun rule => rule.name.toList == name with
  | none => throw .misuse
  | some rule =>
    match rule.takesValue, rest with
    | true, [] => return (a, some rule)
    | true, _ :: value => return (← a.give rule (String.ofList value), none)
    | false, [] => return (← a.give rule "", none)
    | false, _ :: _ => throw .misuse

/-- Read letters without their hyphen. -/
def readLetters (rules : ArgumentRules) (a : Arguments) :
    List Char → Except ArgumentStop (Arguments × Option OptionRule)
  | [] => .ok (a, none)
  | letter :: rest =>
    if letter = 'h' then .error .help
    else
      match rules.options.find? fun rule => rule.letter == some letter with
      | none => .error .misuse
      | some rule =>
        if rule.takesValue then
          match rest with
          | [] => .ok (a, some rule)
          | '=' :: value => (a.give rule (String.ofList value)).map fun a => (a, none)
          | value => (a.give rule (String.ofList value)).map fun a => (a, none)
        else
          match a.give rule "" with
          | .ok a => readLetters rules a rest
          | .error stop => .error stop

/-- An argument that begins with a hyphen and is more than that. -/
def isOption (argument : String) : Bool :=
  match argument.toList with
  | '-' :: _ :: _ => true
  | _ => false

/-- Read arguments; `pending` is an option that waits for its value. -/
def readFrom (rules : ArgumentRules) :
    (pending : Option OptionRule) → Arguments → List String → Except ArgumentStop Arguments
  | none, a, [] => .ok a
  | some _, _, [] => .error .misuse
  | some rule, a, argument :: rest =>
    if isOption argument then .error .misuse
    else
      match a.give rule argument with
      | .ok a => readFrom rules none a rest
      | .error stop => .error stop
  | none, a, argument :: rest =>
    match argument.toList with
    | ['-', '-'] => a.addWords rules rest
    | '-' :: '-' :: text =>
      match readLong rules a text with
      | .ok (a, pending) => readFrom rules pending a rest
      | .error stop => .error stop
    | '-' :: c :: text =>
      match readLetters rules a (c :: text) with
      | .ok (a, pending) => readFrom rules pending a rest
      | .error stop => .error stop
    | _ =>
      match a.addWords rules [argument] with
      | .ok a => readFrom rules none a rest
      | .error stop => .error stop

/-- Read all arguments of a command. -/
def read (rules : ArgumentRules) (arguments : List String) : Except ArgumentStop Arguments :=
  readFrom rules none {} arguments

end Arguments

end PackageRisk
