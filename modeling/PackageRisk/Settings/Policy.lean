import PackageRisk.Json.Decode
import PackageRisk.Json.Reader
import PackageRisk.Settings.Basic
import PackageRisk.Text.Blank
import PackageRisk.Text.Integer
import PackageRisk.Text.Quoted

/-!
# Install policy

Whether a package may be installed. The policy comes from the settings; an environment variable
with a JSON record can override each part of it, and there numbers and truth values may also be
written as texts.
-/

namespace PackageRisk

/-- The policy for installing packages. -/
structure InstallPolicy where
  scoreThreshold : Nat
  blockInstall : Bool
  deriving DecidableEq, Repr

/-- A value or a text that stands for one. -/
inductive Loose (α : Type) where
  | typed (value : α)
  | text (text : String)
  deriving DecidableEq, Repr

/-- The overrides of a policy. -/
structure PolicyOverrides where
  scoreThreshold : Option (Loose Int) := none
  blockInstall : Option (Loose Bool) := none
  deriving DecidableEq, Repr

namespace PolicyOverrides

open Json

/-- The environment variable that holds overrides. -/
def variableName : String := "npm_package_config_guardpkg"

/-- Read a value or a text, which stands inside one container. -/
def loose? {α : Type} (read : Value → Option α) (v : Value) : Option (Loose α) := do
  match ← free? 1 v with
  | .str s => some (.text s)
  | v => (read v).map .typed

/-- Read overrides. -/
def ofJson? (v : Value) : Option PolicyOverrides := do
  let values ← recordMembers? [⟨["scoreThreshold"], true⟩, ⟨["blockInstall"], true⟩] v
  return {
    scoreThreshold := ← optional? (loose? signed?) (memberAt values 0)
    blockInstall := ← optional? (loose? bool?) (memberAt values 1) }

/-- Read the text of overrides. -/
def parse (text : String) : Except Failure PolicyOverrides :=
  match (Json.parse? text).bind ofJson? with
  | some overrides => .ok overrides
  | none => .error (.invalidConfiguration (variableName ++ " is not valid JSON"))

/-- The threshold that an override stands for. -/
def threshold : Loose Int → Except Failure Nat
  | .typed value => checkThreshold value
  | .text text =>
    match Text.integer? (Text.trimChars text.toList) with
    | some value => checkThreshold value
    | none =>
      .error (.invalidConfiguration
        ("scoreThreshold must be a number, got " ++ Text.quoted text))

/-- The truth value that an override stands for. -/
def block : Loose Bool → Except Failure Bool
  | .typed value => .ok value
  | .text text =>
    match Text.trim text with
    | "true" => .ok true
    | "false" => .ok false
    | other =>
      .error (.invalidConfiguration
        ("blockInstall must be \"true\" or \"false\", got " ++ Text.quoted other))

end PolicyOverrides

namespace InstallPolicy

/-- The policy of some settings. -/
def ofSettings (s : Settings) : InstallPolicy :=
  ⟨s.scoreThreshold, s.blockInstall⟩

/-- The policy with overrides, of which the threshold is judged first. -/
def overridden (p : InstallPolicy) (o : PolicyOverrides) : Except Failure InstallPolicy := do
  let threshold ← o.scoreThreshold.elim (.ok p.scoreThreshold) PolicyOverrides.threshold
  let block ← o.blockInstall.elim (.ok p.blockInstall) PolicyOverrides.block
  return ⟨threshold, block⟩

/-- The policy of some settings with the overrides in the environment. A blank text has none. -/
def resolve (s : Settings) (environment : Option String) : Except Failure InstallPolicy :=
  match environment with
  | none => .ok (ofSettings s)
  | some raw =>
    let text := Text.trim raw
    if text = "" then .ok (ofSettings s)
    else do (ofSettings s).overridden (← PolicyOverrides.parse text)

/-- Installing a package with a score is to be blocked. -/
def blocks (p : InstallPolicy) (score : Nat) : Bool :=
  p.blockInstall && score < p.scoreThreshold

end InstallPolicy

end PackageRisk
