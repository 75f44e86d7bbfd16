import PackageRisk.Settings.Basic
import PackageRisk.Toml.Value

/-!
# Overlays

What one configuration file sets. Every setting is optional and unknown names are passed over, but
a setting of the wrong type spoils the whole file. Lists add to what is there; all other settings
replace it. A group of settings is a table, or an array of its values in order.
-/

namespace PackageRisk

/-- The analysis group of a file. -/
structure AnalysisOverlay where
  maxDependencyDepth : Option Nat := none
  fetchTimeoutSeconds : Option Nat := none
  maxConcurrentFetches : Option Nat := none
  inspectDependencyFiles : Option Bool := none
  deriving DecidableEq, Repr

/-- The inspection group of a file. -/
structure InspectionOverlay where
  fileExtensions : Option (List String) := none
  trustedDomains : Option (List String) := none
  maliciousFilenames : Option (List String) := none
  deriving DecidableEq, Repr

/-- What a file sets. -/
structure SettingsOverlay where
  scoreThreshold : Option Int := none
  blockInstall : Option Bool := none
  autoCheck : Option Bool := none
  analysis : AnalysisOverlay := {}
  inspection : InspectionOverlay := {}
  malwareHashes : Option (List String) := none
  useOsv : Option Bool := none
  deriving DecidableEq, Repr

namespace SettingsOverlay

open Toml

/-- A whole number. -/
def integer? : Value → Option Int
  | .int n => some n
  | _ => none

/-- A whole number that is not negative. -/
def natural? : Value → Option Nat
  | .int n => if 0 ≤ n then some n.toNat else none
  | _ => none

/-- A truth value. -/
def bool? : Value → Option Bool
  | .bool b => some b
  | _ => none

/-- A text. -/
def text? : Value → Option String
  | .str s => some s
  | _ => none

/-- A list of texts. -/
def texts? : Value → Option (List String)
  | .arr elements => elements.mapM text?
  | _ => none

/-- A setting that may be absent. -/
def setting? {α : Type} (read : Value → Option α) : Option Value → Option (Option α)
  | none => some none
  | some v => (read v).map some

/-- The members of a group by name or, in an array, by position. A date has none of them. -/
def group? (names : List String) : Value → Option (List (Option Value))
  | .table members => some (names.map (Table.get? members))
  | .arr elements => some (names.mapIdx fun i _ => elements[i]?)
  | .datetime _ => some (names.map fun _ => none)
  | _ => none

/-- The member of a group at a position; an absent group has none. -/
def memberAt (group : Option (List (Option Value))) (i : Nat) : Option Value :=
  group.bind fun values => (values[i]?).join

/-- Read the analysis group. -/
def analysis? (v : Option Value) : Option AnalysisOverlay := do
  let group ← setting?
    (group? ["max_dependency_depth", "fetch_timeout_secs", "max_concurrent_fetches",
      "inspect_dependency_files"]) v
  return {
    maxDependencyDepth := ← setting? natural? (memberAt group 0)
    fetchTimeoutSeconds := ← setting? natural? (memberAt group 1)
    maxConcurrentFetches := ← setting? natural? (memberAt group 2)
    inspectDependencyFiles := ← setting? bool? (memberAt group 3) }

/-- Read the inspection group. -/
def inspection? (v : Option Value) : Option InspectionOverlay := do
  let group ← setting? (group? ["file_extensions", "trusted_domains", "malicious_filenames"]) v
  return {
    fileExtensions := ← setting? texts? (memberAt group 0)
    trustedDomains := ← setting? texts? (memberAt group 1)
    maliciousFilenames := ← setting? texts? (memberAt group 2) }

/-- Read a group with a single setting. -/
def single? {α : Type} (name : String) (read : Value → Option α) (v : Option Value) :
    Option (Option α) := do
  let group ← setting? (group? [name]) v
  setting? read (memberAt group 0)

/-- Read what a file sets. -/
def ofTable? (t : Table) : Option SettingsOverlay := do
  return {
    scoreThreshold := ← setting? integer? (t.get? "score_threshold")
    blockInstall := ← setting? bool? (t.get? "block_install")
    autoCheck := ← setting? bool? (t.get? "auto_check")
    analysis := ← analysis? (t.get? "analysis")
    inspection := ← inspection? (t.get? "inspection")
    malwareHashes := ← single? "hashes" texts? (t.get? "malware")
    useOsv := ← single? "osv" bool? (t.get? "advisories") }

end SettingsOverlay

/-- A number that has to be positive; zero means the default. -/
def positiveOr (default n : Nat) : Nat :=
  if n = 0 then default else n

/-- The analysis settings with those of a file. -/
def AnalysisSettings.overlaid (s : AnalysisSettings) (o : AnalysisOverlay) :
    AnalysisSettings where
  maxDependencyDepth := o.maxDependencyDepth.getD s.maxDependencyDepth
  fetchTimeoutSeconds :=
    (o.fetchTimeoutSeconds.map (positiveOr 30)).getD s.fetchTimeoutSeconds
  maxConcurrentFetches :=
    (o.maxConcurrentFetches.map (positiveOr 8)).getD s.maxConcurrentFetches
  inspectDependencyFiles := o.inspectDependencyFiles.getD s.inspectDependencyFiles

/-- The entries of a list in their normal form, trimmed and in lower case, without blank ones. -/
def normalEntries (entries : List String) : List String :=
  (entries.map fun entry => Text.lower (Text.trim entry)).filter (· ≠ "")

/-- Add entries that are not listed yet. -/
def appendUnique (entries extras : List String) : List String :=
  extras.foldl
    (fun entries extra => if extra ∈ entries then entries else entries ++ [extra]) entries

/-- A list with the entries of a file added. -/
def extended (entries : List String) (extras : Option (List String)) : List String :=
  appendUnique entries (normalEntries (extras.getD []))

/-- The inspection lists with the entries of a file added. -/
def InspectionSettings.overlaid (s : InspectionSettings) (o : InspectionOverlay) :
    InspectionSettings where
  fileExtensions := extended s.fileExtensions o.fileExtensions
  trustedDomains := extended s.trustedDomains o.trustedDomains
  maliciousFilenames := extended s.maliciousFilenames o.maliciousFilenames

/-- The settings with those of a file, whose threshold must be within bounds. -/
def Settings.overlaid (s : Settings) (o : SettingsOverlay) : Except Failure Settings := do
  let threshold ←
    match o.scoreThreshold with
    | some value => checkThreshold value
    | none => .ok s.scoreThreshold
  return {
    scoreThreshold := threshold
    blockInstall := o.blockInstall.getD s.blockInstall
    autoCheck := o.autoCheck.getD s.autoCheck
    analysis := s.analysis.overlaid o.analysis
    inspection := s.inspection.overlaid o.inspection
    malwareHashes := extended s.malwareHashes o.malwareHashes
    useOsv := o.useOsv.getD s.useOsv }

end PackageRisk
