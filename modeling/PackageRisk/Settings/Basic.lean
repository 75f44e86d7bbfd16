import PackageRisk.Failure
import PackageRisk.Inspection.Options

/-!
# Settings

Everything that a user can configure, with defaults. Lists of domains, names and extensions start
out with the built-in entries. An update names the three settings that the command line can change.
-/

namespace PackageRisk

/-- Limits of lookups and of the dependency walk. -/
structure AnalysisSettings where
  maxDependencyDepth : Nat := 3
  fetchTimeoutSeconds : Nat := 30
  maxConcurrentFetches : Nat := 8
  inspectDependencyFiles : Bool := true
  deriving DecidableEq, Repr

/-- Lists for the inspection of files. -/
structure InspectionSettings where
  fileExtensions : List String := defaultExtensions
  trustedDomains : List String := defaultTrustedDomains
  maliciousFilenames : List String := defaultMaliciousFilenames
  deriving DecidableEq, Repr

/-- All settings. -/
structure Settings where
  scoreThreshold : Nat := 50
  blockInstall : Bool := true
  autoCheck : Bool := false
  analysis : AnalysisSettings := {}
  inspection : InspectionSettings := {}
  malwareHashes : List String := []
  useOsv : Bool := true
  deriving DecidableEq, Repr

/-- Settings to be changed in a file. -/
structure SettingsUpdate where
  autoCheck : Option Bool := none
  scoreThreshold : Option Nat := none
  blockInstall : Option Bool := none
  deriving DecidableEq, Repr

/-- Nothing is to be changed. -/
def SettingsUpdate.isEmpty (u : SettingsUpdate) : Bool :=
  u.autoCheck.isNone && u.scoreThreshold.isNone && u.blockInstall.isNone

/-- The greatest threshold. -/
def maxThreshold : Nat := 100

/-- A threshold within bounds. -/
def checkThreshold (value : Int) : Except Failure Nat :=
  if 0 ≤ value ∧ value ≤ maxThreshold then .ok value.toNat
  else
    .error (.invalidConfiguration
      ("score threshold must be between 0 and 100, got " ++ toString value))

theorem checkThreshold_eq_ok {value : Int} (within : 0 ≤ value ∧ value ≤ maxThreshold) :
    checkThreshold value = .ok value.toNat :=
  if_pos within

theorem exists_checkThreshold_error {value : Int}
    (beyond : ¬ (0 ≤ value ∧ value ≤ maxThreshold)) : ∃ f, checkThreshold value = .error f :=
  ⟨_, if_neg beyond⟩

theorem checkThreshold_ok {value : Int} {n : Nat} (h : checkThreshold value = .ok n) :
    value = n ∧ n ≤ maxThreshold := by
  unfold checkThreshold at h
  split at h
  · cases h
    omega
  · cases h

end PackageRisk
