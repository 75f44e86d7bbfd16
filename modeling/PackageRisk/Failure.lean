/-!
# Failures

The causes for which an analysis step fails, and their wording. A failure may be wrapped with the
package that was being analysed; network failures and failures that already name a package stay
as they are.
-/

namespace PackageRisk

/-- The kind of a failure's innermost cause. -/
inductive FailureKind where
  | network
  | metadataNotFound
  | invalidScanResult
  | invalidConfiguration
  | extractionFailure
  deriving DecidableEq, Repr

/-- Why a step failed. -/
inductive Failure where
  | network (message : String)
  | metadataNotFound (package : String)
  | invalidScanResult (message : String)
  | invalidConfiguration (message : String)
  | extraction (package message : String)
  | analysis (package : String) (cause : Failure)
  deriving DecidableEq, Repr

namespace Failure

/-- The wording of a failure. -/
def message : Failure → String
  | network text => "network error: " ++ text
  | metadataNotFound package => package ++ " was not found in the registry"
  | invalidScanResult text => "invalid scan result: " ++ text
  | invalidConfiguration text => "invalid configuration: " ++ text
  | extraction package text => "failed to extract " ++ package ++ ": " ++ text
  | analysis package cause => "failed to analyze package " ++ package ++ ": " ++ cause.message

/-- The kind of the innermost cause. -/
def kind : Failure → FailureKind
  | network _ => .network
  | metadataNotFound _ => .metadataNotFound
  | invalidScanResult _ => .invalidScanResult
  | invalidConfiguration _ => .invalidConfiguration
  | extraction _ _ => .extractionFailure
  | analysis _ cause => cause.kind

/-- The innermost cause is the network. -/
def isNetwork (f : Failure) : Bool :=
  f.kind == .network

/-- Name the package that was being analysed, unless the cause is the network itself or a package
is named already. -/
def wrap (package : String) : Failure → Failure
  | network text => network text
  | analysis inner cause => analysis inner cause
  | cause => analysis package cause

/-- The wording of a failure and of its causes, outermost first, as a report of the whole chain
shows them. -/
def chain : Failure → List String
  | analysis package cause => (analysis package cause).message :: cause.chain
  | cause => [cause.message]

end Failure

end PackageRisk
