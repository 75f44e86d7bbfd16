import PackageRisk.Number.Binary64
import PackageRisk.Severity

/-!
# Findings

What the inspection of one file of a package can report: suspicious patterns by category, network
use, branching, and the flags for names, obfuscation, permissions and known malware.
-/

namespace PackageRisk

/-- The kinds of suspicious code. -/
inductive PatternCategory where
  | codeExecution
  | dataExfiltration
  | obfuscation
  | systemAccess
  | cryptoMining
  | persistence
  | antiDebugging
  | fingerprinting
  | knownExploits
  deriving DecidableEq, Repr

namespace PatternCategory

/-- Every category in order. -/
def all : List PatternCategory :=
  [codeExecution, dataExfiltration, obfuscation, systemAccess, cryptoMining, persistence,
    antiDebugging, fingerprinting, knownExploits]

/-- The name of a category. -/
def label : PatternCategory → String
  | codeExecution => "code-execution"
  | dataExfiltration => "data-exfiltration"
  | obfuscation => "obfuscation"
  | systemAccess => "system-access"
  | cryptoMining => "crypto-mining"
  | persistence => "persistence"
  | antiDebugging => "anti-debugging"
  | fingerprinting => "fingerprinting"
  | knownExploits => "known-exploits"

/-- How serious code of a category is. -/
def severity : PatternCategory → Severity
  | codeExecution | cryptoMining | knownExploits => .critical
  | dataExfiltration | systemAccess | persistence => .high
  | obfuscation => .medium
  | antiDebugging | fingerprinting => .low

theorem mem_all (c : PatternCategory) : c ∈ all := by
  cases c <;> decide

end PatternCategory

/-- Suspicious code in a file, with an excerpt around it. -/
structure SuspiciousPattern where
  category : PatternCategory
  description : String
  severity : Severity
  file : Option String := none
  context : Option String := none
  deriving DecidableEq, Repr

/-- A use of the network that deserves attention. -/
inductive NetworkIssue where
  | suspiciousUrl (host : String)
  | socketConnection
  | envExfiltration
  deriving DecidableEq, Repr

namespace NetworkIssue

/-- How serious an issue is. -/
def severity : NetworkIssue → Severity
  | suspiciousUrl _ => .medium
  | socketConnection => .medium
  | envExfiltration => .critical

/-- The wording of an issue. -/
def description : NetworkIssue → String
  | suspiciousUrl host => "request to untrusted host " ++ host
  | socketConnection => "live socket connection, verify legitimacy"
  | envExfiltration => "critical: environment variables read alongside network access"

/-- Issues in order: untrusted hosts by name, then sockets, then the environment. -/
def le : NetworkIssue → NetworkIssue → Bool
  | suspiciousUrl a, suspiciousUrl b => decide (a ≤ b)
  | suspiciousUrl _, _ => true
  | socketConnection, suspiciousUrl _ => false
  | socketConnection, _ => true
  | envExfiltration, envExfiltration => true
  | envExfiltration, _ => false

end NetworkIssue

/-- The branching of a file. -/
structure Complexity where
  cyclomatic : Nat
  isComplex : Bool
  deriving DecidableEq, Repr

/-- The outcome of inspecting one file. -/
structure FileFinding where
  path : String := ""
  contentHash : Option String := none
  patterns : List SuspiciousPattern := []
  suspiciousFilename : Bool := false
  obfuscated : Bool := false
  obfuscationDensity : Binary64 := .zero
  networkIssues : List NetworkIssue := []
  dangerousPermissions : Bool := false
  complexity : Option Complexity := none
  isKnownMalware : Bool := false
  error : Option String := none
  deriving DecidableEq, Repr

/-- Something about the file deserves attention. -/
def FileFinding.hasRisk (f : FileFinding) : Bool :=
  f.isKnownMalware || f.suspiciousFilename || f.obfuscated || f.dangerousPermissions ||
    !f.patterns.isEmpty || !f.networkIssues.isEmpty

end PackageRisk
