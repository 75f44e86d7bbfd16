import PackageRisk.Text.Blank
import PackageRisk.Text.Letters

/-!
# Severity

Four levels of concern, from low to critical. Labels are read with blanks around them and in any
case; `moderate` is another name of the medium level.
-/

namespace PackageRisk

/-- How serious a finding is. -/
inductive Severity where
  | low
  | medium
  | high
  | critical
  deriving DecidableEq, Repr

namespace Severity

/-- The position in ascending order of concern. -/
def rank : Severity → Nat
  | low => 0
  | medium => 1
  | high => 2
  | critical => 3

/-- The more serious of two levels. -/
def max (a b : Severity) : Severity :=
  if a.rank < b.rank then b else a

/-- The name of a level. -/
def label : Severity → String
  | low => "low"
  | medium => "medium"
  | high => "high"
  | critical => "critical"

/-- The level that a name written exactly denotes. -/
def ofName? (name : String) : Option Severity :=
  match name with
  | "low" => some low
  | "medium" => some medium
  | "moderate" => some medium
  | "high" => some high
  | "critical" => some critical
  | _ => none

/-- The level that a label denotes, blanks around it and letter case apart. -/
def ofLabel? (label : String) : Option Severity :=
  ofName? (Text.lower (Text.trim label))

end Severity

end PackageRisk
