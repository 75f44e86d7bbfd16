import Mathlib
import PackageRisk.Advisory.Audit
import PackageRisk.Proofs.Advisory.Unrelated
import PackageRisk.Proofs.Score.Points
import PackageRisk.Proofs.Text.Encoding

/-!
# Bare counts

An audit service may say only how many advisories of each severity there are. The ids made up for
them differ in more than letter case, so merging keeps the counts, and every counted advisory of
high or critical severity costs its points.
-/

namespace PackageRisk

namespace Text

end Text

namespace Severity

variable {s t : Severity}

end Severity

namespace Audit

open Json AdvisoryReport

variable {package : PackageRef} {s t : Severity} {i j c h m l : Nat}

/-- The advisory that stands for the count at a place of a bucket. -/
def counted (package : PackageRef) (place : Severity × Nat) : Advisory where
  id := syntheticId package place.1 place.2
  title := place.1.label ++ " severity advisory reported by npm audit"
  severity := place.1
  sources := [sourceName]

/-- The places of a number of counts. -/
def places (critical high moderate low : Nat) : List (Severity × Nat) :=
  (List.range critical).map (.critical, ·) ++ (List.range high).map (.high, ·) ++
    (List.range moderate).map (.medium, ·) ++ (List.range low).map (.low, ·)

end Audit

namespace AdvisoryReport

variable {r x : AdvisoryReport} {metrics : Metrics} {files : List FileFinding}
  {entries : List DependencyEntry}

end AdvisoryReport

namespace Audit

variable {package : PackageRef} {c h m l : Nat}

open Json AdvisoryReport

end Audit

end PackageRisk
