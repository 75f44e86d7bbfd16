import PackageRisk.Severity

/-!
# Advisories

A published vulnerability and the reports that collect them. A report keeps one bucket for each
severity; an advisory is put into the bucket of its own severity.
-/

namespace PackageRisk

/-- A published vulnerability with the names it goes by and the databases that list it. -/
structure Advisory where
  id : String
  aliases : List String := []
  title : String
  severity : Severity
  sources : List String := []
  deriving DecidableEq, Repr

/-- All the names an advisory goes by, its own id first. -/
def Advisory.identifiers (a : Advisory) : List String :=
  a.id :: a.aliases

/-- Advisories in buckets by severity. -/
structure AdvisoryReport where
  critical : List Advisory := []
  high : List Advisory := []
  moderate : List Advisory := []
  low : List Advisory := []
  deriving DecidableEq, Repr

namespace AdvisoryReport

/-- The bucket of a severity. -/
def bucket (r : AdvisoryReport) : Severity → List Advisory
  | .critical => r.critical
  | .high => r.high
  | .medium => r.moderate
  | .low => r.low

/-- Add an advisory at the end of the bucket of its severity. -/
def push (r : AdvisoryReport) (a : Advisory) : AdvisoryReport :=
  match a.severity with
  | .critical => { r with critical := r.critical ++ [a] }
  | .high => { r with high := r.high ++ [a] }
  | .medium => { r with moderate := r.moderate ++ [a] }
  | .low => { r with low := r.low ++ [a] }

/-- The report that puts each of some advisories into the bucket of its severity. -/
def ofList (advisories : List Advisory) : AdvisoryReport where
  critical := advisories.filter (·.severity == .critical)
  high := advisories.filter (·.severity == .high)
  moderate := advisories.filter (·.severity == .medium)
  low := advisories.filter (·.severity == .low)

/-- All advisories, the most severe bucket first. -/
def toList (r : AdvisoryReport) : List Advisory :=
  r.critical ++ r.high ++ r.moderate ++ r.low

/-- The number of advisories. -/
def total (r : AdvisoryReport) : Nat :=
  r.critical.length + r.high.length + r.moderate.length + r.low.length

/-- No advisory in any bucket. -/
def isEmpty (r : AdvisoryReport) : Bool :=
  r.total == 0

/-- Sort every bucket by id; equal ids keep their order. -/
def sortById (r : AdvisoryReport) : AdvisoryReport :=
  let sort (bucket : List Advisory) := bucket.mergeSort fun a b => decide (a.id ≤ b.id)
  ⟨sort r.critical, sort r.high, sort r.moderate, sort r.low⟩

end AdvisoryReport

end PackageRisk
