import PackageRisk.Advisory.Basic

/-!
# Merging advisory reports

Several databases describe the same vulnerability under different names. Two entries are about
the same advisory when they share an identifier up to ASCII case. Entries are taken in report
order, the most severe bucket first; each joins the first entry collected so far that shares an
identifier with it, or becomes a new one.
-/

namespace PackageRisk

namespace Advisory

/-- Sort texts and drop repetitions. -/
def sortUnique (texts : List String) : List String :=
  (texts.mergeSort fun a b => decide (a ≤ b)).eraseReps

/-- One of the identifiers of an advisory equals a name up to ASCII case. -/
def isNamed (a : Advisory) (name : String) : Bool :=
  a.identifiers.any fun id => Text.sameIgnoringCase id name

/-- Two advisories share an identifier up to ASCII case. -/
def sameAs (a b : Advisory) : Bool :=
  a.identifiers.any b.isNamed

/-- The form in which an advisory enters a merged report: aliases sorted, without repetitions and
without its own id, sources sorted and without repetitions. -/
def normalized (a : Advisory) : Advisory :=
  { a with
    aliases := sortUnique (a.aliases.filter fun name => !Text.sameIgnoringCase name a.id)
    sources := sortUnique a.sources }

/-- Add a name to the aliases unless the advisory goes by it already. -/
def addName (a : Advisory) (name : String) : Advisory :=
  if a.isNamed name then a else { a with aliases := a.aliases ++ [name] }

/-- Add a source unless it is listed already. -/
def addSource (a : Advisory) (source : String) : Advisory :=
  if a.sources.contains source then a else { a with sources := a.sources ++ [source] }

/-- Take in another description of the same advisory: the higher severity, the first title that is
not empty, and the names and sources of both. -/
def absorb (a incoming : Advisory) : Advisory :=
  let raised := { a with
    severity := a.severity.max incoming.severity
    title := if a.title.isEmpty then incoming.title else a.title }
  let named := incoming.identifiers.foldl addName raised
  let sourced := incoming.sources.foldl addSource named
  { sourced with
    aliases := sourced.aliases.mergeSort fun x y => decide (x ≤ y)
    sources := sourced.sources.mergeSort fun x y => decide (x ≤ y) }

/-- Let the first matching entry absorb an advisory, or add it at the end. -/
def collect (incoming : Advisory) : List Advisory → List Advisory
  | [] => [incoming.normalized]
  | a :: rest => if a.sameAs incoming then a.absorb incoming :: rest else a :: collect incoming rest

end Advisory

namespace AdvisoryReport

/-- The entries of the merged report in the order in which they were first seen. -/
def mergedEntries (reports : List AdvisoryReport) : List Advisory :=
  (reports.flatMap toList).foldl (fun merged a => a.collect merged) []

/-- One report of all the advisories of some reports, each advisory once. -/
def merge (reports : List AdvisoryReport) : AdvisoryReport :=
  (ofList (mergedEntries reports)).sortById

end AdvisoryReport

end PackageRisk
