import PackageRisk.Dependency.Walk

/-!
# The dependency graph

The releases that can be reached from a root over dependency requests, and what a walk of a
certain depth has to report about them. Only the root and releases that were assessed are
expanded, so a path may end anywhere but passes through such releases only. The distance of a
package is the length of a shortest path to it.
-/

namespace PackageRisk

namespace Walk

/-- The requests of a release are followed: it is the root, or its assessment was completed. -/
def Expanded (a : Assessor) (root r : Release) : Prop :=
  r.ref = root.ref ∨ ∃ assessment, a.assess r = .done (.ok assessment)

/-- A path of some length from the root leads to a release; all releases before the last are
expanded. -/
inductive Reaches (a : Assessor) (root : Release) : Nat → Release → Prop
  | root : Reaches a root 0 root
  | step {n : Nat} {r target : Release} {request : DependencyRequest}
      (path : Reaches a root n r) (expanded : Expanded a root r) (asks : request ∈ r.requests)
      (resolves : a.resolve request.name request.spec = .done (.ok target)) :
      Reaches a root (n + 1) target

/-- The length of a shortest path to a release and version. -/
def Distance (a : Assessor) (root : Release) (n : Nat) (r : Release) : Prop :=
  Reaches a root n r ∧ ∀ m other, Reaches a root m other → other.ref = r.ref → n ≤ m

/-- A release at the end of a path of some length is expanded and asks for a name in a declared
version. -/
def Asks (a : Assessor) (root : Release) (n : Nat) (name spec : String) : Prop :=
  ∃ r kind, Reaches a root n r ∧ Expanded a root r ∧ ⟨name, spec, kind⟩ ∈ r.requests

/-- The length of a shortest path to an expanded release that asks for a name in a declared
version. -/
def AskedAt (a : Assessor) (root : Release) (n : Nat) (name spec : String) : Prop :=
  Asks a root n name spec ∧ ∀ m, Asks a root m name spec → n ≤ m

/-- What a walk has to report, down to a depth: every package other than the root with its
distance, scored or with the note that its assessment took too long; and every request that could
not be resolved, one level below the nearest release that makes it. -/
inductive Reportable (a : Assessor) (seconds : Nat) (root : Release) (maxDepth : Nat) :
    DependencyEntry → Prop
  | assessed {n : Nat} {r : Release} {kind : DependencyKind} {assessment : Assessment}
      (distance : Distance a root n r) (depth : n ≤ maxDepth) (other : r.ref ≠ root.ref)
      (assess : a.assess r = .done (.ok assessment)) :
      Reportable a seconds root maxDepth
        { name := r.name, version := r.version, depth := n, kind := kind
          score := some assessment.score, malwareDetected := assessment.malwareDetected
          latest := some r.latest }
  | unassessed {n : Nat} {r : Release} {kind : DependencyKind}
      (distance : Distance a root n r) (depth : n ≤ maxDepth) (other : r.ref ≠ root.ref)
      (assess : a.assess r = .hangs) :
      Reportable a seconds root maxDepth
        { name := r.name, version := r.version, depth := n, kind := kind
          score := some neutralScore, malwareDetected := false, latest := some r.latest
          missingInfo := some ("assessment timed out after " ++ toString seconds ++ "s") }
  | unresolved {n : Nat} {name spec : String} {kind : DependencyKind} {failure : Failure}
      (asked : AskedAt a root n name spec) (depth : n < maxDepth)
      (resolve : (a.resolve name spec).within seconds (resolving name spec) =
        .done (.error failure)) :
      Reportable a seconds root maxDepth
        { name := name, version := spec, depth := n + 1, kind := kind
          score := if failure.isNetwork then some neutralScore else none
          malwareDetected := false, missingInfo := some failure.message }

/-- What an entry is about: a release and version, or a request that could not be resolved. -/
def entryKey (e : DependencyEntry) : Bool × String × String :=
  (e.latest.isSome, e.name, e.version)

/-- Entries report exactly what a walk of some depth has to report, in order, with one entry for
each package and one for each unresolved request. The kind of an entry is left open: it is that of
whichever request was taken on first. -/
structure ReportsExactly (a : Assessor) (seconds : Nat) (root : Release) (maxDepth : Nat)
    (entries : List DependencyEntry) : Prop where
  ordered : entries.Pairwise fun e f => entryLe e f
  distinct : (entries.map entryKey).Nodup
  listed : ∀ e : DependencyEntry,
    (∃ kind, { e with kind := kind } ∈ entries) ↔ Reportable a seconds root maxDepth e

end Walk

/-- Equal names and versions mean equal releases, among the root and all that requests are
resolved to. -/
structure Assessor.Coherent (a : Assessor) (root : Release) : Prop where
  root : ∀ {name spec r}, a.resolve name spec = .done (.ok r) → r.ref = root.ref → r = root
  resolved : ∀ {name spec r name' spec' r'}, a.resolve name spec = .done (.ok r) →
    a.resolve name' spec' = .done (.ok r') → r.ref = r'.ref → r = r'

end PackageRisk
