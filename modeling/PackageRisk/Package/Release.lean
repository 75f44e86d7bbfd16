import PackageRisk.Instant
import PackageRisk.NameMap

/-!
# Releases

What a package registry knows about one published version of a package, and about its publisher.
A release declares dependencies of three kinds; a name declared more than once is requested once,
production before development before peer.
-/

namespace PackageRisk

/-- A package in one version. -/
structure PackageRef where
  name : String
  version : String
  deriving DecidableEq, Repr

/-- The customary form `name@version`. -/
def PackageRef.display (p : PackageRef) : String :=
  p.name ++ "@" ++ p.version

/-- Why a package is depended on. -/
inductive DependencyKind where
  | production
  | development
  | peer
  deriving DecidableEq, Repr

/-- The full name of a dependency kind. -/
def DependencyKind.label : DependencyKind → String
  | production => "production"
  | development => "development"
  | peer => "peer"

/-- The short name of a dependency kind. -/
def DependencyKind.shortLabel : DependencyKind → String
  | production => "prod"
  | development => "dev"
  | peer => "peer"

/-- What a registry publishes about the archive of a release. -/
structure Distribution where
  tarball : Option String := none
  size : Option Nat := none
  fileCount : Option Nat := none
  files : List String := []
  deriving DecidableEq, Repr

/-- The registry's record of one version of a package. -/
structure Release where
  name : String := ""
  version : String := ""
  latest : String := ""
  description : Option String := none
  author : Option String := none
  license : Option String := none
  maintainers : List String := []
  scripts : NameMap String := ∅
  dependencies : NameMap String := ∅
  devDependencies : NameMap String := ∅
  peerDependencies : NameMap String := ∅
  published : Option Instant := none
  dist : Distribution := {}
  deriving DecidableEq

/-- A dependency as a release asks for it. -/
structure DependencyRequest where
  name : String
  spec : String
  kind : DependencyKind
  deriving DecidableEq, Repr

namespace Release

/-- The package and version of a release. -/
def ref (r : Release) : PackageRef :=
  ⟨r.name, r.version⟩

/-- Put the dependencies of one kind into a map of requests; they replace what was there. -/
def addRequests (kind : DependencyKind) (declared : NameMap String)
    (requests : NameMap DependencyRequest) : NameMap DependencyRequest :=
  declared.entries.foldl (fun m p => m.insert p.1 ⟨p.1, p.2, kind⟩) requests

/-- The requested dependencies by ascending name, one for each declared name. -/
def requests (r : Release) : List DependencyRequest :=
  (addRequests .production r.dependencies
    (addRequests .development r.devDependencies
      (addRequests .peer r.peerDependencies ∅))).values

/-- A request among those of several kinds has the kind last put in, or was there before. -/
theorem kind_of_mem_addRequests {kind : DependencyKind} {declared : NameMap String}
    {requests : NameMap DependencyRequest} {p : String × DependencyRequest}
    (hp : p ∈ (addRequests kind declared requests).entries) :
    p.2.kind = kind ∨ p ∈ requests.entries := by
  unfold addRequests at hp
  generalize declared.entries = pairs at hp
  induction pairs generalizing requests with
  | nil => exact .inr hp
  | cons d rest ih =>
    rcases ih hp with own | old
    · exact .inl own
    · rcases mem_insertPair old with rfl | old
      · exact .inl rfl
      · exact .inr old

/-- What is declared as a production dependency only is requested as one. -/
theorem kind_of_mem_requests {r : Release} (development : r.devDependencies = ∅)
    (peer : r.peerDependencies = ∅) {request : DependencyRequest}
    (hrequest : request ∈ r.requests) : request.kind = .production := by
  obtain ⟨p, hp, rfl⟩ := List.mem_map.mp hrequest
  rw [development, peer] at hp
  exact (kind_of_mem_addRequests hp).resolve_right List.not_mem_nil

end Release

/-- What a registry knows about the account that publishes a package. -/
structure Publisher where
  username : String
  verified : Bool := false
  created : Option Instant := none
  packageCount : Nat := 0
  deriving DecidableEq, Repr

end PackageRisk
