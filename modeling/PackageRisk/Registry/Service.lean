import PackageRisk.Registry.Archive
import PackageRisk.Registry.Document
import PackageRisk.Version.Range
import PackageRisk.Web.Exchange

/-!
# The package registry

Looking up releases, publishers and download counts over a network, and fetching the archives of
releases. A missing package is a failure; a missing account or download count is not.
-/

namespace PackageRisk

/-- The addresses of a registry. -/
structure RegistryService where
  registryUrl : String := "https://registry.npmjs.org"
  downloadsUrl : String := "https://api.npmjs.org"
  deriving DecidableEq, Repr

/-- A name as one segment of a path. -/
def encodeName (name : String) : String :=
  String.ofList <| name.toList.flatMap fun c =>
    if c = '@' then ['%', '4', '0'] else if c = '/' then ['%', '2', 'f'] else [c]

/-- An address without slashes at its end. -/
def withoutTrailingSlashes (url : String) : String :=
  String.ofList (Text.dropTrailing (· == '/') url.toList)

namespace RegistryService

/-- An address below the registry's. -/
def address (service : RegistryService) (path : String) : String :=
  withoutTrailingSlashes service.registryUrl ++ "/" ++ path

/-- The release that a package document holds for a requested version. -/
def releaseOf (package requested : String) (document : PackageDocument) :
    Except Failure Release :=
  match document.tags.get? "latest" with
  | none => .error (.invalidScanResult ("missing dist-tags.latest for " ++ package))
  | some latest =>
    match resolveVersion? requested document.tags document.versions.names with
    | none => .error (.metadataNotFound (package ++ "@" ++ requested))
    | some resolved =>
      match document.versions.get? resolved with
      | none => .error (.metadataNotFound (package ++ "@" ++ resolved))
      | some record => .ok (document.release package resolved latest record)

/-- Look up a package in a requested version. -/
def fetchRelease (service : RegistryService) (network : Network) (package requested : String) :
    Except Failure Release :=
  match exchange network (service.address (encodeName package)) none with
  | .error fault => .error (fault.detailed "unable to query npm registry")
  | .ok (_, response) =>
    if response.status = 404 then .error (.metadataNotFound package)
    else if !response.isSuccess then .error (statusFailure "npm registry" response.status)
    else
      match response.decode "npm registry" PackageDocument.read? with
      | .error e => .error e
      | .ok document => releaseOf package requested document

/-- Look up the account of a user. -/
def fetchPublisher (service : RegistryService) (network : Network) (username : String) :
    Except Failure (Option Publisher) :=
  match exchange network
      (service.address ("-/user/org.couchdb.user:" ++ encodeName username)) none with
  | .error fault => .error (fault.detailed "unable to query npm user API")
  | .ok (_, response) =>
    if response.status = 404 then .ok none
    else if !response.isSuccess then .error (statusFailure "npm user API" response.status)
    else
      (response.decode "npm user" AccountDocument.read?).map fun document =>
        some (document.publisher username)

/-- Look up how often a package was downloaded in the last month. -/
def fetchDownloads (service : RegistryService) (network : Network) (package : String) :
    Except Failure Nat :=
  match exchange network
      (withoutTrailingSlashes service.downloadsUrl ++ "/downloads/point/last-month/" ++
        encodeName package) none with
  | .error fault => .error (fault.detailed "unable to query npm downloads API")
  | .ok (_, response) =>
    if response.status = 404 then .ok 0
    else if !response.isSuccess then .error (statusFailure "npm downloads API" response.status)
    else response.decode "npm downloads" downloadCount?

end RegistryService

/-- Why the archive of a release could not be unpacked. The system's own account of it is not part
of this library's answers. -/
def unpackingFailure (package : PackageRef) : Failure :=
  .extraction package.display "<cause>"

/-- Fetch and unpack the archive of a release. -/
def fetchTree (network : Network) (release : Release) : Except Failure FileTree :=
  match release.dist.tarball with
  | none =>
    .error (.extraction release.ref.display "registry metadata has no tarball url")
  | some address =>
    match exchange network address none with
    | .error fault => .error (fault.detailed "unable to download package tarball")
    | .ok (url, response) =>
      if !response.isSuccess then
        .error (statusFailure "package tarball download" response.status)
      else
        match response.body with
        | .truncated =>
          .error ((ExchangeFault.truncatedBody url).detailed "unable to read package tarball")
        | .bytes _ => .error (unpackingFailure release.ref)
        | .archive entries =>
          match Archive.unpack? entries with
          | some tree => .ok tree
          | none => .error (unpackingFailure release.ref)

end PackageRisk
