import PackageRisk.Advisory.Audit
import PackageRisk.Advisory.Osv
import PackageRisk.Analysis.Analyzer
import PackageRisk.Settings.Basic

/-!
# Analysing over a network

What settings make of an analyzer, and an analyzer whose lookups are exchanges with web services.
-/

namespace PackageRisk

/-- Where the services answer. -/
structure Endpoints where
  registry : RegistryService := {}
  osvUrl : String := Osv.defaultUrl
  deriving DecidableEq, Repr

/-- The services with all their addresses below one. -/
def Endpoints.below (base : String) : Endpoints :=
  ⟨⟨base, base⟩, base ++ "/v1/query"⟩

/-- A registry over a network. -/
def Registry.online (service : RegistryService) (network : Network) : Registry where
  release name requested := .done (service.fetchRelease network name requested)
  publisher username := .done (service.fetchPublisher network username)
  downloads name := .done (service.fetchDownloads network name)
  tree release := .done (fetchTree network release)

/-- The audits of a registry as an advisory source. -/
def AdvisorySource.audit (service : RegistryService) (network : Network) : AdvisorySource :=
  ⟨Audit.sourceName, fun package => .done (Audit.query service network package)⟩

/-- The open database as an advisory source. -/
def AdvisorySource.osv (url : String) (network : Network) : AdvisorySource :=
  ⟨Osv.sourceName, fun package => .done (Osv.query url network package)⟩

/-- The limits that settings stand for. -/
def AnalysisLimits.ofSettings (s : Settings) : AnalysisLimits where
  maxDepth := s.analysis.maxDependencyDepth
  timeoutSeconds := s.analysis.fetchTimeoutSeconds
  inspectDependencyFiles := s.analysis.inspectDependencyFiles
  extensions := s.inspection.fileExtensions

/-- The inspector that settings stand for. -/
def Inspector.ofSettings (s : Settings) : Inspector where
  hashes := .ofList s.malwareHashes
  options := .withExtras s.inspection.trustedDomains s.inspection.maliciousFilenames

/-- The analyzer that settings stand for. The audits come first among the advisory sources, then
the open database if the settings include it. -/
def Analyzer.configured (registry : Registry) (audit osv : AdvisorySource) (now : Instant)
    (s : Settings) : Analyzer where
  registry := registry
  sources := audit :: if s.useOsv then [osv] else []
  inspector := .ofSettings s
  limits := .ofSettings s
  now := now

/-- An analyzer over a network. -/
def Analyzer.online (endpoints : Endpoints) (network : Network) (now : Instant)
    (s : Settings) : Analyzer :=
  .configured (.online endpoints.registry network) (.audit endpoints.registry network)
    (.osv endpoints.osvUrl network) now s

end PackageRisk
