import PackageRisk.Main
import PackageRisk.Dependency.Graph
import PackageRisk.Dependency.Schedule
import PackageRisk.Pattern.Source
import PackageRisk.Proofs.Advisory.Merged
import PackageRisk.Proofs.Advisory.Arrangement
import PackageRisk.Proofs.Analysis.Strictness
import PackageRisk.Proofs.Version.ExactRequests
import PackageRisk.Proofs.Walk.Exactness
import PackageRisk.Proofs.Score.ClosedForm
import PackageRisk.Proofs.Walk.Once
import PackageRisk.Proofs.Walk.Schedules
import PackageRisk.Proofs.Inspection.Malware
import PackageRisk.Proofs.Walk.Visited
import PackageRisk.Proofs.Analysis.Malware
import PackageRisk.Proofs.Command.ExitStatus
import PackageRisk.Proofs.Analysis.Silence
import PackageRisk.Proofs.Inspection.Padding
import PackageRisk.Proofs.Analysis.Agreement
import PackageRisk.Proofs.Score.Dominance
import PackageRisk.Proofs.Walk.Incomplete
import PackageRisk.Proofs.Analysis.Advice
import PackageRisk.Proofs.Version.Comparators
import PackageRisk.Proofs.Version.Resolution
import PackageRisk.Proofs.Version.Spacing
import PackageRisk.Proofs.Version.Dangling
import PackageRisk.Proofs.Files.Names
import PackageRisk.Proofs.Inspection.Labels
import PackageRisk.Files.Directory
import PackageRisk.Proofs.Inspection.Density
import PackageRisk.Proofs.Inspection.Trust
import PackageRisk.Proofs.Inspection.FirstMalware
import PackageRisk.Proofs.Files.Sources
import PackageRisk.Proofs.Settings.Entries
import PackageRisk.Proofs.Settings.Layers
import PackageRisk.Proofs.Settings.Saving
import PackageRisk.Proofs.Command.FileFaults
import PackageRisk.Proofs.Settings.Policy
import PackageRisk.Proofs.Inspection.FirstRules
import PackageRisk.Proofs.Advisory.Counts
import PackageRisk.Proofs.Analysis.RiskyFiles
import PackageRisk.Proofs.Registry.Requests
import PackageRisk.Proofs.Inspection.KnownHashes
import PackageRisk.Proofs.Package.Dependencies
import PackageRisk.Proofs.Inspection.Excerpts
