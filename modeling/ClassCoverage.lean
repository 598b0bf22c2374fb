import ClassCoverage.Aggregate
import ClassCoverage.Archive.Rewrite
import ClassCoverage.Checksum
import ClassCoverage.CommandLine
import ClassCoverage.Instrument
import ClassCoverage.Json
import ClassCoverage.Main
import ClassCoverage.Proofs.RewriteFailure
import ClassCoverage.Report
import ClassCoverage.Rewriter.Marking
import ClassCoverage.Settings
import ClassCoverage.Shell
import ClassCoverage.Proofs.DeflateRoundTrip
import ClassCoverage.Proofs.LawfulLibraries
import ClassCoverage.Proofs.ArchiveFields
import ClassCoverage.Proofs.ArchiveRoundTrip
import ClassCoverage.Proofs.ArchiveEquivalence
import ClassCoverage.Proofs.StoreOrder
import ClassCoverage.Proofs.DiskGrowth
import ClassCoverage.Proofs.MetadataRoundTrip
import ClassCoverage.Proofs.MetadataSave
import ClassCoverage.Proofs.RegisteredRecords
import ClassCoverage.Proofs.TargetGrowth
import ClassCoverage.Proofs.CrewRuns
import ClassCoverage.Proofs.InstrumentRecords
import ClassCoverage.Proofs.MetadataGrammar
import ClassCoverage.Proofs.MetadataAcceptance
import ClassCoverage.Proofs.NewDirectories
import ClassCoverage.Proofs.ScannedFiles
import ClassCoverage.Proofs.StoreSums
import ClassCoverage.Proofs.AggregateRuns
import ClassCoverage.Proofs.Deeds
import ClassCoverage.Proofs.TreePaths
import ClassCoverage.Proofs.TreeDeeds
import ClassCoverage.Proofs.ArchiveDeeds
import ClassCoverage.Proofs.TargetDeeds
import ClassCoverage.Proofs.CrewDeeds
import ClassCoverage.Proofs.ParallelRuns
import ClassCoverage.Proofs.StoreTotals
import ClassCoverage.Proofs.PersistRuns
import ClassCoverage.Proofs.SharedMetadata
import ClassCoverage.Proofs.SettledArchives
import ClassCoverage.Proofs.SettledTrees
import ClassCoverage.Proofs.SettledTargets
import ClassCoverage.Proofs.SecondRuns
import ClassCoverage.Proofs.GivenArguments
import ClassCoverage.Proofs.CheckVerdicts
import ClassCoverage.Proofs.SourcePlaces
import ClassCoverage.Proofs.TreeRuns
import ClassCoverage.Proofs.OfferedClasses
import ClassCoverage.Proofs.EngineAgreement
import ClassCoverage.Proofs.TagReader
import ClassCoverage.Proofs.PackageGroups
import ClassCoverage.Proofs.XmlReading
import ClassCoverage.Proofs.ShownCounts
import ClassCoverage.Proofs.XmlReport
import ClassCoverage.Proofs.HtmlReading
import ClassCoverage.Proofs.TableReading
import ClassCoverage.Proofs.ReportAgreement
import ClassCoverage.Proofs.ReportRuns
import ClassCoverage.Proofs.KeyedStores
import ClassCoverage.Proofs.StoreSessions
import ClassCoverage.Proofs.StoreUpdates
import ClassCoverage.Proofs.MergedCounts
import ClassCoverage.Proofs.StoppedSaves
import ClassCoverage.Proofs.WrittenTrees
import ClassCoverage.Proofs.WalkedFiles
import ClassCoverage.Proofs.TargetMentions
import ClassCoverage.Proofs.SourceCandidates
import ClassCoverage.Proofs.PackageSources
import ClassCoverage.Proofs.FreshSummaries
import ClassCoverage.Proofs.ProgramRuns
import ClassCoverage.Proofs.CharsetReading
import ClassCoverage.Proofs.EncodedNames
import ClassCoverage.Proofs.PageTags
import ClassCoverage.Proofs.DeclaredEncodings
import ClassCoverage.Proofs.DecisionCounts
import ClassCoverage.Proofs.SourceLines
