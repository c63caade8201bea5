import ClusterTrace.Main
import ClusterTrace.Tool.Program
import ClusterTrace.Usage.Ledger
import ClusterTrace.Proofs.Keyed
import ClusterTrace.Proofs.UsagePerTick
import ClusterTrace.Proofs.UsageLedger
import ClusterTrace.Proofs.TraceRows
import ClusterTrace.Proofs.ReplayStep
import ClusterTrace.Proofs.ReplayRows
import ClusterTrace.Proofs.TaskPlacements
import ClusterTrace.Proofs.PlacementsInTurn
import ClusterTrace.Proofs.WellFormed
import ClusterTrace.Proofs.RowFaults
import ClusterTrace.Proofs.Acceptance
import ClusterTrace.Number.Exact
import ClusterTrace.Proofs.Interleaving
import ClusterTrace.Proofs.UsageConserved
import ClusterTrace.Proofs.DoubleOrder
import ClusterTrace.Proofs.UsageRatios
import ClusterTrace.Proofs.Numerals
import ClusterTrace.Proofs.TraceText
import ClusterTrace.Proofs.Declarations
import ClusterTrace.Proofs.RunDirectories
import ClusterTrace.Proofs.SoundCluster
import ClusterTrace.Proofs.JobBoard
import ClusterTrace.Proofs.BatchOutcomes
import ClusterTrace.Proofs.RowFrame
import ClusterTrace.Proofs.ReleaseSlack
import ClusterTrace.Proofs.SolverLog
import ClusterTrace.Proofs.TraceLayout
import ClusterTrace.Proofs.RowsCommute
import ClusterTrace.Proofs.RowGrammar
import ClusterTrace.Proofs.LineNumbers
import ClusterTrace.Proofs.SolverAssignments
import ClusterTrace.Proofs.LogLineEnds
import ClusterTrace.Proofs.WholeNumbers
import ClusterTrace.Proofs.GraphCounts
import ClusterTrace.Proofs.WallTime
import ClusterTrace.Proofs.TrailingFields
import ClusterTrace.Proofs.StatsConfined
import ClusterTrace.Proofs.SignedZero
import ClusterTrace.Proofs.UsageSums
import ClusterTrace.Proofs.SortedValues
import ClusterTrace.Proofs.SummaryOfSample
import ClusterTrace.Proofs.Quantiles
import ClusterTrace.Proofs.ExtremeResources
import ClusterTrace.Proofs.FlagLines
import ClusterTrace.Proofs.FirstFlagLines
import ClusterTrace.Proofs.StorageTrees
import ClusterTrace.Proofs.SweepExpansion
import ClusterTrace.Proofs.ByteOrder
import ClusterTrace.Proofs.RunDiscovery
import ClusterTrace.Proofs.RunLoading
import ClusterTrace.Proofs.UsageTable
import ClusterTrace.Proofs.RunLabels
