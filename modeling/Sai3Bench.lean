import Sai3Bench.Machines
import Sai3Bench.Broadcasts
import Sai3Bench.StageConfigs
import Sai3Bench.Messages
import Sai3Bench.AgentStates
import Sai3Bench.BarrierWaits
import Sai3Bench.StageWorkflows
import Sai3Bench.AgentTasks
import Sai3Bench.AgentSteps
import Sai3Bench.BarrierReleases
import Sai3Bench.Ladders
import Sai3Bench.StageOrder
import Sai3Bench.StaleTasks
import Sai3Bench.FailedStarts
import Sai3Bench.Tables
import Sai3Bench.BarrierManagers
import Sai3Bench.BarrierPolicies
import Sai3Bench.BarrierDeciders
import Sai3Bench.PhaseBarriers
import Sai3Bench.AgentTrackers
import Sai3Bench.Controllers
import Sai3Bench.ControllerSteps
import Sai3Bench.TerminalMessages
import Sai3Bench.AgentKeys
import Sai3Bench.ReleasedOnce
import Sai3Bench.AllCompleted
import Sai3Bench.ControllerManagers
import Sai3Bench.StagePolicies
import Sai3Bench.StageTurns
import Sai3Bench.FinalTotals
import Sai3Bench.StageResults
import Sai3Bench.FinalSummaries
import Sai3Bench.SizeBins
import Sai3Bench.StageFiles
import Sai3Bench.ReleaseForwards
import Sai3Bench.PrepareWaits
import Sai3Bench.AgentMessages
import Sai3Bench.DistributedRuns
import Sai3Bench.MixedReports
import Sai3Bench.TestStatuses
import Sai3Bench.TruthfulStatuses
import Sai3Bench.DirectoryTrees
import Sai3Bench.MetadataCaches
import Sai3Bench.SizeGenerators
import Sai3Bench.Listings
import Sai3Bench.PrepareTurns
import Sai3Bench.ParallelPlans
import Sai3Bench.PreparePuts
import Sai3Bench.SequentialPrepares
import Sai3Bench.TaskPartitions
import Sai3Bench.ObjectSizes
import Sai3Bench.CacheCoverage
import Sai3Bench.CompletePrepares
import Sai3Bench.PrepareFleets
import Sai3Bench.GapFills
import Sai3Bench.ParallelPrepares
import Sai3Bench.CacheAgreement
import Sai3Bench.PrepareStrategies
import Sai3Bench.CacheRestores
import Sai3Bench.Serde
import Sai3Bench.SerdeHelpers
import Sai3Bench.RunConfigs
import Sai3Bench.RunSettings
import Sai3Bench.AgentConfigs
import Sai3Bench.ConfigTrips
import Sai3Bench.Templates
import Sai3Bench.TreePaths
import Sai3Bench.FilePlacements
import Sai3Bench.TreeShapes
import Sai3Bench.ObjectKeys
import Sai3Bench.Checkpoints
import Sai3Bench.CleanupObjects
import Sai3Bench.CleanupSweeps
import Sai3Bench.Histograms
import Sai3Bench.WorkerSummaries
import Sai3Bench.LosslessMerges
import Sai3Bench.ProcessMerges
import Sai3Bench.Pools
import Sai3Bench.ScalingLimits
import Sai3Bench.AgentPrefixes
import Sai3Bench.Crews
import Sai3Bench.DeferredRetries
import Sai3Bench.PrepareMonitors
import Sai3Bench.PrepareReturns
import Sai3Bench.TreeTotals
import Sai3Bench.PathSelectors
import Sai3Bench.TreeEndpoints
import Sai3Bench.Workbooks
import Sai3Bench.Globs
import Sai3Bench.PatternResolutions
import Sai3Bench.WorkloadRuns
import Sai3Bench.StoreLookups
import Sai3Bench.OperationPools
import Sai3Bench.BlockTexts
import Sai3Bench.BlockFields
import Sai3Bench.StageTexts
import Sai3Bench.ConfigConversions
import Sai3Bench.OplogMerges
import Sai3Bench.OplogSorts
import Sai3Bench.AgentShares
import Sai3Bench.CleanupListings
import Sai3Bench.TreeArithmetic
import Sai3Bench.FlatListings
import Sai3Bench.SharedEndpoints
import Sai3Bench.Remaps
import Sai3Bench.ReplayTotals
import Sai3Bench.PreparedCounts
import Sai3Bench.BackpressureModes
import Sai3Bench.RuleHosts
import Sai3Bench.BarrierCounts
import Sai3Bench.ErrorTrackers
import Sai3Bench.Meters
import Sai3Bench.RateControls
import Sai3Bench.PerfLogs
import Sai3Bench.GlobListings
import Sai3Bench.StageSettings
import Sai3Bench.PutPools
import Sai3Bench.OperationErrors
import Sai3Bench.RunSummaries
import Sai3Bench.OverallPercentiles
import Sai3Bench.FileIndices
import Sai3Bench.BatchFlushes
import Sai3Bench.TabNames
import Sai3Bench.ObjectData
import Sai3Bench.Parties
import Sai3Bench.TreeCreations
import Sai3Bench.ExactTrees
import Sai3Bench.RetriedData
