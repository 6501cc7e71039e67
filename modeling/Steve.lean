import Steve.Library.Dict
import Steve.Library.StepSystem
import Steve.Orchestrator.Cluster
import Steve.Library.WordMixing
import Steve.Orchestrator.Seeds
import Steve.Orchestrator.Sync
import Steve.Orchestrator.SyncSafety
import Steve.Orchestrator.SyncAgreement
import Steve.Adapters.Base
import Steve.Library.StridedBlocks
import Steve.Payload.Mutator
import Steve.Library.CumulativeScan
import Steve.Validation.MetricCollector
import Steve.Library.Text
import Steve.Orchestrator.Worker
import Steve.Payload.BlockMutation
import Steve.Orchestrator.WorkerWrites
import Steve.Orchestrator.PayloadUniqueness
import Steve.Orchestrator.Tiling
import Steve.Adapters.Factory
import Steve.Orchestrator.Master
import Steve.Orchestrator.FleetTelemetry
import Steve.Orchestrator.Triangulation
import Steve.Orchestrator.Pinning
import Steve.Orchestrator.TailLatency
import Steve.Adapters.IoUring
import Steve.Adapters.IoUringAttribution
import Steve.Library.OrderStatistics
import Steve.Validation.CollectorHistory
import Steve.Validation.PercentileRank
import Steve.Validation.PercentileOrder
import Steve.Orchestrator.WorkerAccounting
import Steve.Adapters.Posix
import Steve.Adapters.FileSemantics
import Steve.Adapters.FileStore
import Steve.Adapters.Disk
import Steve.Adapters.FileRefinement
import Steve.Orchestrator.ShortWrites
import Steve.Orchestrator.ResourcePath
import Steve.Orchestrator.EntropyRatio
import Steve.Payload.SliceSafety
import Steve.Payload.XorAccumulator
import Steve.Adapters.SystemTrace
import Steve.Orchestrator.PlannedRate
import Steve.Adapters.AlignmentAdmission
import Steve.Orchestrator.AlignmentRuns
import Steve.Adapters.ErrorTranslation
import Steve.Library.ResourceLedger
import Steve.Adapters.DescriptorAccounting
import Steve.Library.Decimal
import Steve.Library.ExpositionFormat
import Steve.Validation.PrometheusExport
import Steve.Library.Json
import Steve.Logging.Formatter
import Steve.Logging.AsyncHandler
import Steve.Logging.Logger
import Steve.Payload.EntryPoints
import Steve.Orchestrator.Regrouping
import Steve.Emulator.NodeWorker
import Steve.Library.ConsecutiveXor
import Steve.Emulator.NodeWrites
import Steve.Emulator.SeedRange
import Steve.Emulator.BlockRepetition
import Steve.Emulator.Cluster
import Steve.Emulator.Handshake
import Steve.Emulator.FleetReport
import Steve.Adapters.RingRefinement
import Steve.Adapters.FileImage
import Steve.Orchestrator.SharedFiles
import Steve.Orchestrator.ClusterFiles
import Steve.Library.Interleaving
import Steve.Adapters.SharedAdapter
import Steve.Library.JsonReader
import Steve.Library.JsonRoundTrip
import Steve.Logging.LogStream
import Steve.Validation.JsonReport
import Steve.Library.DisjointRanges
import Steve.Orchestrator.ReportOnDisk
import Steve.Library.LastAssignment
import Steve.Orchestrator.RepeatedNodes
import Steve.Library.RangeLoop
import Steve.Library.StridedResidues
import Steve.Adapters.BlockWrites
import Steve.Payload.BufferPool
import Steve.Payload.SeededBlocks
import Steve.Usecases.WritePhase
import Steve.Usecases.KvCache
import Steve.Usecases.Gather
import Steve.Usecases.TenantQos
import Steve.Library.ShannonEntropy
import Steve.Payload.BlockEntropy
import Steve.Orchestrator.WrittenEntropy
import Steve.Usecases.DedupBench
import Steve.Usecases.SharedLoops
import Steve.Validation.MergedHistory
import Steve.Usecases.Microburst
import Steve.Usecases.ChaosFailure
import Steve.Library.TakingTurns
import Steve.Adapters.ObjectStores
import Steve.Usecases.VectorIngestion
import Steve.Usecases.StorageTiering
