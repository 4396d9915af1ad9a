import Duet.BatchBounds
import Duet.BoundedHashing
import Duet.CanonicalPaths
import Duet.CloneBacked
import Duet.CommitAgreement
import Duet.CommitRun
import Duet.ConflictResolution
import Duet.Convergence
import Duet.DeltaRoundTrip
import Duet.DetailAgreement
import Duet.DetailBatches
import Duet.ErrorEnvelope
import Duet.ForwardPass
import Duet.FrameAcceptance
import Duet.InterruptHandling
import Duet.LegacyWire
import Duet.Lib.Component
import Duet.Lib.Text
import Duet.Lib.Words
import Duet.Lib.WorkerPool
import Duet.ManifestMerge
import Duet.MarkerAppends
import Duet.MarkerInventory
import Duet.MigrationPlan
import Duet.MigrationSaves
import Duet.Orchestrator.Interrupt
import Duet.Orchestrator.WaveLoop
import Duet.PhaseJournal
import Duet.PlanStructure
import Duet.PrecommitCleanup
import Duet.PruneSafety
import Duet.Scan.TreeEdits
import Duet.ScanSelection
import Duet.ScopeFrame
import Duet.SignatureWindow
import Duet.SnapshotRoundTrip
import Duet.StagedAttempts
import Duet.StagingCredit
import Duet.State.BlockingTasks
import Duet.StrongDigests
import Duet.Sync.CallRules
import Duet.Sync.Commit
import Duet.Sync.CommitActions
import Duet.Sync.CommitChecks
import Duet.Sync.CommitPlan
import Duet.Sync.CommitRules
import Duet.Sync.CommitSteps
import Duet.Sync.DetailOutputs
import Duet.Sync.DetailSides
import Duet.Sync.FrameGrammar
import Duet.Sync.MarkerContents
import Duet.Sync.MarkerPrinted
import Duet.Sync.MarkerQuarantine
import Duet.Sync.PathBytes
import Duet.Sync.ProducedFrames
import Duet.Sync.PruneFrame
import Duet.Sync.PublicationBatch
import Duet.Sync.Recovery
import Duet.Sync.SecondPass
import Duet.Sync.Signatures
import Duet.Sync.StageCleanup
import Duet.Sync.StagingSpace
import Duet.Sync.StoredOutputs
import Duet.Sync.SystemCalls
import Duet.SyncError
import Duet.Wave.ClientCalls
import Duet.Wave.ClientRules
import Duet.Wave.HostCalls
import Duet.Wave.Reachable
import Duet.Wave.RunCalls
import Duet.Wave.ServerCalls
import Duet.Wave.Stages
import Duet.Wave.System
import Duet.Wave.Trial
import Duet.Wave.WaveCalls
import Duet.WavePlanner
import Duet.WaveProtocol
