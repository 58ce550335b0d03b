import PrismServe.Lib.Dict
import PrismServe.Lib.Coroutine
import PrismServe.Lib.TaskPool
import PrismServe.Scheduler.SlotConservation
import PrismServe.Scheduler.Quarantine
import PrismServe.Machine
import PrismServe.Properties.Completions
import PrismServe.Properties.LegacyCleanup
import PrismServe.Properties.Fencing
import PrismServe.Properties.TransferLedger
import PrismServe.Properties.TransferDelivery
import PrismServe.Properties.PrepareOutcome
import PrismServe.Properties.StoreReopening
import PrismServe.Properties.SealedRuns
import PrismServe.Properties.TopologyEvidence
import PrismServe.Properties.NcclSequence
import PrismServe.Properties.Admission
import PrismServe.Properties.OutputHistory
import PrismServe.Properties.RegistryAdmission
import PrismServe.Properties.LoadCompensation
import PrismServe.Properties.UncontactedLoad
import PrismServe.Properties.RestartSafety
import PrismServe.Properties.IndexAlgebra
import PrismServe.Properties.ChainHashes
import PrismServe.Properties.LongestPrefix
import PrismServe.Properties.BatchPersistence
import PrismServe.Properties.FreshWorld
import PrismServe.Properties.DeferredOrder
import PrismServe.Properties.PromptFingerprints
import PrismServe.Properties.WatchEncoding
import PrismServe.Properties.FrozenTermination
import PrismServe.Properties.HelmDiff
import PrismServe.Properties.TraceLifecycle
import PrismServe.Properties.EvidenceDigests
import PrismServe.Properties.HelmExact
import PrismServe.Properties.OutputRetention
import PrismServe.Properties.TransferProgress
import PrismServe.Properties.ReuseSoundness
import PrismServe.Properties.LeaseLifecycle
import PrismServe.Properties.GovernorRefinement
