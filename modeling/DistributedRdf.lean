import DistributedRdf.QueryDistribution
import DistributedRdf.ProgramOrder
import DistributedRdf.SemaphoreRelease
import DistributedRdf.BindingExclusive
import DistributedRdf.ResumptionOrder
import DistributedRdf.TransferSettlement
import DistributedRdf.RetryBound
import DistributedRdf.TaskResults
import DistributedRdf.WorkerSlots
import DistributedRdf.TaskAnswers
import DistributedRdf.HostRemoval
import DistributedRdf.GroupAttempts
import DistributedRdf.TaskEndAccounts
import DistributedRdf.ReceivedTaskAnswers
import DistributedRdf.CopyAnswers
import DistributedRdf.MovedVersions
import DistributedRdf.EntityLinks
import DistributedRdf.EntityMatching
import DistributedRdf.QueryStructure
import DistributedRdf.ObjectIdentity
import DistributedRdf.MachineLifeCycle
import DistributedRdf.SharedCopies
import DistributedRdf.ExecutorAgreement
import DistributedRdf.InterfaceReading
import DistributedRdf.ProcessedQueries
import DistributedRdf.SqlLiterals
import DistributedRdf.ReleasedReservations
import DistributedRdf.JoinedFeatures
import DistributedRdf.InsertedText
import DistributedRdf.ActionPlaces
import DistributedRdf.CapabilityUpdates
import DistributedRdf.InstanceSelection
import DistributedRdf.Redistribution
import DistributedRdf.DependencyOrder
import DistributedRdf.ReleasedWorkers
import DistributedRdf.PendingCoreCounts
import DistributedRdf.GraphDrawing
import DistributedRdf.FinishedAccesses
import DistributedRdf.ResourceBinding
import DistributedRdf.CoreRegistry
import DistributedRdf.Unscheduling
import DistributedRdf.PriorityRuns
import DistributedRdf.OptimizationPass
import DistributedRdf.MachineMapCoverage
import DistributedRdf.TaskCalls
import DistributedRdf.KMeans
import DistributedRdf.EnvironmentExpansion
import DistributedRdf.LocationOrder
import DistributedRdf.CacheAgreement
import DistributedRdf.CompletionListeners
import DistributedRdf.ObjectValues
import DistributedRdf.MachineCosts
import DistributedRdf.ObsoleteData
import DistributedRdf.BestPlacement
