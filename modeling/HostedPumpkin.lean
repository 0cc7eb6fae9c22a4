import HostedPumpkin.Library.Runs
import HostedPumpkin.Library.Unwinding
import HostedPumpkin.Library.StdMap
import HostedPumpkin.Library.CriticalSection
import HostedPumpkin.Library.Ownership
import HostedPumpkin.Library.Utf16
import HostedPumpkin.Library.Dictionary
import HostedPumpkin.Library.KeyedEdits
import HostedPumpkin.Library.Framing
import HostedPumpkin.Library.Retirement
import HostedPumpkin.Library.Reservation
import HostedPumpkin.Library.FileHandle
import HostedPumpkin.Library.CString
import HostedPumpkin.Library.EvaluationStack
import HostedPumpkin.Library.Machine
import HostedPumpkin.Library.LabelledCode
import HostedPumpkin.Host.Context
import HostedPumpkin.Host.Operations
import HostedPumpkin.Host.MessageQueue
import HostedPumpkin.Host.References
import HostedPumpkin.Host.ThreadCounts
import HostedPumpkin.Host.ThreadMoves
import HostedPumpkin.Host.ThreadRelationship
import HostedPumpkin.Host.Locking
import HostedPumpkin.Host.EventHistory
import HostedPumpkin.Host.MemoryRecords
import HostedPumpkin.Host.LongCounters
import HostedPumpkin.Host.MemoryAccounting
import HostedPumpkin.Host.MemoryBudget
import HostedPumpkin.Host.Account
import HostedPumpkin.Host.Independence
import HostedPumpkin.Host.Logger
import HostedPumpkin.Memory.Malloc
import HostedPumpkin.Memory.MemoryCap
import HostedPumpkin.Data.SocketExtensions
import HostedPumpkin.Data.MessageStream
import HostedPumpkin.Pool.State
import HostedPumpkin.Pool.Worker
import HostedPumpkin.Pool.System
import HostedPumpkin.Pool.WorkerSteps
import HostedPumpkin.Pool.Steps
import HostedPumpkin.Pool.Slots
import HostedPumpkin.Pool.Delivery
import HostedPumpkin.Pool.Recycling
import HostedPumpkin.Pool.DomainIds
import HostedPumpkin.Pool.Attribution
import HostedPumpkin.Pool.Timeout
import HostedPumpkin.Pool.Supervision
import HostedPumpkin.Pool.HostCalls
import HostedPumpkin.Pool.Leaks
import HostedPumpkin.Pool.Headcount
import HostedPumpkin.Pool.NullSlots
import HostedPumpkin.Submission.Module
import HostedPumpkin.Submission.Whitelist
import HostedPumpkin.Submission.WhitelistCompleteness
import HostedPumpkin.Submission.Patching
import HostedPumpkin.Submission.Rewriting
import HostedPumpkin.Submission.PatchingTotal
import HostedPumpkin.Submission.OwnCalls
import HostedPumpkin.Submission.StackBalance
import HostedPumpkin.Submission.ControlFlow
import HostedPumpkin.Submission.ShortBranches
import HostedPumpkin.Submission.Execution
import HostedPumpkin.Submission.PatchSimulation
import HostedPumpkin.Submission.PatchMeaning
import HostedPumpkin.Web.HostConnector
import HostedPumpkin.Web.HostServer
import HostedPumpkin.Web.ConnectionEnd
import HostedPumpkin.Threading.PriorityContainment
import HostedPumpkin.Threading.ThreadCap
import HostedPumpkin.Threading.CompletionPorts
import HostedPumpkin.Assembly.HandedOut
import HostedPumpkin.Assembly.AssemblyStore
import HostedPumpkin.Assembly.FileStream
import HostedPumpkin.Assembly.FileCopy
import HostedPumpkin.Memory.LiveRecords
import HostedPumpkin.Memory.MemoryManager
import HostedPumpkin.Memory.ResidualCharge
import HostedPumpkin.Memory.LimitArithmetic
import HostedPumpkin.Threading.TaskCreation
import HostedPumpkin.Threading.ThreadDischarge
import HostedPumpkin.Threading.CLRTaskReferences
import HostedPumpkin.Threading.ReaderEvent
import HostedPumpkin.Threading.PortThreads
import HostedPumpkin.Threading.PoolMinimum
import HostedPumpkin.Memory.AllocationCounts
import HostedPumpkin.Pool.Refill
import HostedPumpkin.Pool.DataSteps
import HostedPumpkin.Pool.IdleTime
import HostedPumpkin.Pool.AbortCounts
import HostedPumpkin.Pool.TimeoutChecks
import HostedPumpkin.Pool.SubmissionMap
import HostedPumpkin.Submission.WhitelistRuns
import HostedPumpkin.CommandLine.Spelling
import HostedPumpkin.Web.SnippetSite
import HostedPumpkin.Submission.InternalRun
import HostedPumpkin.Host.RecordedParents
import HostedPumpkin.Pool.QueueOrder
import HostedPumpkin.Pool.Shutdown
import HostedPumpkin.Web.HostService
