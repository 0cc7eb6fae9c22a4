import HostedPumpkin.Host.Operations

/-!
The managed side: `DomainPool` with the objects its threads share. Objects with
an identity (`PooledDomainData`, `Thread`, `TaskCompletionSource`) are referred
to by number. The unmanaged `HostContext` the pool talks to is part of the state.

Some fields are history: no step reads them to decide what to do. They record
what the properties speak of, such as the run that was in progress in an
AppDomain when the host posted an event about it.
-/

namespace HostedPumpkin

abbrev DataRef := Nat
abbrev ThreadId := Nat
abbrev SubmissionId := Nat
abbrev Completion := Nat

/-- The id of an AppDomain, an `int`; the host sees it as a `DWORD`. -/
abbrev DomainId := Int32

def maxReuse : Int := 100
def maxZombies : Int32 := 20
def runningThreshold : Int := 3 * 1000

inductive SnippetStatus where
  | success
  | initializationError
  | timeout
  | executionError
  | criticalError
  | resourceError
deriving DecidableEq, Repr

structure SnippetResult where
  status : SnippetStatus := .success
  exception : Option String := none
  executionTime : Int := 0
deriving DecidableEq, Repr

/-- A submission id that is null or empty is `none`. -/
structure SnippetInfo where
  submissionId : Option SubmissionId
deriving DecidableEq, Repr

structure PooledDomainData where
  timeOfSubmission : Int := 0
  domainId : DomainId := 0
  mainThread : Option ThreadId := none
  numberOfUsages : Int := 0
  isAborting : Int := 0
deriving DecidableEq, Repr

/-- The state object passed to `Thread.Abort`: one of the two tokens of the
pool, or something else. -/
inductive AbortToken where
  | threadsExausted
  | timeout
  | other
deriving DecidableEq, Repr

/-- One run of a snippet: the worker thread, and how many runs it has started
in its AppDomain. -/
structure RunId where
  thread : ThreadId
  number : Nat
deriving DecidableEq, Repr

/-- A result handed to a client, with the time the run behind it took. -/
structure Delivery where
  completion : Completion
  status : SnippetStatus
  lasted : Int
deriving DecidableEq, Repr

structure DomainPool where
  numberOfDomainsInPool : Nat
  poolDomains : Nat → Option DataRef
  snippetsQueue : List SnippetInfo
  isAddingCompleted : Bool
  submissionMap : SubmissionId → Option Completion
  isExiting : Bool
  numberOfThreadsInPool : Int
  /-- The `PooledDomainData` objects, of which `allocated` exist. -/
  heap : DataRef → PooledDomainData
  allocated : DataRef
  /-- `watchdogThread.Interrupt()` was called and has not been noticed. -/
  interruptRequested : Bool
  watchdogEnded : Bool
  /-- Milliseconds, as `GetTimestampMillis` reads them. -/
  clock : Int
  host : HostContext
  /-- The ids the CLR has given to AppDomains. -/
  domains : List DomainId
  unloadRequests : List DomainId
  /-- History: the run in progress in an AppDomain. -/
  currentRun : DomainId → Option RunId
  /-- History: the run during which the queued OutOfTasks event of an AppDomain
  was posted. -/
  postedDuring : DomainId → Option RunId
  /-- History: every `TrySetResult`. -/
  delivered : List Delivery

namespace DomainPool

/-- `BlockingCollection.IsCompleted`. -/
def isCompleted (p : DomainPool) : Bool := p.isAddingCompleted && p.snippetsQueue.isEmpty

def modifyData (p : DomainPool) (data : DataRef) (f : PooledDomainData → PooledDomainData) :
    DomainPool :=
  { p with heap := Function.update p.heap data (f (p.heap data)) }

def setSlot (p : DomainPool) (index : Nat) (data : Option DataRef) : DomainPool :=
  { p with poolDomains := Function.update p.poolDomains index data }

/-- `poolDomains[index] = new PooledDomainData()`. -/
def renewSlot (p : DomainPool) (index : Nat) : DomainPool :=
  { p.setSlot index (some p.allocated) with
    heap := Function.update p.heap p.allocated {}
    allocated := p.allocated + 1 }

/-- The loop under the lock in `SubmitSnippet`: fill every empty slot and
remember the last of them. -/
def fillSlots (p : DomainPool) : DomainPool × Option Nat :=
  (List.range p.numberOfDomainsInPool).foldl
    (fun (p, emptySlotIdx) i =>
      if (p.poolDomains i).isNone then (p.renewSlot i, some i) else (p, emptySlotIdx))
    (p, none)

/-- `FindByAppDomainId`. -/
def findByAppDomainId (p : DomainPool) (appDomainId : DomainId) : Option DataRef :=
  (List.range p.numberOfDomainsInPool).findSome? (fun i =>
    (p.poolDomains i).filter (fun data => (p.heap data).domainId = appDomainId))

/-! The calls to the host. -/

def getThreadCount (p : DomainPool) (appDomainId : DomainId) : LONG :=
  (p.host.toDomainData.rawGetThreadCount appDomainId.toUInt32).getD 0

def getNumberOfZombies (p : DomainPool) : Int32 := p.host.numZombieDomains.toInt32

def resetCountersForAppDomain (p : DomainPool) (appDomainId : DomainId) : DomainPool :=
  { p with host := { p.host with toDomainData :=
      p.host.toDomainData.rawResetCountersForAppDomain appDomainId.toUInt32 } }

/-- `HostUnloadDomain`: the unload is asynchronous, so the call only asks. -/
def hostUnloadDomain (p : DomainPool) (appDomainId : DomainId) : DomainPool :=
  { p with unloadRequests := p.unloadRequests ++ [appDomainId] }

end DomainPool

/-- An OutOfTasks event about an AppDomain is queued. -/
def HostContext.hasOutOfTasks (s : HostContext) (appDomainId : DomainId) : Bool :=
  s.messageQueue.any (MessageData.sameEvent HostEventType.outOfTasks appDomainId)

/-- The host acts by itself. An OutOfTasks event it newly queues is put down to
the run in progress in that AppDomain. -/
def DomainPool.setHost (p : DomainPool) (host : HostContext) : DomainPool :=
  { p with
    host
    postedDuring := fun appDomainId =>
      if host.hasOutOfTasks appDomainId && !p.host.hasOutOfTasks appDomainId then
        p.currentRun appDomainId
      else p.postedDuring appDomainId }

end HostedPumpkin
