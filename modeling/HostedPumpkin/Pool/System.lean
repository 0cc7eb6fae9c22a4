import HostedPumpkin.Library.Runs
import HostedPumpkin.Pool.Worker

/-!
The pool with everything that runs on it: any number of workers, the watchdog,
the threads inside `SubmitSnippet`, the host calling back, and a clock. A state
is one value, and one action is one step of one of them.

The pool also subscribes to `DomainUnload` of the default AppDomain, an event
that .NET never raises there, so its handler takes no step.
-/

namespace HostedPumpkin

/-- `CreateDomainThread(i)` followed by `thread.Start()`. -/
inductive CreateStage where
  | readSlot
  | setMainThread (myPoolDomain : Option DataRef)
  | start (thread : ThreadId)
deriving DecidableEq, Repr

/-- The statement the watchdog executes next. A `PooledDomainData` it holds is
named; `creating` remembers whether the thread it creates replaces one that died
or is the one the pool must have. -/
inductive WatchdogPc where
  | loopHead
  | getMessage
  | findDomain (hostEvent : HostEvent)
  | exchangeAborting (poolDomain : DataRef)
  | abortExausted (poolDomain : DataRef)
  | readClock
  | scan (index : Nat)
  | readStart (index : Nat) (poolDomain : DataRef)
  | reportTimeout (index : Nat) (poolDomain : DataRef)
  | writeZero (index : Nat) (poolDomain : DataRef)
  | abortTimeout (index : Nat) (poolDomain : DataRef)
  | checkThread (index : Nat) (poolDomain : DataRef)
  | unloadOld (index : Nat) (poolDomain : DataRef)
  | replaceSlot (index : Nat)
  | creating (index : Nat) (ensuring : Bool) (stage : CreateStage)
  | ensureOne
  | ensureSlot
  | ended
deriving DecidableEq, Repr

structure Watchdog where
  pc : WatchdogPc := .loopHead
  currentTime : Int := 0
  snippetStartTime : Int := 0
  /-- History: the run during which the event in hand was posted. -/
  cause : Option RunId := none
deriving DecidableEq, Repr

inductive SubmitterPc where
  | readCount
  | fillSlots
  | creating (index : Nat) (stage : CreateStage)
  | store
  | add
  | returned
  | threw
deriving DecidableEq, Repr

/-- One call of `SubmitSnippet`. -/
structure Submitter where
  pc : SubmitterPc := .readCount
  snippetInfo : SnippetInfo
  completion : Option Completion
deriving DecidableEq, Repr

structure PoolSystem where
  pool : DomainPool
  workers : ThreadId → Option Worker
  threads : ThreadId
  watchdog : Watchdog
  submitters : Nat → Option Submitter
  calls : Nat

inductive WatchdogInput where
  | next
  | interrupted
deriving DecidableEq, Repr

/-- `submit` is a call of `SubmitSnippet`: with a fresh id and a completion, as
the server makes it, or with neither. -/
inductive PoolAction where
  | worker (thread : ThreadId) (input : WorkerInput)
  | watchdog (input : WatchdogInput)
  | submit (withCompletion : Bool)
  | submitter (call : Nat)
  | foreignAbort (thread : ThreadId)
  | rudeAbort (thread : ThreadId)
  | settle (thread : ThreadId)
  | host (op : HostOp)
  | tick (millis : Nat)
deriving DecidableEq

namespace PoolSystem

def setWorker (s : PoolSystem) (thread : ThreadId) (w : Worker) : PoolSystem :=
  { s with workers := Function.update s.workers thread (some w) }

def setWatchdog (s : PoolSystem) (pc : WatchdogPc) : PoolSystem :=
  { s with watchdog := { s.watchdog with pc } }

def setSubmitter (s : PoolSystem) (call : Nat) (submitter : Submitter) : PoolSystem :=
  { s with submitters := Function.update s.submitters call (some submitter) }

@[simp] theorem setWatchdog_pool (s : PoolSystem) (pc : WatchdogPc) :
    (s.setWatchdog pc).pool = s.pool := rfl

@[simp] theorem setSubmitter_watchdog (s : PoolSystem) (call : Nat) (submitter : Submitter) :
    (s.setSubmitter call submitter).watchdog = s.watchdog := rfl

theorem setSubmitter_self (s : PoolSystem) (call : Nat) (submitter : Submitter) :
    (s.setSubmitter call submitter).submitters call = some submitter :=
  Function.update_self _ _ _

/-- `new Thread(...)` with `myPoolDomain` captured, and
`myPoolDomain.mainThread = thread`. -/
def newThread (s : PoolSystem) (index : Nat) (myPoolDomain : DataRef) : PoolSystem :=
  { s.setWorker s.threads { thread := s.threads, threadIndex := index, myPoolDomain } with
    pool := s.pool.modifyData myPoolDomain (fun data =>
      { data with mainThread := some s.threads })
    threads := s.threads + 1 }

/-- One step of the creation of a thread, and what is left to do. -/
def createStep (s : PoolSystem) (index : Nat) :
    CreateStage → Except PoolFault (PoolSystem × Option CreateStage)
  | .readSlot => .ok (s, some (.setMainThread (s.pool.poolDomains index)))
  | .setMainThread none => .error .nullReference
  | .setMainThread (some data) => .ok (s.newThread index data, some (.start s.threads))
  | .start thread =>
      match s.workers thread with
      | some w =>
          if w.pc = .unstarted then
            .ok (s.setWorker thread { w with pc := .incrementThreads }, none)
          else .error .unhandledException
      | none => .error .notEnabled

/-- `poolDomain.mainThread.Abort(token)`. -/
def abortMainThread (s : PoolSystem) (data : DataRef) (token : AbortToken) :
    Except PoolFault PoolSystem :=
  match (s.pool.heap data).mainThread with
  | none => .error .nullReference
  | some thread =>
      match s.workers thread with
      | none => .error .notEnabled
      | some w => .ok (s.setWorker thread (w.requestAbort token))

/-- `mainThread == null || mainThread.ThreadState == ThreadState.Aborted`. -/
def threadIsGone (s : PoolSystem) (data : DataRef) : Bool :=
  match (s.pool.heap data).mainThread with
  | none => true
  | some thread => (s.workers thread).any Worker.isAborted

/-- `GetHostMessage`. -/
def getHostMessage (s : PoolSystem) : Except PoolFault (PoolSystem × Option HostEvent) :=
  match s.pool.host.rawGetLastMessage with
  | .error fault => .error (.host fault)
  | .ok (host, hostEvent) => .ok ({ s with pool := { s.pool with host } }, hostEvent)

/-- The statement at the watchdog's `pc`. -/
def watchdogNext (s : PoolSystem) : Except PoolFault PoolSystem :=
  match s.watchdog.pc with
  | .loopHead =>
      if s.pool.isExiting then
        .ok ({ s with pool := { s.pool with watchdogEnded := true } }.setWatchdog .ended)
      else .ok (s.setWatchdog .getMessage)
  | .getMessage =>
      match s.getHostMessage with
      | .error fault => .error fault
      | .ok (next, some hostEvent) =>
          .ok { next with watchdog := { next.watchdog with
            pc := .findDomain hostEvent
            cause := next.pool.postedDuring hostEvent.appDomainId } }
      | .ok (next, none) => .ok (next.setWatchdog .readClock)
  | .findDomain hostEvent =>
      if hostEvent.eventType = HostEventType.outOfTasks then
        match s.pool.findByAppDomainId hostEvent.appDomainId with
        | some poolDomain => .ok (s.setWatchdog (.exchangeAborting poolDomain))
        | none => .ok (s.setWatchdog .ensureOne)
      else .ok (s.setWatchdog .ensureOne)
  | .exchangeAborting poolDomain =>
      if (s.pool.heap poolDomain).isAborting = 0 then
        .ok ({ s with pool := s.pool.modifyData poolDomain (fun data =>
          { data with isAborting := 1 }) }.setWatchdog (.abortExausted poolDomain))
      else .ok (s.setWatchdog .ensureOne)
  | .abortExausted poolDomain =>
      match s.abortMainThread poolDomain .threadsExausted with
      | .error fault => .error fault
      | .ok next => .ok (next.setWatchdog .ensureOne)
  | .readClock =>
      .ok { s with watchdog := { s.watchdog with
        pc := .scan 0
        currentTime := s.pool.clock } }
  | .scan index =>
      if index < s.pool.numberOfDomainsInPool then
        match s.pool.poolDomains index with
        | some poolDomain => .ok (s.setWatchdog (.readStart index poolDomain))
        | none => .ok (s.setWatchdog (.scan (index + 1)))
      else .ok (s.setWatchdog .ensureOne)
  | .readStart index poolDomain =>
      let snippetStartTime := (s.pool.heap poolDomain).timeOfSubmission
      let s := { s with watchdog := { s.watchdog with snippetStartTime } }
      if snippetStartTime > 0 ∧ s.watchdog.currentTime - snippetStartTime > runningThreshold then
        .ok (s.setWatchdog (.reportTimeout index poolDomain))
      else .ok (s.setWatchdog (.checkThread index poolDomain))
  | .reportTimeout index poolDomain =>
      match s.pool.poolDomains index with
      | none => .error .nullReference
      | some _ => .ok (s.setWatchdog (.writeZero index poolDomain))
  | .writeZero index poolDomain =>
      match s.pool.poolDomains index with
      | none => .error .nullReference
      | some data =>
          .ok ({ s with pool := s.pool.modifyData data (fun data =>
            { data with timeOfSubmission := 0 }) }.setWatchdog (.abortTimeout index poolDomain))
  | .abortTimeout index poolDomain =>
      match s.pool.poolDomains index with
      | none => .error .nullReference
      | some data =>
          match s.abortMainThread data .timeout with
          | .error fault => .error fault
          | .ok next => .ok (next.setWatchdog (.checkThread index poolDomain))
  | .checkThread index poolDomain =>
      if s.threadIsGone poolDomain then .ok (s.setWatchdog (.unloadOld index poolDomain))
      else .ok (s.setWatchdog (.scan (index + 1)))
  | .unloadOld index poolDomain =>
      .ok ({ s with pool := s.pool.hostUnloadDomain (s.pool.heap poolDomain).domainId
        }.setWatchdog (.replaceSlot index))
  | .replaceSlot index =>
      .ok ({ s with pool := s.pool.renewSlot index
        }.setWatchdog (.creating index false .readSlot))
  | .creating index ensuring stage =>
      match s.createStep index stage with
      | .error fault => .error fault
      | .ok (next, some stage) => .ok (next.setWatchdog (.creating index ensuring stage))
      | .ok (next, none) =>
          .ok (next.setWatchdog (if ensuring then .loopHead else .scan (index + 1)))
  | .ensureOne =>
      if s.pool.numberOfThreadsInPool < 1 then .ok (s.setWatchdog .ensureSlot)
      else .ok (s.setWatchdog .loopHead)
  | .ensureSlot =>
      .ok ({ s with pool := s.pool.renewSlot 0 }.setWatchdog (.creating 0 true .readSlot))
  | .ended => .error .notEnabled

/-- Where the watchdog can be waiting: for a message, or for `poolLock`. -/
def waits : WatchdogPc → Bool
  | .getMessage | .findDomain _ | .scan _ => true
  | _ => false

/-- `ThreadInterruptedException` in a wait. -/
def watchdogInterrupted (s : PoolSystem) : Except PoolFault PoolSystem :=
  if s.pool.interruptRequested ∧ waits s.watchdog.pc then
    .ok ({ s with pool := { s.pool with interruptRequested := false } }.setWatchdog .loopHead)
  else .error .notEnabled

/-- The statement at the `pc` of one call of `SubmitSnippet`. -/
def submitterNext (s : PoolSystem) (call : Nat) (submitter : Submitter) :
    Except PoolFault PoolSystem :=
  let goto (s : PoolSystem) (pc : SubmitterPc) : PoolSystem :=
    s.setSubmitter call { submitter with pc }
  match submitter.pc with
  | .readCount =>
      if s.pool.numberOfThreadsInPool < s.pool.numberOfDomainsInPool then
        .ok (goto s .fillSlots)
      else .ok (goto s .store)
  | .fillSlots =>
      match s.pool.fillSlots with
      | (pool, some emptySlotIdx) =>
          .ok (goto { s with pool } (.creating emptySlotIdx .readSlot))
      | (pool, none) => .ok (goto { s with pool } .store)
  | .creating index stage =>
      match s.createStep index stage with
      | .error .nullReference | .error .unhandledException => .ok (goto s .threw)
      | .error fault => .error fault
      | .ok (next, some stage) => .ok (goto next (.creating index stage))
      | .ok (next, none) => .ok (goto next .store)
  | .store =>
      match submitter.snippetInfo.submissionId, submitter.completion with
      | some id, some completion =>
          .ok (goto { s with pool := { s.pool with
            submissionMap := Function.update s.pool.submissionMap id (some completion) } } .add)
      | _, _ => .ok (goto s .add)
  | .add =>
      if s.pool.isAddingCompleted then .ok (goto s .threw)
      else
        .ok (goto { s with pool := { s.pool with
          snippetsQueue := s.pool.snippetsQueue ++ [submitter.snippetInfo] } } .returned)
  | .returned | .threw => .error .notEnabled

/-- The host reads messages and resets counters only when the pool asks it to. -/
def isCallback : HostOp → Bool
  | .rawGetLastMessage | .rawResetCountersForAppDomain _ => false
  | _ => true

def withWorker (s : PoolSystem) (thread : ThreadId)
    (f : Worker → Except PoolFault (DomainPool × Worker)) : Except PoolFault PoolSystem :=
  match s.workers thread with
  | none => .error .notEnabled
  | some w =>
      match f w with
      | .error fault => .error fault
      | .ok (pool, w) => .ok ({ s with pool }.setWorker thread w)

def step (s : PoolSystem) : PoolAction → Except PoolFault PoolSystem
  | .worker thread input => s.withWorker thread (fun w => w.step s.pool input)
  | .watchdog .next => s.watchdogNext
  | .watchdog .interrupted => s.watchdogInterrupted
  | .submit withCompletion =>
      let id := if withCompletion then some s.calls else none
      .ok { s.setSubmitter s.calls { snippetInfo := ⟨id⟩, completion := id } with
        calls := s.calls + 1 }
  | .submitter call =>
      match s.submitters call with
      | none => .error .notEnabled
      | some submitter => s.submitterNext call submitter
  | .foreignAbort thread =>
      s.withWorker thread (fun w => .ok (s.pool, w.requestAbort .other))
  | .rudeAbort thread => s.withWorker thread (fun w => w.dieRudely s.pool)
  | .settle thread => s.withWorker thread (fun w => w.settle s.pool)
  | .host op =>
      if isCallback op then
        match s.pool.host.step op with
        | .error fault => .error (.host fault)
        | .ok host => .ok { s with pool := s.pool.setHost host }
      else .error .notEnabled
  | .tick millis =>
      .ok { s with pool := { s.pool with clock := s.pool.clock + millis } }

/-- The state `InitializeDomainPool` leaves: every slot has its object and its
thread, none of which has run yet. -/
def initial (numberOfDomainsInPool : Nat) : PoolSystem where
  pool :=
    { numberOfDomainsInPool
      poolDomains := fun i => if i < numberOfDomainsInPool then some i else none
      snippetsQueue := []
      isAddingCompleted := false
      submissionMap := fun _ => none
      isExiting := false
      numberOfThreadsInPool := 0
      heap := fun data =>
        if data < numberOfDomainsInPool then { mainThread := some data } else {}
      allocated := numberOfDomainsInPool
      interruptRequested := false
      watchdogEnded := false
      clock := 0
      host := HostContext.initial
      domains := []
      unloadRequests := []
      currentRun := fun _ => none
      postedDuring := fun _ => none
      delivered := [] }
  workers := fun t =>
    if t < numberOfDomainsInPool then
      some { thread := t, threadIndex := t, myPoolDomain := t, pc := .incrementThreads }
    else none
  threads := numberOfDomainsInPool
  watchdog := {}
  submitters := fun _ => none
  calls := 0

/-! The beginnings of runs that the later modules look at. -/

/-- A thread executes its next statements. -/
def goesOn (thread : ThreadId) (statements : Nat) : List PoolAction :=
  List.replicate statements (.worker thread .next)

/-- The first worker creates its AppDomain and comes to `Take`. -/
def firstWorkerReady : List PoolAction :=
  goesOn 0 1 ++ [.worker 0 (.sandbox 2)] ++ goesOn 0 4

/-- A call of `SubmitSnippet` that finds enough threads in the pool. -/
def submitted (call : Nat) : List PoolAction :=
  .submit true :: List.replicate 3 (.submitter call)

end PoolSystem

end HostedPumpkin
