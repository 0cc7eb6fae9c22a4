import HostedPumpkin.Pool.State

/-!
A worker: the thread function that `CreateDomainThread` builds, statement by
statement, and `RecycleDomain`, which it calls in two places. Every access to
something shared is a step of its own. An exception, or the abort another thread
asked for, can arrive at any of them; where it is caught depends on the region of
the code the worker is in.
-/

namespace HostedPumpkin

/-- The two places `RecycleDomain` is called from. -/
inductive RecycleCaller where
  | loop
  | outerCatch
deriving DecidableEq, Repr

inductive RecycleStage where
  | checkZombies
  | setExiting
  | completeAdding
  | interruptWatchdog
  | joinWatchdog
  | decrementThreads
  | clearSlot
  | unloadDomain
deriving DecidableEq, Repr

/-- The statement a worker executes next. -/
inductive WorkerPc where
  | unstarted
  | incrementThreads
  | createSandbox
  | setDomainId
  | loopHead
  | resetAborting
  | resetCounters
  | take
  | taken
  | incrementUsages
  | recordStart
  | writeStart
  | running
  | readEnd
  | clearStart
  | catchAbort (message : String)
  | catchException (message : String)
  | getThreadCount
  | getMemoryUsage
  | decide
  | deliver
  | recycleCheck
  | collect
  | recycle (caller : RecycleCaller) (stage : RecycleStage)
  | ended
deriving DecidableEq, Repr

/-- The part of the thread function a statement stands in. -/
inductive Region where
  | outside
  | beforeTry
  | outerTry
  | innerTry
  | innerCatch
  | outerCatch
deriving DecidableEq, Repr

def WorkerPc.region : WorkerPc → Region
  | .unstarted | .ended => .outside
  | .incrementThreads => .beforeTry
  | .incrementUsages | .recordStart | .writeStart | .running | .readEnd
  | .clearStart => .innerTry
  | .catchAbort _ | .catchException _ => .innerCatch
  | .recycle .outerCatch _ => .outerCatch
  | .createSandbox | .setDomainId | .loopHead | .resetAborting | .resetCounters
  | .take | .taken | .getThreadCount | .getMemoryUsage | .decide | .deliver
  | .recycleCheck | .collect | .recycle .loop _ => .outerTry

structure Worker where
  thread : ThreadId
  threadIndex : Nat
  myPoolDomain : DataRef
  pc : WorkerPc := .unstarted
  appDomain : DomainId := 0
  snippetToRun : SnippetInfo := ⟨none⟩
  result : SnippetResult := {}
  recycleDomain : Bool := false
  startTimestamp : Int := 0
  threadsInDomain : LONG := 0
  /-- The local `domainId` of `RecycleDomain`. -/
  recycledId : DomainId := 0
  /-- The state object of an abort that was requested and not reset. -/
  abortRequested : Option AbortToken := none
  /-- A dead thread is `Aborted` first and `Stopped` later. -/
  stopped : Bool := false
  /-- History: the completion registered for the snippet when it was taken. -/
  due : Option Completion := none
  /-- History: the completions `TrySetResult` was called on since. -/
  resultsSet : List Completion := []
  /-- History: runs started in the AppDomain. -/
  started : Nat := 0
  /-- History: when the run in progress recorded its start. -/
  began : Option Int := none
  /-- History: how long the last run took. -/
  lasted : Int := 0
  /-- History: `RecycleDomain` was called. -/
  recycled : Bool := false
  /-- History: it emptied the slot. -/
  slotCleared : Bool := false

/-- What `InternalRun` returns. -/
inductive RunOutcome where
  | success
  | initializationError
  | executionError (message : String)
deriving DecidableEq, Repr

def RunOutcome.toResult : RunOutcome → SnippetResult
  | .success => { status := .success }
  | .initializationError => { status := .initializationError }
  | .executionError message => { status := .executionError, exception := some message }

inductive PoolFault where
  | notEnabled
  | nullReference
  | unhandledException
  | host (fault : HostFault)
deriving DecidableEq, Repr

/-- What happens at a step of a worker: it goes on, `CreateSandbox` or
`InternalRun` return, something throws, or a requested abort is raised. -/
inductive WorkerInput where
  | next
  | sandbox (appDomain : DomainId)
  | finished (outcome : RunOutcome)
  | throws (message : String)
  | aborted (message : String)
deriving DecidableEq, Repr

namespace Worker

/-- How long the run in progress has taken. -/
def elapsed (w : Worker) (clock : Int) : Int :=
  match w.began with
  | some began => clock - began
  | none => 0

/-- Leave the inner try block. -/
def leaveTry (w : Worker) (p : DomainPool) (pc : WorkerPc) : DomainPool × Worker :=
  ({ p with currentRun := Function.update p.currentRun w.appDomain none },
    { w with pc, lasted := w.elapsed p.clock, began := none })

/-- `catch (Exception ex)` around the loop: it calls `RecycleDomain`. -/
def enterOuterCatch (w : Worker) : Worker :=
  { w with pc := .recycle .outerCatch .checkZombies, recycled := true }

/-- The statement after `RecycleDomain`. -/
def afterRecycle : RecycleCaller → WorkerPc
  | .loop => .loopHead
  | .outerCatch => .ended

def recycleStep (w : Worker) (p : DomainPool) (caller : RecycleCaller) :
    RecycleStage → Except PoolFault (DomainPool × Worker)
  | .checkZombies =>
      if maxZombies > 0 && p.getNumberOfZombies > maxZombies then
        .ok (p, { w with pc := .recycle caller .setExiting })
      else .ok (p, { w with pc := .recycle caller .decrementThreads })
  | .setExiting =>
      .ok ({ p with isExiting := true }, { w with pc := .recycle caller .completeAdding })
  | .completeAdding =>
      .ok ({ p with isAddingCompleted := true },
        { w with pc := .recycle caller .interruptWatchdog })
  | .interruptWatchdog =>
      .ok ({ p with interruptRequested := true },
        { w with pc := .recycle caller .joinWatchdog })
  | .joinWatchdog =>
      if p.watchdogEnded then .ok (p, { w with pc := afterRecycle caller })
      else .error .notEnabled
  | .decrementThreads =>
      .ok ({ p with numberOfThreadsInPool := p.numberOfThreadsInPool - 1 },
        { w with pc := .recycle caller .clearSlot })
  | .clearSlot =>
      match p.poolDomains w.threadIndex with
      | none => .error .nullReference
      | some data =>
          .ok (p.setSlot w.threadIndex none,
            { w with
              pc := .recycle caller .unloadDomain
              recycledId := (p.heap data).domainId
              slotCleared := true })
  | .unloadDomain =>
      .ok (p.hostUnloadDomain w.recycledId, { w with pc := afterRecycle caller })

/-- The completion a submission id stands for. -/
def completionOf (p : DomainPool) (snippet : SnippetInfo) : Option Completion :=
  snippet.submissionId.bind p.submissionMap

/-- The statement at `pc`, when nothing is thrown. -/
def next (w : Worker) (p : DomainPool) : Except PoolFault (DomainPool × Worker) :=
  match w.pc with
  | .unstarted | .createSandbox | .running | .ended => .error .notEnabled
  | .incrementThreads =>
      .ok ({ p with numberOfThreadsInPool := p.numberOfThreadsInPool + 1 },
        { w with pc := .createSandbox })
  | .setDomainId =>
      .ok (p.modifyData w.myPoolDomain (fun data => { data with domainId := w.appDomain }),
        { w with pc := .loopHead })
  | .loopHead =>
      if p.isCompleted then .ok (p, { w with pc := .ended })
      else .ok (p, { w with pc := .resetAborting })
  | .resetAborting =>
      .ok (p.modifyData w.myPoolDomain (fun data => { data with isAborting := 0 }),
        { w with pc := .resetCounters })
  | .resetCounters =>
      .ok (p.resetCountersForAppDomain (p.heap w.myPoolDomain).domainId,
        { w with pc := .take })
  | .take =>
      match p.snippetsQueue with
      | snippet :: rest =>
          .ok ({ p with snippetsQueue := rest },
            { w with
              pc := .taken
              snippetToRun := snippet
              due := completionOf p snippet
              resultsSet := [] })
      | [] => if p.isAddingCompleted then .ok (p, { w with pc := .ended })
        else .error .notEnabled
  | .taken =>
      .ok (p, { w with pc := .incrementUsages, result := {}, recycleDomain := false })
  | .incrementUsages =>
      .ok (p.modifyData w.myPoolDomain (fun data =>
          { data with numberOfUsages := data.numberOfUsages + 1 }),
        { w with pc := .recordStart })
  | .recordStart =>
      .ok (p, { w with
        pc := .writeStart
        startTimestamp := p.clock
        began := some p.clock })
  | .writeStart =>
      .ok ({ p.modifyData w.myPoolDomain (fun data =>
            { data with timeOfSubmission := w.startTimestamp }) with
          currentRun :=
            Function.update p.currentRun w.appDomain (some ⟨w.thread, w.started + 1⟩) },
        { w with pc := .running, started := w.started + 1 })
  | .readEnd =>
      .ok (p, { w with
        pc := .clearStart
        result := { w.result with
          executionTime := p.clock - (p.heap w.myPoolDomain).timeOfSubmission } })
  | .clearStart =>
      .ok (w.leaveTry
        (p.modifyData w.myPoolDomain (fun data => { data with timeOfSubmission := 0 }))
        .getThreadCount)
  | .catchAbort message =>
      .ok (p, { w with
        pc := .getThreadCount
        result := { w.result with
          exception := some message
          status :=
            match w.abortRequested with
            | some .timeout => .timeout
            | some .threadsExausted => .resourceError
            | _ => .criticalError }
        recycleDomain := w.recycleDomain ||
          (w.abortRequested != some .timeout && w.abortRequested != some .threadsExausted)
        abortRequested := none })
  | .catchException message =>
      -- an abort that was requested meanwhile is masked by the exception
      if w.abortRequested.isSome then
        .ok (p, { w with
          pc := .getThreadCount
          result := { w.result with exception := some message, status := .criticalError }
          recycleDomain := true
          abortRequested := none })
      else
        .ok (p, { w with
          pc := .getThreadCount
          result := { w.result with exception := some message, status := .executionError } })
  | .getThreadCount =>
      .ok (p, { w with pc := .getMemoryUsage, threadsInDomain := p.getThreadCount w.appDomain })
  | .getMemoryUsage => .ok (p, { w with pc := .decide })
  | .decide =>
      if w.threadsInDomain > 1 then
        .ok (p, { w with
          pc := .deliver
          result := { w.result with status := .criticalError }
          recycleDomain := true })
      else if maxReuse > 0 && (p.heap w.myPoolDomain).numberOfUsages ≥ maxReuse then
        .ok (p, { w with pc := .deliver, recycleDomain := true })
      else .ok (p, { w with pc := .deliver })
  | .deliver =>
      match w.snippetToRun.submissionId with
      | none => .ok (p, { w with pc := .recycleCheck })
      | some id =>
          match p.submissionMap id with
          | none => .ok (p, w.enterOuterCatch)
          | some completion =>
              .ok ({ p with
                  delivered := p.delivered ++ [⟨completion, w.result.status, w.lasted⟩] },
                { w with pc := .recycleCheck, resultsSet := w.resultsSet ++ [completion] })
  | .recycleCheck =>
      if w.recycleDomain then
        .ok (p, { w with pc := .recycle .loop .checkZombies, recycled := true })
      else .ok (p, { w with pc := .collect })
  | .collect => .ok (p, { w with pc := .loopHead })
  | .recycle caller stage => w.recycleStep p caller stage

/-- An exception other than an abort. -/
def throwException (w : Worker) (p : DomainPool) (message : String) :
    Except PoolFault (DomainPool × Worker) :=
  match w.pc.region with
  | .outside => .error .notEnabled
  | .beforeTry | .outerCatch => .error .unhandledException
  | .innerTry => .ok (w.leaveTry p (.catchException message))
  | .innerCatch | .outerTry => .ok (p, w.enterOuterCatch)

/-- The `ThreadAbortException` of a requested abort. It is not raised inside a
catch block, and no catch block but the inner one stops it. -/
def raiseAbort (w : Worker) (p : DomainPool) (message : String) :
    Except PoolFault (DomainPool × Worker) :=
  match w.abortRequested, w.pc.region with
  | some _, .beforeTry => .ok (p, { w with pc := .ended })
  | some _, .innerTry => .ok (w.leaveTry p (.catchAbort message))
  | some _, .outerTry => .ok (p, w.enterOuterCatch)
  | _, _ => .error .notEnabled

def step (w : Worker) (p : DomainPool) : WorkerInput → Except PoolFault (DomainPool × Worker)
  | .next => w.next p
  | .sandbox appDomain =>
      if w.pc = .createSandbox ∧ appDomain ∉ p.domains then
        .ok ({ p with domains := appDomain :: p.domains },
          { w with pc := .setDomainId, appDomain })
      else .error .notEnabled
  | .finished outcome =>
      if w.pc = .running then
        .ok (p, { w with pc := .readEnd, result := outcome.toResult })
      else .error .notEnabled
  | .throws message => w.throwException p message
  | .aborted message => w.raiseAbort p message

/-- `ThreadState.Aborted`: dead by an abort and not yet `Stopped`. -/
def isAborted (w : Worker) : Bool :=
  w.pc == .ended && w.abortRequested.isSome && !w.stopped

/-- `Thread.Abort(token)`. A thread that is dead, or already being aborted, is
left alone. -/
def requestAbort (w : Worker) (token : AbortToken) : Worker :=
  if w.pc = .ended ∨ w.abortRequested.isSome then w
  else { w with abortRequested := some token }

/-- The thread dies without running any of its code. -/
def dieRudely (w : Worker) (p : DomainPool) : Except PoolFault (DomainPool × Worker) :=
  if w.pc.region = .outside then .error .notEnabled
  else
    .ok ({ p with currentRun := Function.update p.currentRun w.appDomain none },
      { w with pc := .ended, abortRequested := some .other })

/-- A dead thread reaches its final state. -/
def settle (w : Worker) (p : DomainPool) : Except PoolFault (DomainPool × Worker) :=
  if w.pc = .ended then .ok (p, { w with stopped := true }) else .error .notEnabled

end Worker

end HostedPumpkin
