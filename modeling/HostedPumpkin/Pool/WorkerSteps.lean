import HostedPumpkin.Pool.System

/-!
What a step of a worker can do, before any property is in sight: the parts of
the pool and of its record it leaves alone, where `RecycleDomain` leads, and where
whatever is thrown at it is caught.
-/

namespace HostedPumpkin

theorem WorkerPc.innerTry_cases {pc : WorkerPc} (h : pc.region = .innerTry) :
    pc = .incrementUsages ∨ pc = .recordStart ∨ pc = .writeStart ∨ pc = .running ∨
      pc = .readEnd ∨ pc = .clearStart := by
  cases pc with
  | incrementUsages | recordStart | writeStart | running | readEnd | clearStart => simp
  | recycle caller stage => cases caller <;> cases h
  | _ => cases h

namespace Worker

/-- What a step of a worker leaves alone, in the pool and in its own record. -/
structure Frame (p p' : DomainPool) (w w' : Worker) : Prop where
  thread : w'.thread = w.thread
  threadIndex : w'.threadIndex = w.threadIndex
  myPoolDomain : w'.myPoolDomain = w.myPoolDomain
  submissionMap : p'.submissionMap = p.submissionMap
  allocated : p'.allocated = p.allocated
  size : p'.numberOfDomainsInPool = p.numberOfDomainsInPool
  clock : p'.clock = p.clock
  messageQueue : p'.host.messageQueue = p.host.messageQueue
  postedDuring : p'.postedDuring = p.postedDuring
  otherData : ∀ data, data ≠ w.myPoolDomain → p'.heap data = p.heap data
  mainThread : (p'.heap w.myPoolDomain).mainThread = (p.heap w.myPoolDomain).mainThread
  usages : (p.heap w.myPoolDomain).numberOfUsages ≤ (p'.heap w.myPoolDomain).numberOfUsages

theorem Frame.heap_usages {p p' : DomainPool} {w w' : Worker} (h : Frame p p' w w')
    (data : DataRef) : (p.heap data).numberOfUsages ≤ (p'.heap data).numberOfUsages := by
  by_cases hdata : data = w.myPoolDomain
  · rw [hdata]
    exact h.usages
  · rw [h.otherData data hdata]

/-- A step that writes to the worker's own data at most. -/
theorem Frame.of_heap {p p' : DomainPool} {w w' : Worker} {value : PooledDomainData}
    (hworker : w'.thread = w.thread ∧ w'.threadIndex = w.threadIndex ∧
      w'.myPoolDomain = w.myPoolDomain)
    (hpool : p'.submissionMap = p.submissionMap ∧ p'.allocated = p.allocated ∧
      p'.numberOfDomainsInPool = p.numberOfDomainsInPool ∧ p'.clock = p.clock ∧
      p'.host.messageQueue = p.host.messageQueue ∧ p'.postedDuring = p.postedDuring)
    (hheap : p'.heap = Function.update p.heap w.myPoolDomain value)
    (hthread : value.mainThread = (p.heap w.myPoolDomain).mainThread)
    (husages : (p.heap w.myPoolDomain).numberOfUsages ≤ value.numberOfUsages) :
    Frame p p' w w' := by
  obtain ⟨hthread', hindex, hdata⟩ := hworker
  obtain ⟨hmap, hallocated, hsize, hclock, hqueue, hposted⟩ := hpool
  refine ⟨hthread', hindex, hdata, hmap, hallocated, hsize, hclock, hqueue, hposted, ?_, ?_, ?_⟩
  · intro data hne
    rw [hheap, Function.update_of_ne hne]
  · rw [hheap, Function.update_self, hthread]
  · rw [hheap, Function.update_self]
    exact husages

theorem Frame.of_same {p p' : DomainPool} {w w' : Worker}
    (hworker : w'.thread = w.thread ∧ w'.threadIndex = w.threadIndex ∧
      w'.myPoolDomain = w.myPoolDomain)
    (hpool : p'.submissionMap = p.submissionMap ∧ p'.allocated = p.allocated ∧
      p'.numberOfDomainsInPool = p.numberOfDomainsInPool ∧ p'.clock = p.clock ∧
      p'.host.messageQueue = p.host.messageQueue ∧ p'.postedDuring = p.postedDuring)
    (hheap : p'.heap = p.heap) : Frame p p' w w' :=
  Frame.of_heap hworker hpool (hheap.trans (Function.update_eq_self _ _).symm) rfl le_rfl

/-- Everything a statement of `RecycleDomain` can change, and where it leads. -/
theorem recycleStep_ok {p p' : DomainPool} {w w' : Worker} {caller : RecycleCaller}
    {stage : RecycleStage} (h : w.recycleStep p caller stage = .ok (p', w')) :
    (∃ isExiting isAddingCompleted interruptRequested numberOfThreadsInPool poolDomains
        unloadRequests,
      p' = { p with
        isExiting, isAddingCompleted, interruptRequested, numberOfThreadsInPool, poolDomains,
        unloadRequests }) ∧
    ∃ pc recycledId slotCleared,
      w' = { w with pc, recycledId, slotCleared } ∧
        ((∃ stage', pc = .recycle caller stage') ∨ pc = afterRecycle caller) := by
  cases stage with
  | checkZombies =>
      simp only [recycleStep] at h
      split at h
      all_goals cases h
      all_goals exact ⟨⟨_, _, _, _, _, _, rfl⟩, _, _, _, rfl, Or.inl ⟨_, rfl⟩⟩
  | joinWatchdog =>
      simp only [recycleStep] at h
      split at h
      all_goals cases h
      exact ⟨⟨_, _, _, _, _, _, rfl⟩, _, _, _, rfl, Or.inr rfl⟩
  | clearSlot =>
      simp only [recycleStep] at h
      split at h
      all_goals cases h
      exact ⟨⟨_, _, _, _, _, _, rfl⟩, _, _, _, rfl, Or.inl ⟨_, rfl⟩⟩
  | unloadDomain =>
      cases h
      exact ⟨⟨_, _, _, _, _, _, rfl⟩, _, _, _, rfl, Or.inr rfl⟩
  | setExiting | completeAdding | interruptWatchdog | decrementThreads =>
      cases h
      exact ⟨⟨_, _, _, _, _, _, rfl⟩, _, _, _, rfl, Or.inl ⟨_, rfl⟩⟩

theorem recycleStep_frame {p p' : DomainPool} {w w' : Worker} {caller : RecycleCaller}
    {stage : RecycleStage} (h : w.recycleStep p caller stage = .ok (p', w')) :
    Frame p p' w w' := by
  obtain ⟨⟨_, _, _, _, _, _, rfl⟩, _, _, _, rfl, -⟩ := recycleStep_ok h
  exact Frame.of_same ⟨rfl, rfl, rfl⟩ ⟨rfl, rfl, rfl, rfl, rfl, rfl⟩ rfl

theorem next_frame {p p' : DomainPool} {w w' : Worker} (h : w.next p = .ok (p', w')) :
    Frame p p' w w' := by
  cases hpc : w.pc with
  | recycle caller stage =>
      simp only [next, hpc] at h
      exact recycleStep_frame h
  | setDomainId | resetAborting | writeStart | clearStart =>
      simp only [next, hpc, Except.ok.injEq, Prod.mk.injEq] at h
      obtain ⟨rfl, rfl⟩ := h
      exact Frame.of_heap ⟨rfl, rfl, rfl⟩ ⟨rfl, rfl, rfl, rfl, rfl, rfl⟩ rfl rfl le_rfl
  | incrementUsages =>
      simp only [next, hpc, Except.ok.injEq, Prod.mk.injEq] at h
      obtain ⟨rfl, rfl⟩ := h
      exact Frame.of_heap ⟨rfl, rfl, rfl⟩ ⟨rfl, rfl, rfl, rfl, rfl, rfl⟩ rfl rfl
        (Int.le_add_one le_rfl)
  | loopHead | catchException message | decide | recycleCheck =>
      simp only [next, hpc] at h
      repeat' split at h
      all_goals cases h
      all_goals exact Frame.of_same ⟨rfl, rfl, rfl⟩ ⟨rfl, rfl, rfl, rfl, rfl, rfl⟩ rfl
  | take | deliver =>
      simp only [next, hpc] at h
      repeat' split at h
      all_goals cases h
      all_goals exact Frame.of_same ⟨rfl, rfl, rfl⟩ ⟨rfl, rfl, rfl, rfl, rfl, rfl⟩ rfl
  | unstarted | createSandbox | running | ended =>
      simp only [next, hpc] at h
      cases h
  | _ =>
      simp only [next, hpc, Except.ok.injEq, Prod.mk.injEq] at h
      obtain ⟨rfl, rfl⟩ := h
      exact Frame.of_same ⟨rfl, rfl, rfl⟩ ⟨rfl, rfl, rfl, rfl, rfl, rfl⟩ rfl

theorem step_frame {p p' : DomainPool} {w w' : Worker} {input : WorkerInput}
    (h : w.step p input = .ok (p', w')) : Frame p p' w w' := by
  cases input with
  | next => exact next_frame h
  | sandbox appDomain | finished outcome =>
      simp only [step] at h
      split at h
      all_goals cases h
      exact Frame.of_same ⟨rfl, rfl, rfl⟩ ⟨rfl, rfl, rfl, rfl, rfl, rfl⟩ rfl
  | throws message =>
      simp only [step, throwException] at h
      split at h
      all_goals cases h
      all_goals exact Frame.of_same ⟨rfl, rfl, rfl⟩ ⟨rfl, rfl, rfl, rfl, rfl, rfl⟩ rfl
  | aborted message =>
      simp only [step, raiseAbort] at h
      split at h
      all_goals cases h
      all_goals exact Frame.of_same ⟨rfl, rfl, rfl⟩ ⟨rfl, rfl, rfl, rfl, rfl, rfl⟩ rfl

/-- Where a worker goes on when something is thrown at it: in the catch block of the
inner try block, in that of the outer one, or nowhere. -/
inductive Thrown (p : DomainPool) (w : Worker) : DomainPool → Worker → Prop
  | inner (pc : WorkerPc) (hregion : w.pc.region = .innerTry)
      (hpc : ∃ message, pc = .catchAbort message ∨ pc = .catchException message) :
      Thrown p w (w.leaveTry p pc).1 (w.leaveTry p pc).2
  | outer (hregion : w.pc.region = .innerCatch ∨ w.pc.region = .outerTry) :
      Thrown p w p w.enterOuterCatch
  | dies (hregion : w.pc.region = .beforeTry) : Thrown p w p { w with pc := .ended }

theorem throws_thrown {p p' : DomainPool} {w w' : Worker} {message : String}
    (h : w.throwException p message = .ok (p', w')) : Thrown p w p' w' := by
  unfold throwException at h
  split at h
  next => cases h
  next => cases h
  next => cases h
  next hregion =>
    cases h
    exact .inner _ hregion ⟨message, Or.inr rfl⟩
  next hregion =>
    cases h
    exact .outer (Or.inl hregion)
  next hregion =>
    cases h
    exact .outer (Or.inr hregion)

theorem aborted_thrown {p p' : DomainPool} {w w' : Worker} {message : String}
    (h : w.raiseAbort p message = .ok (p', w')) : Thrown p w p' w' := by
  unfold raiseAbort at h
  split at h
  next hregion =>
    cases h
    exact .dies hregion
  next hregion =>
    cases h
    exact .inner _ hregion ⟨message, Or.inl rfl⟩
  next hregion =>
    cases h
    exact .outer (Or.inr hregion)
  next => cases h

/-- The two inputs that throw something. -/
theorem step_thrown {p p' : DomainPool} {w w' : Worker} {input : WorkerInput}
    (hinput : ∃ message, input = .throws message ∨ input = .aborted message)
    (h : w.step p input = .ok (p', w')) : Thrown p w p' w' := by
  obtain ⟨message, rfl | rfl⟩ := hinput
  · exact throws_thrown h
  · exact aborted_thrown h

/-- What another thread does to the record of a worker: ask it to abort, or
start it. The token of the watchdog's timeout needs the reason given. -/
inductive Passive (timeout : Prop) : Worker → Worker → Prop where
  | same (w : Worker) : Passive timeout w w
  | abort (w : Worker) (token : AbortToken) (h : token = .timeout → timeout) :
      Passive timeout w (w.requestAbort token)
  | start (w : Worker) (h : w.pc = .unstarted) :
      Passive timeout w { w with pc := .incrementThreads }

theorem requestAbort_eq (w : Worker) (token : AbortToken) :
    ∃ request, w.requestAbort token = { w with abortRequested := request } := by
  unfold requestAbort
  split
  next => exact ⟨w.abortRequested, rfl⟩
  next => exact ⟨some token, rfl⟩

/-- Another thread changes the abort a worker is to see, or starts it. -/
theorem Passive.eq_cases {timeout : Prop} {w w' : Worker} (h : Passive timeout w w') :
    (∃ request, w' = { w with abortRequested := request }) ∨
      (w.pc = .unstarted ∧ w' = { w with pc := .incrementThreads }) := by
  cases h with
  | same => exact Or.inl ⟨w.abortRequested, rfl⟩
  | abort token _ => exact Or.inl (requestAbort_eq w token)
  | start hpc => exact Or.inr ⟨hpc, rfl⟩

/-- Another thread moves a worker only by starting it. -/
theorem Passive.pc_cases {timeout : Prop} {w w' : Worker} (h : Passive timeout w w') :
    w'.pc = w.pc ∨ w'.pc = .incrementThreads := by
  obtain ⟨request, rfl⟩ | ⟨-, rfl⟩ := h.eq_cases
  · exact Or.inl rfl
  · exact Or.inr rfl

/-- The record of a thread that was just created. -/
def created (thread : ThreadId) (index : Nat) (data : DataRef) : Worker :=
  { thread, threadIndex := index, myPoolDomain := data }

/-- The three steps a worker takes itself: one of its code, a rude death, or the
last one of a dead thread. -/
def Moves (t : ThreadId) (a : PoolAction) (p p' : DomainPool) (w w' : Worker) : Prop :=
  (∃ input, a = .worker t input ∧ w.step p input = .ok (p', w')) ∨
    (a = .rudeAbort t ∧ w.dieRudely p = .ok (p', w')) ∨
    (a = .settle t ∧ w.settle p = .ok (p', w'))

theorem settle_ok {p p' : DomainPool} {w w' : Worker} (h : w.settle p = .ok (p', w')) :
    w.pc = .ended ∧ p' = p ∧ w' = { w with stopped := true } := by
  unfold settle at h
  split at h
  next hpc =>
    cases h
    exact ⟨hpc, rfl, rfl⟩
  next => cases h

theorem dieRudely_ok {p p' : DomainPool} {w w' : Worker}
    (h : w.dieRudely p = .ok (p', w')) :
    w.pc.region ≠ .outside ∧
      p' = { p with currentRun := Function.update p.currentRun w.appDomain none } ∧
      w' = { w with pc := .ended, abortRequested := some .other } := by
  unfold dieRudely at h
  split at h
  next => cases h
  next hregion =>
    cases h
    exact ⟨hregion, rfl, rfl⟩

/-- Where the statement at a `pc` leads. -/
inductive NextPc : WorkerPc → WorkerPc → Prop
  | counted : NextPc .incrementThreads .createSandbox
  | entered : NextPc .setDomainId .loopHead
  | completed : NextPc .loopHead .ended
  | goesOn : NextPc .loopHead .resetAborting
  | flagReset : NextPc .resetAborting .resetCounters
  | countersReset : NextPc .resetCounters .take
  | took : NextPc .take .taken
  | nothingLeft : NextPc .take .ended
  | prepared : NextPc .taken .incrementUsages
  | used : NextPc .incrementUsages .recordStart
  | recorded : NextPc .recordStart .writeStart
  | started : NextPc .writeStart .running
  | timed : NextPc .readEnd .clearStart
  | cleared : NextPc .clearStart .getThreadCount
  | caughtAbort (message : String) : NextPc (.catchAbort message) .getThreadCount
  | caughtException (message : String) : NextPc (.catchException message) .getThreadCount
  | threadsRead : NextPc .getThreadCount .getMemoryUsage
  | memoryRead : NextPc .getMemoryUsage .decide
  | decided : NextPc .decide .deliver
  | delivered : NextPc .deliver .recycleCheck
  | notRegistered : NextPc .deliver (.recycle .outerCatch .checkZombies)
  | recycles : NextPc .recycleCheck (.recycle .loop .checkZombies)
  | kept : NextPc .recycleCheck .collect
  | collected : NextPc .collect .loopHead
  | recycling (caller : RecycleCaller) (stage stage' : RecycleStage)
      (hstage : stage' = .clearSlot → stage = .decrementThreads) :
      NextPc (.recycle caller stage) (.recycle caller stage')
  | recycled (caller : RecycleCaller) (stage : RecycleStage) :
      NextPc (.recycle caller stage) (afterRecycle caller)

theorem next_nextPc {p p' : DomainPool} {w w' : Worker} (h : w.next p = .ok (p', w')) :
    NextPc w.pc w'.pc := by
  cases hpc : w.pc with
  | recycle caller stage =>
      simp only [next, hpc] at h
      cases stage with
      | checkZombies =>
          simp only [recycleStep] at h
          split at h
          all_goals cases h
          all_goals exact .recycling caller _ _ (fun heq => by cases heq)
      | setExiting | completeAdding | interruptWatchdog =>
          cases h
          exact .recycling caller _ _ (fun heq => by cases heq)
      | decrementThreads =>
          cases h
          exact .recycling caller _ _ (fun _ => rfl)
      | clearSlot =>
          simp only [recycleStep] at h
          split at h
          all_goals cases h
          exact .recycling caller _ _ (fun heq => by cases heq)
      | joinWatchdog =>
          simp only [recycleStep] at h
          split at h
          all_goals cases h
          exact .recycled caller _
      | unloadDomain =>
          cases h
          exact .recycled caller _
  | _ =>
      simp only [next, hpc] at h
      repeat' split at h
      all_goals cases h
      all_goals constructor

/-- Where its own steps lead a worker. -/
inductive Goes (t : ThreadId) : PoolAction → WorkerPc → WorkerPc → Prop
  | next {pc pc' : WorkerPc} (hnext : NextPc pc pc') : Goes t (.worker t .next) pc pc'
  | sandbox (appDomain : DomainId) :
      Goes t (.worker t (.sandbox appDomain)) .createSandbox .setDomainId
  | finished (outcome : RunOutcome) : Goes t (.worker t (.finished outcome)) .running .readEnd
  | caught (input : WorkerInput) (pc pc' : WorkerPc)
      (hinput : ∃ message, input = .throws message ∨ input = .aborted message)
      (hregion : pc.region = .innerTry)
      (hcatch : ∃ message, pc' = .catchAbort message ∨ pc' = .catchException message) :
      Goes t (.worker t input) pc pc'
  | outer (input : WorkerInput) (pc : WorkerPc) :
      Goes t (.worker t input) pc (.recycle .outerCatch .checkZombies)
  | dead (a : PoolAction) (pc : WorkerPc) : Goes t a pc .ended

theorem Moves.goes {t : ThreadId} {a : PoolAction} {p p' : DomainPool} {w w' : Worker}
    (h : Moves t a p p' w w') : Goes t a w.pc w'.pc := by
  obtain ⟨input, rfl, h⟩ | ⟨rfl, h⟩ | ⟨rfl, h⟩ := h
  · cases input with
    | next => exact .next (next_nextPc h)
    | sandbox appDomain =>
        simp only [step] at h
        split at h
        next hcreate =>
          cases h
          rw [hcreate.1]
          exact .sandbox appDomain
        next => cases h
    | finished outcome =>
        simp only [step] at h
        split at h
        next hpc =>
          cases h
          rw [hpc]
          exact .finished outcome
        next => cases h
    | throws message | aborted message =>
        cases step_thrown ⟨message, by simp⟩ h with
        | inner pc hregion hpc => exact .caught _ _ _ ⟨message, by simp⟩ hregion hpc
        | outer hregion => exact .outer _ _
        | dies hregion => exact .dead _ _
  · obtain ⟨-, -, rfl⟩ := dieRudely_ok h
    exact .dead _ _
  · obtain ⟨hended, -, rfl⟩ := settle_ok h
    rw [hended]
    exact .dead _ _

theorem Moves.frame {t : ThreadId} {a : PoolAction} {p p' : DomainPool} {w w' : Worker}
    (h : Moves t a p p' w w') : Frame p p' w w' := by
  obtain ⟨input, -, h⟩ | ⟨-, h⟩ | ⟨-, h⟩ := h
  · exact step_frame h
  · obtain ⟨-, rfl, rfl⟩ := dieRudely_ok h
    exact Frame.of_same ⟨rfl, rfl, rfl⟩ ⟨rfl, rfl, rfl, rfl, rfl, rfl⟩ rfl
  · obtain ⟨-, rfl, rfl⟩ := settle_ok h
    exact Frame.of_same ⟨rfl, rfl, rfl⟩ ⟨rfl, rfl, rfl, rfl, rfl, rfl⟩ rfl

end Worker

end HostedPumpkin
