import HostedPumpkin.Library.CriticalSection
import HostedPumpkin.Host.MessageQueue

/-!
How long the critical sections of `HostContext` are held. Each operation says
`CrstLock(this->crst);`, an unnamed temporary: the section is entered and left
in that one statement, and the accesses that follow run outside it. Here the
operations are the sequences of these accesses. Uninterrupted, they are the
atomic operations of `HostContext`; interrupted, two equal posts can both be
queued. Calls that overlap are harmless as long as no access of one disturbs what
another one, which began before it, has still to do.
-/

namespace HostedPumpkin

open CriticalSection Runs

/-- The two critical sections. -/
inductive Crst where
  | messageQueueCrst
  | domainMapCrst
deriving DecidableEq, Repr

def Crst.Guarded : Crst → Type
  | .messageQueueCrst => MessageData
  | .domainMapCrst => DomainData

inductive CrstOp where
  | postHostMessage (eventType appDomainId managedThreadId : Int32)
  | rawGetLastMessage
  | onThreadAcquire (dwParentThreadId dwThreadId : DWORD)
  | onThreadRelease (dwThreadId : DWORD)
  | onMemoryAcquire (dwThreadId : DWORD) (bytes : LONG) (address : PVOID)
  | onMemoryRelease (address : PVOID)
deriving DecidableEq

inductive CrstReply where
  | nothing
  | event (hostEvent : Option HostEvent)
  | answer (acquired : Bool)
  | released (exit : Option DomainData.MainThreadExit) (answer : Bool)
  | bytes (dwBytes : LONG)
  | fault (fault : HostFault)
deriving DecidableEq

/-- `CrstLock(this->crst);` -/
def crstLock {σ : Type} (rest : Program σ CrstReply) : Program σ CrstReply :=
  .enter (.leave rest)

@[simp] theorem exec_crstLock {σ : Type} (rest : Program σ CrstReply) (d : σ) :
    (crstLock rest).exec d = rest.exec d := by
  rw [crstLock, Program.exec_enter, Program.exec_leave]

namespace MessageData

def postHostMessageSteps (eventType appDomainId managedThreadId : Int32) :
    Program MessageData CrstReply :=
  crstLock <|
  .read (fun m => m.messageQueue.reverse.any (sameEvent eventType appDomainId))
    fun eventAlreadyInserted =>
  .write (fun m =>
    if eventAlreadyInserted then m
    else { m with messageQueue :=
      m.messageQueue ++ [⟨eventType, appDomainId, managedThreadId⟩] }) <|
  .write (fun m => { m with hMessageEvent := true }) <|
  .done .nothing

/-- What `raw_GetLastMessage` does once its wait has succeeded. -/
def takeLastMessageSteps : Program MessageData CrstReply :=
  .read (fun m => m.messageQueue.getLast?) fun
  | none => .done (.fault .emptyList)
  | some hostEvent =>
      .write (fun m => { m with messageQueue := m.messageQueue.dropLast }) <|
      .read (fun m => m.messageQueue.isEmpty) fun empty =>
      .write (fun m => if empty then { m with hMessageEvent := false } else m) <|
      .done (.event (some hostEvent))

def rawGetLastMessageSteps : Program MessageData CrstReply :=
  .read (fun m => waitForSingleObject m.hMessageEvent) fun
  | .object0 => crstLock takeLastMessageSteps
  | .timeout => .done (.event none)

theorem exec_postHostMessageSteps (eventType appDomainId managedThreadId : Int32)
    (m : MessageData) :
    (postHostMessageSteps eventType appDomainId managedThreadId).exec m =
      (m.postHostMessage eventType appDomainId managedThreadId, .nothing) := by
  simp only [postHostMessageSteps, postHostMessage, exec_crstLock, Program.exec_read,
    Program.exec_write, Program.exec_done]
  split <;> rfl

theorem exec_takeLastMessageSteps (m : MessageData) :
    takeLastMessageSteps.exec m =
      match m.takeLastMessage with
      | .ok (next, hostEvent) => (next, .event (some hostEvent))
      | .error fault => (m, .fault fault) := by
  simp only [takeLastMessageSteps, takeLastMessage, Program.exec_read]
  cases m.messageQueue.getLast? with
  | none => rfl
  | some hostEvent =>
      simp only [Program.exec_write, Program.exec_read, Program.exec_done]
      split <;> rfl

theorem exec_rawGetLastMessageSteps (m : MessageData) :
    rawGetLastMessageSteps.exec m =
      match m.rawGetLastMessage with
      | .ok (next, hostEvent) => (next, .event hostEvent)
      | .error fault => (m, .fault fault) := by
  simp only [rawGetLastMessageSteps, rawGetLastMessage, Program.exec_read]
  cases waitForSingleObject m.hMessageEvent with
  | timeout => rfl
  | object0 =>
      simp only [exec_crstLock, exec_takeLastMessageSteps]
      cases m.takeLastMessage with
      | ok taken => rfl
      | error fault => rfl

end MessageData

namespace DomainData

/-- `counter += delta` on a counter of a domain: a load and a store. -/
def addTo (appDomainId : DWORD) (load : AppDomainInfo → LONG)
    (store : AppDomainInfo → LONG → AppDomainInfo) (delta : LONG)
    (next : Program DomainData CrstReply) : Program DomainData CrstReply :=
  .read (fun c => (c.appDomains.lookup appDomainId).map load) fun
  | none => next
  | some old =>
      .write (fun c => { c with
        appDomains := c.appDomains.modify appDomainId
          (fun info => store info (old + delta)) }) next

def addToThreads (appDomainId : DWORD) : LONG → Program DomainData CrstReply →
    Program DomainData CrstReply :=
  addTo appDomainId AppDomainInfo.threadsInAppDomain
    (fun info count => { info with threadsInAppDomain := count })

def addToBytes (appDomainId : DWORD) : LONG → Program DomainData CrstReply →
    Program DomainData CrstReply :=
  addTo appDomainId AppDomainInfo.bytesInAppDomain
    (fun info count => { info with bytesInAppDomain := count })

def addToAllocs (appDomainId : DWORD) : LONG → Program DomainData CrstReply →
    Program DomainData CrstReply :=
  addTo appDomainId AppDomainInfo.allocsInAppDomain
    (fun info count => { info with allocsInAppDomain := count })

def onThreadAcquireSteps (dwParentThreadId dwThreadId : DWORD) :
    Program DomainData CrstReply :=
  crstLock <|
  .read (fun c => c.threadAppDomain.lookup dwParentThreadId) fun
  | none => .done (.answer false)
  | some appDomainId =>
      .read (fun c => c.appDomains.lookup appDomainId) fun
      | none => .done (.fault .outOfRange)
      | some _ =>
          addToThreads appDomainId 1 <|
          .write (fun c => { c with
            threadAppDomain := c.threadAppDomain.insertNew dwThreadId appDomainId }) <|
          .done (.answer true)

/-- The last statements of `OnThreadRelease`. -/
def forgetThreadSteps (dwThreadId : DWORD) (exit : Option MainThreadExit) :
    Program DomainData CrstReply :=
  .write (fun c => { c with threadAppDomain := c.threadAppDomain.remove dwThreadId }) <|
  .done (.released exit true)

def onThreadReleaseSteps (dwThreadId : DWORD) : Program DomainData CrstReply :=
  crstLock <|
  .read (fun c => c.threadAppDomain.lookup dwThreadId) fun
  | none => .done (.released none false)
  | some appDomainId =>
      .read (fun c => c.appDomains.lookup appDomainId) fun
      | none => forgetThreadSteps dwThreadId none
      | some domainInfo =>
          addToThreads appDomainId (-1) <|
          if domainInfo.mainThreadId = dwThreadId then
            .read (fun c => c.defaultDomainManager) fun
            | none => .done (.fault .nullManager)
            | some _ =>
                .read (fun c => (c.appDomains.lookup appDomainId).map
                  AppDomainInfo.threadsInAppDomain) fun threads =>
                .write (fun c => { c with appDomains := c.appDomains.remove appDomainId }) <|
                forgetThreadSteps dwThreadId (some ⟨appDomainId, threads == some 0⟩)
          else forgetThreadSteps dwThreadId none

def onMemoryAcquireSteps (dwThreadId : DWORD) (bytes : LONG) (address : PVOID) :
    Program DomainData CrstReply :=
  crstLock <|
  .read (fun c => c.threadAppDomain.lookup dwThreadId) fun
  | none => .done .nothing
  | some appDomainId =>
      .read (fun c => c.defaultDomainId) fun defaultDomainId =>
      if appDomainId = defaultDomainId then .done .nothing
      else
        .read (fun c => c.appDomains.lookup appDomainId) fun
        | none => .done .nothing
        | some _ =>
            addToBytes appDomainId bytes <|
            addToAllocs appDomainId 1 <|
            .write (fun c => { c with
              memoryAppDomain := c.memoryAppDomain.insertNew address ⟨appDomainId, bytes⟩ }) <|
            .done .nothing

def onMemoryReleaseSteps (address : PVOID) : Program DomainData CrstReply :=
  crstLock <|
  .read (fun c => c.memoryAppDomain.lookup address) fun
  | none => .done (.bytes 0)
  | some memoryInfo =>
      .read (fun c => c.appDomains.lookup memoryInfo.appDomainId) fun
      | none => .done (.bytes 0)
      | some _ =>
          addToBytes memoryInfo.appDomainId (-memoryInfo.dwBytes) <|
          addToAllocs memoryInfo.appDomainId (-1) <|
          .write (fun c => { c with memoryAppDomain := c.memoryAppDomain.remove address }) <|
          .done (.bytes memoryInfo.dwBytes)

/-- Uninterrupted, a load and a store are one update. -/
theorem exec_addTo (appDomainId : DWORD) (load : AppDomainInfo → LONG)
    (store : AppDomainInfo → LONG → AppDomainInfo) (delta : LONG)
    (next : Program DomainData CrstReply) (c : DomainData) :
    (addTo appDomainId load store delta next).exec c =
      next.exec { c with appDomains :=
        c.appDomains.modify appDomainId (fun info => store info (load info + delta)) } := by
  rw [addTo, Program.exec_read]
  cases h : c.appDomains.lookup appDomainId with
  | none => rw [StdMap.modify_of_none h]; rfl
  | some info =>
      have hmodify : c.appDomains.modify appDomainId
            (fun record => store record (load info + delta)) =
          c.appDomains.modify appDomainId
            (fun record => store record (load record + delta)) :=
        StdMap.modify_congr h rfl
      simp only [Option.map_some, Program.exec_write, hmodify]

theorem exec_onThreadAcquireSteps (parent thread : DWORD) (c : DomainData) :
    (onThreadAcquireSteps parent thread).exec c =
      match c.onThreadAcquire parent thread with
      | .ok (next, acquired) => (next, .answer acquired)
      | .error fault => (c, .fault fault) := by
  simp only [onThreadAcquireSteps, onThreadAcquire, exec_crstLock, Program.exec_read]
  cases c.threadAppDomain.lookup parent with
  | none => rfl
  | some domain =>
      simp only [Program.exec_read]
      cases c.appDomains.lookup domain with
      | none => rfl
      | some info => simp only [addToThreads, exec_addTo, Program.exec_write, Program.exec_done]

/-- A release that returns. The one that fails dies in a call through a null
manager, after the counter was changed. -/
theorem exec_onThreadReleaseSteps {thread : DWORD} {c next : DomainData}
    {exit : Option MainThreadExit} {answer : Bool}
    (h : c.onThreadRelease thread = .ok (next, exit, answer)) :
    (onThreadReleaseSteps thread).exec c = (next, .released exit answer) := by
  simp only [onThreadRelease] at h
  simp only [onThreadReleaseSteps, exec_crstLock, Program.exec_read]
  cases hthread : c.threadAppDomain.lookup thread with
  | none =>
      rw [hthread] at h
      cases h
      rfl
  | some domain =>
      simp only [hthread] at h
      simp only [Program.exec_read]
      cases hdomain : c.appDomains.lookup domain with
      | none =>
          simp only [hdomain] at h
          cases h
          rfl
      | some info =>
          simp only [hdomain] at h
          simp only [addToThreads, exec_addTo]
          have hmodify : c.appDomains.modify domain (fun info =>
              { info with threadsInAppDomain := info.threadsInAppDomain + -1 }) =
              c.appDomains.modify domain (fun old =>
                { old with threadsInAppDomain := info.threadsInAppDomain - 1 }) :=
            StdMap.modify_congr hdomain rfl
          rw [hmodify]
          split
          next hmain =>
            rw [if_pos hmain] at h
            simp only [Program.exec_read]
            cases hmanager : c.defaultDomainManager with
            | none =>
                rw [hmanager] at h
                cases h
            | some manager =>
                simp only [hmanager] at h
                cases h
                simp [forgetThreadSteps, StdMap.lookup_modify, hdomain]
          next hmain =>
            rw [if_neg hmain] at h
            cases h
            rfl

theorem exec_onMemoryAcquireSteps (thread : DWORD) (bytes : LONG) (address : PVOID)
    (c : DomainData) :
    (onMemoryAcquireSteps thread bytes address).exec c =
      (c.onMemoryAcquire thread bytes address, .nothing) := by
  simp only [onMemoryAcquireSteps, onMemoryAcquire, exec_crstLock, Program.exec_read]
  cases c.threadAppDomain.lookup thread with
  | none => rfl
  | some domain =>
      simp only [Program.exec_read]
      split
      next => rfl
      next =>
        simp only [Program.exec_read]
        cases c.appDomains.lookup domain with
        | none => rfl
        | some info =>
            simp only [addToBytes, addToAllocs, exec_addTo, StdMap.modify_modify,
              Program.exec_write, Program.exec_done]

theorem exec_onMemoryReleaseSteps (address : PVOID) (c : DomainData) :
    (onMemoryReleaseSteps address).exec c =
      ((c.onMemoryRelease address).1, .bytes (c.onMemoryRelease address).2) := by
  simp only [onMemoryReleaseSteps, onMemoryRelease, exec_crstLock, Program.exec_read]
  cases c.memoryAppDomain.lookup address with
  | none => rfl
  | some memoryInfo =>
      simp only [Program.exec_read]
      cases c.appDomains.lookup memoryInfo.appDomainId with
      | none => rfl
      | some info =>
          simp only [addToBytes, addToAllocs, exec_addTo, StdMap.modify_modify,
            Program.exec_write, Program.exec_done]
          rfl

end DomainData

/-! The six operations as one system of calls. -/

namespace CrstOp

def guard : CrstOp → Crst
  | .postHostMessage _ _ _ | .rawGetLastMessage => .messageQueueCrst
  | .onThreadAcquire _ _ | .onThreadRelease _ | .onMemoryAcquire _ _ _
  | .onMemoryRelease _ => .domainMapCrst

def steps : (op : CrstOp) → Program op.guard.Guarded CrstReply
  | .postHostMessage eventType appDomainId managedThreadId =>
      MessageData.postHostMessageSteps eventType appDomainId managedThreadId
  | .rawGetLastMessage => MessageData.rawGetLastMessageSteps
  | .onThreadAcquire dwParentThreadId dwThreadId =>
      DomainData.onThreadAcquireSteps dwParentThreadId dwThreadId
  | .onThreadRelease dwThreadId => DomainData.onThreadReleaseSteps dwThreadId
  | .onMemoryAcquire dwThreadId bytes address =>
      DomainData.onMemoryAcquireSteps dwThreadId bytes address
  | .onMemoryRelease address => DomainData.onMemoryReleaseSteps address

/-- The same call as an atomic operation. -/
def toHostOp : CrstOp → HostOp
  | .postHostMessage eventType appDomainId managedThreadId =>
      .postHostMessage eventType appDomainId managedThreadId
  | .rawGetLastMessage => .rawGetLastMessage
  | .onThreadAcquire dwParentThreadId dwThreadId =>
      .onThreadAcquire dwParentThreadId dwThreadId
  | .onThreadRelease dwThreadId => .onThreadRelease dwThreadId
  | .onMemoryAcquire dwThreadId bytes address => .onMemoryAcquire dwThreadId bytes address
  | .onMemoryRelease address => .onMemoryRelease address

end CrstOp

def lockedCalls : System where
  Guard := Crst
  Data := Crst.Guarded
  Op := CrstOp
  Reply := CrstReply
  guard := CrstOp.guard
  program := CrstOp.steps
  decGuard := inferInstance

namespace HostContext

/-- The data of each critical section. -/
def guarded (s : HostContext) : (g : Crst) → g.Guarded
  | .messageQueueCrst => s.toMessageData
  | .domainMapCrst => s.toDomainData

theorem guarded_of_messageData {s : HostContext} {m : MessageData} {reply : CrstReply}
    {result : MessageData × CrstReply} (hexec : result = (m, reply)) :
    guarded { s with toMessageData := m } =
      Function.update s.guarded .messageQueueCrst result.1 := by
  subst hexec
  funext g
  cases g <;> rfl

theorem guarded_of_domainData {s : HostContext} {c : DomainData} {reply : CrstReply}
    {result : DomainData × CrstReply} (hexec : result = (c, reply)) :
    guarded { s with toDomainData := c } =
      Function.update s.guarded .domainMapCrst result.1 := by
  subst hexec
  funext g
  cases g <;> rfl

/-- An uninterrupted call is the atomic operation. -/
theorem guarded_step {s next : HostContext} {op : CrstOp} (h : s.step op.toHostOp = .ok next) :
    next.guarded =
      Function.update s.guarded op.guard (op.steps.exec (s.guarded op.guard)).1 := by
  cases op with
  | postHostMessage eventType appDomainId managedThreadId =>
      have hexec := MessageData.exec_postHostMessageSteps eventType appDomainId
        managedThreadId s.toMessageData
      cases h
      exact guarded_of_messageData hexec
  | rawGetLastMessage =>
      obtain ⟨hostEvent, hread⟩ := map_fst_ok h
      obtain ⟨hread, hnext⟩ := rawGetLastMessage_ok hread
      have hexec := MessageData.exec_rawGetLastMessageSteps s.toMessageData
      rw [hread] at hexec
      exact (congrArg guarded hnext).trans (guarded_of_messageData hexec)
  | onThreadAcquire parent thread =>
      obtain ⟨c, hcall, rfl⟩ := withDomainData_ok h
      obtain ⟨answer, hcall⟩ := map_fst_ok hcall
      have hexec := DomainData.exec_onThreadAcquireSteps parent thread s.toDomainData
      rw [hcall] at hexec
      exact guarded_of_domainData hexec
  | onThreadRelease thread =>
      obtain ⟨c, hcall, rfl⟩ := withDomainData_ok h
      obtain ⟨⟨exit, answer⟩, hcall⟩ := map_fst_ok hcall
      have hexec := DomainData.exec_onThreadReleaseSteps hcall
      exact guarded_of_domainData hexec
  | onMemoryAcquire thread bytes address =>
      have hexec := DomainData.exec_onMemoryAcquireSteps thread bytes address s.toDomainData
      cases h
      exact guarded_of_domainData hexec
  | onMemoryRelease address =>
      have hexec := DomainData.exec_onMemoryReleaseSteps address s.toDomainData
      cases h
      exact guarded_of_domainData hexec

/-- A sequential order of calls is a run of atomic operations. -/
theorem guarded_run {s t : HostContext} {ops : List CrstOp}
    (h : run step s (ops.map CrstOp.toHostOp) = .ok t) :
    t.guarded = (System.replay (S := lockedCalls) s.guarded ops).1 := by
  induction ops generalizing s with
  | nil =>
      cases h
      rfl
  | cons op rest ih =>
      obtain ⟨next, hnext, hrest⟩ := run_cons_iff.mp h
      rw [ih hrest, guarded_step hnext]
      rfl

variable {Tid : Type}

/-- Once all calls have returned, data and replies are those of a sequential order of
them, and the data those the atomic operations leave in that order. -/
def Sequential (init : HostContext) (s : System.Config lockedCalls Tid) : Prop :=
  (∀ t, s.running t = none) →
    ∃ order : List (lockedCalls.Op × lockedCalls.Reply), order.Perm s.returned ∧
      System.replay init.guarded (order.map Prod.fst) = (s.data, order.map Prod.snd) ∧
      ∀ final, run step init ((order.map Prod.fst).map CrstOp.toHostOp) = .ok final →
        final.guarded = s.data

/-- A call about to construct its `CrstLock`. -/
def AtLock (s : System.Config lockedCalls Tid) (thread : Tid) (op : CrstOp) : Prop :=
  ∃ entered rest, s.running thread = some ⟨op, entered, crstLock rest⟩

theorem sequential_of_serializable {init : HostContext} {s : System.Config lockedCalls Tid}
    (h : System.Serializable init.guarded s) : init.Sequential s := by
  intro hquiet
  obtain ⟨order, hperm, hreplay⟩ := h hquiet
  refine ⟨order, hperm, hreplay, ?_⟩
  intro final hfinal
  exact (guarded_run hfinal).trans (congrArg Prod.fst hreplay)

variable [DecidableEq Tid]

theorem whole_ext {d d' : lockedCalls.Whole}
    (hqueue : d Crst.messageQueueCrst = d' Crst.messageQueueCrst)
    (hmaps : d Crst.domainMapCrst = d' Crst.domainMapCrst) : d = d' := by
  funext g
  cases g
  · exact hqueue
  · exact hmaps

/-- A host with the domain 2 and its main thread 10. -/
def hosting : HostContext :=
  { initial with
    appDomains := StdMap.insertNew ∅ 2 (AppDomainInfo.new 10 (some 0) 0)
    threadAppDomain := StdMap.insertNew ∅ 10 2 }

/-- Two posts of different events and the acquisition of a thread. All three have
constructed and destroyed their `CrstLock` before any of them looks at anything, and
they take turns from there. -/
def overlappingCalls : List (System.Action lockedCalls (Fin 3)) :=
  [.call 0 (.postHostMessage 1 2 0), .advance 0, .advance 0,
    .call 1 (.postHostMessage 1 3 0), .advance 1, .advance 1,
    .call 2 (.onThreadAcquire 10 20), .advance 2, .advance 2,
    .advance 0, .advance 1, .advance 2, .advance 0, .advance 2, .advance 1, .advance 0,
    .advance 2, .advance 1, .advance 2, .advance 0, .advance 1, .advance 2, .advance 2]

/-- The two posts work under the other section and never disturb it. -/
theorem undisturbed_acquire {s : System.Config lockedCalls (Fin 3)}
    {call : System.Running lockedCalls} (hthread : s.running 2 = some call)
    (hcall : lockedCalls.guard call.op = Crst.domainMapCrst)
    (hfirst : ∀ other, s.running 0 = some other →
      lockedCalls.guard other.op = Crst.messageQueueCrst)
    (hsecond : ∀ other, s.running 1 = some other →
      lockedCalls.guard other.op = Crst.messageQueueCrst) :
    System.Undisturbed s (.advance 2) := by
  apply System.undisturbed_of_guard_ne hthread
  intro u other hne hu
  rw [hcall]
  have hqueue : lockedCalls.guard other.op = Crst.messageQueueCrst := by
    fin_cases u
    · exact hfirst other hu
    · exact hsecond other hu
    · exact absurd rfl hne
  rw [hqueue]
  exact Crst.noConfusion

/-- Two threads post the same event. Each has constructed and destroyed its
`CrstLock` before either of them scans the queue. -/
def racingPosts : List (System.Action lockedCalls Bool) :=
  [.call false (.postHostMessage 1 2 0), .advance false, .advance false, .advance false,
    .call true (.postHostMessage 1 2 0), .advance true, .advance true, .advance true,
    .advance false, .advance false, .advance false,
    .advance true, .advance true, .advance true]

end HostContext

end HostedPumpkin
