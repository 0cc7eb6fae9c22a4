import HostedPumpkin.Library.Runs
import HostedPumpkin.Library.StdMap

/-!
The unmanaged `HostContext`: the bookkeeping of threads, domains and memory and
the message queue the managed watchdog reads. The record is split into the data
each of the two critical sections guards. An operation is a function on the part
it touches; what the C++ code cannot survive (an unguarded `std::map::at`, a
call through a null manager, `back()` of an empty list) is an error.

`LONG` counters and byte counts are exact integers here. What the memory counters do
in the 32 bits of the build is said in `LongCounters`.
-/

namespace HostedPumpkin

abbrev DWORD := UInt32
abbrev LONG := Int
abbrev PVOID := UInt32
abbrev HANDLE := UInt32

/-- The identity of an `ISimpleHostDomainManager` object. -/
abbrev DomainManager := Nat

def maxThreadPerDomain : LONG := 10
def maxAllocsPerDomain : LONG := 1000
def maxBytesPerDomain : LONG := 10 * 1024 * 1024

structure HostEvent where
  eventType : Int32
  appDomainId : Int32
  managedThreadId : Int32
deriving DecidableEq, Repr

/-- `HostEventType.OutOfTasks`, the only event the host posts. -/
def HostEventType.outOfTasks : Int32 := 1

structure AppDomainInfo where
  mainThreadId : DWORD
  appDomainManager : Option DomainManager
  threadsInAppDomain : LONG
  bytesInAppDomain : LONG
  allocsInAppDomain : LONG
deriving DecidableEq

/-- The constructor of `AppDomainInfo`. It does not initialise
`allocsInAppDomain`, whose first value is whatever the memory held. -/
def AppDomainInfo.new (threadId : DWORD) (manager : Option DomainManager)
    (uninitialised : LONG) : AppDomainInfo where
  mainThreadId := threadId
  appDomainManager := manager
  threadsInAppDomain := 1
  bytesInAppDomain := 0
  allocsInAppDomain := uninitialised

structure MemoryInfo where
  appDomainId : DWORD
  dwBytes : LONG
deriving DecidableEq

/-- The data guarded by `messageQueueCrst`: the list, oldest event first, and
whether the manual-reset event `hMessageEvent` is signalled. -/
structure MessageData where
  messageQueue : List HostEvent
  hMessageEvent : Bool
deriving DecidableEq

/-- The data guarded by `domainMapCrst`. -/
structure DomainData where
  appDomains : StdMap DWORD AppDomainInfo
  threadAppDomain : StdMap DWORD DWORD
  memoryAppDomain : StdMap PVOID MemoryInfo
  defaultDomainManager : Option DomainManager
  defaultDomainId : DWORD
deriving DecidableEq

structure HostContext extends MessageData, DomainData where
  numZombieDomains : UInt32
deriving DecidableEq

/-- What ends an operation other than a return. -/
inductive HostFault where
  | outOfRange
  | nullManager
  | emptyList
deriving DecidableEq, Repr

/-- The state the constructor leaves. -/
def HostContext.initial : HostContext where
  messageQueue := []
  hMessageEvent := false
  appDomains := ∅
  threadAppDomain := ∅
  memoryAppDomain := ∅
  defaultDomainManager := none
  defaultDomainId := 1
  numZombieDomains := 0

namespace MessageData

/-- The test of the reverse scan in `PostHostMessage`. -/
def sameEvent (eventType appDomainId : Int32) (event : HostEvent) : Bool :=
  event.appDomainId == appDomainId && event.eventType == eventType

def postHostMessage (eventType appDomainId managedThreadId : Int32)
    (m : MessageData) : MessageData :=
  let eventAlreadyInserted := m.messageQueue.reverse.any (sameEvent eventType appDomainId)
  let messageQueue :=
    if eventAlreadyInserted then m.messageQueue
    else m.messageQueue ++ [⟨eventType, appDomainId, managedThreadId⟩]
  { messageQueue, hMessageEvent := true }

inductive WaitResult where
  | object0
  | timeout
deriving DecidableEq, Repr

/-- A wait on a valid handle in which nothing else happens meanwhile. -/
def waitForSingleObject (hEvent : Bool) : WaitResult :=
  if hEvent then .object0 else .timeout

/-- The branch of `raw_GetLastMessage` taken after a successful wait. -/
def takeLastMessage (m : MessageData) : Except HostFault (MessageData × HostEvent) :=
  match m.messageQueue.getLast? with
  | none => .error .emptyList
  | some hostEvent =>
      let messageQueue := m.messageQueue.dropLast
      let hMessageEvent := if messageQueue.isEmpty then false else m.hMessageEvent
      .ok ({ messageQueue, hMessageEvent }, hostEvent)

/-- `raw_GetLastMessage`; no event is `eventPresent = VARIANT_FALSE`. -/
def rawGetLastMessage (m : MessageData) :
    Except HostFault (MessageData × Option HostEvent) :=
  match waitForSingleObject m.hMessageEvent with
  | .object0 =>
      match m.takeLastMessage with
      | .ok (next, hostEvent) => .ok (next, some hostEvent)
      | .error fault => .error fault
  | .timeout => .ok (m, none)

/-- The first block of `OnDomainUnload`: drop the events of a dead domain. -/
def purgeDomain (domainId : DWORD) (m : MessageData) : MessageData :=
  { m with messageQueue :=
      m.messageQueue.filter (fun event => event.appDomainId.toUInt32 != domainId) }

end MessageData

namespace DomainData

/-- The second block of `OnDomainUnload`. -/
def eraseDomain (domainId : DWORD) (c : DomainData) : DomainData :=
  { c with appDomains := c.appDomains.remove domainId }

def onDomainCreate (dwAppDomainID dwCurrentThreadId : DWORD)
    (domainManager : Option DomainManager) (uninitialised : LONG) (c : DomainData) :
    Except HostFault DomainData :=
  let appDomains := c.appDomains.insertNew dwAppDomainID
    (AppDomainInfo.new dwCurrentThreadId domainManager uninitialised)
  let setDefault (c : DomainData) : DomainData :=
    if c.defaultDomainManager.isNone then
      { c with defaultDomainId := dwAppDomainID, defaultDomainManager := domainManager }
    else c
  match c.threadAppDomain.lookup dwCurrentThreadId with
  | some currentAppDomainId =>
      match appDomains.lookup currentAppDomainId with
      | none => .error .outOfRange
      | some _ =>
          .ok (setDefault { c with
            appDomains := appDomains.modify currentAppDomainId (fun domainInfo =>
              { domainInfo with threadsInAppDomain := domainInfo.threadsInAppDomain - 1 })
            threadAppDomain := c.threadAppDomain.set dwCurrentThreadId dwAppDomainID })
  | none =>
      .ok (setDefault { c with
        appDomains
        threadAppDomain := c.threadAppDomain.insertNew dwCurrentThreadId dwAppDomainID })

/-- The test of `OnThreadAcquiring`: the domain to report as out of tasks, if
the request is refused for that reason, and the answer. -/
def threadAcquiring (dwParentThreadId : DWORD) (c : DomainData) :
    Except HostFault (Option DWORD × Bool) :=
  match c.threadAppDomain.lookup dwParentThreadId with
  | none => .ok (none, false)
  | some appDomainId =>
      match c.appDomains.lookup appDomainId with
      | none => .error .outOfRange
      | some domainInfo =>
          if domainInfo.threadsInAppDomain ≥ maxThreadPerDomain then
            .ok (some appDomainId, false)
          else .ok (none, true)

def onThreadAcquire (dwParentThreadId dwThreadId : DWORD) (c : DomainData) :
    Except HostFault (DomainData × Bool) :=
  match c.threadAppDomain.lookup dwParentThreadId with
  | none => .ok (c, false)
  | some appDomainId =>
      match c.appDomains.lookup appDomainId with
      | none => .error .outOfRange
      | some _ =>
          .ok ({ c with
            appDomains := c.appDomains.modify appDomainId (fun domainInfo =>
              { domainInfo with threadsInAppDomain := domainInfo.threadsInAppDomain + 1 })
            threadAppDomain := c.threadAppDomain.insertNew dwThreadId appDomainId }, true)

/-- The call `defaultDomainManager->OnMainThreadExit(appDomainId, cleanExit)`. -/
structure MainThreadExit where
  appDomainId : DWORD
  cleanExit : Bool
deriving DecidableEq, Repr

def onThreadRelease (dwThreadId : DWORD) (c : DomainData) :
    Except HostFault (DomainData × Option MainThreadExit × Bool) :=
  match c.threadAppDomain.lookup dwThreadId with
  | none => .ok (c, none, false)
  | some appDomainId =>
      let threadAppDomain := c.threadAppDomain.remove dwThreadId
      match c.appDomains.lookup appDomainId with
      | none => .ok ({ c with threadAppDomain }, none, true)
      | some domainInfo =>
          let threadsInAppDomain := domainInfo.threadsInAppDomain - 1
          let appDomains := c.appDomains.modify appDomainId
            (fun domainInfo => { domainInfo with threadsInAppDomain })
          if domainInfo.mainThreadId = dwThreadId then
            match c.defaultDomainManager with
            | none => .error .nullManager
            | some _ =>
                .ok ({ c with appDomains := appDomains.remove appDomainId, threadAppDomain },
                  some ⟨appDomainId, threadsInAppDomain == 0⟩, true)
          else .ok ({ c with appDomains, threadAppDomain }, none, true)

def onMemoryAcquiring (dwThreadId : DWORD) (bytes : LONG) (c : DomainData) : Bool :=
  match c.threadAppDomain.lookup dwThreadId with
  | none => true
  | some appDomainId =>
      if appDomainId = c.defaultDomainId then true
      else
        match c.appDomains.lookup appDomainId with
        | none => true
        | some appDomainInfo =>
            if appDomainInfo.bytesInAppDomain + bytes > maxBytesPerDomain then false
            else if appDomainInfo.allocsInAppDomain + 1 > maxAllocsPerDomain then false
            else true

def onMemoryAcquire (dwThreadId : DWORD) (bytes : LONG) (address : PVOID)
    (c : DomainData) : DomainData :=
  match c.threadAppDomain.lookup dwThreadId with
  | none => c
  | some appDomainId =>
      if appDomainId = c.defaultDomainId then c
      else
        match c.appDomains.lookup appDomainId with
        | none => c
        | some _ =>
            { c with
              appDomains := c.appDomains.modify appDomainId (fun appDomainInfo =>
                { appDomainInfo with
                  bytesInAppDomain := appDomainInfo.bytesInAppDomain + bytes
                  allocsInAppDomain := appDomainInfo.allocsInAppDomain + 1 })
              memoryAppDomain := c.memoryAppDomain.insertNew address ⟨appDomainId, bytes⟩ }

def onMemoryRelease (address : PVOID) (c : DomainData) : DomainData × LONG :=
  match c.memoryAppDomain.lookup address with
  | none => (c, 0)
  | some memoryInfo =>
      match c.appDomains.lookup memoryInfo.appDomainId with
      | none => (c, 0)
      | some _ =>
          ({ c with
            appDomains := c.appDomains.modify memoryInfo.appDomainId (fun appDomainInfo =>
              { appDomainInfo with
                bytesInAppDomain := appDomainInfo.bytesInAppDomain - memoryInfo.dwBytes
                allocsInAppDomain := appDomainInfo.allocsInAppDomain - 1 })
            memoryAppDomain := c.memoryAppDomain.remove address }, memoryInfo.dwBytes)

def isSnippetThread (dwNativeThreadId : DWORD) (c : DomainData) : Bool :=
  match c.threadAppDomain.lookup dwNativeThreadId with
  | none => false
  | some appDomainId => appDomainId != c.defaultDomainId

/-- `raw_GetThreadCount`; `none` is `S_FALSE`, which leaves `*pRetVal` alone. -/
def rawGetThreadCount (appDomainId : DWORD) (c : DomainData) : Option LONG :=
  (c.appDomains.lookup appDomainId).map AppDomainInfo.threadsInAppDomain

def rawGetMemoryUsage (appDomainId : DWORD) (c : DomainData) : Option LONG :=
  (c.appDomains.lookup appDomainId).map AppDomainInfo.bytesInAppDomain

def rawResetCountersForAppDomain (appDomainId : DWORD) (c : DomainData) : DomainData :=
  { c with appDomains := c.appDomains.modify appDomainId (fun appDomainInfo =>
      { appDomainInfo with bytesInAppDomain := 0, threadsInAppDomain := 1 }) }

end DomainData

namespace HostContext

def postHostMessage (eventType appDomainId managedThreadId : Int32)
    (s : HostContext) : HostContext :=
  { s with toMessageData :=
      s.toMessageData.postHostMessage eventType appDomainId managedThreadId }

def rawGetLastMessage (s : HostContext) :
    Except HostFault (HostContext × Option HostEvent) :=
  match s.toMessageData.rawGetLastMessage with
  | .ok (m, hostEvent) => .ok ({ s with toMessageData := m }, hostEvent)
  | .error fault => .error fault

def onDomainUnload (domainId : DWORD) (s : HostContext) : HostContext :=
  { s with
    toMessageData := s.toMessageData.purgeDomain domainId
    toDomainData := s.toDomainData.eraseDomain domainId }

def onDomainRudeUnload (s : HostContext) : HostContext :=
  { s with numZombieDomains := s.numZombieDomains + 1 }

def onThreadAcquiring (dwParentThreadId : DWORD) (s : HostContext) :
    Except HostFault (HostContext × Bool) :=
  match s.toDomainData.threadAcquiring dwParentThreadId with
  | .error fault => .error fault
  | .ok (some appDomainId, answer) =>
      .ok (s.postHostMessage HostEventType.outOfTasks appDomainId.toInt32 0, answer)
  | .ok (none, answer) => .ok (s, answer)

end HostContext

/-- The calls that reach a `HostContext` and change it. -/
inductive HostOp where
  | postHostMessage (eventType appDomainId managedThreadId : Int32)
  | rawGetLastMessage
  | onDomainUnload (domainId : DWORD)
  | onDomainRudeUnload
  | onDomainCreate (dwAppDomainID dwCurrentThreadId : DWORD)
      (domainManager : Option DomainManager) (uninitialised : LONG)
  | onThreadAcquiring (dwParentThreadId : DWORD)
  | onThreadAcquire (dwParentThreadId dwThreadId : DWORD)
  | onThreadRelease (dwThreadId : DWORD)
  | onMemoryAcquire (dwThreadId : DWORD) (bytes : LONG) (address : PVOID)
  | onMemoryRelease (address : PVOID)
  | rawResetCountersForAppDomain (appDomainId : DWORD)
deriving DecidableEq

namespace HostContext

/-- Replace the data of `domainMapCrst` by the result of an operation on it. -/
def withDomainData (s : HostContext) (result : Except HostFault DomainData) :
    Except HostFault HostContext :=
  match result with
  | .ok c => .ok { s with toDomainData := c }
  | .error fault => .error fault

/-- One call, taken as atomic. -/
def step (s : HostContext) : HostOp → Except HostFault HostContext
  | .postHostMessage eventType appDomainId managedThreadId =>
      .ok (s.postHostMessage eventType appDomainId managedThreadId)
  | .rawGetLastMessage => s.rawGetLastMessage.map Prod.fst
  | .onDomainUnload domainId => .ok (s.onDomainUnload domainId)
  | .onDomainRudeUnload => .ok s.onDomainRudeUnload
  | .onDomainCreate dwAppDomainID dwCurrentThreadId domainManager uninitialised =>
      s.withDomainData (s.toDomainData.onDomainCreate dwAppDomainID dwCurrentThreadId
        domainManager uninitialised)
  | .onThreadAcquiring dwParentThreadId =>
      (s.onThreadAcquiring dwParentThreadId).map Prod.fst
  | .onThreadAcquire dwParentThreadId dwThreadId =>
      s.withDomainData
        ((s.toDomainData.onThreadAcquire dwParentThreadId dwThreadId).map Prod.fst)
  | .onThreadRelease dwThreadId =>
      s.withDomainData ((s.toDomainData.onThreadRelease dwThreadId).map Prod.fst)
  | .onMemoryAcquire dwThreadId bytes address =>
      .ok { s with toDomainData := s.toDomainData.onMemoryAcquire dwThreadId bytes address }
  | .onMemoryRelease address =>
      .ok { s with toDomainData := (s.toDomainData.onMemoryRelease address).1 }
  | .rawResetCountersForAppDomain appDomainId =>
      .ok { s with toDomainData := s.toDomainData.rawResetCountersForAppDomain appDomainId }

end HostContext

end HostedPumpkin
