import HostedPumpkin.Host.MemoryRecords

/-!
`SHTaskManager` and `SHTask`: the tasks the host makes for the threads of the
CLR. The manager keeps the tasks by native thread id and tells the host which
threads come and go; the host keeps the domain each of them belongs to. What
`CreateThread` returns is a parameter of the step, a null handle included: in
that case `dwThreadId` is whatever its memory held.
-/

namespace HostedPumpkin

/-- The identity of an `ICLRTask` object. -/
abbrev CLRTask := Nat

structure SHTask where
  nativeId : DWORD
  hThread : Option HANDLE
deriving DecidableEq

structure SHTaskManager where
  hostContext : HostContext
  nativeThreadMap : StdMap DWORD SHTask
  managedThreadMap : StdMap DWORD CLRTask
deriving DecidableEq

/-- `THREAD_PRIORITY_NORMAL`. -/
def threadPriorityNormal : Int := 0

/-- How `SetPriority` ends: the request is dropped, or `SetThreadPriority` is
called with these arguments and decides the result. -/
inductive PriorityRequest where
  | ignored
  | setThreadPriority (hThread : Option HANDLE) (newPriority : Int)
deriving DecidableEq

namespace SHTaskManager

def initial : SHTaskManager := ⟨HostContext.initial, ∅, ∅⟩

/-- `GetCurrentTask`; `hThread` is the handle that `DuplicateHandle` yields. -/
def getCurrentTask (currentThreadId : DWORD) (hThread : HANDLE) (m : SHTaskManager) :
    SHTaskManager × SHTask :=
  match m.nativeThreadMap.lookup currentThreadId with
  | none =>
      let pTask : SHTask := ⟨currentThreadId, some hThread⟩
      ({ m with nativeThreadMap := m.nativeThreadMap.insertNew currentThreadId pTask }, pTask)
  | some pTask => (m, pTask)

def createTask (dwParentThreadId : DWORD) (hThread : Option HANDLE) (dwThreadId : DWORD)
    (m : SHTaskManager) : Except HostFault (SHTaskManager × SHTask) :=
  match m.hostContext.onThreadAcquiring dwParentThreadId with
  | .error fault => .error fault
  | .ok (hostContext, _) =>
      -- neither the answer of the host nor the handle is tested
      let task : SHTask := ⟨dwThreadId, hThread⟩
      match hostContext.toDomainData.onThreadAcquire dwParentThreadId dwThreadId with
      | .error fault => .error fault
      | .ok (c, _) =>
          .ok ({ m with
            hostContext := { hostContext with toDomainData := c }
            nativeThreadMap := m.nativeThreadMap.insertNew dwThreadId task }, task)

def addManagedTask (managedTask : CLRTask) (nativeThreadId : DWORD) (m : SHTaskManager) :
    SHTaskManager :=
  { m with managedThreadMap := m.managedThreadMap.insertNew nativeThreadId managedTask }

def removeTask (nativeThreadId : DWORD) (m : SHTaskManager) :
    Except HostFault SHTaskManager :=
  match m.hostContext.toDomainData.onThreadRelease nativeThreadId with
  | .error fault => .error fault
  | .ok (c, _) =>
      .ok {
        hostContext := { m.hostContext with toDomainData := c }
        nativeThreadMap := m.nativeThreadMap.remove nativeThreadId
        managedThreadMap := m.managedThreadMap.remove nativeThreadId }

def isSnippetThread (nativeThreadId : DWORD) (m : SHTaskManager) : Bool :=
  m.hostContext.toDomainData.isSnippetThread nativeThreadId

end SHTaskManager

namespace SHTask

def setPriority (newPriority : Int) (m : SHTaskManager) (task : SHTask) : PriorityRequest :=
  if newPriority > threadPriorityNormal ∧ m.isSnippetThread task.nativeId then .ignored
  else .setThreadPriority task.hThread newPriority

def setCLRTask (pCLRTask : CLRTask) (m : SHTaskManager) (task : SHTask) : SHTaskManager :=
  m.addManagedTask pCLRTask task.nativeId

theorem setPriority_eq_ignored {newPriority : Int} {m : SHTaskManager} {task : SHTask} :
    task.setPriority newPriority m = .ignored ↔
      newPriority > threadPriorityNormal ∧ m.isSnippetThread task.nativeId := by
  simp only [setPriority]
  split
  next h => simp [h]
  next h => simp [h]

end SHTask

/-- The calls that change the tasks, and the calls of the runtime by which
domains come and go. -/
inductive TaskAction where
  | getCurrentTask (currentThreadId : DWORD) (hThread : HANDLE)
  | createTask (dwParentThreadId : DWORD) (hThread : Option HANDLE) (dwThreadId : DWORD)
  | setCLRTask (task : SHTask) (pCLRTask : CLRTask)
  | removeTask (nativeThreadId : DWORD)
  | onDomainCreate (dwAppDomainID dwCurrentThreadId : DWORD)
      (domainManager : Option DomainManager) (uninitialised : LONG)
  | onDomainUnload (domainId : DWORD)
deriving DecidableEq

namespace SHTaskManager

def step (m : SHTaskManager) : TaskAction → Except HostFault SHTaskManager
  | .getCurrentTask currentThreadId hThread =>
      .ok (m.getCurrentTask currentThreadId hThread).1
  | .createTask dwParentThreadId hThread dwThreadId =>
      (m.createTask dwParentThreadId hThread dwThreadId).map Prod.fst
  | .setCLRTask task pCLRTask => .ok (task.setCLRTask pCLRTask m)
  | .removeTask nativeThreadId => m.removeTask nativeThreadId
  | .onDomainCreate dwAppDomainID dwCurrentThreadId domainManager uninitialised =>
      match m.hostContext.toDomainData.onDomainCreate dwAppDomainID dwCurrentThreadId
          domainManager uninitialised with
      | .error fault => .error fault
      | .ok c => .ok { m with hostContext := { m.hostContext with toDomainData := c } }
  | .onDomainUnload domainId =>
      .ok { m with hostContext := m.hostContext.onDomainUnload domainId }

/-- What the host knows of threads and domains. -/
abbrev domainData (m : SHTaskManager) : DomainData := m.hostContext.toDomainData

theorem getCurrentTask_domainData (currentThreadId : DWORD) (hThread : HANDLE)
    (m : SHTaskManager) :
    (m.getCurrentTask currentThreadId hThread).1.domainData = m.domainData := by
  simp only [getCurrentTask]
  split <;> rfl

/-- The host hears of a new thread through `OnThreadAcquire` only. -/
theorem createTask_ok {m next : SHTaskManager} {parent thread : DWORD}
    {hThread : Option HANDLE} {task : SHTask}
    (h : m.createTask parent hThread thread = .ok (next, task)) :
    task = ⟨thread, hThread⟩ ∧
      ∃ answer, m.domainData.onThreadAcquire parent thread = .ok (next.domainData, answer) := by
  simp only [createTask] at h
  split at h
  next => cases h
  next host answer hasked =>
    have hsame : host.toDomainData = m.domainData := by
      obtain rfl | ⟨domain, -, rfl⟩ := HostContext.onThreadAcquiring_ok hasked <;> rfl
    split at h
    next => cases h
    next c answer' hacquire =>
      cases h
      rw [hsame] at hacquire
      exact ⟨rfl, answer', hacquire⟩

/-- A parent whose domain is gone makes both calls throw; otherwise a task is
created. -/
theorem createTask_of_acquire {m : SHTaskManager} {parent thread : DWORD} {c : DomainData}
    {answer : Bool} (h : m.domainData.onThreadAcquire parent thread = .ok (c, answer))
    (hThread : Option HANDLE) :
    ∃ next, m.createTask parent hThread thread = .ok (next, ⟨thread, hThread⟩) ∧
      next.domainData = c := by
  have hasked : ∃ host asked, m.hostContext.onThreadAcquiring parent = .ok (host, asked) := by
    cases hcall : m.hostContext.onThreadAcquiring parent with
    | ok pair => exact ⟨pair.1, pair.2, rfl⟩
    | error fault =>
        obtain ⟨-, domain, hparent, hdomain⟩ := HostContext.onThreadAcquiring_error hcall
        simp [DomainData.onThreadAcquire, hparent, hdomain] at h
  obtain ⟨host, asked, hasked⟩ := hasked
  have hsame : host.toDomainData = m.domainData := by
    obtain rfl | ⟨domain, -, rfl⟩ := HostContext.onThreadAcquiring_ok hasked <;> rfl
  simp [createTask, hasked, hsame, h]

theorem step_createTask {m next : SHTaskManager} {parent thread : DWORD}
    {hThread : Option HANDLE} {task : SHTask}
    (h : m.createTask parent hThread thread = .ok (next, task)) :
    m.step (.createTask parent hThread thread) = .ok next := by
  simp only [step, h]
  rfl

theorem removeTask_ok {m next : SHTaskManager} {thread : DWORD}
    (h : m.removeTask thread = .ok next) :
    ∃ exit answer,
      m.domainData.onThreadRelease thread = .ok (next.domainData, exit, answer) := by
  simp only [removeTask] at h
  split at h
  next => cases h
  next c result hrelease =>
    cases h
    exact ⟨result.1, result.2, hrelease⟩

theorem onDomainCreate_ok_iff {m next : SHTaskManager} {domain thread : DWORD}
    {manager : Option DomainManager} {uninitialised : LONG} :
    m.step (.onDomainCreate domain thread manager uninitialised) = .ok next ↔
      ∃ c, m.domainData.onDomainCreate domain thread manager uninitialised = .ok c ∧
        next = { m with hostContext := { m.hostContext with toDomainData := c } } := by
  simp only [step]
  split
  next fault hcall => simp [hcall]
  next c hcall => simp [hcall, eq_comm]

end SHTaskManager

end HostedPumpkin
