import HostedPumpkin.Threading.PriorityContainment

/-!
`CreateTask` when `CreateThread` creates nothing. The handle is not tested, so
the call returns `S_OK` with a task for a thread that does not exist: the thread
is counted for its parent's domain and its id, whatever `dwThreadId` held, is
entered in the maps.
-/

namespace HostedPumpkin

open Runs

abbrev HRESULT := Int32

def HRESULT.sOk : HRESULT := 0

/-- `FAILED(hr)`. -/
def HRESULT.failed (hr : HRESULT) : Bool := hr < 0

namespace SHTaskManager

/-- What `CreateTask` returns. The only failure it knows is `new` returning
null, which `new` never does. -/
def createTaskResult (dwParentThreadId : DWORD) (hThread : Option HANDLE)
    (dwThreadId : DWORD) (m : SHTaskManager) : Except HostFault (SHTaskManager × HRESULT) :=
  match m.createTask dwParentThreadId hThread dwThreadId with
  | .error fault => .error fault
  | .ok (next, _) => .ok (next, HRESULT.sOk)

/-- The call gets as far as `CreateThread`, and that yields a handle. -/
def CreatesThread (m : SHTaskManager) (parent : DWORD) (hThread : Option HANDLE) : Prop :=
  (∃ host answer, m.hostContext.onThreadAcquiring parent = .ok (host, answer)) ∧
    hThread ≠ none

/-- Counters, threads and tasks are as they were. -/
structure SameTasks (m next : SHTaskManager) : Prop where
  counts : ∀ domain,
    next.domainData.rawGetThreadCount domain = m.domainData.rawGetThreadCount domain
  threads : next.domainData.threadAppDomain = m.domainData.threadAppDomain
  tasks : next.nativeThreadMap = m.nativeThreadMap

/-- If no thread is created, the call returns a failure and changes nothing. -/
def AtomicOnFailure (m : SHTaskManager) (parent : DWORD) (hThread : Option HANDLE)
    (thread : DWORD) : Prop :=
  ¬ m.CreatesThread parent hThread →
    ∃ next hr, m.createTaskResult parent hThread thread = .ok (next, hr) ∧
      HRESULT.failed hr = true ∧ m.SameTasks next

theorem createTaskResult_ok {m next : SHTaskManager} {parent thread : DWORD}
    {hThread : Option HANDLE} {hr : HRESULT}
    (h : m.createTaskResult parent hThread thread = .ok (next, hr)) :
    hr = HRESULT.sOk ∧ m.createTask parent hThread thread = .ok (next, ⟨thread, hThread⟩) := by
  simp only [createTaskResult] at h
  split at h
  next => cases h
  next created task hcall =>
    cases h
    obtain ⟨rfl, -⟩ := createTask_ok hcall
    exact ⟨rfl, hcall⟩

theorem createTask_nativeThreadMap {m next : SHTaskManager} {parent thread : DWORD}
    {hThread : Option HANDLE} {task : SHTask}
    (h : m.createTask parent hThread thread = .ok (next, task)) :
    next.nativeThreadMap = m.nativeThreadMap.insertNew thread ⟨thread, hThread⟩ ∧
      next.managedThreadMap = m.managedThreadMap := by
  simp only [createTask] at h
  split at h
  next => cases h
  next =>
    split at h
    next => cases h
    next =>
      cases h
      exact ⟨rfl, rfl⟩

theorem onThreadAcquiring_returns_iff {m : SHTaskManager} {parent : DWORD} :
    (∃ host answer, m.hostContext.onThreadAcquiring parent = .ok (host, answer)) ↔
      ¬ m.domainData.Dangling parent := by
  constructor
  · rintro ⟨host, answer, hcall⟩ ⟨domain, hparent, hdomain⟩
    simp [HostContext.onThreadAcquiring, DomainData.threadAcquiring, hparent, hdomain] at hcall
  · intro hlives
    cases hcall : m.hostContext.onThreadAcquiring parent with
    | ok result => exact ⟨result.1, result.2, rfl⟩
    | error fault => exact absurd (HostContext.onThreadAcquiring_error hcall).2 hlives

/-- `CreateTask` is atomic on failure only where there is no failure. -/
theorem create_task_atomic_iff (m : SHTaskManager) (parent : DWORD)
    (hThread : Option HANDLE) (thread : DWORD) :
    m.AtomicOnFailure parent hThread thread ↔
      ¬ m.domainData.Dangling parent ∧ hThread ≠ none := by
  rw [← onThreadAcquiring_returns_iff]
  constructor
  · intro hatomic
    by_contra hnone
    obtain ⟨next, hr, hcall, hfailed, -⟩ := hatomic hnone
    obtain ⟨rfl, -⟩ := createTaskResult_ok hcall
    cases hfailed
  · intro hcreated hnone
    exact absurd hcreated hnone

/-- Domain 2 with its main thread 20. -/
def snippetDomain : List TaskAction :=
  [.onDomainCreate 1 10 (some 0) 0, .onDomainCreate 2 20 (some 1) 0]

/-- `CreateThread` fails for thread 20 and leaves 4000 in `dwThreadId`: the
phantom is counted, and the call reports success. -/
theorem create_task_not_atomic :
    ∃ m, run step initial snippetDomain = .ok m ∧
      m.domainData.rawGetThreadCount 2 = some 1 ∧
      (∃ next, m.createTaskResult 20 none 4000 = .ok (next, HRESULT.sOk) ∧
        next.domainData.rawGetThreadCount 2 = some 2) ∧
      ¬ m.AtomicOnFailure 20 none 4000 := by
  have hrun : Reaches step (fun m => m.domainData.rawGetThreadCount 2 = some 1 ∧
      ∃ result ∈ (m.createTaskResult 20 none 4000).toOption, result.2 = HRESULT.sOk ∧
        result.1.domainData.rawGetThreadCount 2 = some 2) initial snippetDomain := by decide
  obtain ⟨m, hrun, hbefore, ⟨next, hr⟩, hcall, rfl, hcount⟩ := reaches_iff.mp hrun
  have hok : m.createTaskResult 20 none 4000 = .ok (next, HRESULT.sOk) := by
    cases hresult : m.createTaskResult 20 none 4000 with
    | error fault => simp [hresult, Except.toOption] at hcall
    | ok result =>
        simp only [hresult, Except.toOption, Option.mem_some_iff] at hcall
        rw [hcall]
  refine ⟨m, hrun, hbefore, ⟨next, hok, hcount⟩, ?_⟩
  intro hatomic
  obtain ⟨after, answer, hafter, hfailed, -⟩ := hatomic (fun hcreated => hcreated.2 rfl)
  rw [hok] at hafter
  cases hafter
  cases hfailed

/-- What a call whose `CreateThread` failed leaves as it was: everything only if
the host does not know the parent and the phantom's id is that of a known task. -/
theorem failed_create_sameTasks_iff {m next : SHTaskManager} {parent thread : DWORD}
    {hr : HRESULT} (h : m.createTaskResult parent none thread = .ok (next, hr)) :
    m.SameTasks next ↔ m.domainData.threadAppDomain.lookup parent = none ∧
      m.nativeThreadMap.lookup thread ≠ none := by
  obtain ⟨-, hcall⟩ := createTaskResult_ok h
  obtain ⟨hnative, -⟩ := createTask_nativeThreadMap hcall
  obtain ⟨-, answer, hacquire⟩ := createTask_ok hcall
  constructor
  · intro hsame
    refine ⟨?_, ?_⟩
    · rcases DomainData.onThreadAcquire_ok hacquire with
        ⟨hparent, -, -⟩ | ⟨domain, info, -, hinfo, -, hnext⟩
      · exact hparent
      · have hcount := hsame.counts domain
        simp [hnext, DomainData.rawGetThreadCount, StdMap.lookup_modify, hinfo] at hcount
    · intro hnone
      have hadded : next.nativeThreadMap.lookup thread = some ⟨thread, none⟩ := by
        rw [hnative, StdMap.lookup_insertNew_of_none hnone, if_pos rfl]
      rw [hsame.tasks, hnone] at hadded
      cases hadded
  · rintro ⟨hparent, hknown⟩
    obtain ⟨-, hdata, -⟩ | ⟨domain, info, hdomain, -⟩ :=
      DomainData.onThreadAcquire_ok hacquire
    · refine ⟨fun domain => by rw [hdata], by rw [hdata], ?_⟩
      rw [hnative]
      exact if_pos (by rwa [← Finmap.lookup_isSome, Option.isSome_iff_ne_none])
    · rw [hparent] at hdomain
      cases hdomain

end SHTaskManager

end HostedPumpkin
