import HostedPumpkin.Library.Runs
import HostedPumpkin.Threading.TaskManager

/-!
The references the host takes on the `ICLRTask` objects of the CLR. `SetCLRTask`
stores its argument in two places, the record of the thread and the task itself,
and takes one reference for both. The record is released when the thread ends or
its task is deleted, the pointer in the task when the task is deleted.

The calls made on the `ICLRTask` objects are kept in order. Two lists that no
code keeps say which calls of `SetCLRTask` entered a new record and which of them
wrote over a pointer.
-/

namespace HostedPumpkin

open Runs

/-- `INVALID_THREAD_ID`. -/
def invalidThreadId : DWORD := 0

inductive ReferenceCall where
  | addRef (task : CLRTask)
  | release (task : CLRTask)
deriving DecidableEq

/-- An `SHTask` with the pointer `SetCLRTask` leaves in it. -/
structure SHTaskObject extends SHTask where
  m_pCLRTask : Option CLRTask
deriving DecidableEq

/-- Where an `SHTask` was allocated. -/
abbrev SHTaskAddress := Nat

/-- The task manager and the tasks that were not deleted yet. -/
structure CLRTaskHost where
  taskManager : SHTaskManager
  tasks : StdMap SHTaskAddress SHTaskObject
  calls : List ReferenceCall
  newRecords : List CLRTask
  overwritten : List CLRTask
deriving DecidableEq

inductive CLRTaskFault where
  | disabled
  | host (fault : HostFault)
deriving DecidableEq, Repr

/-- The calls that concern a task, and `setHostContext` for everything the host
learns of threads and domains in between. -/
inductive CLRTaskAction where
  | getCurrentTask (pTask : SHTaskAddress) (currentThreadId : DWORD) (hThread : HANDLE)
  | createTask (pTask : SHTaskAddress) (dwParentThreadId : DWORD) (hThread : Option HANDLE)
      (dwThreadId : DWORD)
  | setCLRTask (pTask : SHTaskAddress) (pCLRTask : CLRTask)
  | removeTask (nativeThreadId : DWORD)
  | deleteTask (pTask : SHTaskAddress)
  | setHostContext (hostContext : HostContext)
deriving DecidableEq

/-- The action is a call of `SetCLRTask`. -/
def CLRTaskAction.isSetCLRTask : CLRTaskAction → Bool
  | .setCLRTask _ _ => true
  | _ => false

namespace CLRTaskHost

def initial : CLRTaskHost := ⟨SHTaskManager.initial, ∅, [], [], []⟩

/-- `new SHTask` at an address where no task is. -/
def newTask (pTask : SHTaskAddress) (task : SHTask) (h : CLRTaskHost) : CLRTaskHost :=
  { h with tasks := h.tasks.insertNew pTask ⟨task, none⟩ }

/-- `GetCurrentTask` makes a task if the thread has none. -/
def getCurrentTask (pTask : SHTaskAddress) (currentThreadId : DWORD) (hThread : HANDLE)
    (h : CLRTaskHost) : CLRTaskHost :=
  let found := h.taskManager.nativeThreadMap.lookup currentThreadId
  let (taskManager, task) := h.taskManager.getCurrentTask currentThreadId hThread
  match found with
  | none => { h with taskManager }.newTask pTask task
  | some _ => { h with taskManager }

def createTask (pTask : SHTaskAddress) (dwParentThreadId : DWORD) (hThread : Option HANDLE)
    (dwThreadId : DWORD) (h : CLRTaskHost) : Except CLRTaskFault CLRTaskHost :=
  match h.taskManager.createTask dwParentThreadId hThread dwThreadId with
  | .error fault => .error (.host fault)
  | .ok (taskManager, task) => .ok ({ h with taskManager }.newTask pTask task)

/-- `managedTask->AddRef()`, and an `insert` that leaves an older record alone. -/
def addManagedTask (managedTask : CLRTask) (nativeThreadId : DWORD) (h : CLRTaskHost) :
    CLRTaskHost :=
  { h with
    taskManager := h.taskManager.addManagedTask managedTask nativeThreadId
    calls := h.calls ++ [.addRef managedTask]
    newRecords :=
      match h.taskManager.managedThreadMap.lookup nativeThreadId with
      | none => h.newRecords ++ [managedTask]
      | some _ => h.newRecords }

/-- The pointer is overwritten without a `Release` and stored without an `AddRef`. -/
def setCLRTask (pTask : SHTaskAddress) (task : SHTaskObject) (pCLRTask : CLRTask)
    (h : CLRTaskHost) : CLRTaskHost :=
  let h := h.addManagedTask pCLRTask task.nativeId
  { h with
    tasks := h.tasks.set pTask { task with m_pCLRTask := some pCLRTask }
    overwritten := h.overwritten ++ task.m_pCLRTask.toList }

/-- `RemoveTask` releases what the record of the thread holds. -/
def removeTask (nativeThreadId : DWORD) (h : CLRTaskHost) : Except CLRTaskFault CLRTaskHost :=
  let managedTask := h.taskManager.managedThreadMap.lookup nativeThreadId
  match h.taskManager.removeTask nativeThreadId with
  | .error fault => .error (.host fault)
  | .ok taskManager =>
      .ok { h with
        taskManager
        calls := h.calls ++ (managedTask.map ReferenceCall.release).toList }

/-- The end of `~SHTask`: the task is gone and so is its pointer. -/
def releaseCLRTask (pTask : SHTaskAddress) (task : SHTaskObject) (h : CLRTaskHost) :
    CLRTaskHost :=
  { h with
    tasks := h.tasks.remove pTask
    calls := h.calls ++ (task.m_pCLRTask.map ReferenceCall.release).toList }

/-- `~SHTask`. -/
def deleteTask (pTask : SHTaskAddress) (task : SHTaskObject) (h : CLRTaskHost) :
    Except CLRTaskFault CLRTaskHost :=
  if task.nativeId ≠ invalidThreadId then
    match h.removeTask task.nativeId with
    | .error fault => .error fault
    | .ok h => .ok (h.releaseCLRTask pTask task)
  else .ok (h.releaseCLRTask pTask task)

/-- A new task has an address of its own, and a deleted task is used no more. -/
def step (h : CLRTaskHost) : CLRTaskAction → Except CLRTaskFault CLRTaskHost
  | .getCurrentTask pTask currentThreadId hThread =>
      if pTask ∈ h.tasks then .error .disabled
      else .ok (h.getCurrentTask pTask currentThreadId hThread)
  | .createTask pTask dwParentThreadId hThread dwThreadId =>
      if pTask ∈ h.tasks then .error .disabled
      else h.createTask pTask dwParentThreadId hThread dwThreadId
  | .setCLRTask pTask pCLRTask =>
      match h.tasks.lookup pTask with
      | none => .error .disabled
      | some task => .ok (h.setCLRTask pTask task pCLRTask)
  | .removeTask nativeThreadId => h.removeTask nativeThreadId
  | .deleteTask pTask =>
      match h.tasks.lookup pTask with
      | none => .error .disabled
      | some task => h.deleteTask pTask task
  | .setHostContext hostContext =>
      .ok { h with taskManager := { h.taskManager with hostContext } }

def addRefs (h : CLRTaskHost) (clr : CLRTask) : Nat := h.calls.count (.addRef clr)

def releases (h : CLRTaskHost) (clr : CLRTask) : Nat := h.calls.count (.release clr)

/-- The thread records that hold an `ICLRTask`. -/
def records (h : CLRTaskHost) (clr : CLRTask) : ℤ :=
  h.taskManager.managedThreadMap.total (fun managedTask => if managedTask = clr then 1 else 0)

/-- The tasks that hold an `ICLRTask`. -/
def pointers (h : CLRTaskHost) (clr : CLRTask) : ℤ :=
  h.tasks.total (fun task => if task.m_pCLRTask = some clr then 1 else 0)

/-- Neither a thread record nor a task holds the `ICLRTask` any more. -/
def Gone (h : CLRTaskHost) (clr : CLRTask) : Prop :=
  (∀ nativeThreadId, h.taskManager.managedThreadMap.lookup nativeThreadId ≠ some clr) ∧
    ∀ pTask task, h.tasks.lookup pTask = some task → task.m_pCLRTask ≠ some clr

/-- No `ICLRTask` is released more often than it was referenced, and what is held
nowhere any more was released as often. -/
structure Balanced (h : CLRTaskHost) : Prop where
  bound : ∀ clr, h.releases clr ≤ h.addRefs clr
  gone : ∀ clr, h.Gone clr → h.releases clr = h.addRefs clr

/-- The records that were entered for an `ICLRTask` against the times its pointer in
a task was written over. -/
structure Matched (h : CLRTaskHost) : Prop where
  bound : ∀ clr, (h.newRecords.count clr : ℤ) ≤
    h.overwritten.count clr + (h.records clr + h.pointers clr)
  gone : ∀ clr, h.Gone clr → h.newRecords.count clr = h.overwritten.count clr

/-- As many calls of `SetCLRTask` wrote over an `ICLRTask` as entered a record for it. -/
def SetEvenly (h : CLRTaskHost) : Prop :=
  ∀ clr, h.newRecords.count clr = h.overwritten.count clr

/-- Where the references went: every new record and every overwritten pointer
leaves the two sides of the account one apart. -/
def Accounts (h : CLRTaskHost) : Prop :=
  ∀ clr, (h.addRefs clr : ℤ) + h.newRecords.count clr =
    h.releases clr + (h.records clr + h.pointers clr) + h.overwritten.count clr

theorem holders_eq_zero {h : CLRTaskHost} {clr : CLRTask} (hgone : h.Gone clr) :
    h.records clr + h.pointers clr = 0 := by
  have hrecords : h.records clr = 0 := by
    apply StdMap.total_eq_zero
    intro nativeThreadId managedTask hlookup
    apply if_neg
    rintro rfl
    exact hgone.1 nativeThreadId hlookup
  have hpointers : h.pointers clr = 0 := by
    apply StdMap.total_eq_zero
    intro pTask task hlookup
    exact if_neg (hgone.2 pTask task hlookup)
  omega

/-- With the account in order, the two conditions are the same. -/
theorem Accounts.balanced_iff {h : CLRTaskHost} (haccounts : h.Accounts) :
    h.Balanced ↔ h.Matched := by
  have hbound : ∀ clr, h.releases clr ≤ h.addRefs clr ↔ (h.newRecords.count clr : ℤ) ≤
      h.overwritten.count clr + (h.records clr + h.pointers clr) := by
    intro clr
    have haccount := haccounts clr
    omega
  have hgone : ∀ clr, h.Gone clr →
      (h.releases clr = h.addRefs clr ↔ h.newRecords.count clr = h.overwritten.count clr) := by
    intro clr hclr
    have haccount := haccounts clr
    have hholders := holders_eq_zero hclr
    omega
  constructor
  · intro hbalanced
    exact ⟨fun clr => (hbound clr).mp (hbalanced.bound clr),
      fun clr hclr => (hgone clr hclr).mp (hbalanced.gone clr hclr)⟩
  · intro hmatched
    exact ⟨fun clr => (hbound clr).mpr (hmatched.bound clr),
      fun clr hclr => (hgone clr hclr).mpr (hmatched.gone clr hclr)⟩

/-- What of the host the account is about. -/
theorem Accounts.congr {h next : CLRTaskHost} (haccounts : h.Accounts)
    (hmap : next.taskManager.managedThreadMap = h.taskManager.managedThreadMap)
    (htasks : ∀ clr, next.pointers clr = h.pointers clr) (hcalls : next.calls = h.calls)
    (hnew : next.newRecords = h.newRecords) (hover : next.overwritten = h.overwritten) :
    next.Accounts := by
  intro clr
  have haccount := haccounts clr
  simp only [addRefs, releases, records, hmap, htasks, hcalls, hnew, hover] at haccount ⊢
  exact haccount

/-- A new task holds no pointer. -/
theorem pointers_newTask {h : CLRTaskHost} {pTask : SHTaskAddress} (hfree : pTask ∉ h.tasks)
    (task : SHTask) (clr : CLRTask) : (h.newTask pTask task).pointers clr = h.pointers clr := by
  have hnone : h.tasks.lookup pTask = none := Finmap.lookup_eq_none.mpr hfree
  rw [pointers, newTask, StdMap.total_insertNew_of_none hnone]
  simp [pointers]

theorem getCurrentTask_accounts {h : CLRTaskHost} {pTask : SHTaskAddress}
    (haccounts : h.Accounts) (hfree : pTask ∉ h.tasks) (currentThreadId : DWORD)
    (hThread : HANDLE) : (h.getCurrentTask pTask currentThreadId hThread).Accounts := by
  have hmap : (h.taskManager.getCurrentTask currentThreadId hThread).1.managedThreadMap =
      h.taskManager.managedThreadMap := by
    simp only [SHTaskManager.getCurrentTask]
    split <;> rfl
  simp only [getCurrentTask]
  split
  next =>
    refine haccounts.congr hmap ?_ rfl rfl rfl
    intro clr
    exact pointers_newTask hfree _ clr
  next => exact haccounts.congr hmap (fun clr => rfl) rfl rfl rfl

theorem createTask_accounts {h next : CLRTaskHost} {pTask : SHTaskAddress}
    {dwParentThreadId dwThreadId : DWORD} {hThread : Option HANDLE} (haccounts : h.Accounts)
    (hfree : pTask ∉ h.tasks)
    (hcreate : h.createTask pTask dwParentThreadId hThread dwThreadId = .ok next) :
    next.Accounts := by
  simp only [createTask] at hcreate
  split at hcreate
  next => cases hcreate
  next taskManager task hmanager =>
    cases hcreate
    have hmap : taskManager.managedThreadMap = h.taskManager.managedThreadMap := by
      simp only [SHTaskManager.createTask] at hmanager
      split at hmanager
      next => cases hmanager
      next =>
        split at hmanager
        next => cases hmanager
        next =>
          cases hmanager
          rfl
    refine haccounts.congr hmap ?_ rfl rfl rfl
    intro clr
    exact pointers_newTask hfree task clr

theorem count_release (held : Option CLRTask) (clr : CLRTask) :
    (held.map ReferenceCall.release).toList.count (.release clr) =
      if held = some clr then 1 else 0 := by
  cases held with
  | none => rfl
  | some task => simp [List.count_singleton]

theorem count_addRef_release (held : Option CLRTask) (clr : CLRTask) :
    (held.map ReferenceCall.release).toList.count (.addRef clr) = 0 := by
  cases held with
  | none => rfl
  | some task => simp

theorem count_toList (held : Option CLRTask) (clr : CLRTask) :
    held.toList.count clr = if held = some clr then 1 else 0 := by
  cases held with
  | none => rfl
  | some task => simp [List.count_singleton]

/-- A record is released when it goes. -/
theorem removeTask_accounts {h next : CLRTaskHost} {nativeThreadId : DWORD}
    (haccounts : h.Accounts) (hremove : h.removeTask nativeThreadId = .ok next) :
    next.Accounts := by
  simp only [removeTask] at hremove
  split at hremove
  next => cases hremove
  next taskManager hmanager =>
    cases hremove
    have hmap : taskManager.managedThreadMap =
        h.taskManager.managedThreadMap.remove nativeThreadId := by
      simp only [SHTaskManager.removeTask] at hmanager
      split at hmanager
      next => cases hmanager
      next =>
        cases hmanager
        rfl
    intro clr
    have haccount := haccounts clr
    have hweight : h.taskManager.managedThreadMap.weightAt
        (fun managedTask => if managedTask = clr then (1 : ℤ) else 0) nativeThreadId =
          if h.taskManager.managedThreadMap.lookup nativeThreadId = some clr then 1 else 0 := by
      rw [StdMap.weightAt]
      cases h.taskManager.managedThreadMap.lookup nativeThreadId <;> simp
    simp only [addRefs, releases, records, pointers, hmap, StdMap.total_remove, hweight,
      List.count_append, count_release, count_addRef_release] at haccount ⊢
    split <;> push_cast <;> omega

/-- The pointer of a task is released when the task goes. -/
theorem releaseCLRTask_accounts {h : CLRTaskHost} {pTask : SHTaskAddress} {task : SHTaskObject}
    (haccounts : h.Accounts) (htask : h.tasks.lookup pTask = some task) :
    (h.releaseCLRTask pTask task).Accounts := by
  intro clr
  have haccount := haccounts clr
  have hweight : h.tasks.weightAt
      (fun task => if task.m_pCLRTask = some clr then (1 : ℤ) else 0) pTask =
        if task.m_pCLRTask = some clr then 1 else 0 := by
    rw [StdMap.weightAt, htask]
    rfl
  simp only [addRefs, releases, records, pointers, releaseCLRTask, StdMap.total_remove, hweight,
    List.count_append, count_release, count_addRef_release] at haccount ⊢
  split <;> push_cast <;> omega

theorem deleteTask_accounts {h next : CLRTaskHost} {pTask : SHTaskAddress}
    {task : SHTaskObject} (haccounts : h.Accounts) (htask : h.tasks.lookup pTask = some task)
    (hdelete : h.deleteTask pTask task = .ok next) : next.Accounts := by
  simp only [deleteTask] at hdelete
  split at hdelete
  next =>
    split at hdelete
    next => cases hdelete
    next removed hremove =>
      cases hdelete
      have htasks : removed.tasks = h.tasks := by
        simp only [removeTask] at hremove
        split at hremove
        next => cases hremove
        next =>
          cases hremove
          rfl
      apply releaseCLRTask_accounts (removeTask_accounts haccounts hremove)
      rw [htasks]
      exact htask
  next =>
    cases hdelete
    exact releaseCLRTask_accounts haccounts htask

/-- One reference is taken and two places may hold it. -/
theorem addManagedTask_accounts {h : CLRTaskHost} (haccounts : h.Accounts)
    (managedTask : CLRTask) (nativeThreadId : DWORD) (clr : CLRTask) :
    let next := h.addManagedTask managedTask nativeThreadId
    (next.addRefs clr : ℤ) + next.newRecords.count clr =
      next.releases clr + (next.records clr + next.pointers clr) + next.overwritten.count clr +
        if managedTask = clr then 1 else 0 := by
  have haccount := haccounts clr
  have hadd : [ReferenceCall.addRef managedTask].count (.addRef clr) =
      if managedTask = clr then 1 else 0 := by
    simp [List.count_singleton]
  have hrelease : [ReferenceCall.addRef managedTask].count (.release clr) = 0 := by
    simp
  cases hlookup : h.taskManager.managedThreadMap.lookup nativeThreadId with
  | none =>
      have hnew : [managedTask].count clr = if managedTask = clr then 1 else 0 := by
        simp [List.count_singleton]
      simp only [addRefs, releases, records, pointers, addManagedTask, hlookup,
        SHTaskManager.addManagedTask, StdMap.total_insertNew_of_none hlookup, List.count_append,
        hadd, hrelease, hnew] at haccount ⊢
      split <;> push_cast <;> omega
  | some older =>
      have hmem : nativeThreadId ∈ h.taskManager.managedThreadMap :=
        Finmap.mem_of_lookup_eq_some hlookup
      simp only [addRefs, releases, records, pointers, addManagedTask, hlookup,
        SHTaskManager.addManagedTask, StdMap.insertNew, if_pos hmem, List.count_append, hadd,
        hrelease] at haccount ⊢
      split <;> push_cast <;> omega

theorem setCLRTask_accounts {h : CLRTaskHost} {pTask : SHTaskAddress} {task : SHTaskObject}
    (haccounts : h.Accounts) (htask : h.tasks.lookup pTask = some task) (pCLRTask : CLRTask) :
    (h.setCLRTask pTask task pCLRTask).Accounts := by
  intro clr
  have hadded := addManagedTask_accounts haccounts pCLRTask task.nativeId clr
  have hweight : h.tasks.weightAt
      (fun task => if task.m_pCLRTask = some clr then (1 : ℤ) else 0) pTask =
        if task.m_pCLRTask = some clr then 1 else 0 := by
    rw [StdMap.weightAt, htask]
    rfl
  have htasks : (h.addManagedTask pCLRTask task.nativeId).tasks = h.tasks := rfl
  have hover : (h.addManagedTask pCLRTask task.nativeId).overwritten = h.overwritten := rfl
  simp only [addRefs, releases, records, pointers, setCLRTask, StdMap.total_set, htasks, hover,
    hweight, List.count_append, count_toList, Option.some.injEq] at hadded ⊢
  by_cases hheld : task.m_pCLRTask = some clr
  · rw [if_pos hheld, if_pos hheld]
    push_cast
    omega
  · rw [if_neg hheld, if_neg hheld]
    push_cast
    omega

theorem accounts_step {h next : CLRTaskHost} {action : CLRTaskAction} (haccounts : h.Accounts)
    (hstep : h.step action = .ok next) : next.Accounts := by
  cases action with
  | getCurrentTask pTask currentThreadId hThread =>
      simp only [step] at hstep
      split at hstep
      next => cases hstep
      next hfree =>
        cases hstep
        exact getCurrentTask_accounts haccounts hfree currentThreadId hThread
  | createTask pTask dwParentThreadId hThread dwThreadId =>
      simp only [step] at hstep
      split at hstep
      next => cases hstep
      next hfree => exact createTask_accounts haccounts hfree hstep
  | setCLRTask pTask pCLRTask =>
      simp only [step] at hstep
      split at hstep
      next => cases hstep
      next task htask =>
        cases hstep
        exact setCLRTask_accounts haccounts htask pCLRTask
  | removeTask nativeThreadId => exact removeTask_accounts haccounts hstep
  | deleteTask pTask =>
      simp only [step] at hstep
      split at hstep
      next => cases hstep
      next task htask => exact deleteTask_accounts haccounts htask hstep
  | setHostContext hostContext =>
      cases hstep
      exact haccounts.congr rfl (fun clr => rfl) rfl rfl rfl

theorem accounts_initial : initial.Accounts := by
  intro clr
  simp [addRefs, releases, records, pointers, initial, SHTaskManager.initial]

/-! ### The rest of a run without a `SetCLRTask` -/

theorem removeTask_histories {h next : CLRTaskHost} {nativeThreadId : DWORD}
    (hremove : h.removeTask nativeThreadId = .ok next) :
    next.newRecords = h.newRecords ∧ next.overwritten = h.overwritten := by
  simp only [removeTask] at hremove
  split at hremove
  next => cases hremove
  next =>
    cases hremove
    exact ⟨rfl, rfl⟩

theorem step_histories {h next : CLRTaskHost} {action : CLRTaskAction}
    (hother : action.isSetCLRTask = false) (hstep : h.step action = .ok next) :
    next.newRecords = h.newRecords ∧ next.overwritten = h.overwritten := by
  cases action with
  | setCLRTask => cases hother
  | getCurrentTask pTask currentThreadId hThread =>
      simp only [step, getCurrentTask] at hstep
      split at hstep
      next => cases hstep
      next =>
        cases hstep
        split <;> exact ⟨rfl, rfl⟩
  | createTask pTask dwParentThreadId hThread dwThreadId =>
      simp only [step, createTask] at hstep
      split at hstep
      next => cases hstep
      next =>
        split at hstep
        next => cases hstep
        next =>
          cases hstep
          exact ⟨rfl, rfl⟩
  | removeTask nativeThreadId => exact removeTask_histories hstep
  | deleteTask pTask =>
      simp only [step] at hstep
      split at hstep
      next => cases hstep
      next task htask =>
        simp only [deleteTask] at hstep
        split at hstep
        next =>
          split at hstep
          next => cases hstep
          next removed hremove =>
            cases hstep
            have hsame := removeTask_histories hremove
            exact hsame
        next =>
          cases hstep
          exact ⟨rfl, rfl⟩
  | setHostContext hostContext =>
      cases hstep
      exact ⟨rfl, rfl⟩

theorem always_histories {h : CLRTaskHost} {rest : List CLRTaskAction}
    (hothers : ∀ action ∈ rest, action.isSetCLRTask = false) :
    Always step (fun t => t.newRecords = h.newRecords ∧ t.overwritten = h.overwritten) h rest := by
  refine always_of_meets ?_ ⟨rfl, rfl⟩ (meets_of_mem hothers)
  rintro t action next ⟨hnew, hover⟩ hother hstep
  obtain ⟨hnew', hover'⟩ := step_histories hother hstep
  exact ⟨hnew'.trans hnew, hover'.trans hover⟩

/-! ### All threads end and all tasks are deleted -/

/-- The host knows nothing of threads and domains, so no thread exit concerns it. -/
def HostForgets (h : CLRTaskHost) : Prop := h.taskManager.hostContext = HostContext.initial

/-- Every record of `t` is one of `h`. -/
def FewerRecords (h t : CLRTaskHost) : Prop :=
  ∀ nativeThreadId clr, t.taskManager.managedThreadMap.lookup nativeThreadId = some clr →
    h.taskManager.managedThreadMap.lookup nativeThreadId = some clr

theorem removeTask_forgets {h : CLRTaskHost} (hhost : h.HostForgets) (nativeThreadId : DWORD) :
    ∃ next, h.removeTask nativeThreadId = .ok next ∧ next.HostForgets ∧ next.tasks = h.tasks ∧
      h.FewerRecords next ∧
      next.taskManager.managedThreadMap.lookup nativeThreadId = none := by
  have hrelease : h.taskManager.hostContext.toDomainData.onThreadRelease nativeThreadId =
      .ok (HostContext.initial.toDomainData, none, false) := by
    rw [hhost]
    rfl
  have hkept : { h.taskManager.hostContext with
      toDomainData := HostContext.initial.toDomainData } = HostContext.initial := by
    rw [hhost]
  let managedTask := h.taskManager.managedThreadMap.lookup nativeThreadId
  refine ⟨{ h with
    taskManager := ⟨HostContext.initial, h.taskManager.nativeThreadMap.remove nativeThreadId,
      h.taskManager.managedThreadMap.remove nativeThreadId⟩
    calls := h.calls ++ (managedTask.map ReferenceCall.release).toList }, ?_, rfl, rfl, ?_, ?_⟩
  · simp only [removeTask, SHTaskManager.removeTask, hrelease, hkept]
    rfl
  · intro other clr hlookup
    exact (StdMap.lookup_remove_eq_some.mp hlookup).2
  · exact Finmap.lookup_erase _ _

theorem deleteTask_forgets {h : CLRTaskHost} (hhost : h.HostForgets) (pTask : SHTaskAddress)
    (task : SHTaskObject) :
    ∃ next, h.deleteTask pTask task = .ok next ∧ next.HostForgets ∧
      next.tasks = h.tasks.remove pTask ∧ h.FewerRecords next := by
  by_cases hid : task.nativeId ≠ invalidThreadId
  · obtain ⟨removed, hremove, hforgets, htasks, hfewer, -⟩ :=
      removeTask_forgets hhost task.nativeId
    refine ⟨removed.releaseCLRTask pTask task, ?_, hforgets, ?_, hfewer⟩
    · rw [deleteTask, if_pos hid, hremove]
    · rw [← htasks]
      rfl
  · exact ⟨h.releaseCLRTask pTask task, by rw [deleteTask, if_neg hid], hhost, rfl,
      fun _ _ hlookup => hlookup⟩

theorem run_removeTasks {h : CLRTaskHost} (hhost : h.HostForgets) (threads : List DWORD) :
    ∃ t, run step h (threads.map .removeTask) = .ok t ∧ t.HostForgets ∧ t.tasks = h.tasks ∧
      h.FewerRecords t ∧
      ∀ thread ∈ threads, t.taskManager.managedThreadMap.lookup thread = none := by
  induction threads generalizing h with
  | nil => exact ⟨h, rfl, hhost, rfl, fun _ _ hlookup => hlookup, nofun⟩
  | cons thread rest ih =>
      obtain ⟨next, hremove, hforgets, htasks, hfewer, hnone⟩ := removeTask_forgets hhost thread
      obtain ⟨t, hrun, hforgets', htasks', hfewer', hrest⟩ := ih hforgets
      refine ⟨t, (run_cons_ok hremove _).trans hrun, hforgets', htasks'.trans htasks,
        fun other clr hlookup => hfewer other clr (hfewer' other clr hlookup), ?_⟩
      intro other hother
      obtain rfl | hother := List.mem_cons.mp hother
      · rw [Option.eq_none_iff_forall_ne_some]
        intro clr hlookup
        rw [hfewer' _ clr hlookup] at hnone
        cases hnone
      · exact hrest other hother

theorem run_deleteTasks {h : CLRTaskHost} (hhost : h.HostForgets) {tasks : List SHTaskAddress}
    (hdistinct : tasks.Nodup) (hthere : ∀ pTask ∈ tasks, pTask ∈ h.tasks) :
    ∃ t, run step h (tasks.map .deleteTask) = .ok t ∧ h.FewerRecords t ∧
      ∀ pTask task, t.tasks.lookup pTask = some task →
        h.tasks.lookup pTask = some task ∧ pTask ∉ tasks := by
  induction tasks generalizing h with
  | nil => exact ⟨h, rfl, fun _ _ hlookup => hlookup, fun _ _ hlookup => ⟨hlookup, nofun⟩⟩
  | cons pTask rest ih =>
      obtain ⟨hnew, hdistinct⟩ := List.nodup_cons.mp hdistinct
      obtain ⟨task, htask⟩ := Finmap.mem_iff.mp (hthere pTask List.mem_cons_self)
      obtain ⟨next, hdelete, hforgets, htasks, hfewer⟩ := deleteTask_forgets hhost pTask task
      have hstep : h.step (.deleteTask pTask) = .ok next := by
        simp only [step, htask, hdelete]
      have hlookup : ∀ other found, next.tasks.lookup other = some found ↔
          other ≠ pTask ∧ h.tasks.lookup other = some found := by
        intro other found
        rw [htasks]
        exact StdMap.lookup_remove_eq_some
      obtain ⟨t, hrun, hfewer', hleft⟩ := ih hforgets hdistinct (by
        intro other hother
        obtain ⟨found, hfound⟩ :=
          Finmap.mem_iff.mp (hthere other (List.mem_cons_of_mem _ hother))
        refine Finmap.mem_iff.mpr ⟨found, (hlookup other found).mpr ⟨?_, hfound⟩⟩
        rintro rfl
        exact hnew hother)
      refine ⟨t, (run_cons_ok hstep _).trans hrun,
        fun other clr hfound => hfewer other clr (hfewer' other clr hfound), ?_⟩
      intro other found hfound
      obtain ⟨hnext, hother⟩ := hleft other found hfound
      obtain ⟨hne, hold⟩ := (hlookup other found).mp hnext
      exact ⟨hold, List.not_mem_cons_of_ne_of_not_mem hne hother⟩

/-- From every state the threads can end and the tasks be deleted, all of them. -/
theorem exists_run_gone (h : CLRTaskHost) :
    ∃ rest t, (∀ action ∈ rest, CLRTaskAction.isSetCLRTask action = false) ∧
      run step h rest = .ok t ∧ ∀ clr, t.Gone clr := by
  let forgets : CLRTaskHost :=
    { h with taskManager := { h.taskManager with hostContext := HostContext.initial } }
  let threads := h.taskManager.managedThreadMap.keys.toList
  let tasks := h.tasks.keys.toList
  obtain ⟨ended, hended, hforgets, htasks, hrecords, hnone⟩ :=
    run_removeTasks (show forgets.HostForgets from rfl) threads
  have hdistinct : tasks.Nodup := Finset.nodup_toList _
  have hthere : ∀ pTask ∈ tasks, pTask ∈ ended.tasks := by
    intro pTask hpTask
    rw [htasks]
    exact Finmap.mem_keys.mp (Finset.mem_toList.mp hpTask)
  obtain ⟨t, hrun, hfewer, hleft⟩ := run_deleteTasks hforgets hdistinct hthere
  have hfirst : h.step (.setHostContext HostContext.initial) = .ok forgets := rfl
  refine ⟨.setHostContext HostContext.initial ::
    (threads.map .removeTask ++ tasks.map .deleteTask), t, ?_, ?_, ?_⟩
  · intro action haction
    simp only [List.mem_cons, List.mem_append, List.mem_map] at haction
    obtain rfl | ⟨_, -, rfl⟩ | ⟨_, -, rfl⟩ := haction
    all_goals rfl
  · rw [run_cons_ok hfirst, run_append_ok hended]
    exact hrun
  · intro clr
    constructor
    · intro thread hlookup
      have hended' := hfewer thread clr hlookup
      have hthere : thread ∈ threads :=
        Finset.mem_toList.mpr (Finmap.mem_keys.mpr
          (Finmap.mem_of_lookup_eq_some (hrecords thread clr hended')))
      rw [hnone thread hthere] at hended'
      cases hended'
    · intro pTask task hlookup
      obtain ⟨hended', hout⟩ := hleft pTask task hlookup
      rw [htasks] at hended'
      exact absurd (Finset.mem_toList.mpr (Finmap.mem_keys.mpr
        (Finmap.mem_of_lookup_eq_some hended'))) hout

theorem SetEvenly.matched {h : CLRTaskHost} (heven : h.SetEvenly) : h.Matched := by
  refine ⟨?_, fun clr _ => heven clr⟩
  intro clr
  have hrecords : 0 ≤ h.records clr := StdMap.total_nonneg (by intros; split <;> decide)
  have hpointers : 0 ≤ h.pointers clr := StdMap.total_nonneg (by intros; split <;> decide)
  have hsame := heven clr
  omega

/-- Without a further `SetCLRTask` the references stay balanced, whatever ends, if and only
if the calls made so far wrote over what they entered. -/
theorem Accounts.stays_balanced_iff {h : CLRTaskHost} (haccounts : h.Accounts) :
    (∀ rest : List CLRTaskAction, (∀ action ∈ rest, action.isSetCLRTask = false) →
      Always step Balanced h rest) ↔ h.SetEvenly := by
  constructor
  · intro hbalanced clr
    obtain ⟨rest, t, hothers, hrun, hgone⟩ := exists_run_gone h
    have haccount : t.Accounts :=
      (always_of_step (fun _ _ _ => accounts_step) haccounts rest).last hrun
    have hmatched := haccount.balanced_iff.mp ((hbalanced rest hothers).last hrun)
    obtain ⟨hnew, hover⟩ := (always_histories hothers).last hrun
    have hcounts := hmatched.gone clr (hgone clr)
    rwa [hnew, hover] at hcounts
  · intro heven rest hothers
    have haccount : Always step Accounts h rest :=
      always_of_step (fun _ _ _ => accounts_step) haccounts rest
    refine (haccount.and (always_histories hothers)).imp ?_
    rintro t ⟨haccount, hnew, hover⟩
    have heven' : t.SetEvenly := by
      rw [SetEvenly, hnew, hover]
      exact heven
    exact haccount.balanced_iff.mpr heven'.matched

/-- A run keeps the references balanced if and only if, whenever an `ICLRTask` is
held nowhere any more, as many of its pointers were written over as records were
entered for it, and before that at most as many more records as places hold it. From where
a run has come to, it is the calls of `SetCLRTask` alone that decide whether the ends of
threads and tasks will keep the balance. -/
theorem clrTasks_balanced_iff (actions : List CLRTaskAction) :
    (Always step Balanced initial actions ↔ Always step Matched initial actions) ∧
      ∀ h, run step initial actions = .ok h →
        ((∀ rest : List CLRTaskAction, (∀ action ∈ rest, action.isSetCLRTask = false) →
          Always step Balanced h rest) ↔ h.SetEvenly) := by
  have haccounts : Always step Accounts initial actions :=
    always_of_step (fun h action next => accounts_step) accounts_initial actions
  refine ⟨⟨?_, ?_⟩, fun h hrun => (haccounts.last hrun).stays_balanced_iff⟩
  · intro hbalanced
    refine (haccounts.and hbalanced).imp ?_
    rintro h ⟨haccount, hbalance⟩
    exact haccount.balanced_iff.mp hbalance
  · intro hmatched
    refine (haccounts.and hmatched).imp ?_
    rintro h ⟨haccount, hmatch⟩
    exact haccount.balanced_iff.mpr hmatch

/-- One thread of the CLR: its task is made and told of its `ICLRTask`, the thread
ends and the task is deleted. -/
theorem clrTask_released_twice :
    ¬ ∀ actions, Always step Balanced initial actions := by
  intro hall
  have hreaches : Reaches step (fun h => h.releases 7 = 2 ∧ h.addRefs 7 = 1) initial
      [.getCurrentTask 0 4000 64, .setCLRTask 0 7, .removeTask 4000, .deleteTask 0] := by
    decide
  obtain ⟨h, hrun, hreleases, haddRefs⟩ := reaches_iff.mp hreaches
  have hbound := ((hall _).last hrun).bound 7
  omega

end CLRTaskHost

end HostedPumpkin
