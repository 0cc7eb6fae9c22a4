import HostedPumpkin.Threading.TaskCreation

/-!
The two `RemoveTask` calls of a thread that `CreateTask` created: one when its
function returns, one when its task is destroyed. A thread id is followed through
a run of the task manager, and with it the thread that has it: the domain the
thread is in, the tasks made for it and the records each call found under the id.
The operating system gives the id to no other thread before both calls were made.
A `CreateTask` whose `CreateThread` fails enters a record all the same, and that
record is what a call can find in place of the thread's own.
-/

namespace HostedPumpkin

open Runs

/-- What the host and the two maps hold under a thread id. -/
structure ThreadRecords where
  domain : Option DWORD
  task : Option SHTask
  clrTask : Option CLRTask
deriving DecidableEq

namespace ThreadRecords

def empty : ThreadRecords := ⟨none, none, none⟩

end ThreadRecords

namespace SHTaskManager

def records (m : SHTaskManager) (thread : DWORD) : ThreadRecords where
  domain := m.domainData.threadAppDomain.lookup thread
  task := m.nativeThreadMap.lookup thread
  clrTask := m.managedThreadMap.lookup thread

/-- The records under an id after a call: an `insert` keeps what is there. -/
def recordsAfter (m : SHTaskManager) (thread : DWORD) : TaskAction → ThreadRecords
  | .getCurrentTask current hThread =>
      if current = thread then
        { m.records thread with
          task := (m.records thread).task.or (some ⟨thread, some hThread⟩) }
      else m.records thread
  | .createTask parent hThread created =>
      if created = thread then
        { m.records thread with
          domain := (m.records thread).domain.or (m.records parent).domain
          task := (m.records thread).task.or (some ⟨thread, hThread⟩) }
      else m.records thread
  | .setCLRTask task pCLRTask =>
      if task.nativeId = thread then
        { m.records thread with clrTask := (m.records thread).clrTask.or (some pCLRTask) }
      else m.records thread
  | .removeTask removed =>
      if removed = thread then ThreadRecords.empty else m.records thread
  | .onDomainCreate domain current _ _ =>
      if current = thread then { m.records thread with domain := some domain }
      else m.records thread
  | .onDomainUnload _ => m.records thread

theorem removeTask_records {m next : SHTaskManager} {removed : DWORD}
    (h : m.removeTask removed = .ok next) (thread : DWORD) :
    next.records thread = if removed = thread then ThreadRecords.empty else m.records thread := by
  obtain ⟨exit, answer, hrelease⟩ := removeTask_ok h
  have hthreads : next.domainData.threadAppDomain.lookup thread =
      if thread = removed then none else m.domainData.threadAppDomain.lookup thread := by
    rcases DomainData.onThreadRelease_ok hrelease with ⟨hnone, hsame, -⟩ | ⟨domain, -, hmap, -⟩
    · rw [hsame]
      split
      next heq =>
        subst heq
        exact hnone
      next => rfl
    · rw [hmap, StdMap.lookup_remove]
  have hmaps : next.nativeThreadMap = m.nativeThreadMap.remove removed ∧
      next.managedThreadMap = m.managedThreadMap.remove removed := by
    simp only [removeTask] at h
    split at h
    next => cases h
    next =>
      cases h
      exact ⟨rfl, rfl⟩
  by_cases heq : removed = thread
  · subst heq
    simp [records, ThreadRecords.empty, hthreads, hmaps.1, hmaps.2, StdMap.lookup_remove]
  · simp [records, hthreads, hmaps.1, hmaps.2, StdMap.lookup_remove, heq, Ne.symm heq]

theorem createTask_records {m next : SHTaskManager} {parent created : DWORD}
    {hThread : Option HANDLE} {task : SHTask}
    (h : m.createTask parent hThread created = .ok (next, task)) (thread : DWORD) :
    next.records thread =
      if created = thread then
        { m.records thread with
          domain := (m.records thread).domain.or (m.records parent).domain
          task := (m.records thread).task.or (some ⟨thread, hThread⟩) }
      else m.records thread := by
  obtain ⟨-, answer, hacquire⟩ := createTask_ok h
  have hmaps := createTask_nativeThreadMap h
  have hthreads : next.domainData.threadAppDomain.lookup thread =
      if created = thread then
        (m.domainData.threadAppDomain.lookup thread).or
          (m.domainData.threadAppDomain.lookup parent)
      else m.domainData.threadAppDomain.lookup thread := by
    rcases DomainData.onThreadAcquire_ok hacquire with
      ⟨hparent, hsame, -⟩ | ⟨domain, info, hparent, -, -, hnext⟩
    · rw [hsame, hparent, Option.or_none, ite_self]
    · rw [hnext, hparent]
      exact StdMap.lookup_insertNew_or _ created thread domain
  by_cases heq : created = thread
  · subst heq
    simp only [records, hthreads, hmaps.1, hmaps.2, StdMap.lookup_insertNew_or, if_pos]
  · simp only [records, hthreads, hmaps.1, hmaps.2, StdMap.lookup_insertNew_or, if_neg heq]

theorem step_records {m next : SHTaskManager} {a : TaskAction} (h : m.step a = .ok next)
    (thread : DWORD) : next.records thread = m.recordsAfter thread a := by
  cases a with
  | getCurrentTask current hThread =>
      cases h
      simp only [recordsAfter, getCurrentTask]
      cases hcurrent : m.nativeThreadMap.lookup current with
      | none =>
          simp only [records, StdMap.lookup_insertNew_or]
          split
          next heq =>
            subst heq
            rfl
          next => rfl
      | some pTask =>
          by_cases heq : current = thread
          · subst heq
            simp [records, hcurrent]
          · rw [if_neg heq]
  | createTask parent hThread created =>
      obtain ⟨task, hcall⟩ := HostContext.map_fst_ok h
      exact createTask_records hcall thread
  | setCLRTask task pCLRTask =>
      cases h
      simp only [recordsAfter, records, SHTask.setCLRTask, addManagedTask,
        StdMap.lookup_insertNew_or]
      split <;> rfl
  | removeTask removed => exact removeTask_records h thread
  | onDomainCreate domain current manager uninitialised =>
      obtain ⟨c, hcall, rfl⟩ := onDomainCreate_ok_iff.mp h
      simp only [recordsAfter, records, domainData, DomainData.onDomainCreate_threads hcall,
        StdMap.lookup_set]
      by_cases heq : current = thread
      · rw [if_pos heq, if_pos heq.symm]
      · rw [if_neg heq, if_neg (Ne.symm heq)]
  | onDomainUnload domain =>
      cases h
      rfl

/-- A `RemoveTask` that finds nothing does nothing. -/
theorem removeTask_of_empty {m next : SHTaskManager} {thread : DWORD}
    (hempty : m.records thread = ThreadRecords.empty) (h : m.removeTask thread = .ok next) :
    next = m := by
  have hthread : m.domainData.threadAppDomain.lookup thread = none :=
    congrArg ThreadRecords.domain hempty
  have htask : m.nativeThreadMap.remove thread = m.nativeThreadMap :=
    StdMap.remove_of_none (congrArg ThreadRecords.task hempty)
  have hclr : m.managedThreadMap.remove thread = m.managedThreadMap :=
    StdMap.remove_of_none (congrArg ThreadRecords.clrTask hempty)
  simp only [removeTask, DomainData.onThreadRelease, hthread, htask, hclr] at h
  cases h
  rfl

end SHTaskManager

/-- A `RemoveTask` made for a thread: the manager before and after it, and
whether all it found under the id was the thread's own. -/
structure RemoveCall where
  before : SHTaskManager
  after : SHTaskManager
  own : Bool
deriving DecidableEq

/-- A thread from its `CreateTask` on: its domain, the tasks made for it, what
was set as their CLR task, whether its function returned and its task was
destroyed, and its `RemoveTask` calls so far. -/
structure ThreadLife where
  domain : Option DWORD
  tasks : List SHTask
  clrTasks : List CLRTask
  returned : Bool
  released : Bool
  calls : List RemoveCall
deriving DecidableEq

namespace ThreadLife

def ended (life : ThreadLife) : Bool := life.returned && life.released

/-- Nothing recorded under the id is of another thread. -/
def owns (life : ThreadLife) (found : ThreadRecords) : Bool :=
  found.domain.all (fun domain => life.domain = some domain) &&
    found.task.all (fun task => task ∈ life.tasks) &&
      found.clrTask.all (fun clrTask => clrTask ∈ life.clrTasks)

/-- What a call of the thread or about its tasks makes the thread's own. -/
def after (life : ThreadLife) (thread : DWORD) (m : SHTaskManager) : TaskAction → ThreadLife
  | .getCurrentTask current hThread =>
      if current = thread ∧ (m.records thread).task = none then
        { life with tasks := ⟨thread, some hThread⟩ :: life.tasks }
      else life
  | .setCLRTask task pCLRTask =>
      if task ∈ life.tasks then { life with clrTasks := pCLRTask :: life.clrTasks } else life
  | .onDomainCreate domain current _ _ =>
      if current = thread then { life with domain := some domain } else life
  | .createTask _ _ _ | .removeTask _ | .onDomainUnload _ => life

theorem after_calls (life : ThreadLife) (thread : DWORD) (m : SHTaskManager) (a : TaskAction) :
    (life.after thread m a).calls = life.calls ∧ (life.after thread m a).ended = life.ended := by
  cases a with
  | createTask | removeTask | onDomainUnload => exact ⟨rfl, rfl⟩
  | getCurrentTask | setCLRTask | onDomainCreate =>
      simp only [after]
      split <;> exact ⟨rfl, rfl⟩

/-- The call enters under the id no record of another thread, and none at all
once the thread has been removed. -/
def KeepsOwn (life : ThreadLife) (thread : DWORD) (m : SHTaskManager) : TaskAction → Prop
  | .createTask parent _ created =>
      created = thread → (m.records thread).task ≠ none ∧
        ((m.records thread).domain ≠ none ∨ (m.records parent).domain = none)
  | .getCurrentTask current _ =>
      current = thread → (m.records thread).task ≠ none ∨ life.calls = []
  | .setCLRTask task _ =>
      task.nativeId = thread →
        (m.records thread).clrTask ≠ none ∨ (task ∈ life.tasks ∧ life.calls = [])
  | .onDomainCreate _ current _ _ => current = thread → life.calls = []
  | .removeTask _ | .onDomainUnload _ => True

instance (life : ThreadLife) (thread : DWORD) (m : SHTaskManager) (a : TaskAction) :
    Decidable (life.KeepsOwn thread m a) :=
  match a with
  | .createTask .. => inferInstanceAs (Decidable (_ = _ → _ ≠ _ ∧ (_ ≠ _ ∨ _ = _)))
  | .getCurrentTask .. => inferInstanceAs (Decidable (_ = _ → _ ≠ _ ∨ _ = _))
  | .setCLRTask .. => inferInstanceAs (Decidable (_ = _ → _ ≠ _ ∨ (_ ∈ _ ∧ _ = _)))
  | .onDomainCreate .. => inferInstanceAs (Decidable (_ = _ → _ = _))
  | .removeTask .. | .onDomainUnload .. => isTrue trivial

theorem owns_iff {life : ThreadLife} {found : ThreadRecords} :
    life.owns found = true ↔
      (∀ domain, found.domain = some domain → life.domain = some domain) ∧
        (∀ task, found.task = some task → task ∈ life.tasks) ∧
          ∀ clrTask, found.clrTask = some clrTask → clrTask ∈ life.clrTasks := by
  simp [owns, Option.all_eq_true, and_assoc]

theorem owns_empty (life : ThreadLife) : life.owns ThreadRecords.empty = true := rfl

/-- Before its first `RemoveTask` a thread keeps owning what is recorded. -/
theorem owns_after {life : ThreadLife} {thread : DWORD} {m : SHTaskManager} {a : TaskAction}
    (howns : life.owns (m.records thread) = true) (hkeeps : life.KeepsOwn thread m a) :
    (life.after thread m a).owns (m.recordsAfter thread a) = true := by
  rw [owns_iff] at howns ⊢
  obtain ⟨hdomain, htask, hclr⟩ := howns
  cases a with
  | getCurrentTask current hThread =>
      simp only [SHTaskManager.recordsAfter, after]
      by_cases heq : current = thread
      · rw [if_pos heq]
        cases hold : (m.records thread).task with
        | none =>
            rw [if_pos ⟨heq, rfl⟩]
            refine ⟨hdomain, ?_, hclr⟩
            rintro task ⟨⟩
            exact List.mem_cons_self
        | some old =>
            rw [if_neg (by simp)]
            refine ⟨hdomain, ?_, hclr⟩
            rintro task ⟨⟩
            exact htask old hold
      · rw [if_neg heq, if_neg (fun hcond => heq hcond.1)]
        exact ⟨hdomain, htask, hclr⟩
  | createTask parent hThread created =>
      simp only [SHTaskManager.recordsAfter, after]
      split
      next heq =>
        obtain ⟨hpresent, hmapped⟩ := hkeeps heq
        obtain ⟨old, hold⟩ := Option.ne_none_iff_exists'.mp hpresent
        refine ⟨?_, ?_, hclr⟩
        · intro domain hafter
          apply hdomain
          rcases hmapped with hmapped | hparent
          · obtain ⟨d, hd⟩ := Option.ne_none_iff_exists'.mp hmapped
            simpa [hd] using hafter
          · simpa [hparent] using hafter
        · intro task hafter
          apply htask
          simpa [hold] using hafter
      next => exact ⟨hdomain, htask, hclr⟩
  | setCLRTask task pCLRTask =>
      simp only [SHTaskManager.recordsAfter, after]
      by_cases hmem : task ∈ life.tasks
      · rw [if_pos hmem]
        split
        next =>
          refine ⟨hdomain, htask, ?_⟩
          intro clrTask hafter
          rcases Option.or_eq_some_iff.mp hafter with hold | ⟨-, ⟨⟩⟩
          · exact List.mem_cons_of_mem _ (hclr clrTask hold)
          · exact List.mem_cons_self
        next =>
          refine ⟨hdomain, htask, ?_⟩
          intro clrTask hold
          exact List.mem_cons_of_mem _ (hclr clrTask hold)
      · rw [if_neg hmem]
        split
        next heq =>
          refine ⟨hdomain, htask, ?_⟩
          intro clrTask hafter
          obtain hpresent | ⟨hown, -⟩ := hkeeps heq
          · obtain ⟨old, hold⟩ := Option.ne_none_iff_exists'.mp hpresent
            apply hclr
            simpa [hold] using hafter
          · exact absurd hown hmem
        next => exact ⟨hdomain, htask, hclr⟩
  | removeTask removed =>
      simp only [SHTaskManager.recordsAfter, after]
      split
      next => exact owns_iff.mp (owns_empty life)
      next => exact ⟨hdomain, htask, hclr⟩
  | onDomainCreate domain current manager uninitialised =>
      simp only [SHTaskManager.recordsAfter, after]
      split
      next =>
        refine ⟨?_, htask, hclr⟩
        rintro d ⟨⟩
        rfl
      next => exact ⟨hdomain, htask, hclr⟩
  | onDomainUnload domain => exact ⟨hdomain, htask, hclr⟩

/-- After it nothing is recorded any more. -/
theorem empty_after {life : ThreadLife} {thread : DWORD} {m : SHTaskManager} {a : TaskAction}
    (hempty : m.records thread = ThreadRecords.empty) (hcalls : life.calls ≠ [])
    (hkeeps : life.KeepsOwn thread m a) :
    m.recordsAfter thread a = ThreadRecords.empty := by
  cases a with
  | getCurrentTask current hThread =>
      simp only [SHTaskManager.recordsAfter]
      split
      next heq =>
        rcases hkeeps heq with hpresent | hnone
        · exact absurd (congrArg ThreadRecords.task hempty) hpresent
        · exact absurd hnone hcalls
      next => exact hempty
  | createTask parent hThread created =>
      simp only [SHTaskManager.recordsAfter]
      split
      next heq => exact absurd (congrArg ThreadRecords.task hempty) (hkeeps heq).1
      next => exact hempty
  | setCLRTask task pCLRTask =>
      simp only [SHTaskManager.recordsAfter]
      split
      next heq =>
        obtain hpresent | ⟨-, hnone⟩ := hkeeps heq
        · exact absurd (congrArg ThreadRecords.clrTask hempty) hpresent
        · exact absurd hnone hcalls
      next => exact hempty
  | removeTask removed =>
      simp only [SHTaskManager.recordsAfter]
      split
      next => rfl
      next => exact hempty
  | onDomainCreate domain current manager uninitialised =>
      simp only [SHTaskManager.recordsAfter]
      split
      next heq => exact absurd (hkeeps heq) hcalls
      next => exact hempty
  | onDomainUnload domain => exact hempty

end ThreadLife

namespace RemoveCall

/-- The call changes the thread counter of the domain. -/
def Counts (domain : DWORD) (call : RemoveCall) : Prop :=
  call.after.domainData.rawGetThreadCount domain ≠
    call.before.domainData.rawGetThreadCount domain

instance (domain : DWORD) (call : RemoveCall) : Decidable (call.Counts domain) :=
  inferInstanceAs (Decidable (_ ≠ _))

end RemoveCall

/-- The calls made for the thread changed the counter of no domain twice, each
after the first changed nothing at all, and all they removed was recorded under
the id of the thread and of the thread itself. -/
structure ThreadLife.DischargedOnce (thread : DWORD) (life : ThreadLife) : Prop where
  counts : ∀ domain, (life.calls.filter (fun call => call.Counts domain)).length ≤ 1
  second : ∀ call ∈ life.calls.tail, call.after = call.before
  own : ∀ call ∈ life.calls, call.own = true
  others : ∀ call ∈ life.calls, ∀ other, other ≠ thread →
    call.after.records other = call.before.records other

/-- The manager, and the thread that has the id. -/
structure DischargeSystem where
  manager : SHTaskManager
  life : Option ThreadLife
deriving DecidableEq

inductive DischargeFault where
  | disabled
  | host (fault : HostFault)
deriving DecidableEq, Repr

/-- What happens to the thread, and every other call. -/
inductive DischargeAction where
  | createThread (dwParentThreadId : DWORD) (hThread : HANDLE)
  | threadStub
  | finalRelease
  | other (a : TaskAction)
deriving DecidableEq

namespace DischargeSystem

def initial : DischargeSystem := ⟨SHTaskManager.initial, none⟩

/-- The thread runs or its task holds a handle to it. -/
def InUse (s : DischargeSystem) : Prop := s.life.any (fun life => !life.ended) = true

instance (s : DischargeSystem) : Decidable s.InUse := inferInstanceAs (Decidable (_ = true))

/-- `CreateThread` gives the id only to a thread while it is not in use. -/
def Yields (thread : DWORD) : TaskAction → Bool
  | .createTask _ (some _) created => created == thread
  | _ => false

def removeTask (thread : DWORD) (life : ThreadLife) (m : SHTaskManager) :
    Except DischargeFault DischargeSystem :=
  match m.removeTask thread with
  | .error fault => .error (.host fault)
  | .ok next =>
      let call : RemoveCall := ⟨m, next, life.owns (m.records thread)⟩
      .ok ⟨next, some { life with calls := life.calls ++ [call] }⟩

def step (thread : DWORD) (s : DischargeSystem) :
    DischargeAction → Except DischargeFault DischargeSystem
  | .createThread parent hThread =>
      if s.InUse then .error .disabled
      else
        match s.manager.createTask parent (some hThread) thread with
        | .error fault => .error (.host fault)
        | .ok (next, task) =>
            .ok ⟨next, some ⟨(s.manager.records parent).domain, [task], [], false, false, []⟩⟩
  | .threadStub =>
      match s.life with
      | none => .error .disabled
      | some life =>
          if life.returned then .error .disabled
          else removeTask thread { life with returned := true } s.manager
  | .finalRelease =>
      match s.life with
      | none => .error .disabled
      | some life =>
          if life.released then .error .disabled
          else removeTask thread { life with released := true } s.manager
  | .other a =>
      if Yields thread a then .error .disabled
      else
        match s.manager.step a with
        | .error fault => .error (.host fault)
        | .ok next => .ok ⟨next, s.life.map (fun life => life.after thread s.manager a)⟩

def DischargedOnce (thread : DWORD) (s : DischargeSystem) : Prop :=
  ∀ life, s.life = some life → life.DischargedOnce thread

/-- A thread is created under an id that nothing is recorded for, and from then
on no call records another thread under it, nor this one once it was removed. -/
def KeepsOwn (thread : DWORD) (s : DischargeSystem) : DischargeAction → Prop
  | .createThread _ _ => s.manager.records thread = ThreadRecords.empty
  | .other a =>
      match s.life with
      | none => True
      | some life => life.ended = false → life.KeepsOwn thread s.manager a
  | .threadStub | .finalRelease => True

instance (thread : DWORD) (s : DischargeSystem) (a : DischargeAction) :
    Decidable (s.KeepsOwn thread a) :=
  match a, s with
  | .createThread .., _ => inferInstanceAs (Decidable (_ = _))
  | .other _, ⟨_, none⟩ => isTrue trivial
  | .other _, ⟨_, some _⟩ => inferInstanceAs (Decidable (_ = _ → ThreadLife.KeepsOwn _ _ _ _))
  | .threadStub, _ | .finalRelease, _ => isTrue trivial

/-- While the thread has the id, what is recorded under it is the thread's own,
and nothing is once it was removed. -/
structure Sound (thread : DWORD) (m : SHTaskManager) (life : ThreadLife) : Prop where
  discharged : life.DischargedOnce thread
  owns : life.ended = false → life.owns (m.records thread) = true
  removed : life.ended = false → life.calls ≠ [] → m.records thread = ThreadRecords.empty

theorem Sound.removeTask {thread : DWORD} {m : SHTaskManager} {life ending : ThreadLife}
    {next : DischargeSystem} (hsound : Sound thread m life) (hin : life.ended = false)
    (h : DischargeSystem.removeTask thread ending m = .ok next)
    (howns : ending.owns = life.owns) (hcalls : ending.calls = life.calls) :
    ∃ after, next.life = some after ∧ Sound thread next.manager after := by
  simp only [DischargeSystem.removeTask] at h
  split at h
  next => cases h
  next m' hremove =>
    cases h
    have hempty : m'.records thread = ThreadRecords.empty := by
      rw [SHTaskManager.removeTask_records hremove, if_pos rfl]
    obtain ⟨hcounts, hsecond, hown, hothers⟩ := hsound.discharged
    -- a call after the first finds nothing
    have hrepeat : life.calls ≠ [] → m' = m := by
      intro hne
      exact SHTaskManager.removeTask_of_empty (hsound.removed hin hne) hremove
    refine ⟨_, rfl, ⟨?_, ?_, ?_, ?_⟩, ?_, ?_⟩
    · intro domain
      rw [hcalls, List.filter_append, List.length_append]
      by_cases hne : life.calls = []
      · rw [hne, List.filter_nil, List.length_nil, Nat.zero_add]
        exact List.length_filter_le _ _
      · have hsame : ¬ RemoveCall.Counts domain ⟨m, m', ending.owns (m.records thread)⟩ := by
          rw [RemoveCall.Counts, hrepeat hne]
          exact not_not_intro rfl
        rw [List.filter_cons_of_neg (by rwa [decide_eq_true_iff]), List.filter_nil]
        exact hcounts domain
    · intro call hcall
      rw [hcalls] at hcall
      by_cases hne : life.calls = []
      · rw [hne] at hcall
        cases hcall
      · rw [List.tail_append_of_ne_nil hne, List.mem_append, List.mem_singleton] at hcall
        rcases hcall with hold | rfl
        · exact hsecond call hold
        · exact hrepeat hne
    · intro call hcall
      rw [hcalls, List.mem_append, List.mem_singleton] at hcall
      rcases hcall with hold | rfl
      · exact hown call hold
      · rw [howns]
        exact hsound.owns hin
    · intro call hcall other hother
      rw [hcalls, List.mem_append, List.mem_singleton] at hcall
      rcases hcall with hold | rfl
      · exact hothers call hold other hother
      · exact (SHTaskManager.removeTask_records hremove other).trans (if_neg (Ne.symm hother))
    · intro _
      rw [hempty]
      exact ThreadLife.owns_empty _
    · intro _ _
      exact hempty

theorem Sound.other {thread : DWORD} {m next : SHTaskManager} {life : ThreadLife}
    {a : TaskAction} (hsound : Sound thread m life)
    (hkeeps : life.ended = false → life.KeepsOwn thread m a) (h : m.step a = .ok next) :
    Sound thread next (life.after thread m a) := by
  obtain ⟨hcalls, hended⟩ := life.after_calls thread m a
  obtain ⟨hcounts, hsecond, hown, hothers⟩ := hsound.discharged
  refine ⟨⟨?_, ?_, ?_, ?_⟩, ?_, ?_⟩
  · rwa [hcalls]
  · rwa [hcalls]
  · rwa [hcalls]
  · rwa [hcalls]
  · intro hin
    rw [hended] at hin
    rw [SHTaskManager.step_records h]
    exact ThreadLife.owns_after (hsound.owns hin) (hkeeps hin)
  · intro hin hne
    rw [hended] at hin
    rw [hcalls] at hne
    rw [SHTaskManager.step_records h]
    exact ThreadLife.empty_after (hsound.removed hin hne) hne (hkeeps hin)

theorem Sound.created {thread parent : DWORD} {hThread : HANDLE} {m next : SHTaskManager}
    {task : SHTask} (hempty : m.records thread = ThreadRecords.empty)
    (h : m.createTask parent (some hThread) thread = .ok (next, task)) :
    Sound thread next ⟨(m.records parent).domain, [task], [], false, false, []⟩ := by
  refine ⟨⟨?_, ?_, ?_, ?_⟩, ?_, fun _ hne => absurd rfl hne⟩
  · intro domain
    exact Nat.zero_le 1
  · rintro call ⟨⟩
  · rintro call ⟨⟩
  · rintro call ⟨⟩
  · intro _
    obtain ⟨rfl, -⟩ := SHTaskManager.createTask_ok h
    rw [SHTaskManager.createTask_records h, if_pos rfl, hempty, ThreadLife.owns_iff]
    refine ⟨?_, ?_, ?_⟩
    · intro domain hdomain
      exact hdomain
    · rintro created ⟨⟩
      exact List.mem_singleton_self _
    · rintro clrTask ⟨⟩

theorem step_sound {thread : DWORD} {s next : DischargeSystem} {a : DischargeAction}
    (hs : ∀ life, s.life = some life → Sound thread s.manager life)
    (hkeeps : s.KeepsOwn thread a) (h : step thread s a = .ok next) :
    ∀ life, next.life = some life → Sound thread next.manager life := by
  cases a with
  | createThread parent hThread =>
      simp only [step] at h
      split at h
      next => cases h
      next =>
        split at h
        next => cases h
        next m task hcall =>
          cases h
          rintro life ⟨⟩
          exact Sound.created hkeeps hcall
  | threadStub =>
      simp only [step] at h
      split at h
      next => cases h
      next life hlife =>
        split at h
        next => cases h
        next hreturned =>
          have hin : life.ended = false := by simp [ThreadLife.ended, hreturned]
          obtain ⟨after, hafter, hsound⟩ := (hs life hlife).removeTask hin h rfl rfl
          rw [hafter]
          rintro _ ⟨⟩
          exact hsound
  | finalRelease =>
      simp only [step] at h
      split at h
      next => cases h
      next life hlife =>
        split at h
        next => cases h
        next hreleased =>
          have hin : life.ended = false := by simp [ThreadLife.ended, hreleased]
          obtain ⟨after, hafter, hsound⟩ := (hs life hlife).removeTask hin h rfl rfl
          rw [hafter]
          rintro _ ⟨⟩
          exact hsound
  | other a =>
      simp only [step] at h
      split at h
      next => cases h
      next =>
        split at h
        next => cases h
        next m hcall =>
          cases h
          intro after hafter
          obtain ⟨life, hlife, rfl⟩ := Option.map_eq_some_iff.mp hafter
          simp only [KeepsOwn, hlife] at hkeeps
          exact (hs life hlife).other hkeeps hcall

/-- Every thread that gets the id is discharged once, in every run in which the
records under the id are kept for the thread that has it. -/
theorem threads_discharged_once (thread : DWORD) (actions : List DischargeAction)
    (hkeeps : Meets (step thread) (KeepsOwn thread) initial actions) :
    Always (step thread) (DischargedOnce thread) initial actions := by
  refine (always_of_meets (fun _ _ _ hs hcond h => step_sound hs hcond h) ?_ hkeeps).imp ?_
  · rintro life ⟨⟩
  · intro s hs life hlife
    exact (hs life hlife).discharged

/-- Thread 30 of domain 3 creates thread 4000, whose task outlives it. -/
def taskReleasedLate : List DischargeAction :=
  [.other (.onDomainCreate 1 10 (some 0) 0), .other (.onDomainCreate 2 20 (some 1) 0),
    .other (.onDomainCreate 3 30 (some 2) 0), .createThread 30 64,
    .other (.createTask 20 (some 68) 4001), .threadStub, .other (.removeTask 4001),
    .finalRelease]

theorem threads_discharged_once_late :
    Always (step 4000) (DischargedOnce 4000) initial taskReleasedLate :=
  threads_discharged_once 4000 taskReleasedLate (by decide)

/-- The same with a `CreateTask` of thread 20 that fails in between, when
`dwThreadId` still holds 4000. -/
def phantomBetween : List DischargeAction :=
  [.other (.onDomainCreate 1 10 (some 0) 0), .other (.onDomainCreate 2 20 (some 1) 0),
    .other (.onDomainCreate 3 30 (some 2) 0), .createThread 30 64, .threadStub,
    .other (.createTask 20 none 4000), .finalRelease]

/-- The second call takes the phantom out of domain 2. -/
theorem phantom_removed :
    (∃ s life first second, run (step 4000) initial phantomBetween = .ok s ∧
      s.life = some life ∧ life.calls = [first, second] ∧ second.own = false ∧
      second.before.domainData.rawGetThreadCount 2 = some 2 ∧
      second.after.domainData.rawGetThreadCount 2 = some 1) ∧
    ¬ ∀ thread actions, Always (step thread) (DischargedOnce thread) initial actions := by
  have hrun : Reaches (step 4000) (fun s => ∃ life ∈ s.life, life.calls.length = 2 ∧
      ∃ second ∈ life.calls.tail, second.own = false ∧
        second.before.domainData.rawGetThreadCount 2 = some 2 ∧
        second.after.domainData.rawGetThreadCount 2 = some 1) initial phantomBetween := by
    decide
  obtain ⟨s, hrun, life, hlife, hlength, second, hmem, hforeign, hbefore, hafter⟩ :=
    reaches_iff.mp hrun
  obtain ⟨first, rest, hcalls⟩ := List.length_eq_two.mp hlength
  rw [hcalls, List.tail_cons, List.mem_singleton] at hmem
  subst hmem
  refine ⟨⟨s, life, first, second, hrun, hlife, hcalls, hforeign, hbefore, hafter⟩, ?_⟩
  intro hall
  have honce := (hall 4000 phantomBetween).last hrun life hlife
  have hown := honce.own second (by rw [hcalls]; simp)
  rw [hforeign] at hown
  cases hown

end DischargeSystem

end HostedPumpkin
