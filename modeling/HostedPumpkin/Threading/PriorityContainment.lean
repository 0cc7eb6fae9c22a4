import HostedPumpkin.Threading.TaskManager

/-!
Priority containment. The main thread of a snippet, and every thread that
descends from it through `CreateTask`, must not raise its priority. `SetPriority`
finds out through the domain the host has mapped the thread to, so the question
is which threads the map attributes to the default domain. A thread is mapped
when it is created, and the mapping outlives parents and domains; what an id
brings with it from before is what can go wrong.
-/

namespace HostedPumpkin

open Runs

namespace DomainData

theorem isSnippetThread_iff {c : DomainData} {thread : DWORD} :
    c.isSnippetThread thread = true ↔
      ∃ domain, c.threadAppDomain.lookup thread = some domain ∧ domain ≠ c.defaultDomainId := by
  simp only [isSnippetThread]
  split
  next hnone => simp [hnone]
  next domain hdomain => simp [hdomain]

/-- The thread is the main thread of a domain that is not the default one. -/
def SnippetMain (c : DomainData) (domain thread : DWORD) : Prop :=
  domain ≠ c.defaultDomainId ∧
    (c.appDomains.lookup domain).map AppDomainInfo.mainThreadId = some thread

instance (c : DomainData) (domain thread : DWORD) : Decidable (c.SnippetMain domain thread) :=
  inferInstanceAs (Decidable (_ ∧ _))

instance (c : DomainData) (thread : DWORD) : Decidable (c.Dangling thread) :=
  inferInstanceAs (Decidable (∃ domain ∈ c.threadAppDomain.lookup thread,
    c.appDomains.lookup domain = none))

end DomainData

/-- The task manager, the threads that descend from the main thread of a snippet
and the threads that run, each until it is passed to `RemoveTask`. The code keeps
neither set. -/
structure ThreadFamilies where
  manager : SHTaskManager
  snippetThreads : Finset DWORD
  liveThreads : Finset DWORD

namespace ThreadFamilies

def initial : ThreadFamilies := ⟨SHTaskManager.initial, ∅, ∅⟩

/-- Who belongs to a snippet after a call that led to `next`. A thread that
`CreateThread` did not create belongs to nobody. -/
def snippetThreadsAfter (s : ThreadFamilies) (next : SHTaskManager) :
    TaskAction → Finset DWORD
  | .onDomainCreate domain thread _ _ =>
      if next.domainData.SnippetMain domain thread then insert thread s.snippetThreads
      else s.snippetThreads
  | .createTask parent hThread thread =>
      if parent ∈ s.snippetThreads ∧ hThread.isSome then insert thread s.snippetThreads
      else s.snippetThreads
  | .removeTask thread => s.snippetThreads.erase thread
  | .getCurrentTask _ _ | .setCLRTask _ _ | .onDomainUnload _ => s.snippetThreads

def liveThreadsAfter (s : ThreadFamilies) : TaskAction → Finset DWORD
  | .onDomainCreate _ thread _ _ => insert thread s.liveThreads
  | .createTask parent hThread thread =>
      if hThread.isSome then insert thread (insert parent s.liveThreads)
      else insert parent s.liveThreads
  | .getCurrentTask thread _ => insert thread s.liveThreads
  | .removeTask thread => s.liveThreads.erase thread
  | .setCLRTask _ _ | .onDomainUnload _ => s.liveThreads

def step (s : ThreadFamilies) (a : TaskAction) : Except HostFault ThreadFamilies :=
  match s.manager.step a with
  | .ok next => .ok ⟨next, s.snippetThreadsAfter next a, s.liveThreadsAfter a⟩
  | .error fault => .error fault

theorem step_ok_iff {s next : ThreadFamilies} {a : TaskAction} :
    s.step a = .ok next ↔
      ∃ m, s.manager.step a = .ok m ∧
        next = ⟨m, s.snippetThreadsAfter m a, s.liveThreadsAfter a⟩ := by
  simp only [step]
  split
  next m hcall => simp [hcall, eq_comm]
  next fault hcall => simp [hcall]

/-- The first domain that is created comes with a manager. -/
def ManagerGiven (s : ThreadFamilies) : TaskAction → Prop
  | .onDomainCreate _ _ manager _ =>
      s.manager.domainData.defaultDomainManager = none → manager ≠ none
  | _ => True

instance (s : ThreadFamilies) (a : TaskAction) : Decidable (s.ManagerGiven a) :=
  match a with
  | .onDomainCreate .. => inferInstanceAs (Decidable (_ → _))
  | .getCurrentTask .. | .createTask .. | .setCLRTask .. | .removeTask ..
  | .onDomainUnload .. => isTrue trivial

/-- `CreateThread` does not return the id of a thread that runs. -/
def DistinctIds (s : ThreadFamilies) : TaskAction → Prop
  | .createTask parent (some _) thread => thread ∉ insert parent s.liveThreads
  | _ => True

instance (s : ThreadFamilies) (a : TaskAction) : Decidable (s.DistinctIds a) :=
  match a with
  | .createTask _ (some _) _ => inferInstanceAs (Decidable (_ ∉ _))
  | .createTask _ none _ | .getCurrentTask .. | .onDomainCreate .. | .setCLRTask ..
  | .removeTask .. | .onDomainUnload .. => isTrue trivial

/-- No task of a snippet thread gets its priority raised. -/
def Contained (s : ThreadFamilies) : Prop :=
  ∀ task : SHTask, task.nativeId ∈ s.snippetThreads →
    ∀ newPriority, newPriority > threadPriorityNormal →
      task.setPriority newPriority s.manager = .ignored

theorem contained_iff {s : ThreadFamilies} :
    s.Contained ↔
      ∀ thread ∈ s.snippetThreads, s.manager.domainData.isSnippetThread thread = true := by
  constructor
  · intro h thread hthread
    have hignored := h ⟨thread, none⟩ hthread 1 (by decide)
    exact (SHTask.setPriority_eq_ignored.mp hignored).2
  · intro h task htask newPriority hraise
    exact SHTask.setPriority_eq_ignored.mpr ⟨hraise, h task.nativeId htask⟩

/-- There is no snippet before a first domain has been created. -/
def EmptyAtFirst (s : ThreadFamilies) : Prop :=
  s.manager.domainData.defaultDomainManager = none → s.snippetThreads = ∅

/-- The step leaves no snippet thread mapped to the default domain: a thread
created by one does not come with an id that is mapped there, and none of them
creates a domain under the id of the default one. A call that throws because the
domain of its thread is gone does nothing. -/
def KeepsApart (s : ThreadFamilies) : TaskAction → Prop
  | .createTask parent hThread thread =>
      parent ∈ s.snippetThreads → hThread.isSome → ¬ s.manager.domainData.Dangling parent →
        s.manager.domainData.threadAppDomain.lookup thread ≠
          some s.manager.domainData.defaultDomainId
  | .onDomainCreate domain thread _ _ =>
      thread ∈ s.snippetThreads → ¬ s.manager.domainData.Dangling thread →
        domain ≠ s.manager.domainData.defaultDomainId
  | .getCurrentTask _ _ | .setCLRTask _ _ | .removeTask _ | .onDomainUnload _ => True

instance (s : ThreadFamilies) (a : TaskAction) : Decidable (s.KeepsApart a) :=
  match a with
  | .createTask .. => inferInstanceAs (Decidable (_ → _ → ¬ _ → _ ≠ _))
  | .onDomainCreate .. => inferInstanceAs (Decidable (_ → ¬ _ → _ ≠ _))
  | .getCurrentTask .. | .setCLRTask .. | .removeTask .. | .onDomainUnload .. => isTrue trivial

/-- A step that changes neither the mapping of the snippet threads nor the default
domain, and brings no new one. -/
theorem Contained.of_same {s next : ThreadFamilies} (hs : s.Contained)
    (hthreads : ∀ thread ∈ next.snippetThreads, thread ∈ s.snippetThreads ∧
      next.manager.domainData.threadAppDomain.lookup thread =
        s.manager.domainData.threadAppDomain.lookup thread)
    (hdefault : next.manager.domainData.defaultDomainId =
      s.manager.domainData.defaultDomainId) : next.Contained := by
  refine contained_iff.mpr ?_
  intro thread hthread
  obtain ⟨hmem, hsame⟩ := hthreads thread hthread
  obtain ⟨domain, hdomain, hne⟩ :=
    DomainData.isSnippetThread_iff.mp (contained_iff.mp hs thread hmem)
  refine DomainData.isSnippetThread_iff.mpr ⟨domain, ?_, ?_⟩
  · rw [hsame, hdomain]
  · rw [hdefault]
    exact hne

theorem removeTask_contained {s : ThreadFamilies} {thread : DWORD} {m : SHTaskManager}
    (hs : s.Contained) (h : s.manager.removeTask thread = .ok m) (live : Finset DWORD) :
    Contained ⟨m, s.snippetThreads.erase thread, live⟩ := by
  obtain ⟨exit, answer, hrelease⟩ := SHTaskManager.removeTask_ok h
  rcases DomainData.onThreadRelease_ok hrelease with
    ⟨-, hsame, -⟩ | ⟨domain, -, hmap, -, -, hdefault, -⟩
  · refine hs.of_same ?_ (congrArg DomainData.defaultDomainId hsame)
    intro other hother
    refine ⟨Finset.mem_of_mem_erase hother, ?_⟩
    exact congrArg (fun c => c.threadAppDomain.lookup other) hsame
  · refine hs.of_same ?_ hdefault
    intro other hother
    refine ⟨Finset.mem_of_mem_erase hother, ?_⟩
    show m.domainData.threadAppDomain.lookup other = _
    rw [hmap, StdMap.lookup_remove, if_neg (Finset.ne_of_mem_erase hother)]

/-- A snippet thread's child is mapped to the domain of its parent, unless its
id is mapped already. -/
theorem createTask_contained {s : ThreadFamilies} {parent thread : DWORD}
    {hThread : Option HANDLE} {m : SHTaskManager} {task : SHTask} (hs : s.Contained)
    (hcond : s.KeepsApart (.createTask parent hThread thread))
    (h : s.manager.createTask parent hThread thread = .ok (m, task)) (live : Finset DWORD) :
    Contained ⟨m, s.snippetThreadsAfter m (.createTask parent hThread thread), live⟩ := by
  have hmapped := contained_iff.mp hs
  obtain ⟨-, answer, hacquire⟩ := SHTaskManager.createTask_ok h
  obtain ⟨hparent, hsame, -⟩ | ⟨domain, info, hparent, hinfo, -, hsame⟩ :=
    DomainData.onThreadAcquire_ok hacquire
  · have hnot : parent ∉ s.snippetThreads := by
      intro hmem
      obtain ⟨domain, hdomain, -⟩ := DomainData.isSnippetThread_iff.mp (hmapped parent hmem)
      rw [hparent] at hdomain
      cases hdomain
    refine hs.of_same ?_ (congrArg DomainData.defaultDomainId hsame)
    intro other hother
    simp only [snippetThreadsAfter, hnot, false_and, if_false] at hother
    exact ⟨hother, congrArg (fun c => c.threadAppDomain.lookup other) hsame⟩
  · have hthreads : m.domainData.threadAppDomain =
        s.manager.domainData.threadAppDomain.insertNew thread domain := by rw [hsame]
    have hdefault : m.domainData.defaultDomainId = s.manager.domainData.defaultDomainId := by
      rw [hsame]
    have hold : ∀ other ∈ s.snippetThreads, m.domainData.isSnippetThread other = true := by
      intro other hother
      obtain ⟨d, hd, hne⟩ := DomainData.isSnippetThread_iff.mp (hmapped other hother)
      refine DomainData.isSnippetThread_iff.mpr ⟨d, ?_, ?_⟩
      · rw [hthreads, StdMap.lookup_insertNew_of_some hd]
      · rw [hdefault]
        exact hne
    refine contained_iff.mpr ?_
    intro other hother
    simp only [snippetThreadsAfter] at hother
    split at hother
    next hjoins =>
      rcases Finset.mem_insert.mp hother with rfl | hother
      · obtain ⟨d, hd, hne⟩ := DomainData.isSnippetThread_iff.mp (hmapped parent hjoins.1)
        rw [hparent] at hd
        cases hd
        have hlives : ¬ s.manager.domainData.Dangling parent := by
          rintro ⟨d, hd, hnone⟩
          rw [hparent] at hd
          cases hd
          rw [hinfo] at hnone
          cases hnone
        have hid := hcond hjoins.1 hjoins.2 hlives
        refine DomainData.isSnippetThread_iff.mpr ?_
        rw [hthreads, hdefault]
        cases hother : s.manager.domainData.threadAppDomain.lookup other with
        | none =>
            refine ⟨domain, ?_, hne⟩
            rw [StdMap.lookup_insertNew_of_none hother, if_pos rfl]
        | some stale =>
            refine ⟨stale, StdMap.lookup_insertNew_of_some hother _ _, ?_⟩
            rintro rfl
            exact hid hother
      · exact hold other hother
    next => exact hold other hother

/-- Where the creation of a domain maps a snippet thread. -/
theorem onDomainCreate_maps {c next : DomainData} {domain thread other : DWORD}
    {manager : Option DomainManager} {uninitialised : LONG}
    (h : c.onDomainCreate domain thread manager uninitialised = .ok next)
    (hother : c.isSnippetThread other = true) (hmanager : c.defaultDomainManager ≠ none)
    (hcond : other = thread → ¬ c.Dangling thread → domain ≠ c.defaultDomainId) :
    next.isSnippetThread other = true := by
  have hdefault := DomainData.onDomainCreate_default h
  rw [if_neg (by simpa using hmanager)] at hdefault
  obtain ⟨old, hold, hne⟩ := DomainData.isSnippetThread_iff.mp hother
  refine DomainData.isSnippetThread_iff.mpr ?_
  rw [DomainData.onDomainCreate_threads h, hdefault, StdMap.lookup_set]
  by_cases hsame : other = thread
  · refine ⟨domain, if_pos hsame, ?_⟩
    subst hsame
    by_cases hdangling : c.Dangling other
    · -- the call has returned all the same: the domain that was gone is the created one
      obtain ⟨gone, hgone, hnone⟩ := hdangling
      rw [hold] at hgone
      cases hgone
      obtain ⟨-, ⟨old', hold', hcreated, -⟩ | ⟨hunmapped, -⟩⟩ := DomainData.onDomainCreate_ok h
      · rw [hold] at hold'
        cases hold'
        rw [StdMap.lookup_insertNew] at hcreated
        split at hcreated
        next heq => exact heq.1 ▸ hne
        next => exact absurd hnone hcreated
      · rw [hold] at hunmapped
        cases hunmapped
    · exact hcond rfl hdangling
  · exact ⟨old, by rw [if_neg hsame, hold], hne⟩

/-- The thread of a created domain becomes the main thread of a snippet, or the
domain is the default one. -/
theorem onDomainCreate_contained {s : ThreadFamilies} {domain thread : DWORD}
    {manager : Option DomainManager} {uninitialised : LONG} {c : DomainData}
    {m : SHTaskManager} (hs : s.Contained) (hfirst : s.EmptyAtFirst)
    (hcond : s.KeepsApart (.onDomainCreate domain thread manager uninitialised))
    (h : s.manager.domainData.onDomainCreate domain thread manager uninitialised = .ok c)
    (hm : m.domainData = c) (live : Finset DWORD) :
    Contained ⟨m, s.snippetThreadsAfter m (.onDomainCreate domain thread manager uninitialised),
      live⟩ := by
  refine contained_iff.mpr ?_
  intro other hother
  rw [← hm] at h
  simp only [snippetThreadsAfter] at hother
  have hold : other ∈ s.snippetThreads → m.domainData.isSnippetThread other = true := by
    intro hmem
    refine onDomainCreate_maps h (contained_iff.mp hs other hmem) ?_ ?_
    · intro hnone
      rw [hfirst hnone] at hmem
      exact absurd hmem (Finset.notMem_empty other)
    · rintro rfl hlives
      exact hcond hmem hlives
  split at hother
  next hmain =>
    rcases Finset.mem_insert.mp hother with rfl | hmem
    · refine DomainData.isSnippetThread_iff.mpr ⟨domain, ?_, hmain.1⟩
      rw [DomainData.onDomainCreate_threads h, StdMap.lookup_set, if_pos rfl]
    · exact hold hmem
  next => exact hold hother

/-- A snippet thread creates a task under an id that is mapped to the default
domain: the child is not contained. -/
theorem not_contained_of_stale {s : ThreadFamilies} {parent thread : DWORD}
    {hThread : Option HANDLE} (hs : s.Contained) (hparent : parent ∈ s.snippetThreads)
    (hsome : hThread.isSome) (hlives : ¬ s.manager.domainData.Dangling parent)
    (hstale : s.manager.domainData.threadAppDomain.lookup thread =
      some s.manager.domainData.defaultDomainId) :
    ∃ next, s.step (.createTask parent hThread thread) = .ok next ∧ ¬ next.Contained := by
  obtain ⟨domain, hdomain, hne⟩ :=
    DomainData.isSnippetThread_iff.mp (contained_iff.mp hs parent hparent)
  obtain ⟨info, hinfo⟩ := Option.ne_none_iff_exists'.mp
    (fun hnone => hlives ⟨domain, hdomain, hnone⟩)
  have hacquire : ∃ c, s.manager.domainData.onThreadAcquire parent thread = .ok (c, true) ∧
      c.threadAppDomain = s.manager.domainData.threadAppDomain.insertNew thread domain ∧
      c.defaultDomainId = s.manager.domainData.defaultDomainId := by
    simp [DomainData.onThreadAcquire, hdomain, hinfo]
  obtain ⟨c, hacquire, hthreads, hdefault⟩ := hacquire
  obtain ⟨m, hcreate, rfl⟩ := SHTaskManager.createTask_of_acquire hacquire hThread
  refine ⟨_, step_ok_iff.mpr ⟨m, SHTaskManager.step_createTask hcreate, rfl⟩, ?_⟩
  intro hnext
  have hmem : thread ∈ s.snippetThreadsAfter m (.createTask parent hThread thread) := by
    simp [snippetThreadsAfter, hparent, hsome]
  obtain ⟨d, hd, hd'⟩ :=
    DomainData.isSnippetThread_iff.mp (contained_iff.mp hnext thread hmem)
  rw [hthreads, StdMap.lookup_insertNew_of_some hstale] at hd
  rw [hdefault] at hd'
  cases hd
  exact hd' rfl

/-- A snippet thread creates a domain under the id of the default one, which
takes it over. -/
theorem not_contained_of_default {s : ThreadFamilies} {domain thread : DWORD}
    (manager : Option DomainManager) (uninitialised : LONG) (hfirst : s.EmptyAtFirst)
    (hthread : thread ∈ s.snippetThreads) (hlives : ¬ s.manager.domainData.Dangling thread)
    (hdomain : domain = s.manager.domainData.defaultDomainId) :
    ∃ next, s.step (.onDomainCreate domain thread manager uninitialised) = .ok next ∧
      ¬ next.Contained := by
  obtain ⟨c, hcall⟩ : ∃ c,
      s.manager.domainData.onDomainCreate domain thread manager uninitialised = .ok c := by
    cases hcall : s.manager.domainData.onDomainCreate domain thread manager uninitialised with
    | ok c => exact ⟨c, rfl⟩
    | error fault => exact absurd (DomainData.onDomainCreate_error hcall).2 hlives
  let m : SHTaskManager := { s.manager with
    hostContext := { s.manager.hostContext with toDomainData := c } }
  have hstep : s.manager.step (.onDomainCreate domain thread manager uninitialised) = .ok m :=
    SHTaskManager.onDomainCreate_ok_iff.mpr ⟨c, hcall, rfl⟩
  refine ⟨_, step_ok_iff.mpr ⟨m, hstep, rfl⟩, ?_⟩
  intro hnext
  have hmem : thread ∈
      s.snippetThreadsAfter m (.onDomainCreate domain thread manager uninitialised) := by
    simp only [snippetThreadsAfter]
    split
    next => exact Finset.mem_insert_self thread _
    next => exact hthread
  obtain ⟨d, hd, hne⟩ :=
    DomainData.isSnippetThread_iff.mp (contained_iff.mp hnext thread hmem)
  have hthreads : m.domainData.threadAppDomain.lookup thread = some domain := by
    rw [DomainData.onDomainCreate_threads hcall, StdMap.lookup_set, if_pos rfl]
  have hmanager : s.manager.domainData.defaultDomainManager ≠ none := by
    intro hnone
    rw [hfirst hnone] at hthread
    exact absurd hthread (Finset.notMem_empty thread)
  have hdefault : m.domainData.defaultDomainId = s.manager.domainData.defaultDomainId := by
    rw [DomainData.onDomainCreate_default hcall, if_neg (by simpa using hmanager)]
  rw [hthreads] at hd
  cases hd
  exact hne (hdomain.trans hdefault.symm)

/-- The step lemma: it is exactly `KeepsApart` that keeps the snippet threads
contained. -/
theorem step_contained_iff (s : ThreadFamilies) (a : TaskAction) (hs : s.Contained)
    (hfirst : s.EmptyAtFirst) :
    s.KeepsApart a ↔ ∀ next, s.step a = .ok next → next.Contained := by
  cases a with
  | getCurrentTask current hThread =>
      simp only [KeepsApart, true_iff]
      intro next h
      obtain ⟨m, hcall, rfl⟩ := step_ok_iff.mp h
      cases hcall
      have hsame := SHTaskManager.getCurrentTask_domainData current hThread s.manager
      refine hs.of_same ?_ (congrArg DomainData.defaultDomainId hsame)
      intro other hother
      exact ⟨hother, congrArg (fun c => c.threadAppDomain.lookup other) hsame⟩
  | setCLRTask | onDomainUnload =>
      simp only [KeepsApart, true_iff]
      intro next h
      obtain ⟨m, hcall, rfl⟩ := step_ok_iff.mp h
      cases hcall
      exact hs.of_same (fun other hother => ⟨hother, rfl⟩) rfl
  | removeTask thread =>
      simp only [KeepsApart, true_iff]
      intro next h
      obtain ⟨m, hcall, rfl⟩ := step_ok_iff.mp h
      exact removeTask_contained hs hcall _
  | createTask parent hThread thread =>
      constructor
      · intro hcond next h
        obtain ⟨m, hcall, rfl⟩ := step_ok_iff.mp h
        obtain ⟨task, hcreate⟩ := HostContext.map_fst_ok hcall
        exact createTask_contained hs hcond hcreate _
      · intro hnext hparent hsome hlives hstale
        obtain ⟨next, hstep, hbroken⟩ :=
          not_contained_of_stale hs hparent hsome hlives hstale
        exact hbroken (hnext next hstep)
  | onDomainCreate domain thread manager uninitialised =>
      constructor
      · intro hcond next h
        obtain ⟨m, hcall, rfl⟩ := step_ok_iff.mp h
        obtain ⟨c, hcreate, hm⟩ := SHTaskManager.onDomainCreate_ok_iff.mp hcall
        exact onDomainCreate_contained hs hfirst hcond hcreate (by rw [hm]) _
      · intro hnext hthread hlives hdomain
        obtain ⟨next, hstep, hbroken⟩ := not_contained_of_default manager uninitialised
          hfirst hthread hlives hdomain
        exact hbroken (hnext next hstep)

/-- Before the first domain nobody belongs to a snippet, whatever the threads do. -/
theorem step_emptyAtFirst (s : ThreadFamilies) (a : TaskAction) (next : ThreadFamilies)
    (hfirst : s.EmptyAtFirst) (hgiven : s.ManagerGiven a) (h : s.step a = .ok next) :
    next.EmptyAtFirst := by
  obtain ⟨m, hcall, rfl⟩ := step_ok_iff.mp h
  cases a with
  | getCurrentTask current hThread =>
      cases hcall
      intro hnone
      rw [SHTaskManager.getCurrentTask_domainData] at hnone
      exact hfirst hnone
  | setCLRTask | onDomainUnload =>
      cases hcall
      exact hfirst
  | removeTask thread =>
      obtain ⟨exit, answer, hrelease⟩ := SHTaskManager.removeTask_ok hcall
      have hmanager : m.domainData.defaultDomainManager =
          s.manager.domainData.defaultDomainManager := by
        rcases DomainData.onThreadRelease_ok hrelease with
          ⟨-, hsame, -⟩ | ⟨domain, -, -, -, hmanager, -, -⟩
        · rw [hsame]
        · exact hmanager
      intro hnone
      rw [hmanager] at hnone
      show s.snippetThreads.erase thread = ∅
      rw [hfirst hnone, Finset.erase_empty]
  | createTask parent hThread thread =>
      obtain ⟨task, hcreate⟩ := HostContext.map_fst_ok hcall
      obtain ⟨-, answer, hacquire⟩ := SHTaskManager.createTask_ok hcreate
      have hmanager : m.domainData.defaultDomainManager =
          s.manager.domainData.defaultDomainManager := by
        obtain ⟨-, hsame, -⟩ | ⟨domain, info, -, -, -, hsame⟩ :=
          DomainData.onThreadAcquire_ok hacquire <;> rw [hsame]
      intro hnone
      rw [hmanager] at hnone
      simp [snippetThreadsAfter, hfirst hnone]
  | onDomainCreate domain thread manager uninitialised =>
      obtain ⟨c, hcreate, hm⟩ := SHTaskManager.onDomainCreate_ok_iff.mp hcall
      intro hnone
      exfalso
      have hnone' : c.defaultDomainManager = none := by
        rw [hm] at hnone
        exact hnone
      rw [DomainData.onDomainCreate_manager hcreate] at hnone'
      cases hbefore : s.manager.domainData.defaultDomainManager with
      | none =>
          rw [hbefore] at hnone'
          exact hgiven hbefore hnone'
      | some defaultManager =>
          rw [hbefore] at hnone'
          cases hnone'

/-- If the first domain comes with a manager, no descendant of a snippet ever
gets its priority raised, if and only if every step of the run keeps the snippet
threads apart from the default domain. -/
theorem priority_contained_iff {actions : List TaskAction}
    (hgiven : Meets step ManagerGiven initial actions) :
    Always step Contained initial actions ↔ Meets step KeepsApart initial actions := by
  have hfirst : Always step EmptyAtFirst initial actions :=
    always_of_meets step_emptyAtFirst (fun _ => rfl) hgiven
  refine always_iff_meets_of_meets (fun s a hs hfirst => step_contained_iff s a hs hfirst) ?_
    hfirst.meets
  refine contained_iff.mpr ?_
  intro thread hthread
  exact absurd hthread (Finset.notMem_empty thread)

/-- Two generations of threads outlive their ancestor and their domain. -/
def orphans : List TaskAction :=
  [.onDomainCreate 1 10 (some 0) 0, .onDomainCreate 2 20 (some 1) 0,
    .createTask 20 (some 64) 21, .createTask 21 (some 68) 22, .removeTask 20,
    .onDomainUnload 2]

theorem priority_contained_orphans : Always step Contained initial orphans :=
  (priority_contained_iff (by decide)).mpr (by decide)

/-- `CreateThread` fails for a thread of the default domain, and the id its
variable happens to hold is mapped to that domain. A snippet's thread gets the
same id later and may raise its priority. -/
def staleId : List TaskAction :=
  [.onDomainCreate 1 10 (some 0) 0, .createTask 10 none 8,
    .onDomainCreate 2 20 (some 1) 0, .createTask 20 (some 64) 8]

theorem stale_id_escapes :
    Meets step ManagerGiven initial staleId ∧ Meets step DistinctIds initial staleId ∧
      ¬ Always step Contained initial staleId := by
  refine ⟨by decide, by decide, ?_⟩
  intro halways
  have hrun : Reaches step (fun s => 8 ∈ s.snippetThreads ∧
      SHTask.setPriority 1 s.manager ⟨8, some 64⟩ = .setThreadPriority (some 64) 1)
      initial staleId := by decide
  obtain ⟨s, hrun, hmem, hraised⟩ := reaches_iff.mp hrun
  have hignored := halways.last hrun ⟨8, some 64⟩ hmem 1 (by decide)
  rw [hraised] at hignored
  cases hignored

end ThreadFamilies

end HostedPumpkin
