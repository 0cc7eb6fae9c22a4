import HostedPumpkin.Threading.TaskManager

/-!
The thread cap of a snippet. The limit is tested in `OnThreadAcquiring`,
`CreateTask` is to decide what follows from the answer, and the count is raised
in `OnThreadAcquire`. Since `CreateTask` drops the answer, the cap holds exactly
in the runs in which nobody goes beyond it.
-/

namespace HostedPumpkin

open Runs

namespace DomainData

/-- No domain but the default one has more threads than it may have. -/
def ThreadsCapped (c : DomainData) : Prop :=
  ∀ domain, domain ≠ c.defaultDomainId →
    ((c.threadAppDomain.fiber domain).card : LONG) ≤ maxThreadPerDomain

/-- The domain has room for one thread next to the others mapped to it, or it is
the default domain and needs none. -/
def RoomFor (c : DomainData) (domain thread : DWORD) : Prop :=
  domain ≠ c.defaultDomainId →
    (((c.threadAppDomain.fiber domain).erase thread).card : LONG) < maxThreadPerDomain

/-- The creation of a domain throws: it moves a thread whose domain has no
record and is not the one that is created. -/
def CreateThrows (c : DomainData) (domain thread : DWORD) : Prop :=
  ∃ old, c.threadAppDomain.lookup thread = some old ∧ old ≠ domain ∧
    c.appDomains.lookup old = none

theorem onDomainCreate_ok_of_not_throws {c : DomainData} {domain thread : DWORD}
    (h : ¬ c.CreateThrows domain thread) (manager : Option DomainManager)
    (uninitialised : LONG) :
    ∃ next, c.onDomainCreate domain thread manager uninitialised = .ok next := by
  cases hcall : c.onDomainCreate domain thread manager uninitialised with
  | ok next => exact ⟨next, rfl⟩
  | error fault =>
      exfalso
      apply h
      simp only [onDomainCreate] at hcall
      cases hthread : c.threadAppDomain.lookup thread with
      | none => simp [hthread] at hcall
      | some old =>
          simp only [hthread] at hcall
          split at hcall
          next hnone =>
            rw [StdMap.lookup_insertNew] at hnone
            split at hnone
            next => cases hnone
            next hcond =>
              refine ⟨old, hthread, ?_, hnone⟩
              rintro rfl
              exact hcond ⟨rfl, hnone⟩
          next => cases hcall

theorem not_createThrows {c next : DomainData} {domain thread : DWORD}
    {manager : Option DomainManager} {uninitialised : LONG}
    (h : c.onDomainCreate domain thread manager uninitialised = .ok next) :
    ¬ c.CreateThrows domain thread := by
  rintro ⟨old, hthread, hne, hnone⟩
  obtain ⟨-, ⟨old', hthread', hcreated, -⟩ | ⟨hthread', -⟩⟩ := onDomainCreate_ok h
  · rw [hthread] at hthread'
    cases hthread'
    apply hcreated
    rw [StdMap.lookup_insertNew, if_neg (fun hcond => hne hcond.1)]
    exact hnone
  · rw [hthread] at hthread'
    cases hthread'

theorem onDomainCreate_fiber {c next : DomainData} {domain thread : DWORD}
    {manager : Option DomainManager} {uninitialised : LONG}
    (h : c.onDomainCreate domain thread manager uninitialised = .ok next) (d : DWORD) :
    next.threadAppDomain.fiber d =
      if d = domain then insert thread (c.threadAppDomain.fiber d)
      else (c.threadAppDomain.fiber d).erase thread := by
  rw [onDomainCreate_threads h, StdMap.fiber_set]

theorem card_insert_le_iff {threads : Finset DWORD} {thread : DWORD} {bound : LONG} :
    ((insert thread threads).card : LONG) ≤ bound ↔
      ((threads.erase thread).card : LONG) < bound := by
  have hsame : insert thread (threads.erase thread) = insert thread threads := by
    ext other
    by_cases hother : other = thread <;> simp [hother]
  have hcard : (insert thread threads).card = (threads.erase thread).card + 1 := by
    rw [← hsame]
    exact Finset.card_insert_of_notMem (Finset.notMem_erase thread threads)
  rw [hcard, Nat.cast_succ, Int.add_one_le_iff]

/-- What the creation of a domain must find for the cap to hold after it. Once
the default domain is known, the created domain must have room for the thread.
Before that it becomes the default domain itself, and the cap now applies to
the domain that was taken for it. -/
def CreatesWithinCap (c : DomainData) (domain thread : DWORD) : Prop :=
  if c.defaultDomainManager.isNone then
    c.defaultDomainId ≠ domain →
      (((c.threadAppDomain.fiber c.defaultDomainId).erase thread).card : LONG) ≤
        maxThreadPerDomain
  else c.RoomFor domain thread

theorem onDomainCreate_threadsCapped_iff {c next : DomainData} {domain thread : DWORD}
    {manager : Option DomainManager} {uninitialised : LONG} (hc : c.ThreadsCapped)
    (h : c.onDomainCreate domain thread manager uninitialised = .ok next) :
    next.ThreadsCapped ↔ c.CreatesWithinCap domain thread := by
  have hdefault := onDomainCreate_default h
  have hfiber := onDomainCreate_fiber h
  have herase : ∀ d, (((c.threadAppDomain.fiber d).erase thread).card : LONG) ≤
      ((c.threadAppDomain.fiber d).card : LONG) := by
    intro d
    exact_mod_cast Finset.card_erase_le
  by_cases hmanager : c.defaultDomainManager.isNone
  · rw [if_pos hmanager] at hdefault
    rw [CreatesWithinCap, if_pos hmanager]
    constructor
    · intro hnext hne
      have hcap := hnext c.defaultDomainId (by rw [hdefault]; exact hne)
      rwa [hfiber, if_neg hne] at hcap
    · intro hold d hd
      rw [hdefault] at hd
      rw [hfiber, if_neg hd]
      by_cases hsame : d = c.defaultDomainId
      · subst hsame
        exact hold hd
      · exact (herase d).trans (hc d hsame)
  · rw [if_neg hmanager] at hdefault
    rw [CreatesWithinCap, if_neg hmanager]
    constructor
    · intro hnext hne
      have hcap := hnext domain (by rw [hdefault]; exact hne)
      rwa [hfiber, if_pos rfl, card_insert_le_iff] at hcap
    · intro hroom d hd
      rw [hdefault] at hd
      rw [hfiber]
      split
      next hsame =>
        subst hsame
        exact card_insert_le_iff.mpr (hroom hd)
      next => exact (herase d).trans (hc d hd)

/-- What a thread acquired for a parent must find: if its id is not mapped yet,
the domain of the parent has room for it. -/
def AcquiresWithinCap (c : DomainData) (parent thread : DWORD) : Prop :=
  ∀ domain, c.threadAppDomain.lookup parent = some domain →
    c.appDomains.lookup domain ≠ none → c.threadAppDomain.lookup thread = none →
      c.RoomFor domain thread

theorem onThreadAcquire_threadsCapped_iff {c : DomainData} {parent thread : DWORD}
    (hc : c.ThreadsCapped) :
    c.AcquiresWithinCap parent thread ↔
      ∀ next answer, c.onThreadAcquire parent thread = .ok (next, answer) →
        next.ThreadsCapped := by
  constructor
  · intro hroom next answer h
    obtain ⟨-, rfl, -⟩ | ⟨domain, info, hparent, hinfo, -, rfl⟩ := onThreadAcquire_ok h
    · exact hc
    · intro d hd
      cases hthread : c.threadAppDomain.lookup thread with
      | some old =>
          have hmem : thread ∈ c.threadAppDomain := Finmap.mem_of_lookup_eq_some hthread
          simp only [StdMap.insertNew, if_pos hmem]
          exact hc d hd
      | none =>
          rw [StdMap.fiber_insertNew_of_none hthread]
          split
          next hsame =>
            subst hsame
            exact card_insert_le_iff.mpr (hroom d hparent (by simp [hinfo]) hthread hd)
          next => exact hc d hd
  · intro hnext domain hparent hdomain hthread hne
    obtain ⟨info, hinfo⟩ := Option.ne_none_iff_exists'.mp hdomain
    have hacquire : ∃ next, c.onThreadAcquire parent thread = .ok (next, true) ∧
        next.threadAppDomain = c.threadAppDomain.insertNew thread domain ∧
        next.defaultDomainId = c.defaultDomainId := by
      simp [onThreadAcquire, hparent, hinfo]
    obtain ⟨next, hacquire, hmap, hdefault⟩ := hacquire
    have hcap := hnext next true hacquire domain (by rw [hdefault]; exact hne)
    rwa [hmap, StdMap.fiber_insertNew_of_none hthread, if_pos rfl, card_insert_le_iff] at hcap

theorem onThreadRelease_threadsCapped {c next : DomainData} {thread : DWORD}
    {exit : Option MainThreadExit} {answer : Bool} (hc : c.ThreadsCapped)
    (h : c.onThreadRelease thread = .ok (next, exit, answer)) : next.ThreadsCapped := by
  rcases onThreadRelease_ok h with ⟨-, rfl, -⟩ | ⟨domain, -, hmap, -, -, hdefault, -⟩
  · exact hc
  · intro d hd
    rw [hdefault] at hd
    rw [hmap, StdMap.fiber_remove]
    have herase : (((c.threadAppDomain.fiber d).erase thread).card : LONG) ≤
        ((c.threadAppDomain.fiber d).card : LONG) := by
      exact_mod_cast Finset.card_erase_le
    exact herase.trans (hc d hd)

end DomainData

namespace SHTaskManager

/-- The step takes no snippet domain beyond the cap. -/
def WithinCap (m : SHTaskManager) : TaskAction → Prop
  | .createTask parent _ thread => m.domainData.AcquiresWithinCap parent thread
  | .onDomainCreate domain thread _ _ =>
      ¬ m.domainData.CreateThrows domain thread →
        m.domainData.CreatesWithinCap domain thread
  | .getCurrentTask _ _ | .setCLRTask _ _ | .removeTask _ | .onDomainUnload _ => True

theorem step_threadsCapped_iff (m : SHTaskManager) (a : TaskAction)
    (hm : m.domainData.ThreadsCapped) :
    m.WithinCap a ↔ ∀ next, m.step a = .ok next → next.domainData.ThreadsCapped := by
  cases a with
  | getCurrentTask current hThread =>
      simp only [WithinCap, true_iff]
      rintro next ⟨⟩
      rw [getCurrentTask_domainData]
      exact hm
  | createTask parent hThread thread =>
      rw [WithinCap, DomainData.onThreadAcquire_threadsCapped_iff hm]
      constructor
      · intro hacquire next h
        obtain ⟨task, hcall⟩ := HostContext.map_fst_ok h
        obtain ⟨-, answer, hcall⟩ := createTask_ok hcall
        exact hacquire next.domainData answer hcall
      · intro hnext c answer hcall
        obtain ⟨next, hcreate, rfl⟩ := createTask_of_acquire hcall hThread
        exact hnext next (step_createTask hcreate)
  | setCLRTask task pCLRTask =>
      simp only [WithinCap, true_iff]
      rintro next ⟨⟩
      exact hm
  | removeTask thread =>
      simp only [WithinCap, true_iff]
      intro next h
      obtain ⟨exit, answer, hrelease⟩ := removeTask_ok h
      exact DomainData.onThreadRelease_threadsCapped hm hrelease
  | onDomainCreate domain thread manager uninitialised =>
      constructor
      · intro hcond next h
        obtain ⟨c, hcall, rfl⟩ := onDomainCreate_ok_iff.mp h
        exact (DomainData.onDomainCreate_threadsCapped_iff hm hcall).mpr
          (hcond (DomainData.not_createThrows hcall))
      · intro hnext hthrows
        obtain ⟨c, hcall⟩ :=
          DomainData.onDomainCreate_ok_of_not_throws hthrows manager uninitialised
        refine (DomainData.onDomainCreate_threadsCapped_iff hm hcall).mp ?_
        exact hnext _ (onDomainCreate_ok_iff.mpr ⟨c, hcall, rfl⟩)
  | onDomainUnload domain =>
      simp only [WithinCap, true_iff]
      rintro next ⟨⟩
      exact hm

/-- No snippet domain ever has more threads than it may have, if and only if no
step of the run takes one beyond the cap. -/
theorem threads_capped_iff (actions : List TaskAction) :
    Always step (fun m => m.domainData.ThreadsCapped) initial actions ↔
      Meets step WithinCap initial actions := by
  refine always_iff_meets step_threadsCapped_iff ?_
  intro domain hdomain
  have hempty : initial.domainData.threadAppDomain.fiber domain = ∅ := by
    ext thread
    simp [initial, HostContext.initial]
  rw [hempty]
  decide

/-- The main thread 20 of domain 2 creates nine threads. -/
def forkBomb : List TaskAction :=
  [.onDomainCreate 1 10 (some 0) 0, .onDomainCreate 2 20 (some 1) 0] ++
    [21, 22, 23, 24, 25, 26, 27, 28, 29].map (fun thread => .createTask 20 (some 64) thread)

/-- The host refuses the tenth, and `CreateTask` creates it. -/
theorem thread_cap_exceeded :
    (∃ m, run step initial forkBomb = .ok m ∧
      m.domainData.threadAcquiring 20 = .ok (some 2, false) ∧
      ∃ next, m.step (.createTask 20 (some 64) 30) = .ok next ∧
        (2 : DWORD) ≠ next.domainData.defaultDomainId ∧
        (next.domainData.threadAppDomain.fiber 2).card = 11) ∧
      ¬ ∀ actions, Always step (fun m => m.domainData.ThreadsCapped) initial actions := by
  have hrun : Reaches step (fun m => m.domainData.threadAcquiring 20 = .ok (some 2, false) ∧
      Reaches step (fun next => (2 : DWORD) ≠ next.domainData.defaultDomainId ∧
        (next.domainData.threadAppDomain.fiber 2).card = 11) m
          [.createTask 20 (some 64) 30]) initial forkBomb := by decide
  obtain ⟨m, hrun, hrefused, next, hstep, hne, hcard⟩ := reaches_iff.mp hrun
  refine ⟨⟨m, hrun, hrefused, next, hstep, hne, hcard⟩, ?_⟩
  intro hall
  have hlast : run step initial (forkBomb ++ [.createTask 20 (some 64) 30]) = .ok next := by
    rw [run_append_ok hrun]
    exact run_cons_ok hstep []
  have hcap := (hall _).last hlast 2 hne
  rw [hcard] at hcap
  revert hcap
  decide

end SHTaskManager

end HostedPumpkin
