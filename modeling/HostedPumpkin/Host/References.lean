import HostedPumpkin.Host.Operations

/-!
Referential integrity between `threadAppDomain` and `appDomains`. The lookups
through `appDomains.at` rely on every recorded thread having a domain with a
record, while an unload and the exit of a main thread erase domains without
looking at the threads. Integrity holds throughout a run exactly when no step
erases a domain that some other recorded thread still belongs to.
-/

namespace HostedPumpkin

open Runs

namespace DomainData

/-- Every recorded thread is mapped to a domain that has a record. -/
def ThreadsHaveDomain (c : DomainData) : Prop :=
  ∀ thread domain, c.threadAppDomain.lookup thread = some domain →
    c.appDomains.lookup domain ≠ none

/-- What thread accounting reads of a domain: main thread and counter. -/
def threadRecord (c : DomainData) (domain : DWORD) : Option (DWORD × LONG) :=
  (c.appDomains.lookup domain).map (fun info => (info.mainThreadId, info.threadsInAppDomain))

theorem threadRecord_eq_none {c : DomainData} {domain : DWORD} :
    c.threadRecord domain = none ↔ c.appDomains.lookup domain = none := by
  simp [threadRecord]

/-- Two states that thread accounting cannot tell apart. -/
structure SameThreads (c next : DomainData) : Prop where
  threads : next.threadAppDomain = c.threadAppDomain
  records : ∀ domain, next.threadRecord domain = c.threadRecord domain

theorem SameThreads.refl (c : DomainData) : SameThreads c c := ⟨rfl, fun _ => rfl⟩

/-- An update of one record that leaves main thread and counter alone. -/
theorem sameThreads_modify {c next : DomainData} {domain : DWORD}
    {f : AppDomainInfo → AppDomainInfo}
    (hf : ∀ info, (f info).mainThreadId = info.mainThreadId ∧
      (f info).threadsInAppDomain = info.threadsInAppDomain)
    (hthreads : next.threadAppDomain = c.threadAppDomain)
    (happ : next.appDomains = c.appDomains.modify domain f) : SameThreads c next := by
  refine ⟨hthreads, ?_⟩
  intro d
  simp only [threadRecord, happ, StdMap.lookup_modify]
  split
  next h =>
    subst h
    cases c.appDomains.lookup d with
    | none => rfl
    | some info => simp [hf info]
  next => rfl

theorem onMemoryAcquire_sameThreads (thread : DWORD) (bytes : LONG) (address : PVOID)
    (c : DomainData) : SameThreads c (c.onMemoryAcquire thread bytes address) := by
  simp only [onMemoryAcquire]
  split
  next => exact SameThreads.refl c
  next =>
    split
    next => exact SameThreads.refl c
    next =>
      split
      next => exact SameThreads.refl c
      next =>
        refine sameThreads_modify ?_ rfl rfl
        exact fun _ => ⟨rfl, rfl⟩

theorem onMemoryRelease_sameThreads (address : PVOID) (c : DomainData) :
    SameThreads c (c.onMemoryRelease address).1 := by
  simp only [onMemoryRelease]
  split
  next => exact SameThreads.refl c
  next =>
    split
    next => exact SameThreads.refl c
    next =>
      refine sameThreads_modify ?_ rfl rfl
      exact fun _ => ⟨rfl, rfl⟩

theorem threadRecord_reset (c : DomainData) (domain d : DWORD) :
    (c.rawResetCountersForAppDomain domain).threadRecord d =
      if d = domain then (c.threadRecord domain).map (fun r => (r.1, 1))
      else c.threadRecord d := by
  simp only [threadRecord, rawResetCountersForAppDomain, StdMap.lookup_modify]
  split
  next => cases c.appDomains.lookup domain <;> rfl
  next => rfl

theorem threadsHaveDomain_iff_not_dangling {c : DomainData} :
    c.ThreadsHaveDomain ↔ ∀ thread, ¬ c.Dangling thread := by
  constructor
  · rintro h thread ⟨domain, hthread, hdomain⟩
    exact h thread domain hthread hdomain
  · intro h thread domain hthread hdomain
    exact h thread ⟨domain, hthread, hdomain⟩

theorem SameThreads.threadsHaveDomain {c next : DomainData} (h : SameThreads c next)
    (hc : c.ThreadsHaveDomain) : next.ThreadsHaveDomain := by
  intro thread domain hthread hnone
  rw [h.threads] at hthread
  rw [← threadRecord_eq_none, h.records, threadRecord_eq_none] at hnone
  exact hc thread domain hthread hnone

theorem reset_threadsHaveDomain {c : DomainData} (domain : DWORD)
    (hc : c.ThreadsHaveDomain) :
    (c.rawResetCountersForAppDomain domain).ThreadsHaveDomain := by
  intro thread d hthread hnone
  simp only [rawResetCountersForAppDomain, StdMap.lookup_modify_eq_none] at hnone
  exact hc thread d hthread hnone

/-- Creating a domain records it before any thread is mapped to it. -/
theorem onDomainCreate_threadsHaveDomain {c next : DomainData} {domain thread : DWORD}
    {manager : Option DomainManager} {uninitialised : LONG} (hc : c.ThreadsHaveDomain)
    (h : c.onDomainCreate domain thread manager uninitialised = .ok next) :
    next.ThreadsHaveDomain := by
  have hcreated : ∀ d, d = domain ∨ c.appDomains.lookup d ≠ none →
      (c.appDomains.insertNew domain
        (AppDomainInfo.new thread manager uninitialised)).lookup d ≠ none := by
    intro d hd
    rw [StdMap.lookup_insertNew]
    split
    next => simp
    next hcond =>
      rcases hd with rfl | hsome
      · exact fun hnone => hcond ⟨rfl, hnone⟩
      · exact hsome
  obtain ⟨-, ⟨old, hthread, -, happ, hmap⟩ | ⟨hthread, happ, hmap⟩⟩ := onDomainCreate_ok h
  · intro u d hu
    rw [happ, Ne, StdMap.lookup_modify_eq_none]
    rw [hmap, StdMap.lookup_set] at hu
    split at hu
    next =>
      cases hu
      exact hcreated _ (Or.inl rfl)
    next => exact hcreated _ (Or.inr (hc u d hu))
  · intro u d hu
    rw [happ]
    rw [hmap, StdMap.lookup_insertNew_of_none hthread] at hu
    split at hu
    next =>
      cases hu
      exact hcreated _ (Or.inl rfl)
    next => exact hcreated _ (Or.inr (hc u d hu))

theorem onThreadAcquire_threadsHaveDomain {c next : DomainData} {parent thread : DWORD}
    {answer : Bool} (hc : c.ThreadsHaveDomain)
    (h : c.onThreadAcquire parent thread = .ok (next, answer)) :
    next.ThreadsHaveDomain := by
  obtain ⟨-, rfl, -⟩ | ⟨domain, info, hparent, hdomain, -, rfl⟩ := onThreadAcquire_ok h
  · exact hc
  · intro u d hu
    rw [Ne, StdMap.lookup_modify_eq_none]
    rw [StdMap.lookup_insertNew] at hu
    split at hu
    next =>
      cases hu
      exact hc parent _ hparent
    next => exact hc u d hu

/-- No thread is mapped to the domain. -/
def Unused (c : DomainData) (domain : DWORD) : Prop :=
  ∀ thread, c.threadAppDomain.lookup thread ≠ some domain

theorem eraseDomain_threadsHaveDomain_iff {c : DomainData} {domain : DWORD}
    (hc : c.ThreadsHaveDomain) :
    (c.eraseDomain domain).ThreadsHaveDomain ↔ c.Unused domain := by
  constructor
  · intro h thread hthread
    have hpresent := h thread domain hthread
    simp [eraseDomain, StdMap.lookup_remove] at hpresent
  · intro hunused u d hu
    have hne : d ≠ domain := by
      rintro rfl
      exact hunused u hu
    simpa [eraseDomain, StdMap.lookup_remove, hne] using hc u d hu

/-- If this thread is the main thread of its domain, so that its release erases
the domain, no other thread is mapped to that domain. -/
def ReleaseEndsDomain (c : DomainData) (thread : DWORD) : Prop :=
  ∀ domain info, c.ReleasesMainThread thread domain info → c.defaultDomainManager ≠ none →
    ∀ other, other ≠ thread → c.threadAppDomain.lookup other ≠ some domain

theorem onThreadRelease_threadsHaveDomain_iff {c : DomainData} {thread : DWORD}
    (hc : c.ThreadsHaveDomain) :
    c.ReleaseEndsDomain thread ↔ ∀ next exit answer,
      c.onThreadRelease thread = .ok (next, exit, answer) → next.ThreadsHaveDomain := by
  constructor
  · intro hcond next exit answer h
    rcases onThreadRelease_ok h with ⟨-, rfl, -⟩ | ⟨domain, hthread, hmap, -, -, -, hcases⟩
    · exact hc
    · intro u d hu
      rw [hmap, StdMap.lookup_remove] at hu
      split at hu
      next => cases hu
      next hne =>
        rcases hcases with ⟨-, happ, -⟩ | ⟨info, hmain, hmanager, happ, -⟩ |
          ⟨info, -, -, happ, -⟩
        · rw [happ]
          exact hc u d hu
        · have hd : d ≠ domain := by
            rintro rfl
            exact hcond _ info hmain hmanager u hne hu
          rw [happ, if_neg hd]
          exact hc u d hu
        · rw [happ, Ne, StdMap.lookup_modify_eq_none]
          exact hc u d hu
  · intro hnext domain info hmain hmanager other hne hother
    -- the release does return, since there is a manager to call
    have hok : ∃ next exit, c.onThreadRelease thread = .ok (next, exit, true) ∧
        next.appDomains.lookup domain = none ∧
        next.threadAppDomain = c.threadAppDomain.remove thread := by
      obtain ⟨manager, hmanager⟩ := Option.ne_none_iff_exists'.mp hmanager
      obtain ⟨hthread, hdomain, hid⟩ := hmain
      simp [onThreadRelease, hthread, hdomain, hid, hmanager, StdMap.lookup_remove]
    obtain ⟨next, exit, hok, hnone, hmap⟩ := hok
    refine hnext next exit true hok other domain ?_ hnone
    rw [hmap, StdMap.lookup_remove, if_neg hne]
    exact hother

end DomainData

namespace HostContext

/-- A step erases a domain only if no other recorded thread belongs to it. -/
def ErasesUnused (s : HostContext) : HostOp → Prop
  | .onDomainUnload domain => s.toDomainData.Unused domain
  | .onThreadRelease thread => s.toDomainData.ReleaseEndsDomain thread
  | _ => True

theorem step_threadsHaveDomain_iff (s : HostContext) (op : HostOp)
    (hs : s.toDomainData.ThreadsHaveDomain) :
    s.ErasesUnused op ↔
      ∀ next, s.step op = .ok next → next.toDomainData.ThreadsHaveDomain := by
  cases op with
  | onDomainUnload domain =>
      simp only [ErasesUnused, step, Except.ok.injEq, forall_eq']
      exact (DomainData.eraseDomain_threadsHaveDomain_iff hs).symm
  | onThreadRelease thread =>
      rw [ErasesUnused, DomainData.onThreadRelease_threadsHaveDomain_iff hs]
      constructor
      · intro hrelease next h
        obtain ⟨c, hcall, rfl⟩ := withDomainData_ok h
        obtain ⟨⟨exit, answer⟩, hcall⟩ := map_fst_ok hcall
        exact hrelease c exit answer hcall
      · intro hnext c exit answer hcall
        exact hnext { s with toDomainData := c } (by simp [step, hcall, Except.map, withDomainData])
  | postHostMessage | onDomainRudeUnload =>
      simp only [ErasesUnused, true_iff]
      rintro next ⟨⟩
      exact hs
  | rawGetLastMessage =>
      simp only [ErasesUnused, true_iff]
      intro next h
      obtain ⟨hostEvent, hread⟩ := map_fst_ok h
      rw [(rawGetLastMessage_ok hread).2]
      exact hs
  | onDomainCreate domain thread manager uninitialised =>
      simp only [ErasesUnused, true_iff]
      intro next h
      obtain ⟨c, hcall, rfl⟩ := withDomainData_ok h
      exact DomainData.onDomainCreate_threadsHaveDomain hs hcall
  | onThreadAcquiring parent =>
      simp only [ErasesUnused, true_iff]
      intro next h
      obtain ⟨answer, hcall⟩ := map_fst_ok h
      obtain rfl | ⟨domain, -, rfl⟩ := onThreadAcquiring_ok hcall <;> exact hs
  | onThreadAcquire parent thread =>
      simp only [ErasesUnused, true_iff]
      intro next h
      obtain ⟨c, hcall, rfl⟩ := withDomainData_ok h
      obtain ⟨answer, hcall⟩ := map_fst_ok hcall
      exact DomainData.onThreadAcquire_threadsHaveDomain hs hcall
  | onMemoryAcquire thread bytes address =>
      simp only [ErasesUnused, true_iff]
      rintro next ⟨⟩
      exact (DomainData.onMemoryAcquire_sameThreads thread bytes address _).threadsHaveDomain hs
  | onMemoryRelease address =>
      simp only [ErasesUnused, true_iff]
      rintro next ⟨⟩
      exact (DomainData.onMemoryRelease_sameThreads address _).threadsHaveDomain hs
  | rawResetCountersForAppDomain domain =>
      simp only [ErasesUnused, true_iff]
      rintro next ⟨⟩
      exact DomainData.reset_threadsHaveDomain domain hs

/-- The ids of the domains a list of calls creates. -/
def createdDomains (ops : List HostOp) : List DWORD :=
  ops.filterMap fun
    | .onDomainCreate domain _ _ _ => some domain
    | _ => none

/-- Every recorded thread has a domain throughout a run, and no lookup throws,
if and only if no step of the run erases a domain still in use. -/
theorem threads_have_domain_iff (ops : List HostOp) :
    (Always step (fun s => s.toDomainData.ThreadsHaveDomain) initial ops ∧
        run step initial ops ≠ .error .outOfRange) ↔
      Meets step ErasesUnused initial ops := by
  have hinitial : initial.toDomainData.ThreadsHaveDomain := by
    intro thread domain h
    simp [initial] at h
  apply always_and_run_ne_error_iff step_threadsHaveDomain_iff hinitial
  intro s op hs hfault
  obtain ⟨thread, hdangling⟩ := step_outOfRange hfault
  exact DomainData.threadsHaveDomain_iff_not_dangling.mp hs thread hdangling

/-- A domain is created and unloaded while its main thread lives on. The next
thread that thread creates is looked up in a domain that is gone. -/
theorem unload_leaves_dangling_thread :
    ¬ ∀ ops : List HostOp, (createdDomains ops).Nodup →
      Always step (fun s => s.toDomainData.ThreadsHaveDomain) initial ops ∧
        run step initial ops ≠ .error .outOfRange := by
  intro hall
  have hfault : run step initial [.onDomainCreate 2 7 (some 0) 0, .onDomainUnload 2,
      .onThreadAcquire 7 8] = .error .outOfRange := by decide
  exact (hall _ (by decide)).2 hfault

end HostContext

end HostedPumpkin
