import HostedPumpkin.Host.Context

/-!
What each operation of `HostContext` can do: one lemma for every way it returns
and one for every way it fails. Later modules cite these and do not unfold the
operations again.
-/

namespace HostedPumpkin

namespace MessageData

/-- What `raw_GetLastMessage` takes is the youngest event, and it resets
`hMessageEvent` when that was the last one. -/
theorem takeLastMessage_ok {m next : MessageData} {hostEvent : HostEvent}
    (h : m.takeLastMessage = .ok (next, hostEvent)) :
    m.messageQueue.getLast? = some hostEvent ∧
      next.messageQueue = m.messageQueue.dropLast ∧
      next.hMessageEvent =
        if m.messageQueue.dropLast.isEmpty then false else m.hMessageEvent := by
  simp only [takeLastMessage] at h
  split at h
  next => cases h
  next event hlast =>
    cases h
    exact ⟨hlast, rfl, rfl⟩

theorem takeLastMessage_error {m : MessageData} {fault : HostFault}
    (h : m.takeLastMessage = .error fault) :
    fault = .emptyList ∧ m.messageQueue = [] := by
  simp only [takeLastMessage] at h
  split at h
  next hlast =>
    cases h
    exact ⟨rfl, List.getLast?_eq_none_iff.mp hlast⟩
  next => cases h

/-- Both ways in which `raw_GetLastMessage` returns. -/
theorem rawGetLastMessage_ok {m next : MessageData} {hostEvent : Option HostEvent}
    (h : m.rawGetLastMessage = .ok (next, hostEvent)) :
    (m.hMessageEvent = false ∧ next = m ∧ hostEvent = none) ∨
      ∃ event, hostEvent = some event ∧ m.hMessageEvent = true ∧
        m.takeLastMessage = .ok (next, event) := by
  cases hsignal : m.hMessageEvent with
  | false =>
      simp only [rawGetLastMessage, waitForSingleObject, hsignal] at h
      cases h
      exact Or.inl ⟨rfl, rfl, rfl⟩
  | true =>
      simp only [rawGetLastMessage, waitForSingleObject, hsignal, if_true] at h
      split at h
      next taken event htake =>
        cases h
        exact Or.inr ⟨event, rfl, rfl, htake⟩
      next => cases h

/-- It fails only on a signalled event with nothing to read. -/
theorem rawGetLastMessage_error {m : MessageData} {fault : HostFault}
    (h : m.rawGetLastMessage = .error fault) :
    fault = .emptyList ∧ m.hMessageEvent = true ∧ m.messageQueue = [] := by
  cases hsignal : m.hMessageEvent with
  | false => simp [rawGetLastMessage, waitForSingleObject, hsignal] at h
  | true =>
      simp only [rawGetLastMessage, waitForSingleObject, hsignal, if_true] at h
      split at h
      next => cases h
      next htake =>
        cases h
        obtain ⟨hfault, hnil⟩ := takeLastMessage_error htake
        exact ⟨hfault, rfl, hnil⟩

end MessageData

namespace DomainData

/-- A thread is recorded under a domain that has no record: the situation in
which an unguarded `appDomains.at` throws. -/
def Dangling (c : DomainData) (thread : DWORD) : Prop :=
  ∃ domain, c.threadAppDomain.lookup thread = some domain ∧
    c.appDomains.lookup domain = none

/-- Both ways a domain is created: its thread migrates from another domain, or
was not recorded before. -/
theorem onDomainCreate_ok {c next : DomainData} {domain thread : DWORD}
    {manager : Option DomainManager} {uninitialised : LONG}
    (h : c.onDomainCreate domain thread manager uninitialised = .ok next) :
    let created := c.appDomains.insertNew domain
      (AppDomainInfo.new thread manager uninitialised)
    next.memoryAppDomain = c.memoryAppDomain ∧
      ((∃ old, c.threadAppDomain.lookup thread = some old ∧ created.lookup old ≠ none ∧
          next.appDomains = created.modify old (fun info =>
            { info with threadsInAppDomain := info.threadsInAppDomain - 1 }) ∧
          next.threadAppDomain = c.threadAppDomain.set thread domain) ∨
        (c.threadAppDomain.lookup thread = none ∧ next.appDomains = created ∧
          next.threadAppDomain = c.threadAppDomain.insertNew thread domain)) := by
  simp only [onDomainCreate] at h
  cases hthread : c.threadAppDomain.lookup thread with
  | none =>
      simp only [hthread] at h
      cases h
      split <;> exact ⟨rfl, Or.inr ⟨rfl, rfl, rfl⟩⟩
  | some old =>
      simp only [hthread] at h
      split at h
      next => cases h
      next info hinfo =>
        cases h
        have hne : (c.appDomains.insertNew domain
            (AppDomainInfo.new thread manager uninitialised)).lookup old ≠ none := by
          simp [hinfo]
        split <;> exact ⟨rfl, Or.inl ⟨old, rfl, hne, rfl, rfl⟩⟩

/-- A created domain takes its thread, wherever that was before. -/
theorem onDomainCreate_threads {c next : DomainData} {domain thread : DWORD}
    {manager : Option DomainManager} {uninitialised : LONG}
    (h : c.onDomainCreate domain thread manager uninitialised = .ok next) :
    next.threadAppDomain = c.threadAppDomain.set thread domain := by
  obtain ⟨-, ⟨old, -, -, -, hmap⟩ | ⟨hthread, -, hmap⟩⟩ := onDomainCreate_ok h
  · exact hmap
  · rw [hmap, StdMap.insertNew, if_neg (Finmap.lookup_eq_none.mp hthread)]

theorem onDomainCreate_error {c : DomainData} {domain thread : DWORD}
    {manager : Option DomainManager} {uninitialised : LONG} {fault : HostFault}
    (h : c.onDomainCreate domain thread manager uninitialised = .error fault) :
    fault = .outOfRange ∧ c.Dangling thread := by
  simp only [onDomainCreate] at h
  cases hthread : c.threadAppDomain.lookup thread with
  | none => simp [hthread] at h
  | some old =>
      simp only [hthread] at h
      split at h
      next hnone =>
        cases h
        refine ⟨rfl, old, hthread, ?_⟩
        rw [StdMap.lookup_insertNew] at hnone
        split at hnone
        next => cases hnone
        next => exact hnone
      next => cases h

theorem threadAcquiring_error {c : DomainData} {parent : DWORD} {fault : HostFault}
    (h : c.threadAcquiring parent = .error fault) :
    fault = .outOfRange ∧ c.Dangling parent := by
  simp only [threadAcquiring] at h
  split at h
  next => cases h
  next domain hparent =>
    split at h
    next hdomain =>
      cases h
      exact ⟨rfl, domain, hparent, hdomain⟩
    next => split at h <;> cases h

/-- A thread joins the domain of its parent, or nothing happens. -/
theorem onThreadAcquire_ok {c next : DomainData} {parent thread : DWORD} {answer : Bool}
    (h : c.onThreadAcquire parent thread = .ok (next, answer)) :
    (c.threadAppDomain.lookup parent = none ∧ next = c ∧ answer = false) ∨
      ∃ domain info, c.threadAppDomain.lookup parent = some domain ∧
        c.appDomains.lookup domain = some info ∧ answer = true ∧
        next = { c with
          appDomains := c.appDomains.modify domain (fun info =>
            { info with threadsInAppDomain := info.threadsInAppDomain + 1 })
          threadAppDomain := c.threadAppDomain.insertNew thread domain } := by
  simp only [onThreadAcquire] at h
  split at h
  next hparent =>
    cases h
    exact Or.inl ⟨hparent, rfl, rfl⟩
  next domain hparent =>
    split at h
    next => cases h
    next info hinfo =>
      cases h
      exact Or.inr ⟨domain, info, hparent, hinfo, rfl, rfl⟩

theorem onThreadAcquire_error {c : DomainData} {parent thread : DWORD} {fault : HostFault}
    (h : c.onThreadAcquire parent thread = .error fault) :
    fault = .outOfRange ∧ c.Dangling parent := by
  simp only [onThreadAcquire] at h
  split at h
  next => cases h
  next domain hparent =>
    split at h
    next hdomain =>
      cases h
      exact ⟨rfl, domain, hparent, hdomain⟩
    next => cases h

/-- A domain's main thread is released: the step that erases the domain. -/
def ReleasesMainThread (c : DomainData) (thread domain : DWORD) (info : AppDomainInfo) :
    Prop :=
  c.threadAppDomain.lookup thread = some domain ∧
    c.appDomains.lookup domain = some info ∧ info.mainThreadId = thread

/-- Every way `OnThreadRelease` returns: an unknown thread, a thread of a domain
that is gone, a domain's main thread, and any other thread. -/
theorem onThreadRelease_ok {c next : DomainData} {thread : DWORD}
    {exit : Option MainThreadExit} {answer : Bool}
    (h : c.onThreadRelease thread = .ok (next, exit, answer)) :
    (c.threadAppDomain.lookup thread = none ∧ next = c ∧ exit = none) ∨
      ∃ domain, c.threadAppDomain.lookup thread = some domain ∧
        next.threadAppDomain = c.threadAppDomain.remove thread ∧
        next.memoryAppDomain = c.memoryAppDomain ∧
        next.defaultDomainManager = c.defaultDomainManager ∧
        next.defaultDomainId = c.defaultDomainId ∧
        ((c.appDomains.lookup domain = none ∧ next.appDomains = c.appDomains ∧
            exit = none) ∨
          (∃ info, c.ReleasesMainThread thread domain info ∧
            c.defaultDomainManager ≠ none ∧
            (∀ d, next.appDomains.lookup d =
              if d = domain then none else c.appDomains.lookup d) ∧
            exit = some ⟨domain, info.threadsInAppDomain - 1 == 0⟩) ∨
          (∃ info, c.appDomains.lookup domain = some info ∧ info.mainThreadId ≠ thread ∧
            next.appDomains = c.appDomains.modify domain (fun stored =>
              { stored with threadsInAppDomain := info.threadsInAppDomain - 1 }) ∧
            exit = none)) := by
  simp only [onThreadRelease] at h
  split at h
  next hthread =>
    cases h
    exact Or.inl ⟨hthread, rfl, rfl⟩
  next domain hthread =>
    refine Or.inr ⟨domain, hthread, ?_⟩
    split at h
    next hdomain =>
      cases h
      exact ⟨rfl, rfl, rfl, rfl, Or.inl ⟨hdomain, rfl, rfl⟩⟩
    next info hinfo =>
      split at h
      next hmain =>
        split at h
        next => cases h
        next manager hmanager =>
          cases h
          refine ⟨rfl, rfl, rfl, rfl, Or.inr (Or.inl ⟨info, ⟨hthread, hinfo, hmain⟩, ?_⟩)⟩
          refine ⟨by simp [hmanager], ?_, rfl⟩
          intro d
          rw [StdMap.lookup_remove]
          split
          next => rfl
          next hne => rw [StdMap.lookup_modify, if_neg hne]
      next hmain =>
        cases h
        exact ⟨rfl, rfl, rfl, rfl, Or.inr (Or.inr ⟨info, hinfo, hmain, rfl, rfl⟩)⟩

theorem onThreadRelease_error {c : DomainData} {thread : DWORD} {fault : HostFault}
    (h : c.onThreadRelease thread = .error fault) :
    fault = .nullManager ∧ c.defaultDomainManager = none := by
  simp only [onThreadRelease] at h
  split at h
  next => cases h
  next =>
    split at h
    next => cases h
    next =>
      split at h
      next =>
        split at h
        next hmanager =>
          cases h
          exact ⟨rfl, hmanager⟩
        next => cases h
      next => cases h

end DomainData

namespace HostContext

theorem withDomainData_ok {s next : HostContext} {result : Except HostFault DomainData}
    (h : s.withDomainData result = .ok next) :
    ∃ c, result = .ok c ∧ next = { s with toDomainData := c } := by
  cases result with
  | error fault => cases h
  | ok c =>
      cases h
      exact ⟨c, rfl, rfl⟩

theorem withDomainData_error {s : HostContext} {result : Except HostFault DomainData}
    {fault : HostFault} (h : s.withDomainData result = .error fault) :
    result = .error fault := by
  cases result with
  | error fault' =>
      cases h
      rfl
  | ok c => cases h

theorem map_fst_ok {α β : Type} {result : Except HostFault (α × β)} {a : α}
    (h : result.map Prod.fst = .ok a) : ∃ b, result = .ok (a, b) := by
  cases result with
  | error fault => cases h
  | ok pair =>
      cases h
      exact ⟨pair.2, rfl⟩

theorem map_fst_error {α β : Type} {result : Except HostFault (α × β)} {fault : HostFault}
    (h : result.map Prod.fst = .error fault) : result = .error fault := by
  cases result with
  | error fault' =>
      cases h
      rfl
  | ok pair => cases h

/-- `OnThreadAcquiring` leaves everything alone, or reports that a domain is
out of tasks. -/
theorem onThreadAcquiring_ok {s next : HostContext} {parent : DWORD} {answer : Bool}
    (h : s.onThreadAcquiring parent = .ok (next, answer)) :
    next = s ∨ ∃ domain : DWORD,
      s.toDomainData.threadAcquiring parent = .ok (some domain, answer) ∧
        next = s.postHostMessage HostEventType.outOfTasks domain.toInt32 0 := by
  simp only [onThreadAcquiring] at h
  split at h
  next => cases h
  next domain answer' htest =>
    cases h
    exact Or.inr ⟨domain, htest, rfl⟩
  next =>
    cases h
    exact Or.inl rfl

theorem onThreadAcquiring_error {s : HostContext} {parent : DWORD} {fault : HostFault}
    (h : s.onThreadAcquiring parent = .error fault) :
    fault = .outOfRange ∧ s.toDomainData.Dangling parent := by
  simp only [onThreadAcquiring] at h
  split at h
  next htest =>
    cases h
    exact DomainData.threadAcquiring_error htest
  next => cases h
  next => cases h

theorem rawGetLastMessage_ok {s next : HostContext} {hostEvent : Option HostEvent}
    (h : s.rawGetLastMessage = .ok (next, hostEvent)) :
    s.toMessageData.rawGetLastMessage = .ok (next.toMessageData, hostEvent) ∧
      next = { s with toMessageData := next.toMessageData } := by
  simp only [rawGetLastMessage] at h
  split at h
  next hread =>
    cases h
    exact ⟨hread, rfl⟩
  next => cases h

theorem rawGetLastMessage_error {s : HostContext} {fault : HostFault}
    (h : s.rawGetLastMessage = .error fault) :
    s.toMessageData.rawGetLastMessage = .error fault := by
  simp only [rawGetLastMessage] at h
  split at h
  next => cases h
  next hread =>
    cases h
    exact hread

/-- An operation that throws `std::out_of_range` met a dangling thread. -/
theorem step_outOfRange {s : HostContext} {op : HostOp}
    (h : s.step op = .error .outOfRange) : ∃ thread, s.toDomainData.Dangling thread := by
  cases op with
  | rawGetLastMessage =>
      cases (MessageData.rawGetLastMessage_error
        (rawGetLastMessage_error (map_fst_error h))).1
  | onDomainCreate domain thread manager uninitialised =>
      exact ⟨_, (DomainData.onDomainCreate_error (withDomainData_error h)).2⟩
  | onThreadAcquiring parent =>
      exact ⟨_, (onThreadAcquiring_error (map_fst_error h)).2⟩
  | onThreadAcquire parent thread =>
      exact ⟨_, (DomainData.onThreadAcquire_error
        (map_fst_error (withDomainData_error h))).2⟩
  | onThreadRelease thread =>
      cases (DomainData.onThreadRelease_error (map_fst_error (withDomainData_error h))).1
  | postHostMessage | onDomainUnload | onDomainRudeUnload | onMemoryAcquire
  | onMemoryRelease | rawResetCountersForAppDomain => cases h

/-- Only `raw_GetLastMessage` reads the end of the list. -/
theorem step_emptyList {s : HostContext} {op : HostOp}
    (h : s.step op = .error .emptyList) :
    s.toMessageData.rawGetLastMessage = .error .emptyList := by
  cases op with
  | rawGetLastMessage => exact rawGetLastMessage_error (map_fst_error h)
  | onDomainCreate domain thread manager uninitialised =>
      cases (DomainData.onDomainCreate_error (withDomainData_error h)).1
  | onThreadAcquiring parent => cases (onThreadAcquiring_error (map_fst_error h)).1
  | onThreadAcquire parent thread =>
      cases (DomainData.onThreadAcquire_error (map_fst_error (withDomainData_error h))).1
  | onThreadRelease thread =>
      cases (DomainData.onThreadRelease_error (map_fst_error (withDomainData_error h))).1
  | postHostMessage | onDomainUnload | onDomainRudeUnload | onMemoryAcquire
  | onMemoryRelease | rawResetCountersForAppDomain => cases h

end HostContext

end HostedPumpkin
