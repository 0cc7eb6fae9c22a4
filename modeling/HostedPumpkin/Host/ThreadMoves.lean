import HostedPumpkin.Host.ThreadCounts

/-!
Which threads a call takes out of their AppDomain, and which threads are the main
threads of one: two facts about single calls that hold whatever the counters say.
-/

namespace HostedPumpkin

namespace HostContext

/-- The call takes this thread out of the AppDomain it is mapped to. -/
def Moves (thread : DWORD) : HostOp → Prop
  | .onDomainCreate _ moved _ _ | .onThreadRelease moved => moved = thread
  | _ => False

/-- The main threads recorded after a call were recorded before, or it created
their AppDomain. -/
def MainThreadsFrom (op : HostOp) (c next : DomainData) : Prop :=
  ∀ domain main count, next.threadRecord domain = some (main, count) →
    (∃ old, c.threadRecord domain = some (main, old)) ∨
      ∃ manager uninitialised, op = .onDomainCreate domain main manager uninitialised

variable {s next : HostContext} {op : HostOp}

/-- A call leaves the threads it does not move where they are. -/
theorem step_threads (h : s.step op = .ok next) {thread domain : DWORD}
    (hthread : s.threadAppDomain.lookup thread = some domain) (hstays : ¬ Moves thread op) :
    next.threadAppDomain.lookup thread = some domain := by
  cases op with
  | onDomainCreate created moved manager uninitialised =>
      have hne : thread ≠ moved := fun heq => hstays heq.symm
      obtain ⟨c, hcall, rfl⟩ := withDomainData_ok h
      obtain ⟨-, ⟨old, -, -, -, hmap⟩ | ⟨hnone, -, hmap⟩⟩ := DomainData.onDomainCreate_ok hcall
      · rw [hmap, StdMap.lookup_set, if_neg hne, hthread]
      · rw [hmap, StdMap.lookup_insertNew_of_none hnone, if_neg hne, hthread]
  | onThreadAcquire parent acquired =>
      obtain ⟨c, hcall, rfl⟩ := withDomainData_ok h
      obtain ⟨answer, hcall⟩ := map_fst_ok hcall
      obtain ⟨-, rfl, -⟩ | ⟨d, info, -, -, -, rfl⟩ := DomainData.onThreadAcquire_ok hcall
      · exact hthread
      · rw [StdMap.lookup_insertNew, if_neg, hthread]
        rintro ⟨rfl, hnone⟩
        rw [hthread] at hnone
        cases hnone
  | onThreadRelease released =>
      have hne : thread ≠ released := fun heq => hstays heq.symm
      obtain ⟨c, hcall, rfl⟩ := withDomainData_ok h
      obtain ⟨⟨exit, answer⟩, hcall⟩ := map_fst_ok hcall
      obtain ⟨-, rfl, -⟩ | ⟨d, -, hmap, -⟩ := DomainData.onThreadRelease_ok hcall
      · exact hthread
      · rw [hmap, StdMap.lookup_remove, if_neg hne, hthread]
  | onMemoryAcquire t bytes address =>
      rw [← Except.ok.inj h]
      exact (congrArg (fun m => m.lookup thread)
        (DomainData.onMemoryAcquire_sameThreads t bytes address s.toDomainData).threads).trans
          hthread
  | onMemoryRelease address =>
      rw [← Except.ok.inj h]
      exact (congrArg (fun m => m.lookup thread)
        (DomainData.onMemoryRelease_sameThreads address s.toDomainData).threads).trans hthread
  | onThreadAcquiring parent =>
      obtain ⟨answer, hcall⟩ := map_fst_ok h
      obtain rfl | ⟨d, -, rfl⟩ := onThreadAcquiring_ok hcall
      all_goals exact hthread
  | rawGetLastMessage =>
      obtain ⟨hostEvent, hread⟩ := map_fst_ok h
      rw [(rawGetLastMessage_ok hread).2]
      exact hthread
  | postHostMessage | onDomainUnload | onDomainRudeUnload | rawResetCountersForAppDomain =>
      rw [← Except.ok.inj h]
      exact hthread

theorem mainThreadsFrom_of_same {c next : DomainData}
    (h : ∀ domain, next.threadRecord domain = c.threadRecord domain) :
    MainThreadsFrom op c next := by
  intro domain main count hrecord
  rw [h] at hrecord
  exact Or.inl ⟨count, hrecord⟩

/-- A change of counters changes no main thread. -/
theorem mainThreadsFrom_of_modify {c next : DomainData} {domain : DWORD} {f : LONG → LONG}
    (happ : next.appDomains = c.appDomains.modify domain (fun info =>
      { info with threadsInAppDomain := f info.threadsInAppDomain })) :
    MainThreadsFrom op c next := by
  intro d main count hrecord
  rw [DomainData.threadRecord_modify happ] at hrecord
  left
  split at hrecord
  next hd =>
    obtain ⟨old, hold, -⟩ := DomainData.threadRecord_map_eq_some hrecord
    exact ⟨old, hd ▸ hold⟩
  next => exact ⟨count, hrecord⟩

/-- Only the creation of an AppDomain makes a thread a main thread. -/
theorem step_mainThreads (h : s.step op = .ok next) :
    MainThreadsFrom op s.toDomainData next.toDomainData := by
  cases op with
  | onDomainCreate domain thread manager uninitialised =>
      obtain ⟨c, hcall, rfl⟩ := withDomainData_ok h
      let created : DomainData := { s.toDomainData with
        appDomains := s.appDomains.insertNew domain
          (AppDomainInfo.new thread manager uninitialised) }
      have hcreated : MainThreadsFrom (.onDomainCreate domain thread manager uninitialised)
          s.toDomainData created := by
        intro d main count hrecord
        simp only [created, DomainData.threadRecord, StdMap.lookup_insertNew] at hrecord
        split at hrecord
        next hd =>
          cases hrecord
          exact Or.inr ⟨manager, uninitialised, by rw [hd.1]; rfl⟩
        next => exact Or.inl ⟨count, hrecord⟩
      obtain ⟨-, ⟨old, -, -, happ, -⟩ | ⟨-, happ, -⟩⟩ := DomainData.onDomainCreate_ok hcall
      · intro d main count hrecord
        have hmodified : MainThreadsFrom (.onDomainCreate domain thread manager uninitialised)
            created c := mainThreadsFrom_of_modify (f := fun n => n - 1) happ
        obtain ⟨before, hbefore⟩ | hnew := hmodified d main count hrecord
        · exact hcreated d main before hbefore
        · exact Or.inr hnew
      · intro d main count hrecord
        apply hcreated d main count
        rw [← hrecord]
        simp only [DomainData.threadRecord, created, happ]
  | onThreadAcquire parent acquired =>
      obtain ⟨c, hcall, rfl⟩ := withDomainData_ok h
      obtain ⟨answer, hcall⟩ := map_fst_ok hcall
      obtain ⟨-, rfl, -⟩ | ⟨d, info, -, -, -, rfl⟩ := DomainData.onThreadAcquire_ok hcall
      · exact mainThreadsFrom_of_same (fun _ => rfl)
      · exact mainThreadsFrom_of_modify (f := fun n => n + 1) rfl
  | onThreadRelease released =>
      obtain ⟨c, hcall, rfl⟩ := withDomainData_ok h
      obtain ⟨⟨exit, answer⟩, hcall⟩ := map_fst_ok hcall
      obtain ⟨-, rfl, -⟩ | ⟨domain, -, -, -, -, -, hcases⟩ := DomainData.onThreadRelease_ok hcall
      · exact mainThreadsFrom_of_same (fun _ => rfl)
      · rcases hcases with ⟨-, happ, -⟩ | ⟨info, -, -, happ, -⟩ | ⟨info, -, -, happ, -⟩
        · exact mainThreadsFrom_of_same (fun d => by rw [DomainData.threadRecord, happ]; rfl)
        · intro d main count hrecord
          rw [DomainData.threadRecord, happ] at hrecord
          split at hrecord
          next => cases hrecord
          next => exact Or.inl ⟨count, hrecord⟩
        · exact mainThreadsFrom_of_modify (f := fun _ => info.threadsInAppDomain - 1) happ
  | onMemoryAcquire t bytes address =>
      rw [← Except.ok.inj h]
      exact mainThreadsFrom_of_same
        (DomainData.onMemoryAcquire_sameThreads t bytes address s.toDomainData).records
  | onMemoryRelease address =>
      rw [← Except.ok.inj h]
      exact mainThreadsFrom_of_same
        (DomainData.onMemoryRelease_sameThreads address s.toDomainData).records
  | onThreadAcquiring parent =>
      obtain ⟨answer, hcall⟩ := map_fst_ok h
      obtain rfl | ⟨d, -, rfl⟩ := onThreadAcquiring_ok hcall
      all_goals exact mainThreadsFrom_of_same (fun _ => rfl)
  | rawGetLastMessage =>
      obtain ⟨hostEvent, hread⟩ := map_fst_ok h
      rw [(rawGetLastMessage_ok hread).2]
      exact mainThreadsFrom_of_same (fun _ => rfl)
  | onDomainUnload unloaded =>
      rw [← Except.ok.inj h]
      intro d main count hrecord
      simp only [onDomainUnload, DomainData.threadRecord, DomainData.eraseDomain,
        StdMap.lookup_remove] at hrecord
      split at hrecord
      next => cases hrecord
      next => exact Or.inl ⟨count, hrecord⟩
  | rawResetCountersForAppDomain reset =>
      rw [← Except.ok.inj h]
      intro d main count hrecord
      rw [DomainData.threadRecord_reset] at hrecord
      left
      split at hrecord
      next hd =>
        obtain ⟨old, hold, -⟩ := DomainData.threadRecord_map_eq_some (f := fun _ => 1) hrecord
        exact ⟨old, hd ▸ hold⟩
      next => exact ⟨count, hrecord⟩
  | postHostMessage | onDomainRudeUnload =>
      rw [← Except.ok.inj h]
      exact mainThreadsFrom_of_same (fun _ => rfl)

end HostContext

end HostedPumpkin
