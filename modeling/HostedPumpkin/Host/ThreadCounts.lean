import HostedPumpkin.Host.References

/-!
Thread accounting. `threadsInAppDomain` is kept apart from `threadAppDomain`,
the map it summarises: creation of a domain migrates a thread, a release may
erase a whole domain, an unload leaves mappings behind and a reset overwrites
the counter. In every run of legal calls each record still counts the threads
mapped to its domain, and so the `cleanExit` flag tells the truth.
-/

namespace HostedPumpkin

open Runs

namespace DomainData

/-- Every domain record counts the threads mapped to the domain. -/
def ThreadsCounted (c : DomainData) : Prop :=
  ∀ domain main count, c.threadRecord domain = some (main, count) →
    count = ((c.threadAppDomain.fiber domain).card : LONG)

/-- The maps mention no domain outside `created`. -/
structure KnownDomains (created : List DWORD) (c : DomainData) : Prop where
  threads : ∀ thread domain, c.threadAppDomain.lookup thread = some domain →
    domain ∈ created
  records : ∀ domain, c.threadRecord domain ≠ none → domain ∈ created

theorem KnownDomains.fiber_eq_empty {created : List DWORD} {c : DomainData}
    (h : c.KnownDomains created) {domain : DWORD} (hnew : domain ∉ created) :
    c.threadAppDomain.fiber domain = ∅ := by
  rw [Finset.eq_empty_iff_forall_notMem]
  intro thread hthread
  exact hnew (h.threads thread domain (StdMap.mem_fiber.mp hthread))

theorem SameThreads.threadsCounted {c next : DomainData} (h : SameThreads c next)
    (hc : c.ThreadsCounted) : next.ThreadsCounted := by
  intro domain main count hrecord
  rw [h.records] at hrecord
  rw [h.threads]
  exact hc domain main count hrecord

theorem SameThreads.knownDomains {created : List DWORD} {c next : DomainData}
    (h : SameThreads c next) (hc : c.KnownDomains created) : next.KnownDomains created := by
  refine ⟨?_, ?_⟩
  · intro thread domain hthread
    rw [h.threads] at hthread
    exact hc.threads thread domain hthread
  · intro domain hrecord
    rw [h.records] at hrecord
    exact hc.records domain hrecord

/-! A thread joins a domain, leaves it or moves, seen from the fibers. -/

theorem card_fiber_join {m : StdMap DWORD DWORD} {thread domain : DWORD}
    (hthread : m.lookup thread = none) (d : DWORD) :
    (((m.insertNew thread domain).fiber d).card : LONG) =
      if d = domain then ((m.fiber d).card : LONG) + 1 else (m.fiber d).card := by
  rw [StdMap.fiber_insertNew_of_none hthread]
  split
  next =>
    have hnot : thread ∉ m.fiber d := by simp [hthread]
    rw [Finset.card_insert_of_notMem hnot, Nat.cast_succ]
  next => rfl

theorem card_erase_fiber {m : StdMap DWORD DWORD} {thread domain : DWORD}
    (hthread : m.lookup thread = some domain) (d : DWORD) :
    (((m.fiber d).erase thread).card : LONG) =
      if d = domain then ((m.fiber d).card : LONG) - 1 else (m.fiber d).card := by
  split
  next h =>
    subst h
    have hmem : thread ∈ m.fiber d := StdMap.mem_fiber.mpr hthread
    rw [Finset.card_erase_of_mem hmem, Nat.cast_pred (Finset.card_pos.mpr ⟨thread, hmem⟩)]
  next h =>
    have hnot : thread ∉ m.fiber d := by
      simp only [StdMap.mem_fiber, hthread, Option.some.injEq]
      exact fun heq => h heq.symm
    rw [Finset.erase_eq_of_notMem hnot]

theorem card_fiber_leave {m : StdMap DWORD DWORD} {thread domain : DWORD}
    (hthread : m.lookup thread = some domain) (d : DWORD) :
    (((m.remove thread).fiber d).card : LONG) =
      if d = domain then ((m.fiber d).card : LONG) - 1 else (m.fiber d).card := by
  rw [StdMap.fiber_remove]
  exact card_erase_fiber hthread d

/-- A thread moves to a domain no thread is mapped to. -/
theorem card_fiber_move {m : StdMap DWORD DWORD} {thread old domain : DWORD}
    (hthread : m.lookup thread = some old) (hempty : m.fiber domain = ∅) (d : DWORD) :
    (((m.set thread domain).fiber d).card : LONG) =
      if d = domain then 1
      else if d = old then ((m.fiber d).card : LONG) - 1 else (m.fiber d).card := by
  rw [StdMap.fiber_set]
  split
  next h => simp [h, hempty]
  next => exact card_erase_fiber hthread d

/-! The effect of the operations on the records. -/

theorem threadRecord_modify {c next : DomainData} {domain : DWORD} {f : LONG → LONG}
    (happ : next.appDomains = c.appDomains.modify domain (fun info =>
      { info with threadsInAppDomain := f info.threadsInAppDomain })) (d : DWORD) :
    next.threadRecord d =
      if d = domain then (c.threadRecord domain).map (fun r => (r.1, f r.2))
      else c.threadRecord d := by
  simp only [threadRecord, happ, StdMap.lookup_modify]
  split
  next => cases c.appDomains.lookup domain <;> rfl
  next => rfl

theorem threadRecord_insertNew {c next : DomainData} {domain : DWORD} {info : AppDomainInfo}
    (hnone : c.threadRecord domain = none)
    (happ : next.appDomains = c.appDomains.insertNew domain info) (d : DWORD) :
    next.threadRecord d =
      if d = domain then some (info.mainThreadId, info.threadsInAppDomain)
      else c.threadRecord d := by
  have hlookup := threadRecord_eq_none.mp hnone
  simp only [threadRecord, happ, StdMap.lookup_insertNew_of_none hlookup]
  split <;> rfl

theorem threadRecord_map_eq_some {c : DomainData} {domain main : DWORD} {count : LONG}
    {f : LONG → LONG}
    (h : (c.threadRecord domain).map (fun r => (r.1, f r.2)) = some (main, count)) :
    ∃ old, c.threadRecord domain = some (main, old) ∧ count = f old := by
  obtain ⟨⟨main', old⟩, hrecord, heq⟩ := Option.map_eq_some_iff.mp h
  cases heq
  exact ⟨old, hrecord, rfl⟩

theorem onDomainCreate_counted {created : List DWORD} {c next : DomainData}
    {domain thread : DWORD} {manager : Option DomainManager} {uninitialised : LONG}
    (hknown : c.KnownDomains created) (hc : c.ThreadsCounted) (hnew : domain ∉ created)
    (h : c.onDomainCreate domain thread manager uninitialised = .ok next) :
    next.ThreadsCounted := by
  have hempty : c.threadAppDomain.fiber domain = ∅ := hknown.fiber_eq_empty hnew
  have hnone : c.threadRecord domain = none := by
    by_contra hsome
    exact hnew (hknown.records domain hsome)
  -- the state between the insertion of the record and the move of the thread
  let info := AppDomainInfo.new thread manager uninitialised
  let mid : DomainData := { c with appDomains := c.appDomains.insertNew domain info }
  have hmid : ∀ d, mid.threadRecord d =
      if d = domain then some (thread, 1) else c.threadRecord d :=
    threadRecord_insertNew hnone
      (rfl : mid.appDomains = c.appDomains.insertNew domain info)
  intro d main count hrecord
  obtain ⟨-, ⟨old, hthread, -, happ, hmap⟩ | ⟨hthread, happ, hmap⟩⟩ := onDomainCreate_ok h
  · have hne : old ≠ domain := fun heq => hnew (heq ▸ hknown.threads thread old hthread)
    have happ' : next.threadRecord d = _ :=
      threadRecord_modify (c := mid) (f := fun n => n - 1) happ d
    rw [hmap, card_fiber_move hthread hempty]
    rw [happ', hmid, hmid, if_neg hne] at hrecord
    by_cases hold : d = old
    · subst hold
      rw [if_pos rfl] at hrecord
      obtain ⟨before, hbefore, rfl⟩ := threadRecord_map_eq_some (f := fun n => n - 1) hrecord
      rw [if_neg hne, if_pos rfl, hc d main before hbefore]
    · rw [if_neg hold] at hrecord
      by_cases hd : d = domain
      · rw [if_pos hd] at hrecord
        cases hrecord
        rw [if_pos hd]
      · rw [if_neg hd] at hrecord
        rw [if_neg hd, if_neg hold]
        exact hc d main count hrecord
  · have happ' : next.threadRecord d = _ := threadRecord_insertNew hnone happ d
    rw [hmap, card_fiber_join hthread]
    rw [happ'] at hrecord
    by_cases hd : d = domain
    · rw [if_pos hd] at hrecord
      cases hrecord
      rw [if_pos hd, hd, hempty]
      rfl
    · rw [if_neg hd] at hrecord
      rw [if_neg hd]
      exact hc d main count hrecord

theorem onThreadAcquire_counted {c next : DomainData} {parent thread : DWORD}
    {answer : Bool} (hc : c.ThreadsCounted)
    (hnew : c.threadAppDomain.lookup thread = none)
    (h : c.onThreadAcquire parent thread = .ok (next, answer)) : next.ThreadsCounted := by
  obtain ⟨-, rfl, -⟩ | ⟨domain, info, -, -, -, hnext⟩ := onThreadAcquire_ok h
  · exact hc
  · intro d main count hrecord
    have happ : next.threadRecord d = _ :=
      threadRecord_modify (f := fun n => n + 1) (congrArg appDomains hnext) d
    have hmap : next.threadAppDomain = c.threadAppDomain.insertNew thread domain :=
      congrArg threadAppDomain hnext
    rw [happ] at hrecord
    rw [hmap, card_fiber_join hnew]
    by_cases hd : d = domain
    · rw [if_pos hd] at hrecord
      obtain ⟨before, hbefore, rfl⟩ := threadRecord_map_eq_some (f := fun n => n + 1) hrecord
      rw [if_pos hd, hd, hc domain main before hbefore]
    · rw [if_neg hd] at hrecord
      rw [if_neg hd]
      exact hc d main count hrecord

theorem onThreadRelease_counted {c next : DomainData} {thread : DWORD}
    {exit : Option MainThreadExit} {answer : Bool} (hc : c.ThreadsCounted)
    (h : c.onThreadRelease thread = .ok (next, exit, answer)) : next.ThreadsCounted := by
  rcases onThreadRelease_ok h with ⟨-, rfl, -⟩ | ⟨domain, hthread, hmap, -, -, -, hcases⟩
  · exact hc
  · intro d main count hrecord
    rw [hmap, card_fiber_leave hthread]
    rcases hcases with ⟨hdomain, happ, -⟩ | ⟨info, -, -, happ, -⟩ | ⟨info, hinfo, -, happ, -⟩
    · have hsame : next.threadRecord d = c.threadRecord d := by
        rw [threadRecord, threadRecord, happ]
      have hd : d ≠ domain := by
        rintro rfl
        rw [hsame, threadRecord_eq_none.mpr hdomain] at hrecord
        cases hrecord
      rw [if_neg hd]
      exact hc d main count (hsame ▸ hrecord)
    · rw [threadRecord, happ] at hrecord
      by_cases hd : d = domain
      · simp [hd] at hrecord
      · rw [if_neg hd] at hrecord
        rw [if_neg hd]
        exact hc d main count hrecord
    · have happ' : next.threadRecord d = _ :=
        threadRecord_modify (f := fun _ => info.threadsInAppDomain - 1) happ d
      rw [happ'] at hrecord
      by_cases hd : d = domain
      · rw [if_pos hd] at hrecord
        obtain ⟨before, hbefore, rfl⟩ :=
          threadRecord_map_eq_some (f := fun _ => info.threadsInAppDomain - 1) hrecord
        have hcount :
            c.threadRecord domain = some (info.mainThreadId, info.threadsInAppDomain) := by
          rw [threadRecord, hinfo]
          rfl
        rw [if_pos hd, hd, hc domain _ _ hcount]
      · rw [if_neg hd] at hrecord
        rw [if_neg hd]
        exact hc d main count hrecord

theorem eraseDomain_counted {c : DomainData} (domain : DWORD) (hc : c.ThreadsCounted) :
    (c.eraseDomain domain).ThreadsCounted := by
  intro d main count hrecord
  simp only [threadRecord, eraseDomain, StdMap.lookup_remove] at hrecord
  split at hrecord
  next => cases hrecord
  next => exact hc d main count hrecord

/-- A domain in whose fiber only the main thread is left. -/
def OnlyMainThread (c : DomainData) (domain : DWORD) : Prop :=
  match c.threadRecord domain with
  | some (main, _) => c.threadAppDomain.fiber domain = {main}
  | none => True

instance (c : DomainData) (domain : DWORD) : Decidable (c.OnlyMainThread domain) := by
  unfold OnlyMainThread
  split <;> infer_instance

theorem reset_counted {c : DomainData} {domain : DWORD} (hc : c.ThreadsCounted)
    (honly : c.OnlyMainThread domain) :
    (c.rawResetCountersForAppDomain domain).ThreadsCounted := by
  intro d main count hrecord
  have hmap : (c.rawResetCountersForAppDomain domain).threadAppDomain =
      c.threadAppDomain := rfl
  rw [hmap]
  rw [threadRecord_reset] at hrecord
  by_cases hd : d = domain
  · rw [if_pos hd] at hrecord
    obtain ⟨before, hbefore, rfl⟩ := threadRecord_map_eq_some (f := fun _ => 1) hrecord
    simp only [OnlyMainThread, hbefore] at honly
    rw [hd, honly, Finset.card_singleton]
    rfl
  · rw [if_neg hd] at hrecord
    exact hc d main count hrecord

/-- The flag passed when a domain's main thread is released. -/
theorem onThreadRelease_cleanExit {c next : DomainData} {thread : DWORD}
    {exit : MainThreadExit} {answer : Bool} (hc : c.ThreadsCounted)
    (h : c.onThreadRelease thread = .ok (next, some exit, answer)) :
    c.threadAppDomain.lookup thread = some exit.appDomainId ∧
      (exit.cleanExit = true ↔
        ∀ other, other ≠ thread → c.threadAppDomain.lookup other ≠ some exit.appDomainId) := by
  rcases onThreadRelease_ok h with ⟨-, -, hexit⟩ | ⟨domain, hthread, -, -, -, -, hcases⟩
  · cases hexit
  · rcases hcases with ⟨-, -, hexit⟩ | ⟨info, hmain, -, -, hexit⟩ | ⟨info, -, -, -, hexit⟩
    · cases hexit
    · cases hexit
      refine ⟨hthread, ?_⟩
      have hrecord : c.threadRecord domain =
          some (info.mainThreadId, info.threadsInAppDomain) := by
        rw [threadRecord, hmain.2.1]
        rfl
      have hcount : info.threadsInAppDomain - 1 =
          (((c.threadAppDomain.fiber domain).erase thread).card : LONG) := by
        rw [card_erase_fiber hthread, if_pos rfl, hc domain _ _ hrecord]
      simp only [hcount, beq_iff_eq, Nat.cast_eq_zero, Finset.card_eq_zero,
        Finset.eq_empty_iff_forall_notMem, Finset.mem_erase, StdMap.mem_fiber, not_and]
    · cases hexit

/-! No operation but a creation mentions a domain that was not there. -/

theorem onDomainCreate_knownDomains {created : List DWORD} {c next : DomainData}
    {domain thread : DWORD} {manager : Option DomainManager} {uninitialised : LONG}
    (hc : c.KnownDomains created)
    (h : c.onDomainCreate domain thread manager uninitialised = .ok next) :
    next.KnownDomains (created ++ [domain]) := by
  have hrecords : ∀ d, (c.appDomains.insertNew domain
      (AppDomainInfo.new thread manager uninitialised)).lookup d ≠ none →
      d ∈ created ++ [domain] := by
    intro d hd
    rw [StdMap.lookup_insertNew] at hd
    by_cases hdomain : d = domain
    · simp [hdomain]
    · have hold : c.threadRecord d ≠ none := by
        rw [Ne, threadRecord_eq_none]
        simpa [hdomain] using hd
      exact List.mem_append_left _ (hc.records d hold)
  have hthreads : ∀ t d, (if t = thread then some domain else c.threadAppDomain.lookup t) =
      some d → d ∈ created ++ [domain] := by
    intro t d ht
    split at ht
    next =>
      cases ht
      simp
    next => exact List.mem_append_left _ (hc.threads t d ht)
  obtain ⟨-, ⟨old, -, -, happ, hmap⟩ | ⟨hthread, happ, hmap⟩⟩ := onDomainCreate_ok h
  · refine ⟨?_, ?_⟩
    · intro t d ht
      rw [hmap, StdMap.lookup_set] at ht
      exact hthreads t d ht
    · intro d hd
      rw [Ne, threadRecord_eq_none, happ, StdMap.lookup_modify_eq_none] at hd
      exact hrecords d hd
  · refine ⟨?_, ?_⟩
    · intro t d ht
      rw [hmap, StdMap.lookup_insertNew_of_none hthread] at ht
      exact hthreads t d ht
    · intro d hd
      rw [Ne, threadRecord_eq_none, happ] at hd
      exact hrecords d hd

theorem onThreadAcquire_knownDomains {created : List DWORD} {c next : DomainData}
    {parent thread : DWORD} {answer : Bool} (hc : c.KnownDomains created)
    (h : c.onThreadAcquire parent thread = .ok (next, answer)) :
    next.KnownDomains created := by
  obtain ⟨-, rfl, -⟩ | ⟨domain, info, hparent, -, -, rfl⟩ := onThreadAcquire_ok h
  · exact hc
  · refine ⟨?_, ?_⟩
    · intro t d ht
      rw [StdMap.lookup_insertNew] at ht
      split at ht
      next =>
        cases ht
        exact hc.threads parent _ hparent
      next => exact hc.threads t d ht
    · intro d hd
      rw [Ne, threadRecord_eq_none, StdMap.lookup_modify_eq_none, ← threadRecord_eq_none] at hd
      exact hc.records d hd

theorem onThreadRelease_knownDomains {created : List DWORD} {c next : DomainData}
    {thread : DWORD} {exit : Option MainThreadExit} {answer : Bool}
    (hc : c.KnownDomains created)
    (h : c.onThreadRelease thread = .ok (next, exit, answer)) :
    next.KnownDomains created := by
  rcases onThreadRelease_ok h with ⟨-, rfl, -⟩ | ⟨domain, -, hmap, -, -, -, hcases⟩
  · exact hc
  · refine ⟨?_, ?_⟩
    · intro t d ht
      rw [hmap, StdMap.lookup_remove] at ht
      split at ht
      next => cases ht
      next => exact hc.threads t d ht
    · intro d hd
      rw [Ne, threadRecord_eq_none] at hd
      refine hc.records d ?_
      rw [Ne, threadRecord_eq_none]
      rcases hcases with ⟨-, happ, -⟩ | ⟨info, -, -, happ, -⟩ | ⟨info, -, -, happ, -⟩
      · rwa [happ] at hd
      · rw [happ] at hd
        split at hd
        next => exact absurd rfl hd
        next => exact hd
      · rwa [happ, StdMap.lookup_modify_eq_none] at hd

theorem eraseDomain_knownDomains {created : List DWORD} {c : DomainData} (domain : DWORD)
    (hc : c.KnownDomains created) : (c.eraseDomain domain).KnownDomains created := by
  refine ⟨hc.threads, ?_⟩
  intro d hd
  rw [Ne, threadRecord_eq_none, eraseDomain, StdMap.lookup_remove] at hd
  split at hd
  next => exact absurd rfl hd
  next =>
    rw [← threadRecord_eq_none] at hd
    exact hc.records d hd

theorem reset_knownDomains {created : List DWORD} {c : DomainData} (domain : DWORD)
    (hc : c.KnownDomains created) :
    (c.rawResetCountersForAppDomain domain).KnownDomains created := by
  refine ⟨hc.threads, ?_⟩
  intro d hd
  rw [Ne, threadRecord_eq_none, rawResetCountersForAppDomain, StdMap.lookup_modify_eq_none,
    ← threadRecord_eq_none] at hd
  exact hc.records d hd

end DomainData

namespace HostContext

/-- The calls thread accounting is made for: the id of a created domain is new,
an acquired thread is not recorded yet, and the counters of a domain are reset
only while its main thread is the only one mapped to it. -/
def LegalOp (r : Traced HostContext HostOp) : HostOp → Prop
  | .onDomainCreate domain _ _ _ => domain ∉ createdDomains r.history
  | .onThreadAcquire _ thread => r.state.threadAppDomain.lookup thread = none
  | .rawResetCountersForAppDomain domain => r.state.toDomainData.OnlyMainThread domain
  | _ => True

instance (r : Traced HostContext HostOp) (op : HostOp) : Decidable (LegalOp r op) :=
  match op with
  | .onDomainCreate .. => inferInstanceAs (Decidable (_ ∉ _))
  | .onThreadAcquire .. => inferInstanceAs (Decidable (_ = none))
  | .rawResetCountersForAppDomain domain =>
      inferInstanceAs (Decidable (r.state.toDomainData.OnlyMainThread domain))
  | .postHostMessage .. | .onDomainRudeUnload .. | .rawGetLastMessage .. | .onDomainUnload ..
  | .onThreadAcquiring .. | .onThreadRelease .. | .onMemoryAcquire ..
  | .onMemoryRelease .. => isTrue trivial

/-- Counters agree with the map, and both speak of created domains only. -/
structure Accounted (r : Traced HostContext HostOp) : Prop where
  counted : r.state.toDomainData.ThreadsCounted
  known : r.state.toDomainData.KnownDomains (createdDomains r.history)

/-- A call that creates no domain and whose effect on the threads is known. -/
theorem Accounted.of_not_create {r next : Traced HostContext HostOp} {op : HostOp}
    (hop : createdDomains [op] = []) (hhistory : next.history = r.history ++ [op])
    (hcounted : next.state.toDomainData.ThreadsCounted)
    (hknown : next.state.toDomainData.KnownDomains (createdDomains r.history)) :
    Accounted next := by
  refine ⟨hcounted, ?_⟩
  have hsame : createdDomains next.history = createdDomains r.history := by
    rw [hhistory, createdDomains, List.filterMap_append]
    exact (congrArg (createdDomains r.history ++ ·) hop).trans (List.append_nil _)
  rw [hsame]
  exact hknown

theorem step_accounted (r : Traced HostContext HostOp) (op : HostOp)
    (next : Traced HostContext HostOp) (hr : Accounted r) (hlegal : LegalOp r op)
    (h : traced step r op = .ok next) : Accounted next := by
  obtain ⟨hstep, hhistory⟩ := traced_ok_iff.mp h
  cases op with
  | onDomainCreate domain thread manager uninitialised =>
      obtain ⟨c, hcall, hnext⟩ := withDomainData_ok hstep
      have hcreated : createdDomains next.history = createdDomains r.history ++ [domain] := by
        rw [hhistory, createdDomains, List.filterMap_append]
        rfl
      refine ⟨?_, ?_⟩
      · rw [hnext]
        exact DomainData.onDomainCreate_counted hr.known hr.counted hlegal hcall
      · rw [hnext, hcreated]
        exact DomainData.onDomainCreate_knownDomains hr.known hcall
  | onThreadAcquire parent thread =>
      obtain ⟨c, hcall, hnext⟩ := withDomainData_ok hstep
      obtain ⟨answer, hcall⟩ := map_fst_ok hcall
      refine Accounted.of_not_create rfl hhistory ?_ ?_ <;> rw [hnext]
      · exact DomainData.onThreadAcquire_counted hr.counted hlegal hcall
      · exact DomainData.onThreadAcquire_knownDomains hr.known hcall
  | onThreadRelease thread =>
      obtain ⟨c, hcall, hnext⟩ := withDomainData_ok hstep
      obtain ⟨⟨exit, answer⟩, hcall⟩ := map_fst_ok hcall
      refine Accounted.of_not_create rfl hhistory ?_ ?_ <;> rw [hnext]
      · exact DomainData.onThreadRelease_counted hr.counted hcall
      · exact DomainData.onThreadRelease_knownDomains hr.known hcall
  | onDomainUnload domain =>
      refine Accounted.of_not_create rfl hhistory ?_ ?_ <;> rw [← Except.ok.inj hstep]
      · exact DomainData.eraseDomain_counted domain hr.counted
      · exact DomainData.eraseDomain_knownDomains domain hr.known
  | rawResetCountersForAppDomain domain =>
      refine Accounted.of_not_create rfl hhistory ?_ ?_ <;> rw [← Except.ok.inj hstep]
      · exact DomainData.reset_counted hr.counted hlegal
      · exact DomainData.reset_knownDomains domain hr.known
  | onMemoryAcquire thread bytes address =>
      have hsame := DomainData.onMemoryAcquire_sameThreads thread bytes address
        r.state.toDomainData
      refine Accounted.of_not_create rfl hhistory ?_ ?_ <;> rw [← Except.ok.inj hstep]
      · exact hsame.threadsCounted hr.counted
      · exact hsame.knownDomains hr.known
  | onMemoryRelease address =>
      have hsame := DomainData.onMemoryRelease_sameThreads address r.state.toDomainData
      refine Accounted.of_not_create rfl hhistory ?_ ?_ <;> rw [← Except.ok.inj hstep]
      · exact hsame.threadsCounted hr.counted
      · exact hsame.knownDomains hr.known
  | postHostMessage | onDomainRudeUnload =>
      refine Accounted.of_not_create rfl hhistory ?_ ?_ <;> rw [← Except.ok.inj hstep]
      · exact hr.counted
      · exact hr.known
  | rawGetLastMessage =>
      obtain ⟨hostEvent, hread⟩ := map_fst_ok hstep
      have hsame := (rawGetLastMessage_ok hread).2
      refine Accounted.of_not_create rfl hhistory ?_ ?_ <;> rw [hsame]
      · exact hr.counted
      · exact hr.known
  | onThreadAcquiring parent =>
      obtain ⟨answer, hcall⟩ := map_fst_ok hstep
      have hsame : next.state.toDomainData = r.state.toDomainData := by
        obtain heq | ⟨domain, -, heq⟩ := onThreadAcquiring_ok hcall
        · rw [heq]
        · rw [heq]
          rfl
      refine Accounted.of_not_create rfl hhistory ?_ ?_ <;> rw [hsame]
      · exact hr.counted
      · exact hr.known

theorem accounted_initial : Accounted ⟨initial, []⟩ := by
  refine ⟨?_, ?_, ?_⟩
  · intro domain main count hrecord
    simp [DomainData.threadRecord, initial] at hrecord
  · intro thread domain hthread
    simp [initial] at hthread
  · intro domain hrecord
    simp [DomainData.threadRecord, initial] at hrecord

/-- After every run of legal calls the counter of each domain is the number of
threads mapped to it, and a main thread that is released reports a clean exit
exactly when it was the last one. -/
theorem threads_counted {ops : List HostOp} {s : HostContext}
    (hlegal : Meets (traced step) LegalOp ⟨initial, []⟩ ops)
    (hrun : run step initial ops = .ok s) :
    s.toDomainData.ThreadsCounted ∧
      ∀ thread next exit answer,
        s.toDomainData.onThreadRelease thread = .ok (next, some exit, answer) →
          s.threadAppDomain.lookup thread = some exit.appDomainId ∧
            (exit.cleanExit = true ↔ ∀ other, other ≠ thread →
              s.threadAppDomain.lookup other ≠ some exit.appDomainId) := by
  have hfinal : Accounted ⟨s, [] ++ ops⟩ :=
    invariant_of_meets step_accounted accounted_initial hlegal (run_traced hrun)
  refine ⟨hfinal.counted, ?_⟩
  intro thread next exit answer hrelease
  exact DomainData.onThreadRelease_cleanExit hfinal.counted hrelease

/-- A main thread released while a thread it created lives on. -/
theorem threads_counted_leaking_domain :
    ∃ s next, run step initial [.onDomainCreate 2 7 (some 0) 0, .onThreadAcquire 7 8] = .ok s ∧
      s.toDomainData.ThreadsCounted ∧
      s.toDomainData.onThreadRelease 7 = .ok (next, some ⟨2, false⟩, true) ∧
      ¬ ∀ other, other ≠ 7 → s.threadAppDomain.lookup other ≠ some 2 := by
  have hlegal : Meets (traced step) LegalOp ⟨initial, []⟩
      [.onDomainCreate 2 7 (some 0) 0, .onThreadAcquire 7 8] := by decide
  have hrun : ∃ s next,
      run step initial [.onDomainCreate 2 7 (some 0) 0, .onThreadAcquire 7 8] = .ok s ∧
        s.toDomainData.onThreadRelease 7 = .ok (next, some ⟨2, false⟩, true) :=
    ⟨_, _, rfl, rfl⟩
  obtain ⟨s, next, hrun, hrelease⟩ := hrun
  obtain ⟨hcounted, hclean⟩ := threads_counted hlegal hrun
  refine ⟨s, next, hrun, hcounted, hrelease, ?_⟩
  intro hnone
  cases (hclean 7 next _ true hrelease).2.mpr hnone

end HostContext

end HostedPumpkin
