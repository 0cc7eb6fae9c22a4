import HostedPumpkin.Host.ThreadMoves
import HostedPumpkin.Pool.Attribution
import HostedPumpkin.Pool.HostCalls

/-!
Leak detection. After a run the worker asks the host how many threads its
AppDomain has and takes more than one for a leak. The number is right as long as
the counter was not reset over threads that still lived, and it is taken some
statements after the run has ended. The pool is put together with the history of
the threads the snippets create: by which run, and which of them live.
-/

namespace HostedPumpkin

open Runs

/-- A thread that a snippet created: the AppDomain and the run of the snippet. -/
structure CreatedThread where
  thread : DWORD
  domain : DWORD
  run : RunId
deriving DecidableEq, Repr

namespace Worker

/-- With this input `InternalRun` returns, or is left by an exception. -/
def leavesRun (w : Worker) : WorkerInput → Bool
  | .finished _ | .throws _ | .aborted _ => w.pc == .running
  | .next | .sandbox _ => false

/-- What the worker does about a leak: it delivers CriticalError, if it delivers
a result, and it comes from there to `RecycleDomain`. -/
structure ReportsLeak (p : DomainPool) (w : Worker) : Prop where
  delivers : w.pc = .deliver → ∀ input p' w', w.step p input = .ok (p', w') →
    (w'.pc = .recycleCheck ∨ ∃ caller, w'.pc = .recycle caller .checkZombies) ∧
      ∀ delivery, p'.delivered = p.delivered ++ [delivery] → delivery.status = .criticalError
  recycles : w.pc = .recycleCheck → ∀ input p' w', w.step p input = .ok (p', w') →
    ∃ caller, w'.pc = .recycle caller .checkZombies

end Worker

/-- The pool with the history of its host and of the threads of snippets. -/
structure LeakSystem where
  system : PoolSystem
  /-- The calls of the host so far. -/
  calls : List HostOp
  /-- The threads that snippets created and that have not ended. -/
  alive : List CreatedThread
  /-- The last run of this worker ended while a thread it created was alive. -/
  leaked : ThreadId → Bool

namespace LeakSystem

/-- The run that a thread created in a domain belongs to: the run its parent
belongs to, or the one in progress in the domain. -/
def creator (s : LeakSystem) (parent domain : DWORD) : Option RunId :=
  match s.alive.find? (fun created => created.thread == parent) with
  | some created => some created.run
  | none => s.system.pool.currentRun domain.toInt32

/-- `CreateTask` and `RemoveTask`, seen from the threads of snippets. -/
def aliveAfter (s : LeakSystem) : PoolAction → List CreatedThread
  | .host (.onThreadAcquire parent thread) =>
      match s.system.pool.host.threadAppDomain.lookup parent with
      | none => s.alive
      | some domain =>
          match s.creator parent domain with
          | none => s.alive
          | some run => ⟨thread, domain, run⟩ :: s.alive
  | .host (.onThreadRelease thread) =>
      s.alive.filter (fun created => created.thread != thread)
  | _ => s.alive

def leakedAfter (s : LeakSystem) : PoolAction → ThreadId → Bool
  | .worker thread input =>
      match s.system.workers thread with
      | none => s.leaked
      | some w =>
          if w.leavesRun input then
            Function.update s.leaked thread
              (s.alive.any (fun created => created.run == ⟨thread, w.started⟩))
          else if w.pc = .take then Function.update s.leaked thread false
          else s.leaked
  | _ => s.leaked

def step (s : LeakSystem) (a : PoolAction) : Except PoolFault LeakSystem :=
  match s.system.step a with
  | .error fault => .error fault
  | .ok system =>
      .ok
        { system
          calls := s.calls ++ (s.system.hostCall a).toList
          alive := s.aliveAfter a
          leaked := s.leakedAfter a }

def initial (numberOfDomainsInPool : Nat) : LeakSystem where
  system := PoolSystem.initial numberOfDomainsInPool
  calls := []
  alive := []
  leaked := fun _ => false

/-- A snippet whose run ended while a thread it created was alive is reported. -/
def LeakDetected (s : LeakSystem) : Prop :=
  ∀ t w, s.system.workers t = some w → s.leaked t = true → w.ReportsLeak s.system.pool

/-- The calls of the host that thread accounting is made for. A thread of a
snippet creates no AppDomain, and a new thread has not the id of the main thread
of one. -/
def CallAllowed (s : LeakSystem) (op : HostOp) : Prop :=
  HostContext.LegalOp ⟨s.system.pool.host, s.calls⟩ op ∧
    match op with
    | .onDomainCreate _ thread _ _ => ∀ created ∈ s.alive, created.thread ≠ thread
    | .onThreadAcquire _ thread =>
        s.system.pool.host.appDomains.AllValues (fun info => info.mainThreadId ≠ thread)
    | _ => True

instance (s : LeakSystem) (op : HostOp) : Decidable (s.CallAllowed op) :=
  match op with
  | .onDomainCreate .. => inferInstanceAs (Decidable (_ ∧ ∀ _ ∈ _, _ ≠ _))
  | .onThreadAcquire .. => inferInstanceAs (Decidable (_ ∧ StdMap.AllValues _ _))
  | .rawResetCountersForAppDomain .. | .postHostMessage .. | .onDomainRudeUnload ..
  | .rawGetLastMessage .. | .onDomainUnload .. | .onThreadAcquiring .. | .onThreadRelease ..
  | .onMemoryAcquire .. | .onMemoryRelease .. =>
      inferInstanceAs (Decidable (_ ∧ True))

/-- When the threads are counted after a leak, the AppDomain and its main thread
are still recorded, and a thread of the run still lives. -/
def LeakStays (s : LeakSystem) (thread : ThreadId) (w : Worker) : Prop :=
  s.leaked thread = true → w.pc = .getThreadCount →
    (∃ info ∈ s.system.pool.host.appDomains.lookup w.appDomain.toUInt32,
      s.system.pool.host.threadAppDomain.lookup info.mainThreadId =
        some w.appDomain.toUInt32) ∧
    ∃ created ∈ s.alive, created.run = ⟨thread, w.started⟩

instance (s : LeakSystem) (thread : ThreadId) (w : Worker) : Decidable (s.LeakStays thread w) :=
  inferInstanceAs (Decidable (_ → _ → _))

/-- The condition on a step: its call of the host is allowed, and it does not
count threads that are gone. -/
def CountsLeak (s : LeakSystem) (a : PoolAction) : Prop :=
  (∀ op ∈ s.system.hostCall a, s.CallAllowed op) ∧
    match a with
    | .worker thread .next => ∀ w ∈ s.system.workers thread, s.LeakStays thread w
    | _ => True

instance (s : LeakSystem) (a : PoolAction) : Decidable (s.CountsLeak a) := by
  unfold CountsLeak
  split <;> infer_instance

end LeakSystem

/-- The statements a worker executes once it has its AppDomain. -/
def WorkerPc.inDomain : WorkerPc → Bool
  | .unstarted | .incrementThreads | .createSandbox => false
  | _ => true

/-! The statements after the count. -/

namespace Worker

/-- A worker that has counted a leak goes on accordingly. -/
structure Detects (w : Worker) : Prop where
  counted : w.pc = .getMemoryUsage ∨ w.pc = .decide → w.threadsInDomain > 1
  reported : w.pc = .deliver → w.result.status = .criticalError
  recycles : w.pc = .deliver ∨ w.pc = .recycleCheck → w.recycleDomain = true

variable {p p' : DomainPool} {w w' : Worker}

theorem detects_of_pc (h : w.pc ≠ .getMemoryUsage ∧ w.pc ≠ .decide ∧ w.pc ≠ .deliver ∧
    w.pc ≠ .recycleCheck) : w.Detects := by
  obtain ⟨hmemory, hdecide, hdeliver, hcheck⟩ := h
  refine ⟨?_, ?_, ?_⟩
  · rintro (hpc | hpc)
    · exact absurd hpc hmemory
    · exact absurd hpc hdecide
  · intro hpc
    exact absurd hpc hdeliver
  · rintro (hpc | hpc)
    · exact absurd hpc hdeliver
    · exact absurd hpc hcheck

theorem enterOuterCatch_detects : w.enterOuterCatch.Detects :=
  detects_of_pc (by simp [enterOuterCatch])

theorem next_detects (hw : w.Detects)
    (hcount : w.pc = .getThreadCount → p.getThreadCount w.appDomain > 1)
    (h : w.next p = .ok (p', w')) : w'.Detects := by
  cases hpc : w.pc with
  | getThreadCount =>
      simp only [next, hpc] at h
      cases h
      exact ⟨fun _ => hcount hpc, by simp, by simp⟩
  | getMemoryUsage =>
      simp only [next, hpc] at h
      cases h
      exact ⟨fun _ => hw.counted (Or.inl hpc), by simp, by simp⟩
  | decide =>
      have hleak := hw.counted (Or.inr hpc)
      simp only [next, hpc, hleak, if_true] at h
      cases h
      exact ⟨by simp, fun _ => rfl, fun _ => rfl⟩
  | deliver =>
      simp only [next, hpc] at h
      split at h
      next =>
        cases h
        exact ⟨by simp, by simp, fun _ => hw.recycles (Or.inl hpc)⟩
      next =>
        split at h
        next =>
          cases h
          exact enterOuterCatch_detects
        next =>
          cases h
          exact ⟨by simp, by simp, fun _ => hw.recycles (Or.inl hpc)⟩
  | recycle caller stage =>
      simp only [next, hpc] at h
      obtain ⟨-, _, _, _, rfl, ⟨stage', rfl⟩ | rfl⟩ := recycleStep_ok h
      · exact detects_of_pc (by simp)
      · cases caller
        · exact detects_of_pc (by simp [afterRecycle])
        · exact detects_of_pc (by simp [afterRecycle])
  | _ =>
      simp only [next, hpc] at h
      repeat' split at h
      all_goals cases h
      all_goals exact detects_of_pc (by simp)

theorem thrown_detects (h : Thrown p w p' w') : w'.Detects := by
  cases h with
  | inner pc hregion hpc =>
      obtain ⟨message, rfl | rfl⟩ := hpc
      · exact detects_of_pc (by simp [leaveTry])
      · exact detects_of_pc (by simp [leaveTry])
  | outer hregion => exact enterOuterCatch_detects
  | dies hregion => exact detects_of_pc (by simp)

theorem step_detects {input : WorkerInput} (hw : w.Detects)
    (hcount : input = .next → w.pc = .getThreadCount → p.getThreadCount w.appDomain > 1)
    (h : w.step p input = .ok (p', w')) : w'.Detects := by
  cases input with
  | next => exact next_detects hw (hcount rfl) h
  | sandbox appDomain | finished outcome =>
      simp only [step] at h
      split at h
      all_goals cases h
      exact detects_of_pc (by simp)
  | throws message | aborted message => exact thrown_detects (step_thrown ⟨message, by simp⟩ h)

theorem passive_detects {timeout : Prop} (hw : w.Detects) (h : Passive timeout w w') :
    w'.Detects := by
  obtain ⟨request, rfl⟩ | ⟨hpc, rfl⟩ := h.eq_cases
  · exact ⟨hw.counted, hw.reported, hw.recycles⟩
  · exact detects_of_pc (by simp)

/-- A leak that was counted is reported. -/
theorem Detects.reportsLeak (hw : w.Detects) : w.ReportsLeak p := by
  constructor
  · intro hpc input p' w' h
    cases input with
    | next =>
        simp only [step, next, hpc] at h
        split at h
        next =>
          cases h
          exact ⟨Or.inl rfl, by simp⟩
        next =>
          split at h
          next =>
            cases h
            exact ⟨Or.inr ⟨_, rfl⟩, by simp⟩
          next =>
            cases h
            refine ⟨Or.inl rfl, ?_⟩
            intro delivery hdelivery
            have hsame := List.append_cancel_left hdelivery
            cases hsame
            exact hw.reported hpc
    | sandbox | finished => simp [step, hpc] at h
    | throws message | aborted message =>
        cases step_thrown ⟨message, by simp⟩ h with
        | inner pc hregion => simp [hpc, WorkerPc.region] at hregion
        | outer hregion => exact ⟨Or.inr ⟨_, rfl⟩, by simp⟩
        | dies hregion => simp [hpc, WorkerPc.region] at hregion
  · intro hpc input p' w' h
    cases input with
    | next =>
        simp only [step, next, hpc, hw.recycles (Or.inr hpc), if_true] at h
        cases h
        exact ⟨_, rfl⟩
    | sandbox | finished => simp [step, hpc] at h
    | throws message | aborted message =>
        cases step_thrown ⟨message, by simp⟩ h with
        | inner pc hregion => simp [hpc, WorkerPc.region] at hregion
        | outer hregion => exact ⟨_, rfl⟩
        | dies hregion => simp [hpc, WorkerPc.region] at hregion

/-- The worker has entered its AppDomain. -/
def InDomain (w : Worker) : Prop := w.pc.inDomain = true

theorem inDomain_of_executing (h : w.pc.executing = true) : w.InDomain := by
  unfold InDomain
  cases hpc : w.pc with
  | unstarted | incrementThreads | createSandbox =>
      rw [hpc] at h
      cases h
  | _ => rfl

/-- It never leaves it for another one. -/
theorem next_inDomain (hw : w.InDomain) (h : w.next p = .ok (p', w')) :
    w'.InDomain ∧ w'.appDomain = w.appDomain := by
  unfold InDomain at hw ⊢
  cases hpc : w.pc with
  | recycle caller stage =>
      simp only [next, hpc] at h
      obtain ⟨-, _, _, _, rfl, ⟨stage', rfl⟩ | rfl⟩ := recycleStep_ok h
      · exact ⟨rfl, rfl⟩
      · cases caller
        all_goals exact ⟨rfl, rfl⟩
  | unstarted | incrementThreads | createSandbox =>
      rw [hpc] at hw
      cases hw
  | _ =>
      simp only [next, hpc] at h
      repeat' split at h
      all_goals cases h
      all_goals exact ⟨rfl, rfl⟩

theorem moves_inDomain {t : ThreadId} {a : PoolAction} (hw : w.InDomain)
    (h : Moves t a p p' w w') : w'.InDomain ∧ w'.appDomain = w.appDomain := by
  obtain ⟨input, -, h⟩ | ⟨-, h⟩ | ⟨-, h⟩ := h
  · cases input with
    | next => exact next_inDomain hw h
    | sandbox appDomain =>
        simp only [step] at h
        split at h
        next hcreate =>
          rw [InDomain, hcreate.1] at hw
          cases hw
        next => cases h
    | finished outcome =>
        simp only [step] at h
        split at h
        all_goals cases h
        exact ⟨rfl, rfl⟩
    | throws message | aborted message =>
        cases step_thrown ⟨message, by simp⟩ h with
        | inner pc hregion hpc =>
            obtain ⟨text, rfl | rfl⟩ := hpc
            all_goals exact ⟨rfl, rfl⟩
        | outer hregion => exact ⟨rfl, rfl⟩
        | dies hregion => exact ⟨rfl, rfl⟩
  · obtain ⟨-, -, rfl⟩ := dieRudely_ok h
    exact ⟨rfl, rfl⟩
  · obtain ⟨-, -, rfl⟩ := settle_ok h
    exact ⟨hw, rfl⟩

theorem passive_inDomain {timeout : Prop} (hw : w.InDomain) (h : Passive timeout w w') :
    w'.InDomain ∧ w'.appDomain = w.appDomain := by
  obtain ⟨request, rfl⟩ | ⟨hpc, rfl⟩ := h.eq_cases
  · exact ⟨hw, rfl⟩
  · rw [InDomain, hpc] at hw
    cases hw

end Worker

theorem PoolSystem.step_inDomain {s s' : PoolSystem} {a : PoolAction}
    (hs : PoolSystem.Numbered s) (h : s.step a = .ok s') {t : ThreadId} {w : Worker}
    (hw : s.workers t = some w) (hin : w.InDomain) :
    ∃ w', s'.workers t = some w' ∧ w'.InDomain ∧ w'.appDomain = w.appDomain := by
  obtain ⟨u, v, p, v', hv, hmove, rfl⟩ | hframe := PoolSystem.step_cases h
  · by_cases hu : t = u
    · subst hu
      rw [hv] at hw
      cases hw
      exact ⟨v', Function.update_self _ _ _, Worker.moves_inDomain hin hmove⟩
    · exact ⟨w, (Function.update_of_ne hu _ _).trans hw, hin, rfl⟩
  · obtain ⟨w', hw', hpassive⟩ := hframe.forward hw (hs.threads t w hw).1.ne
    exact ⟨w', hw', Worker.passive_inDomain hin hpassive⟩

namespace LeakSystem

/-- A living thread of a snippet is mapped to the AppDomain it was created in,
which is that of the worker that ran the snippet. -/
def Placed (system : PoolSystem) (created : CreatedThread) : Prop :=
  system.pool.host.threadAppDomain.lookup created.thread = some created.domain ∧
    ∃ w, system.workers created.run.thread = some w ∧ w.InDomain ∧
      w.appDomain.toUInt32 = created.domain

structure LeakInvariant (s : LeakSystem) : Prop where
  numbered : PoolSystem.Numbered s.system
  current : PoolSystem.RunsCurrent s.system
  accounted : HostContext.Accounted ⟨s.system.pool.host, s.calls⟩
  placed : ∀ created ∈ s.alive, Placed s.system created
  notMain : ∀ created ∈ s.alive, ∀ domain main count,
    s.system.pool.host.toDomainData.threadRecord domain = some (main, count) →
      main ≠ created.thread
  detects : ∀ t w, s.system.workers t = some w → s.leaked t = true → w.Detects

variable {s s' : LeakSystem} {a : PoolAction}

theorem step_ok (h : s.step a = .ok s') :
    ∃ system, s.system.step a = .ok system ∧
      s' = { system
             calls := s.calls ++ (s.system.hostCall a).toList
             alive := s.aliveAfter a
             leaked := s.leakedAfter a } := by
  simp only [step] at h
  split at h
  next => cases h
  next system hsystem =>
    cases h
    exact ⟨system, hsystem, rfl⟩

/-- The counters stay right. -/
theorem accounted_step {system : PoolSystem} (hs : LeakInvariant s)
    (hallowed : ∀ op ∈ s.system.hostCall a, s.CallAllowed op)
    (h : s.system.step a = .ok system) :
    HostContext.Accounted ⟨system.pool.host, s.calls ++ (s.system.hostCall a).toList⟩ := by
  obtain ⟨hcall, hhost⟩ | ⟨op, hcall, hhost⟩ := (PoolSystem.step_hostStep h).cases
  · rw [hcall, hhost, Option.toList_none, List.append_nil]
    exact hs.accounted
  · rw [hcall]
    exact HostContext.step_accounted ⟨s.system.pool.host, s.calls⟩ op _ hs.accounted
      (hallowed op hcall).1 (traced_ok_iff.mpr ⟨hhost, rfl⟩)

/-- The threads that lived before a step and live after it stay where they are. -/
theorem mem_aliveAfter {created : CreatedThread} (h : created ∈ s.aliveAfter a) :
    (created ∈ s.alive ∧ ∀ released, a = .host (.onThreadRelease released) →
      created.thread ≠ released) ∨
    ∃ parent, a = .host (.onThreadAcquire parent created.thread) ∧
      s.system.pool.host.threadAppDomain.lookup parent = some created.domain ∧
      s.creator parent created.domain = some created.run := by
  unfold aliveAfter at h
  split at h
  next parent thread =>
    split at h
    next => exact Or.inl ⟨h, by simp⟩
    next domain hparent =>
      split at h
      next => exact Or.inl ⟨h, by simp⟩
      next run hrun =>
        rcases List.mem_cons.mp h with rfl | hold
        · exact Or.inr ⟨parent, rfl, hparent, hrun⟩
        · exact Or.inl ⟨hold, by simp⟩
  next released =>
    obtain ⟨hold, hne⟩ := List.mem_filter.mp h
    left
    refine ⟨hold, ?_⟩
    intro other heq
    cases heq
    simpa using hne
  next hother hnot =>
    left
    refine ⟨h, ?_⟩
    intro released heq
    exact absurd heq (hnot released)

/-- Threads of snippets are released by the host alone. -/
theorem eq_host_of_hostCall {system : PoolSystem} {released : DWORD}
    (h : system.hostCall a = some (.onThreadRelease released)) :
    a = .host (.onThreadRelease released) := by
  cases a with
  | host op =>
      cases h
      rfl
  | worker thread input =>
      cases input with
      | next =>
          simp only [PoolSystem.hostCall] at h
          split at h
          next => split at h <;> cases h
          next => cases h
      | sandbox | finished | throws | aborted => cases h
  | watchdog input =>
      cases input with
      | next =>
          simp only [PoolSystem.hostCall] at h
          split at h <;> cases h
      | interrupted => cases h
  | submit | submitter | foreignAbort | rudeAbort | settle | tick => cases h

/-- A thread that lives on stays mapped to its AppDomain. -/
theorem lookup_step {system : PoolSystem} (hallowed : ∀ op ∈ s.system.hostCall a, s.CallAllowed op)
    (h : s.system.step a = .ok system) {created : CreatedThread} (hold : created ∈ s.alive)
    (hlives : ∀ released, a = .host (.onThreadRelease released) → created.thread ≠ released)
    (hlookup : s.system.pool.host.threadAppDomain.lookup created.thread =
      some created.domain) :
    system.pool.host.threadAppDomain.lookup created.thread = some created.domain := by
  obtain ⟨-, hhost⟩ | ⟨op, hcall, hhost⟩ := (PoolSystem.step_hostStep h).cases
  · rw [hhost]
    exact hlookup
  · apply HostContext.step_threads hhost hlookup
    intro hmoves
    cases op with
    | onDomainCreate domain moved manager uninitialised =>
        exact (hallowed _ hcall).2 created hold hmoves.symm
    | onThreadRelease released =>
        exact hlives released (eq_host_of_hostCall hcall) hmoves.symm
    | _ => exact hmoves

/-- The worker whose snippet creates a thread in an AppDomain is in it. -/
theorem creator_worker (hs : LeakInvariant s) {parent domain : DWORD} {run : RunId}
    (hparent : s.system.pool.host.threadAppDomain.lookup parent = some domain)
    (h : s.creator parent domain = some run) :
    ∃ w, s.system.workers run.thread = some w ∧ w.InDomain ∧
      w.appDomain.toUInt32 = domain := by
  unfold creator at h
  split at h
  next created hfind =>
    cases h
    obtain ⟨hlookup, hworker⟩ := hs.placed created (List.mem_of_find?_eq_some hfind)
    have hthread : created.thread = parent := by simpa using List.find?_some hfind
    rw [hthread, hparent] at hlookup
    cases hlookup
    exact hworker
  next =>
    obtain ⟨w, hw, hexecuting, -, hdomain⟩ := hs.current _ _ h
    refine ⟨w, hw, Worker.inDomain_of_executing hexecuting, ?_⟩
    rw [hdomain, UInt32.toUInt32_toInt32]

theorem placed_step {system : PoolSystem} (hs : LeakInvariant s)
    (hallowed : ∀ op ∈ s.system.hostCall a, s.CallAllowed op)
    (h : s.system.step a = .ok system) {created : CreatedThread}
    (hcreated : created ∈ s.aliveAfter a) : Placed system created := by
  -- the worker stays in its AppDomain, whoever takes the step
  have hworker : (∃ w, s.system.workers created.run.thread = some w ∧ w.InDomain ∧
      w.appDomain.toUInt32 = created.domain) →
        ∃ w, system.workers created.run.thread = some w ∧ w.InDomain ∧
          w.appDomain.toUInt32 = created.domain := by
    rintro ⟨w, hw, hin, hdomain⟩
    obtain ⟨w', hw', hin', hdomain'⟩ := PoolSystem.step_inDomain hs.numbered h hw hin
    exact ⟨w', hw', hin', by rw [hdomain', hdomain]⟩
  obtain ⟨hold, hlives⟩ | ⟨parent, rfl, hparent, hcreator⟩ := mem_aliveAfter hcreated
  · obtain ⟨hlookup, hin⟩ := hs.placed created hold
    exact ⟨lookup_step hallowed h hold hlives hlookup, hworker hin⟩
  · refine ⟨?_, hworker (creator_worker hs hparent hcreator)⟩
    have hhost : s.system.pool.host.step (.onThreadAcquire parent created.thread) =
        .ok system.pool.host := PoolSystem.step_hostStep h
    have hnew : s.system.pool.host.threadAppDomain.lookup created.thread = none :=
      (hallowed _ rfl).1
    obtain ⟨c, hcall, hnext⟩ := HostContext.withDomainData_ok hhost
    obtain ⟨answer, hcall⟩ := HostContext.map_fst_ok hcall
    rw [hnext]
    obtain ⟨hnone, -⟩ | ⟨domain, info, hdomain, -, -, rfl⟩ := DomainData.onThreadAcquire_ok hcall
    · rw [hparent] at hnone
      cases hnone
    · rw [hparent] at hdomain
      cases hdomain
      simp only [StdMap.lookup_insertNew_of_none hnew, if_true]

/-- No thread of a snippet becomes the main thread of an AppDomain. -/
theorem notMain_step {system : PoolSystem} (hs : LeakInvariant s)
    (hallowed : ∀ op ∈ s.system.hostCall a, s.CallAllowed op)
    (h : s.system.step a = .ok system) {created : CreatedThread}
    (hcreated : created ∈ s.aliveAfter a) {domain main : DWORD} {count : LONG}
    (hrecord : system.pool.host.toDomainData.threadRecord domain = some (main, count)) :
    main ≠ created.thread := by
  have hbefore : ∀ old, s.system.pool.host.toDomainData.threadRecord domain = some (main, old) →
      main ≠ created.thread := by
    intro old hold
    obtain ⟨halive, -⟩ | ⟨parent, rfl, -, -⟩ := mem_aliveAfter hcreated
    · exact hs.notMain created halive domain main old hold
    · obtain ⟨info, hinfo, heq⟩ := Option.map_eq_some_iff.mp hold
      cases heq
      exact StdMap.allValues_iff.mp (hallowed _ rfl).2 domain info hinfo
  obtain ⟨-, hhost⟩ | ⟨op, hcall, hhost⟩ := (PoolSystem.step_hostStep h).cases
  · rw [hhost] at hrecord
    exact hbefore count hrecord
  · obtain ⟨old, hold⟩ | ⟨manager, uninitialised, rfl⟩ :=
      HostContext.step_mainThreads hhost domain main count hrecord
    · exact hbefore old hold
    · obtain ⟨halive, -⟩ | ⟨parent, rfl, -, -⟩ := mem_aliveAfter hcreated
      · exact Ne.symm ((hallowed _ hcall).2 created halive)
      · cases hcall

/-- The count tells a leak that stays. -/
theorem getThreadCount_of_leak (hs : LeakInvariant s) {t : ThreadId} {w : Worker}
    (hw : s.system.workers t = some w) (hstays : s.LeakStays t w) (hleaked : s.leaked t = true)
    (hpc : w.pc = .getThreadCount) : s.system.pool.getThreadCount w.appDomain > 1 := by
  obtain ⟨⟨info, hinfo, hmain⟩, created, hcreated, hrun⟩ := hstays hleaked hpc
  obtain ⟨hlookup, v, hv, -, hdomain⟩ := hs.placed created hcreated
  rw [hrun, hw] at hv
  cases hv
  have hrecord : s.system.pool.host.toDomainData.threadRecord w.appDomain.toUInt32 =
      some (info.mainThreadId, info.threadsInAppDomain) := by
    rw [DomainData.threadRecord, Option.mem_def.mp hinfo]
    rfl
  have hcount := hs.accounted.counted _ _ _ hrecord
  have hne := hs.notMain created hcreated _ _ _ hrecord
  have htwo : 1 < (s.system.pool.host.threadAppDomain.fiber w.appDomain.toUInt32).card := by
    apply Finset.one_lt_card.mpr
    refine ⟨info.mainThreadId, StdMap.mem_fiber.mpr hmain, created.thread, ?_, hne⟩
    exact StdMap.mem_fiber.mpr (hdomain ▸ hlookup)
  have hread : s.system.pool.getThreadCount w.appDomain = info.threadsInAppDomain := by
    simp only [DomainPool.getThreadCount, DomainData.rawGetThreadCount, Option.mem_def.mp hinfo,
      Option.map_some, Option.getD_some]
  rw [hread, hcount]
  exact_mod_cast htwo

/-- A leak recorded after a step of a worker was recorded before, or the worker
has just left the run. -/
theorem leakedAfter_worker {t : ThreadId} {w : Worker} {input : WorkerInput}
    (hw : s.system.workers t = some w) (h : s.leakedAfter (.worker t input) t = true) :
    s.leaked t = true ∨ w.pc = .running := by
  simp only [leakedAfter, hw] at h
  split at h
  next hleaves =>
    right
    cases input with
    | finished | throws | aborted => simpa [Worker.leavesRun] using hleaves
    | next | sandbox => cases hleaves
  next =>
    split at h
    next =>
      rw [Function.update_self] at h
      cases h
    next => exact Or.inl h

theorem leakedAfter_of_ne {t u : ThreadId} {input : WorkerInput} (hne : t ≠ u) :
    s.leakedAfter (.worker u input) t = s.leaked t := by
  cases hu : s.system.workers u with
  | none => simp only [leakedAfter, hu]
  | some w =>
      simp only [leakedAfter, hu]
      split_ifs
      · exact Function.update_of_ne hne _ _
      · exact Function.update_of_ne hne _ _
      · rfl

theorem detects_step {system : PoolSystem} (hs : LeakInvariant s) (hcounts : s.CountsLeak a)
    (h : s.system.step a = .ok system) :
    ∀ t w, system.workers t = some w → s.leakedAfter a t = true → w.Detects := by
  intro t w' hw' hleaked
  obtain ⟨u, v, p, v', hv, hmove, rfl⟩ | hother := PoolSystem.step_ok h
  · obtain ⟨rfl, rfl⟩ | ⟨hne, hw⟩ := PoolSystem.workers_setWorker hw'
    · obtain ⟨input, rfl, hstep⟩ | ⟨rfl, hdies⟩ | ⟨rfl, hsettles⟩ := hmove
      · obtain hbefore | hrunning := leakedAfter_worker hv hleaked
        · apply Worker.step_detects (hs.detects t v hv hbefore) _ hstep
          rintro rfl hpc
          exact getThreadCount_of_leak hs hv (hcounts.2 v hv) hbefore hpc
        · have hdetects : v.Detects := Worker.detects_of_pc (by simp [hrunning])
          apply Worker.step_detects hdetects _ hstep
          intro _ hpc
          rw [hrunning] at hpc
          cases hpc
      · obtain ⟨-, -, rfl⟩ := Worker.dieRudely_ok hdies
        exact Worker.detects_of_pc (by simp)
      · obtain ⟨hended, -, rfl⟩ := Worker.settle_ok hsettles
        exact Worker.detects_of_pc (by simp [hended])
    · apply hs.detects t w' hw
      obtain ⟨input, rfl, -⟩ | ⟨rfl, -⟩ | ⟨rfl, -⟩ := hmove
      · rwa [leakedAfter_of_ne hne] at hleaked
      · exact hleaked
      · exact hleaked
  · have hbefore : s.leaked t = true := by
      cases hother with
      | watchdog | interrupted | submit | submitter | foreignAbort | host | tick =>
          exact hleaked
    obtain ⟨w, hw, hpassive⟩ | ⟨-, -, index, data, rfl⟩ :=
      hother.frame.workers.origin t w' hw'
    · exact Worker.passive_detects (hs.detects t w hw hbefore) hpassive
    · exact Worker.detects_of_pc (by simp [Worker.created])

theorem leakInvariant_step (hs : LeakInvariant s) (hcounts : s.CountsLeak a)
    (h : s.step a = .ok s') : LeakInvariant s' := by
  obtain ⟨system, hsystem, rfl⟩ := step_ok h
  refine ⟨PoolSystem.numbered_step hs.numbered hsystem,
    PoolSystem.runsCurrent_step hs.numbered hs.current hsystem,
    accounted_step hs hcounts.1 hsystem, ?_, ?_, detects_step hs hcounts hsystem⟩
  · intro created hcreated
    exact placed_step hs hcounts.1 hsystem hcreated
  · intro created hcreated domain main count hrecord
    exact notMain_step hs hcounts.1 hsystem hcreated hrecord

theorem leakInvariant_initial (numberOfDomainsInPool : Nat) :
    LeakInvariant (initial numberOfDomainsInPool) := by
  refine ⟨PoolSystem.numbered_initial _, ?_, HostContext.accounted_initial, ?_, ?_, ?_⟩
  · intro appDomain run h
    cases h
  · intro created h
    cases h
  · intro created h
    cases h
  · intro t w _ h
    cases h

/-- In every run in which counters are reset over no thread but the main thread
of an AppDomain, and leaked threads stay until they are counted, every snippet
that leaks a thread is reported and its AppDomain recycled. -/
theorem leaks_detected (numberOfDomainsInPool : Nat) (actions : List PoolAction)
    (hcounts : Meets step CountsLeak (initial numberOfDomainsInPool) actions) :
    Always step LeakDetected (initial numberOfDomainsInPool) actions := by
  have hinvariant : Always step LeakInvariant (initial numberOfDomainsInPool) actions :=
    always_of_meets (fun _ _ _ hs hcond h => leakInvariant_step hs hcond h)
      (leakInvariant_initial numberOfDomainsInPool) hcounts
  apply hinvariant.imp
  intro s hs t w hw hleaked
  exact (hs.detects t w hw hleaked).reportsLeak

/-- The first worker enters its AppDomain on the OS thread 100 and takes the first
of two snippets; the snippet creates the thread 8 and returns. -/
def leakingRun : List PoolAction :=
  [.host (.onDomainCreate 1 7 (some 0) 0), .host (.onThreadAcquire 7 100)] ++
    PoolSystem.goesOn 0 1 ++
    [.host (.onDomainCreate 2 100 (some 1) 0), .worker 0 (.sandbox 2)] ++
    PoolSystem.goesOn 0 4 ++ PoolSystem.submitted 0 ++ PoolSystem.submitted 1 ++
    PoolSystem.goesOn 0 5 ++
    [.host (.onThreadAcquire 100 8), .worker 0 (.finished .success)]

/-- A snippet that leaks a thread: it gets CriticalError, and the worker comes to
`RecycleDomain`. -/
theorem leaks_detected_first_run :
    Always step LeakDetected (initial 1) (leakingRun ++ PoolSystem.goesOn 0 7) ∧
      Reaches step (fun s => s.leaked 0 = true ∧
          s.system.pool.delivered = [⟨0, .criticalError, 0⟩] ∧
          ∃ w ∈ s.system.workers 0, w.pc = .recycle .loop .checkZombies)
        (initial 1) (leakingRun ++ PoolSystem.goesOn 0 7) :=
  ⟨leaks_detected 1 _ (by decide), by decide⟩

/-- The worker goes on in the same AppDomain after `RecycleDomain`, its unload is
still to come, and the counter is reset while the thread 8 lives. The second
snippet creates the thread 9, the thread 8 ends, and one thread is counted. -/
theorem second_leak_hidden :
    ¬ Always step LeakDetected (initial 1)
      (leakingRun ++ PoolSystem.goesOn 0 7 ++ PoolSystem.goesOn 0 12 ++
        [.host (.onThreadAcquire 100 9), .host (.onThreadRelease 8),
          .worker 0 (.finished .success)] ++ PoolSystem.goesOn 0 5) := by
  intro h
  have hreaches : Reaches step (fun s => s.leaked 0 = true ∧
        s.system.pool.submissionMap 1 = some 1 ∧
        ∃ w ∈ s.system.workers 0, w.pc = .deliver ∧ w.result.status = .success ∧
          w.snippetToRun.submissionId = some 1)
      (initial 1) (leakingRun ++ PoolSystem.goesOn 0 7 ++ PoolSystem.goesOn 0 12 ++
        [.host (.onThreadAcquire 100 9), .host (.onThreadRelease 8),
          .worker 0 (.finished .success)] ++ PoolSystem.goesOn 0 5) := by decide
  obtain ⟨s, hrun, hleaked, hcompletion, w, hw, hpc, hstatus, hid⟩ := reaches_iff.mp hreaches
  have hnext : w.step s.system.pool .next =
      .ok ({ s.system.pool with
          delivered := s.system.pool.delivered ++ [⟨1, w.result.status, w.lasted⟩] },
        { w with pc := .recycleCheck, resultsSet := w.resultsSet ++ [1] }) := by
    simp only [Worker.step, Worker.next, hpc, hid, hcompletion]
  have hcritical := ((h.last hrun 0 w hw hleaked).delivers hpc _ _ _ hnext).2 _ rfl
  rw [hstatus] at hcritical
  cases hcritical

end LeakSystem

end HostedPumpkin
