import HostedPumpkin.Pool.DomainIds

/-!
Thread exhaustion. The host posts an OutOfTasks event about an AppDomain, the
watchdog reads it later and aborts the main thread of that domain. Nothing in
the event says which snippet it is about, and `ResetContextFor` leaves events in
the queue, so an event is held against the run that caused it as long as that
run does not end while the event is on its way.
-/

namespace HostedPumpkin

open Runs

/-- A snippet is running: its start was recorded and is not cleared yet. -/
def WorkerPc.executing : WorkerPc → Bool
  | .running | .readEnd | .clearStart => true
  | _ => false

/-- The watchdog holds an OutOfTasks event it may still act on. -/
def WatchdogPc.holdsEvent : WatchdogPc → Bool
  | .findDomain hostEvent => hostEvent.eventType == HostEventType.outOfTasks
  | .exchangeAborting _ | .abortExausted _ => true
  | _ => false

namespace Worker

/-- With this input the worker leaves the run it is in. -/
def endsRun (w : Worker) : WorkerInput → Bool
  | .next => w.pc == .clearStart
  | .throws _ | .aborted _ => w.pc.executing
  | .sandbox _ | .finished _ => false

/-- What a step of a worker does about the run in progress in its domain: the run
goes on, ends or starts. -/
inductive RunStep (ends : Prop) (p p' : DomainPool) (w w' : Worker) : Prop
  | goesOn (hcurrent : p'.currentRun = p.currentRun)
      (hrun : w.pc.executing = true →
        w'.pc.executing = true ∧ w'.started = w.started ∧ w'.appDomain = w.appDomain)
  | ends (hcurrent : p'.currentRun = Function.update p.currentRun w.appDomain none)
      (hrun : w.pc.executing = true → ends)
  | starts (hpc : w.pc.executing = false)
      (hcurrent : p'.currentRun = Function.update p.currentRun w.appDomain
        (some ⟨w.thread, w.started + 1⟩))
      (hrun : w'.pc.executing = true ∧ w'.started = w.started + 1 ∧
        w'.appDomain = w.appDomain)

variable {p p' : DomainPool} {w w' : Worker}

theorem next_runStep (h : w.next p = .ok (p', w')) :
    RunStep (w.endsRun .next = true) p p' w w' := by
  cases hpc : w.pc with
  | readEnd =>
      simp only [next, hpc] at h
      cases h
      exact .goesOn rfl (fun _ => ⟨rfl, rfl, rfl⟩)
  | clearStart =>
      simp only [next, hpc] at h
      cases h
      exact .ends rfl (fun _ => by simp [endsRun, hpc])
  | writeStart =>
      simp only [next, hpc] at h
      cases h
      exact .starts (by rw [hpc]; rfl) rfl ⟨rfl, rfl, rfl⟩
  | recycle caller stage =>
      have hidle : w.pc.executing = false := by
        rw [hpc]
        rfl
      simp only [next, hpc] at h
      obtain ⟨⟨_, _, _, _, _, _, rfl⟩, _⟩ := recycleStep_ok h
      exact .goesOn rfl (fun hrun => by simp [hidle] at hrun)
  | unstarted | createSandbox | running | ended =>
      simp only [next, hpc] at h
      cases h
  | _ =>
      have hidle : w.pc.executing = false := by
        rw [hpc]
        rfl
      simp only [next, hpc] at h
      repeat' split at h
      all_goals cases h
      all_goals exact .goesOn rfl (fun hrun => by simp [hidle] at hrun)

/-- A run is in progress only in the inner try block. -/
theorem region_of_executing {pc : WorkerPc} (h : pc.executing = true) :
    pc.region = .innerTry := by
  cases pc with
  | running | readEnd | clearStart => rfl
  | _ => cases h

theorem step_runStep {input : WorkerInput} (h : w.step p input = .ok (p', w')) :
    RunStep (w.endsRun input = true) p p' w w' := by
  cases input with
  | next => exact next_runStep h
  | sandbox appDomain =>
      simp only [step] at h
      split at h
      next hcreate =>
        cases h
        exact .goesOn rfl (fun hrun => by simp [hcreate.1, WorkerPc.executing] at hrun)
      next => cases h
  | finished outcome =>
      simp only [step] at h
      split at h
      next =>
        cases h
        exact .goesOn rfl (fun _ => ⟨rfl, rfl, rfl⟩)
      next => cases h
  | throws message | aborted message =>
      cases step_thrown ⟨message, by simp⟩ h with
      | inner pc hregion hpc => exact .ends rfl id
      | outer hregion =>
          exact .goesOn rfl (fun hrun => by simp [region_of_executing hrun] at hregion)
      | dies hregion =>
          exact .goesOn rfl (fun hrun => by simp [region_of_executing hrun] at hregion)

end Worker

namespace PoolSystem

/-- The worker that took the snippet is still running it. -/
def Executes (s : PoolSystem) (run : RunId) : Prop :=
  ∃ w, s.workers run.thread = some w ∧ w.pc.executing = true ∧ w.started = run.number

/-- An OutOfTasks event posted during the run is queued, or in the hands of the
watchdog. -/
def InFlight (s : PoolSystem) (run : RunId) : Prop :=
  (∃ hostEvent ∈ s.pool.host.messageQueue,
    hostEvent.eventType = HostEventType.outOfTasks ∧
      s.pool.postedDuring hostEvent.appDomainId = some run) ∨
  (s.watchdog.pc.holdsEvent = true ∧ s.watchdog.cause = some run)

instance (s : PoolSystem) (run : RunId) : Decidable (s.InFlight run) :=
  inferInstanceAs (Decidable ((∃ hostEvent ∈ s.pool.host.messageQueue,
    hostEvent.eventType = HostEventType.outOfTasks ∧
      s.pool.postedDuring hostEvent.appDomainId = some run) ∨
    (s.watchdog.pc.holdsEvent = true ∧ s.watchdog.cause = some run)))

/-- No run ends while an event about it is in flight. -/
def RunsOutlastEvents (s : PoolSystem) : PoolAction → Prop
  | .worker thread input => ∀ w ∈ s.workers thread,
      w.endsRun input = true → ¬ s.InFlight ⟨thread, w.started⟩
  | .rudeAbort thread => ∀ w ∈ s.workers thread,
      w.pc.executing = true → ¬ s.InFlight ⟨thread, w.started⟩
  | _ => True

instance (s : PoolSystem) : (a : PoolAction) → Decidable (s.RunsOutlastEvents a)
  | .worker thread input =>
      inferInstanceAs (Decidable (∀ w ∈ s.workers thread,
        w.endsRun input = true → ¬ s.InFlight ⟨thread, w.started⟩))
  | .rudeAbort thread =>
      inferInstanceAs (Decidable (∀ w ∈ s.workers thread,
        w.pc.executing = true → ¬ s.InFlight ⟨thread, w.started⟩))
  | .watchdog _ | .submit _ | .submitter _ | .foreignAbort _ | .settle _ | .host _
  | .tick _ => isTrue trivial

/-- When the watchdog is about to call `Abort(threadsExaustedAbortToken)` for an
event posted during a run, that run is still in progress. The thread it aborts is
the one of that run, if its worker has an object of its own. -/
def HeldAgainstCause (s : PoolSystem) : Prop :=
  ∀ poolDomain run, s.watchdog.pc = .abortExausted poolDomain →
    s.watchdog.cause = some run → s.Executes run ∧
      (s.HasOwnObject run.thread →
        ∀ t, (s.pool.heap poolDomain).mainThread = some t → t = run.thread)

/-- The runs recorded as current are in progress. -/
def RunsCurrent (s : PoolSystem) : Prop :=
  ∀ appDomain run, s.pool.currentRun appDomain = some run →
    ∃ w, s.workers run.thread = some w ∧ w.pc.executing = true ∧
      w.started = run.number ∧ w.appDomain = appDomain

/-- The runs that the history names are in progress: those recorded as current,
and those an event in flight is about. -/
structure AttributionInvariant (s : PoolSystem) : Prop where
  numbered : Numbered s
  current : ∀ appDomain run, s.pool.currentRun appDomain = some run →
    ∃ w, s.workers run.thread = some w ∧ w.pc.executing = true ∧
      w.started = run.number ∧ w.appDomain = appDomain
  inFlight : ∀ run, s.InFlight run → s.Executes run

variable {s s' : PoolSystem}

/-- A step of a worker ends the run of no other worker, and its own only as the
input says. -/
theorem executes_of_moves {t : ThreadId} {p : DomainPool} {w w' : Worker} {ends : Prop}
    (hw : s.workers t = some w) (hrun : Worker.RunStep ends s.pool p w w') {run : RunId}
    (hends : ends → run ≠ ⟨t, w.started⟩) (h : s.Executes run) :
    ({ s with pool := p }.setWorker t w').Executes run := by
  obtain ⟨v, hv, hexecuting, hstarted⟩ := h
  by_cases ht : run.thread = t
  · rw [ht, hw] at hv
    cases hv
    have hsame : run = ⟨t, w.started⟩ := by
      rw [← ht, hstarted]
    cases hrun with
    | goesOn _ hgoesOn =>
        obtain ⟨hexecuting', hstarted', -⟩ := hgoesOn hexecuting
        refine ⟨w', ?_, hexecuting', hstarted'.trans hstarted⟩
        rw [ht]
        exact Function.update_self _ _ _
    | ends _ hends' => exact absurd hsame (hends (hends' hexecuting))
    | starts hidle => exact absurd (hexecuting.symm.trans hidle) (by simp)
  · exact ⟨v, (Function.update_of_ne ht _ _).trans hv, hexecuting, hstarted⟩

/-- The history stays right about the runs in progress whatever a worker does. -/
theorem runsCurrent_of_moves {t : ThreadId} {p : DomainPool} {w w' : Worker} {ends : Prop}
    (hnumbered : Numbered s) (hs : RunsCurrent s) (hw : s.workers t = some w)
    (hrun : Worker.RunStep ends s.pool p w w') :
    RunsCurrent ({ s with pool := p }.setWorker t w') := by
  intro appDomain run hcurrent
  change p.currentRun appDomain = some run at hcurrent
  have hother : ∀ v, s.workers run.thread = some v → run.thread ≠ t →
      ({ s with pool := p }.setWorker t w').workers run.thread = some v :=
    fun v hv hne => (Function.update_of_ne hne _ _).trans hv
  have hself : ({ s with pool := p }.setWorker t w').workers t = some w' :=
    Function.update_self _ _ _
  cases hrun with
  | goesOn hsame hgoesOn =>
      rw [hsame] at hcurrent
      obtain ⟨v, hv, hexecuting, hstarted, hdomain⟩ := hs appDomain run hcurrent
      by_cases ht : run.thread = t
      · rw [ht, hw] at hv
        cases hv
        obtain ⟨hexecuting', hstarted', hdomain'⟩ := hgoesOn hexecuting
        exact ⟨w', by rw [ht, hself], hexecuting', hstarted'.trans hstarted,
          hdomain'.trans hdomain⟩
      · exact ⟨v, hother v hv ht, hexecuting, hstarted, hdomain⟩
  | ends hsame _ =>
      rw [hsame] at hcurrent
      by_cases hdomain' : appDomain = w.appDomain
      · rw [hdomain', Function.update_self] at hcurrent
        cases hcurrent
      · rw [Function.update_of_ne hdomain'] at hcurrent
        obtain ⟨v, hv, hexecuting, hstarted, hdomain⟩ := hs appDomain run hcurrent
        have ht : run.thread ≠ t := by
          intro ht
          rw [ht, hw] at hv
          cases hv
          exact hdomain' hdomain.symm
        exact ⟨v, hother v hv ht, hexecuting, hstarted, hdomain⟩
  | starts hidle hsame hstarts =>
      rw [hsame] at hcurrent
      by_cases hdomain' : appDomain = w.appDomain
      · rw [hdomain', Function.update_self] at hcurrent
        cases hcurrent
        obtain ⟨hexecuting, hstarted, hdomain⟩ := hstarts
        have ht : w.thread = t := (hnumbered.threads t w hw).2
        exact ⟨w', by rw [ht, hself], hexecuting, hstarted, by rw [hdomain, hdomain']⟩
      · rw [Function.update_of_ne hdomain'] at hcurrent
        obtain ⟨v, hv, hexecuting, hstarted, hdomain⟩ := hs appDomain run hcurrent
        have ht : run.thread ≠ t := by
          intro ht
          rw [ht, hw] at hv
          cases hv
          exact absurd (hexecuting.symm.trans hidle) (by simp)
        exact ⟨v, hother v hv ht, hexecuting, hstarted, hdomain⟩

theorem SameEvents.inFlight (h : SameEvents s s') {run : RunId}
    (hflight : s'.InFlight run) : s.InFlight run := by
  obtain ⟨hqueue, hposted, hwatchdog⟩ := h
  unfold InFlight at hflight ⊢
  rw [hqueue, hposted, hwatchdog] at hflight
  exact hflight

/-- A step of the watchdog that touches neither the queue nor the history, and
after which it holds an event only if it did before. -/
theorem inFlight_of_watchdog {run : RunId} (hflight : s'.InFlight run)
    (hqueue : s'.pool.host.messageQueue = s.pool.host.messageQueue)
    (hposted : s'.pool.postedDuring = s.pool.postedDuring)
    (hholds : s'.watchdog.pc.holdsEvent = true →
      s.watchdog.pc.holdsEvent = true ∧ s'.watchdog.cause = s.watchdog.cause) :
    s.InFlight run := by
  obtain hqueued | ⟨hheld, hcause⟩ := hflight
  · rw [hqueue, hposted] at hqueued
    exact Or.inl hqueued
  · obtain ⟨hheld', hsame⟩ := hholds hheld
    exact Or.inr ⟨hheld', hsame ▸ hcause⟩

/-- Reading the last event takes it from the queue into the watchdog's hands. -/
theorem inFlight_of_read {host : HostContext} {hostEvent : HostEvent}
    (hread : s.pool.host.rawGetLastMessage = .ok (host, some hostEvent))
    (hqueue : s'.pool.host = host) (hposted : s'.pool.postedDuring = s.pool.postedDuring)
    (hpc : s'.watchdog.pc = .findDomain hostEvent)
    (hcause : s'.watchdog.cause = s.pool.postedDuring hostEvent.appDomainId)
    {run : RunId} (hflight : s'.InFlight run) : s.InFlight run := by
  obtain ⟨hmessages, -⟩ := HostContext.rawGetLastMessage_ok hread
  obtain ⟨-, -, hnone⟩ | ⟨event, heq, -, htake⟩ := MessageData.rawGetLastMessage_ok hmessages
  · cases hnone
  · cases heq
    obtain ⟨hlast, hrest, -⟩ := MessageData.takeLastMessage_ok htake
    left
    obtain ⟨queued, hmem, htype, htag⟩ | ⟨hheld, htag⟩ := hflight
    · rw [hqueue, hrest] at hmem
      rw [hposted] at htag
      exact ⟨queued, (List.dropLast_sublist _).subset hmem, htype, htag⟩
    · rw [hpc] at hheld
      rw [hcause] at htag
      exact ⟨hostEvent, List.mem_of_getLast? hlast, by simpa [WatchdogPc.holdsEvent] using hheld,
        htag⟩

theorem watchdogNext_inFlight (h : s.watchdogNext = .ok s') {run : RunId}
    (hflight : s'.InFlight run) : s.InFlight run := by
  cases hpc : s.watchdog.pc with
  | getMessage =>
      obtain ⟨host, hostEvent, hread, ⟨rfl, rfl⟩ | ⟨event, rfl, rfl⟩⟩ :=
        watchdogNext_getMessage hpc h
      · obtain ⟨hmessages, -⟩ := HostContext.rawGetLastMessage_ok hread
        obtain ⟨-, hsame, -⟩ | ⟨event, heq, -⟩ := MessageData.rawGetLastMessage_ok hmessages
        · refine inFlight_of_watchdog hflight ?_ rfl (fun hheld => by cases hheld)
          exact congrArg MessageData.messageQueue hsame
        · cases heq
      · refine inFlight_of_read hread ?_ ?_ ?_ ?_ hflight
        all_goals rfl
  | findDomain hostEvent =>
      simp only [watchdogNext, hpc] at h
      split at h
      next htype =>
        have hheld : s.watchdog.pc.holdsEvent = true := by
          simp [hpc, WatchdogPc.holdsEvent, htype]
        split at h
        all_goals cases h
        all_goals exact inFlight_of_watchdog hflight rfl rfl (fun _ => ⟨hheld, rfl⟩)
      next =>
        cases h
        exact inFlight_of_watchdog hflight rfl rfl (fun hheld => by cases hheld)
  | exchangeAborting poolDomain =>
      have hheld : s.watchdog.pc.holdsEvent = true := by
        rw [hpc]
        rfl
      simp only [watchdogNext, hpc] at h
      split at h
      all_goals cases h
      all_goals exact inFlight_of_watchdog hflight rfl rfl (fun _ => ⟨hheld, rfl⟩)
  | abortExausted poolDomain =>
      obtain ⟨thread, w, -, rfl⟩ := watchdogNext_abortExausted hpc h
      exact inFlight_of_watchdog hflight rfl rfl (fun hheld => by cases hheld)
  | abortTimeout index poolDomain =>
      obtain ⟨thread, w, -, -, rfl⟩ := watchdogNext_abortTimeout hpc h
      exact inFlight_of_watchdog hflight rfl rfl (fun hheld => by cases hheld)
  | creating index ensuring stage =>
      obtain ⟨next, left, pc, hnext, rfl, hleft⟩ := watchdogNext_creating hpc h
      obtain ⟨hqueue, hposted, -⟩ := createStep_sameEvents hnext
      refine inFlight_of_watchdog hflight hqueue hposted ?_
      -- neither a creation nor what follows it holds an event
      obtain ⟨stage', -, rfl⟩ | ⟨-, rfl | rfl⟩ := hleft
      all_goals exact fun hheld => by cases hheld
  | _ =>
      simp only [watchdogNext, hpc] at h
      repeat' split at h
      all_goals cases h
      all_goals exact inFlight_of_watchdog hflight rfl rfl (fun hheld => by cases hheld)

/-- An event the host queues by itself is about the run in progress. -/
theorem setHost_inFlight {host : HostContext} {run : RunId}
    (hflight : ({ s with pool := s.pool.setHost host } : PoolSystem).InFlight run) :
    s.InFlight run ∨ ∃ appDomain, s.pool.currentRun appDomain = some run := by
  obtain ⟨hostEvent, hmem, htype, htag⟩ | hheld := hflight
  · simp only [DomainPool.setHost] at htag
    split at htag
    next => exact Or.inr ⟨_, htag⟩
    next hold =>
      have hqueued : host.hasOutOfTasks hostEvent.appDomainId = true := by
        apply List.any_eq_true.mpr
        exact ⟨hostEvent, hmem, by simp [MessageData.sameEvent, htype]⟩
      simp only [hqueued, Bool.true_and, Bool.not_eq_eq_eq_not, Bool.not_true,
        Bool.not_eq_false] at hold
      obtain ⟨old, hmem', hsame⟩ := List.any_eq_true.mp hold
      simp only [MessageData.sameEvent, Bool.and_eq_true, beq_iff_eq] at hsame
      exact Or.inl (Or.inl ⟨old, hmem', hsame.2, hsame.1 ▸ htag⟩)
  · exact Or.inl (Or.inr hheld)

/-- When no worker moves, an event in flight was in flight before or is about a
run in progress. -/
theorem OtherStep.inFlight {a : PoolAction} (h : OtherStep s a s') {run : RunId}
    (hflight : s'.InFlight run) :
    s.InFlight run ∨ ∃ appDomain, s.pool.currentRun appDomain = some run := by
  cases h with
  | watchdog _ hnext => exact Or.inl (watchdogNext_inFlight hnext hflight)
  | interrupted hwaits =>
      exact Or.inl (inFlight_of_watchdog hflight rfl rfl (fun hheld => by cases hheld))
  | submitter call submitter _ hsubmitter hnext =>
      exact Or.inl ((submitterNext_sameEvents hnext).inFlight hflight)
  | host op host hcallback hhost => exact setHost_inFlight hflight
  | submit | foreignAbort | tick => exact Or.inl hflight

theorem passive_executing {timeout : Prop} {w w' : Worker}
    (h : Worker.Passive timeout w w') (hexecuting : w.pc.executing = true) :
    w'.pc.executing = true ∧ w'.started = w.started ∧ w'.appDomain = w.appDomain := by
  obtain ⟨request, rfl⟩ | ⟨hpc, rfl⟩ := h.eq_cases
  · exact ⟨hexecuting, rfl, rfl⟩
  · rw [hpc] at hexecuting
    cases hexecuting

/-- No run ends when no worker moves. -/
theorem runsCurrent_of_frame {a : PoolAction} (hnumbered : Numbered s) (hs : RunsCurrent s)
    (h : Frame s a s') : RunsCurrent s' := by
  intro appDomain run hcurrent
  rw [h.currentRun] at hcurrent
  obtain ⟨w, hw, hexecuting, hstarted, hdomain⟩ := hs appDomain run hcurrent
  obtain ⟨w', hw', hpassive⟩ := h.forward hw (hnumbered.threads _ w hw).1.ne
  obtain ⟨hexecuting', hstarted', hdomain'⟩ := passive_executing hpassive hexecuting
  exact ⟨w', hw', hexecuting', hstarted'.trans hstarted, hdomain'.trans hdomain⟩

theorem executes_of_frame {a : PoolAction} (hs : AttributionInvariant s) (h : Frame s a s')
    {run : RunId} (hrun : s.Executes run) : s'.Executes run := by
  obtain ⟨w, hw, hexecuting, hstarted⟩ := hrun
  obtain ⟨w', hw', hpassive⟩ := h.forward hw (hs.numbered.threads _ w hw).1.ne
  obtain ⟨hexecuting', hstarted', -⟩ := passive_executing hpassive hexecuting
  exact ⟨w', hw', hexecuting', hstarted'.trans hstarted⟩

/-- Every step a worker takes is one of these about its run. -/
theorem moves_runStep {t : ThreadId} {a : PoolAction} {p p' : DomainPool} {w w' : Worker}
    (h : Worker.Moves t a p p' w w') : ∃ ends, Worker.RunStep ends p p' w w' := by
  obtain ⟨input, -, hstep⟩ | ⟨-, hdies⟩ | ⟨-, hsettles⟩ := h
  · exact ⟨_, Worker.step_runStep hstep⟩
  · obtain ⟨-, rfl, rfl⟩ := Worker.dieRudely_ok hdies
    exact ⟨True, .ends rfl (fun _ => trivial)⟩
  · obtain ⟨hended, rfl, rfl⟩ := Worker.settle_ok hsettles
    refine ⟨False, .goesOn rfl ?_⟩
    intro hexecuting
    rw [hended] at hexecuting
    cases hexecuting

theorem runsCurrent_step {a : PoolAction} (hnumbered : Numbered s) (hs : RunsCurrent s)
    (h : s.step a = .ok s') : RunsCurrent s' := by
  obtain ⟨t, w, p, w', hw, hmove, rfl⟩ | hframe := step_cases h
  · obtain ⟨ends, hrun⟩ := moves_runStep hmove
    exact runsCurrent_of_moves hnumbered hs hw hrun
  · exact runsCurrent_of_frame hnumbered hs hframe

/-- The invariant through a step of a worker: `ends` is what the step needs for
ending the run of the worker. -/
theorem AttributionInvariant.of_runStep {t : ThreadId} {p : DomainPool} {w w' : Worker}
    {ends : Prop} (hs : AttributionInvariant s) (hw : s.workers t = some w)
    (hnumbered : Numbered ({ s with pool := p }.setWorker t w'))
    (hframe : Worker.Frame s.pool p w w') (hrun : Worker.RunStep ends s.pool p w w')
    (hends : ends → ¬ s.InFlight ⟨t, w.started⟩) :
    AttributionInvariant ({ s with pool := p }.setWorker t w') := by
  refine ⟨hnumbered, runsCurrent_of_moves hs.numbered hs.current hw hrun, ?_⟩
  intro run hflight
  have hsame : SameEvents s ({ s with pool := p }.setWorker t w') :=
    ⟨hframe.messageQueue, hframe.postedDuring, rfl⟩
  have hbefore := hsame.inFlight hflight
  refine executes_of_moves hw hrun ?_ (hs.inFlight run hbefore)
  intro hended heq
  exact hends hended (heq ▸ hbefore)

theorem attributionInvariant_of_moves {a : PoolAction} (hs : AttributionInvariant s)
    (hcond : s.RunsOutlastEvents a) (h : s.step a = .ok s') (hmoves : WorkerMoves s a s') :
    AttributionInvariant s' := by
  have hnumbered := numbered_step hs.numbered h
  obtain ⟨t, w, p, w', hw, hmove, rfl⟩ := hmoves
  have hframe := hmove.frame
  obtain ⟨input, rfl, hstep⟩ | ⟨rfl, hdies⟩ | ⟨rfl, hsettles⟩ := hmove
  · exact hs.of_runStep hw hnumbered hframe (Worker.step_runStep hstep) (hcond w hw)
  · obtain ⟨-, rfl, rfl⟩ := Worker.dieRudely_ok hdies
    exact hs.of_runStep hw hnumbered hframe (.ends rfl id) (hcond w hw)
  · obtain ⟨hended, rfl, rfl⟩ := Worker.settle_ok hsettles
    have hidle : w.pc.executing = false := by
      rw [hended]
      rfl
    have hrun : Worker.RunStep False s.pool s.pool w { w with stopped := true } :=
      .goesOn rfl (fun hexecuting => by simp [hidle] at hexecuting)
    exact hs.of_runStep hw hnumbered hframe hrun False.elim

theorem attributionInvariant_step {a : PoolAction} (hs : AttributionInvariant s)
    (hcond : s.RunsOutlastEvents a) (h : s.step a = .ok s') : AttributionInvariant s' := by
  obtain hmoves | hother := step_ok h
  · exact attributionInvariant_of_moves hs hcond h hmoves
  · have hframe := hother.frame
    refine ⟨numbered_step hs.numbered h, runsCurrent_of_frame hs.numbered hs.current hframe, ?_⟩
    intro run hflight
    obtain hbefore | ⟨appDomain, hcurrent⟩ := hother.inFlight hflight
    · exact executes_of_frame hs hframe (hs.inFlight run hbefore)
    · obtain ⟨w, hw, hexecuting, hstarted, -⟩ := hs.current appDomain run hcurrent
      exact executes_of_frame hs hframe ⟨w, hw, hexecuting, hstarted⟩

theorem attributionInvariant_initial (numberOfDomainsInPool : Nat) :
    AttributionInvariant (initial numberOfDomainsInPool) := by
  refine ⟨numbered_initial _, ?_, ?_⟩
  · intro appDomain run h
    cases h
  · rintro run (⟨hostEvent, hmem, -⟩ | ⟨hheld, -⟩)
    · cases hmem
    · cases hheld

/-- What the watchdog goes by on its way from an event to a thread. -/
structure Traced (s : PoolSystem) : Prop where
  numbered : Numbered s
  ids : DomainIds s
  placed : EventsPlaced s
  mainThreads : MainThreads s

theorem traced_step {a : PoolAction} (hs : Traced s) (h : s.step a = .ok s') : Traced s' :=
  ⟨numbered_step hs.numbered h, domainIds_step hs.numbered hs.ids h,
    eventsPlaced_step hs.numbered hs.ids hs.placed h,
    mainThreads_step hs.numbered hs.mainThreads h⟩

theorem traced_initial (numberOfDomainsInPool : Nat) : Traced (initial numberOfDomainsInPool) :=
  ⟨numbered_initial _, domainIds_initial _, eventsPlaced_initial _, mainThreads_initial _⟩

theorem AttributionInvariant.heldAgainstCause (hs : AttributionInvariant s) (htraced : Traced s) :
    s.HeldAgainstCause := by
  intro poolDomain run hpc hcause
  constructor
  · apply hs.inFlight run
    right
    exact ⟨by rw [hpc]; rfl, hcause⟩
  · intro hown t hthread
    have hworks := htraced.placed.found poolDomain run (by rw [hpc]; rfl) hcause
    exact hworks.mainThread htraced.mainThreads hown hthread

/-- In every run in which no snippet ends while an event about it is in flight, an
event is held against the snippet that caused it. -/
theorem events_held_against_cause (numberOfDomainsInPool : Nat) (actions : List PoolAction)
    (houtlast : Meets step RunsOutlastEvents (initial numberOfDomainsInPool) actions) :
    Always step HeldAgainstCause (initial numberOfDomainsInPool) actions := by
  have hinvariant : Always step (fun s => AttributionInvariant s ∧ Traced s)
      (initial numberOfDomainsInPool) actions :=
    always_of_meets (fun _ _ _ hs hcond h =>
        ⟨attributionInvariant_step hs.1 hcond h, traced_step hs.2 h⟩)
      ⟨attributionInvariant_initial numberOfDomainsInPool, traced_initial numberOfDomainsInPool⟩
      houtlast
  exact hinvariant.imp (fun _ hs => hs.1.heldAgainstCause hs.2)

/-- The event is read while its snippet runs: the abort hits the right run, and the
worker goes on to its next snippet. -/
theorem events_held_against_cause_running :
    let actions := firstWorkerReady ++ submitted 0 ++ goesOn 0 5 ++
      .host (.postHostMessage HostEventType.outOfTasks 2 0) ::
      List.replicate 4 (.watchdog .next)
    let aborted := actions ++ [.watchdog .next, .worker 0 (.aborted "Thread was being aborted.")] ++
      goesOn 0 10
    Always step HeldAgainstCause (initial 1) aborted ∧
      (∃ s, run step (initial 1) actions = .ok s ∧ s.watchdog.pc = .abortExausted 0 ∧
        s.watchdog.cause = some ⟨0, 1⟩ ∧ (s.pool.heap 0).mainThread = some 0) ∧
      ∃ s, run step (initial 1) aborted = .ok s ∧
        s.pool.delivered = [⟨0, .resourceError, 0⟩] :=
  ⟨events_held_against_cause 1 _ (by decide), ⟨_, rfl, rfl, rfl, rfl⟩, _, rfl, rfl⟩

/-- The snippet ends before the watchdog reads the event posted about it. The abort
hits the worker while it is idle in `Take`. -/
theorem event_held_against_idle_worker :
    ¬ Always step HeldAgainstCause (initial 1)
      (firstWorkerReady ++ submitted 0 ++ goesOn 0 5 ++
        [.host (.postHostMessage HostEventType.outOfTasks 2 0),
          .worker 0 (.finished .success)] ++
        goesOn 0 11 ++ List.replicate 4 (.watchdog .next)) := by
  intro h
  obtain ⟨⟨w, hw, hexecuting, -⟩, -⟩ := h.last rfl 0 ⟨0, 1⟩ rfl rfl
  cases hw
  cases hexecuting

end PoolSystem

end HostedPumpkin
