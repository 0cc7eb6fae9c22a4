import HostedPumpkin.Library.Ownership
import HostedPumpkin.Pool.Slots

/-!
Supervision. A slot of the pool belongs to one worker, or to the thread that is
about to create one for it; the watchdog sees a snippet only through the slot of
its worker. `RecycleDomain` gives a slot up and `SubmitSnippet` fills empty ones.
The watchdog replaces what is in a slot without asking whom it belongs to, and a
worker that gave its slot up goes on when there is more to do.
-/

namespace HostedPumpkin

open Runs

/-- Where a worker that emptied its slot can be. -/
def WorkerPc.afterClear : WorkerPc → Bool
  | .recycle .outerCatch _ | .recycle .loop .unloadDomain | .loopHead | .ended => true
  | _ => false

theorem afterClear_of_innerTry {pc : WorkerPc} (h : pc.region = .innerTry) :
    pc.afterClear = false := by
  obtain rfl | rfl | rfl | rfl | rfl | rfl := WorkerPc.innerTry_cases h <;> rfl

/-- The slot whose contents a call of `SubmitSnippet` creates a thread for. -/
def SubmitterPc.slot : SubmitterPc → Option Nat
  | .creating index .readSlot | .creating index (.setMainThread _) => some index
  | _ => none

/-- The slot the watchdog is about to fill with a new object. -/
def WatchdogPc.replaces : WatchdogPc → Option Nat
  | .replaceSlot index => some index
  | .ensureSlot => some 0
  | _ => none

/-- The slot the watchdog is busy with. -/
def WatchdogPc.slot : WatchdogPc → Option Nat
  | .readStart index _ | .reportTimeout index _ | .writeZero index _
  | .abortTimeout index _ | .checkThread index _ | .unloadOld index _
  | .replaceSlot index | .creating index _ _ => some index
  | _ => none

/-- A worker is alive and has not emptied its slot. -/
def Worker.serving (w : Worker) : Bool := !(w.pc == .ended) && !w.slotCleared

/-- What a slot can belong to. -/
inductive Holder where
  | worker (thread : ThreadId)
  | creator (creator : Creator)
deriving DecidableEq, Repr

namespace PoolSystem

/-- The slots that belong to a holder. A creation gives its slot away when the
thread is there. -/
def Serves (s : PoolSystem) : Holder → Nat → Prop
  | .worker thread, index =>
      ∃ w, s.workers thread = some w ∧ w.serving = true ∧ w.threadIndex = index
  | .creator c, index =>
      s.creation c = some (index, .readSlot) ∨
        ∃ data, s.creation c = some (index, .setMainThread data)

/-- A worker wants its own object in its slot, and a creation the object it read
there. -/
def Accepts (s : PoolSystem) : Holder → Nat → DataRef → Prop
  | .worker thread, _, data => ∀ w, s.workers thread = some w → w.myPoolDomain = data
  | .creator c, index, data =>
      ∀ found, s.creation c = some (index, .setMainThread found) → found = some data

/-- Nobody holds a slot. -/
def Unserved (s : PoolSystem) (index : Nat) : Prop :=
  (∀ thread < s.threads, ∀ w ∈ s.workers thread,
    w.serving = true → w.threadIndex ≠ index) ∧
  ∀ call < s.calls, ∀ submitter ∈ s.submitters call, submitter.pc.slot ≠ some index

instance (s : PoolSystem) (index : Nat) : Decidable (s.Unserved index) :=
  inferInstanceAs (Decidable ((∀ thread < s.threads, ∀ w ∈ s.workers thread,
    w.serving = true → w.threadIndex ≠ index) ∧
    ∀ call < s.calls, ∀ submitter ∈ s.submitters call, submitter.pc.slot ≠ some index))

/-- The watchdog replaces only what is in a slot that nobody holds, and a worker that
emptied its slot neither finds more to do nor empties it again. -/
def SlotsRespected (s : PoolSystem) : PoolAction → Prop
  | .watchdog .next => ∀ index ∈ s.watchdog.pc.replaces, s.Unserved index
  | .worker thread .next => ∀ w ∈ s.workers thread, w.slotCleared = true →
      (w.pc = .loopHead → s.pool.isCompleted = true) ∧
        w.pc ≠ .recycle .outerCatch .clearSlot
  | _ => True

instance (s : PoolSystem) : (a : PoolAction) → Decidable (s.SlotsRespected a)
  | .watchdog .next =>
      inferInstanceAs (Decidable (∀ index ∈ s.watchdog.pc.replaces, s.Unserved index))
  | .worker thread .next =>
      inferInstanceAs (Decidable (∀ w ∈ s.workers thread, w.slotCleared = true →
        (w.pc = .loopHead → s.pool.isCompleted = true) ∧
          w.pc ≠ .recycle .outerCatch .clearSlot))
  | .watchdog .interrupted | .worker _ (.throws _) | .worker _ (.aborted _)
  | .worker _ (.sandbox _) | .worker _ (.finished _) | .rudeAbort _ | .submit _
  | .submitter _ | .foreignAbort _ | .settle _ | .host _ | .tick _ => isTrue trivial

/-- A worker that executes a snippet has its object in its slot, where the watchdog
looks, and no two workers serve one slot. -/
structure Supervised (s : PoolSystem) : Prop where
  visible : ∀ t w, s.workers t = some w → w.pc.region = .innerTry →
    w.threadIndex < s.pool.numberOfDomainsInPool ∧
      s.pool.poolDomains w.threadIndex = some w.myPoolDomain
  alone : ∀ t t' w w', s.workers t = some w → s.workers t' = some w' →
    w.serving = true → w'.serving = true → w.threadIndex = w'.threadIndex → t = t'

/-- Every slot that anybody is busy with exists. -/
structure Indices (s : PoolSystem) : Prop where
  size : 0 < s.pool.numberOfDomainsInPool
  watchdog : ∀ index, s.watchdog.pc.slot = some index →
    index < s.pool.numberOfDomainsInPool
  creations : ∀ c index stage, s.creation c = some (index, stage) →
    index < s.pool.numberOfDomainsInPool
  workers : ∀ t w, s.workers t = some w → w.threadIndex < s.pool.numberOfDomainsInPool

structure SupervisionInvariant (s : PoolSystem) : Prop where
  numbered : Numbered s
  indices : Indices s
  owned : Ownership s.Serves s.Accepts s.pool.poolDomains
  cleared : ∀ t w, s.workers t = some w → w.slotCleared = true → w.pc.afterClear = true

variable {s s' : PoolSystem}

/-- A dead thread takes no step of its code. -/
theorem step_ended {p : DomainPool} {w : Worker} (hended : w.pc = .ended)
    (input : WorkerInput) : w.step p input = .error .notEnabled := by
  cases input with
  | next => simp only [Worker.step, Worker.next, hended]
  | sandbox | finished => simp [Worker.step, hended]
  | throws => simp [Worker.step, Worker.throwException, hended, WorkerPc.region]
  | aborted =>
      simp only [Worker.step, Worker.raiseAbort, hended, WorkerPc.region]
      cases w.abortRequested <;> rfl

/-- Nothing revives a worker, and no slot is given back. -/
theorem moves_serving {t : ThreadId} {a : PoolAction} {p p' : DomainPool}
    {w w' : Worker} (h : Worker.Moves t a p p' w w') (hserving : w'.serving = true) :
    w.serving = true := by
  simp only [Worker.serving, Bool.and_eq_true, Bool.not_eq_true', beq_eq_false_iff_ne] at *
  obtain ⟨hlive', hheld'⟩ := hserving
  constructor
  · intro hended
    obtain ⟨input, rfl, hstep⟩ | ⟨rfl, hdies⟩ | ⟨rfl, hsettles⟩ := h
    · rw [step_ended hended] at hstep
      cases hstep
    · obtain ⟨hregion, -, -⟩ := Worker.dieRudely_ok hdies
      rw [hended] at hregion
      exact hregion rfl
    · obtain ⟨-, -, rfl⟩ := Worker.settle_ok hsettles
      exact hlive' hended
  · obtain ⟨-, hsame⟩ | ⟨-, -, -, hcleared⟩ := moves_slotsAfter h
    · rw [← hsame]
      exact hheld'
    · rw [hcleared] at hheld'
      cases hheld'

theorem passive_serving {timeout : Prop} {w w' : Worker}
    (h : Worker.Passive timeout w w') :
    w'.serving = w.serving ∧ w'.threadIndex = w.threadIndex ∧
      w'.slotCleared = w.slotCleared ∧
      (w.pc.afterClear = true → w'.pc.afterClear = true) := by
  obtain ⟨request, rfl⟩ | ⟨hpc, rfl⟩ := h.eq_cases
  · exact ⟨rfl, rfl, rfl, id⟩
  · refine ⟨?_, rfl, rfl, ?_⟩
    · simp only [Worker.serving, hpc]
      rfl
    · rw [hpc]
      exact fun h => by cases h

/-- A worker that emptied its slot is on its way out. -/
theorem moves_cleared {t : ThreadId} {a : PoolAction} {p p' : DomainPool} {w w' : Worker}
    (hcleared : w.slotCleared = true → w.pc.afterClear = true)
    (hloop : a = .worker t .next → w.slotCleared = true → w.pc = .loopHead →
      p.isCompleted = true)
    (h : Worker.Moves t a p p' w w') :
    w'.slotCleared = true → w'.pc.afterClear = true := by
  obtain ⟨input, rfl, hstep⟩ | ⟨rfl, hdies⟩ | ⟨rfl, hsettles⟩ := h
  · cases input with
    | next =>
        cases hpc : w.pc with
        | loopHead =>
            simp only [Worker.step, Worker.next, hpc] at hstep
            split at hstep
            next =>
              cases hstep
              exact fun _ => rfl
            next hmore =>
              cases hstep
              exact fun h => absurd (hloop rfl h hpc) hmore
        | recycle caller stage =>
            rw [hpc] at hcleared
            simp only [Worker.step, Worker.next, hpc] at hstep
            cases stage with
            | clearSlot =>
                simp only [Worker.recycleStep] at hstep
                split at hstep
                all_goals cases hstep
                cases caller <;> exact fun _ => rfl
            | checkZombies | joinWatchdog =>
                simp only [Worker.recycleStep] at hstep
                split at hstep
                all_goals cases hstep
                all_goals
                  cases caller with
                  | loop => exact fun h => by cases hcleared h
                  | outerCatch => exact fun _ => rfl
            | unloadDomain =>
                cases hstep
                cases caller <;> exact fun _ => rfl
            | _ =>
                cases hstep
                cases caller with
                | loop => exact fun h => by cases hcleared h
                | outerCatch => exact fun _ => rfl
        | _ =>
            rw [hpc] at hcleared
            simp only [Worker.step, Worker.next, hpc] at hstep
            repeat' split at hstep
            all_goals cases hstep
            all_goals exact fun h => by cases hcleared h
    | sandbox | finished =>
        simp only [Worker.step] at hstep
        split at hstep
        all_goals cases hstep
        next hpc =>
          simp only [hpc] at hcleared
          exact fun h => by cases hcleared h
    | throws message | aborted message =>
        cases Worker.step_thrown ⟨message, by simp⟩ hstep with
        | inner pc hregion hpc =>
            intro h
            exact absurd (hcleared h) (by simp [afterClear_of_innerTry hregion])
        | outer hregion => exact fun _ => rfl
        | dies hregion => exact fun _ => rfl
  · obtain ⟨-, -, rfl⟩ := Worker.dieRudely_ok hdies
    exact fun _ => rfl
  · obtain ⟨-, -, rfl⟩ := Worker.settle_ok hsettles
    exact hcleared

/-- What a holder serves, and what it accepts, depends on its own record only. -/
theorem serves_worker_setWorker {p : DomainPool} {t : ThreadId} {w' : Worker} {h : Holder}
    {index : Nat} (hserves : ({ s with pool := p }.setWorker t w').Serves h index) :
    (h = .worker t ∧ w'.serving = true ∧ w'.threadIndex = index) ∨
      (h ≠ .worker t ∧ s.Serves h index) := by
  cases h with
  | creator c => exact Or.inr ⟨(fun heq => by cases heq), hserves⟩
  | worker u =>
      obtain ⟨v, hv, hserving, hindex⟩ := hserves
      obtain ⟨rfl, rfl⟩ | ⟨hne, hv⟩ := workers_setWorker hv
      · exact Or.inl ⟨rfl, hserving, hindex⟩
      · refine Or.inr ⟨?_, v, hv, hserving, hindex⟩
        intro heq
        cases heq
        exact hne rfl

theorem accepts_setWorker {p : DomainPool} {t : ThreadId} {w w' : Worker} {h : Holder}
    {index : Nat} {data : DataRef} (hw : s.workers t = some w)
    (hsame : w'.myPoolDomain = w.myPoolDomain) (haccepts : s.Accepts h index data) :
    ({ s with pool := p }.setWorker t w').Accepts h index data := by
  cases h with
  | creator c => exact haccepts
  | worker u =>
      intro v hv
      obtain ⟨rfl, rfl⟩ | ⟨-, hv⟩ := workers_setWorker hv
      · rw [hsame]
        exact haccepts w hw
      · exact haccepts v hv

/-- The step of a worker keeps every slot with its holder, or gives its own up. -/
theorem owned_of_moves {a : PoolAction} (hs : SupervisionInvariant s)
    (hcond : s.SlotsRespected a) (h : WorkerMoves s a s') :
    Ownership s'.Serves s'.Accepts s'.pool.poolDomains := by
  obtain ⟨t, w, p, w', hw, hmove, rfl⟩ := h
  have hindex := hmove.frame.threadIndex
  have hserves : ∀ h index, ({ s with pool := p }.setWorker t w').Serves h index →
      s.Serves h index := by
    intro h index hh
    obtain ⟨rfl, hserving, heq⟩ | ⟨-, hold⟩ := serves_worker_setWorker hh
    · exact ⟨w, hw, moves_serving hmove hserving, hindex ▸ heq⟩
    · exact hold
  obtain ⟨hslots, -⟩ | ⟨rfl, ⟨caller, hpc⟩, hslots, hcleared⟩ := moves_slotsAfter hmove
  · exact hs.owned.keep hserves (fun _ index _ => congrFun hslots index)
      (fun _ _ _ _ _ haccepts => accepts_setWorker hw hmove.frame.myPoolDomain haccepts)
  · have hheld : w.slotCleared = false := by
      by_contra hnot
      have hnot := Bool.eq_true_of_not_eq_false hnot
      have hafter := hs.cleared t w hw hnot
      rw [hpc] at hafter
      cases caller with
      | loop => cases hafter
      | outerCatch => exact (hcond w hw hnot).2 hpc
    have hserving : s.Serves (.worker t) w.threadIndex := by
      refine ⟨w, hw, ?_, rfl⟩
      simp only [Worker.serving, hpc, hheld]
      rfl
    refine hs.owned.release hserving ?_ hslots
      (fun _ _ _ _ haccepts => accepts_setWorker hw hmove.frame.myPoolDomain haccepts)
    intro h index hh
    refine ⟨hserves h index hh, ?_⟩
    rintro rfl
    obtain ⟨-, hserving', -⟩ | ⟨hne, -⟩ := serves_worker_setWorker hh
    · simp [Worker.serving, hcleared] at hserving'
    · exact hne rfl

/-- The creation inside a call of `SubmitSnippet` is where its `pc` says. -/
theorem pc_of_creation {call : Nat} {index : Nat} {stage : CreateStage}
    (h : s.creation (.submitter call) = some (index, stage)) :
    ∃ submitter, s.submitters call = some submitter ∧
      submitter.pc = .creating index stage := by
  simp only [creation] at h
  split at h
  next hpc =>
    cases h
    obtain ⟨submitter, hsubmitter, hpc⟩ := Option.map_eq_some_iff.mp hpc
    exact ⟨submitter, hsubmitter, hpc⟩
  next => cases h

theorem not_serves_of_unserved (hnumbered : Numbered s) {index : Nat}
    (hpc : s.watchdog.pc.replaces = some index) (h : s.Unserved index) (holder : Holder) :
    ¬ s.Serves holder index := by
  obtain ⟨hworkers, hsubmitters⟩ := h
  intro hserves
  cases holder with
  | worker t =>
      obtain ⟨w, hw, hserving, hindex⟩ := hserves
      exact hworkers t (hnumbered.threads t w hw).1 w hw hserving hindex
  | creator c =>
      cases c with
      | watchdog =>
          have hnone : s.creation .watchdog = none := by
            cases hwatchdog : s.watchdog.pc with
            | creating _ _ _ =>
                rw [hwatchdog] at hpc
                cases hpc
            | _ => simp only [creation, hwatchdog]
          obtain hserves | ⟨data, hserves⟩ := hserves
          · rw [hnone] at hserves
            cases hserves
          · rw [hnone] at hserves
            cases hserves
      | submitter call =>
          have hslot : ∃ submitter, s.submitters call = some submitter ∧
              submitter.pc.slot = some index := by
            obtain hserves | ⟨data, hserves⟩ := hserves
            · obtain ⟨submitter, hsubmitter, hpc⟩ := pc_of_creation hserves
              exact ⟨submitter, hsubmitter, by rw [hpc]; rfl⟩
            · obtain ⟨submitter, hsubmitter, hpc⟩ := pc_of_creation hserves
              exact ⟨submitter, hsubmitter, by rw [hpc]; rfl⟩
          obtain ⟨submitter, hsubmitter, hslot⟩ := hslot
          exact hsubmitters call (hnumbered.calls call submitter hsubmitter) submitter
            hsubmitter hslot

/-- When one creation goes on, the other holders serve and accept what they did. -/
theorem serves_of_ne {c : Creator} {holder : Holder} {index : Nat}
    (hothers : ∀ c', c' ≠ c → s'.creation c' = s.creation c')
    (hworkers : s'.workers = s.workers) (hne : holder ≠ .creator c) :
    s'.Serves holder index ↔ s.Serves holder index := by
  cases holder with
  | worker t => simp only [Serves, hworkers]
  | creator c' => simp only [Serves, hothers c' (fun heq => hne (heq ▸ rfl))]

theorem accepts_of_ne {c : Creator} {holder : Holder} {index : Nat} {data : DataRef}
    (hothers : ∀ c', c' ≠ c → s'.creation c' = s.creation c')
    (hworkers : s'.workers = s.workers) (hne : holder ≠ .creator c) :
    s'.Accepts holder index data ↔ s.Accepts holder index data := by
  cases holder with
  | worker t => simp only [Accepts, hworkers]
  | creator c' => simp only [Accepts, hothers c' (fun heq => hne (heq ▸ rfl))]

/-- A creation that is left with no more than it had serves and accepts no more. -/
theorem owned_of_quiet (own : Ownership s.Serves s.Accepts s.pool.poolDomains)
    (hslots : ∀ holder index, s.Serves holder index →
      s'.pool.poolDomains index = s.pool.poolDomains index)
    (hcreation : ∀ c x, s'.creation c = some x → s.creation c = some x)
    (hworkers : OnlyPassive s s') :
    Ownership s'.Serves s'.Accepts s'.pool.poolDomains := by
  have hserves : ∀ holder index, s'.Serves holder index → s.Serves holder index := by
    intro holder index hserves
    cases holder with
    | worker t =>
        obtain ⟨w', hw', hserving, hindex⟩ := hserves
        obtain ⟨w, hw, hpassive⟩ := hworkers t w' hw'
        obtain ⟨hserving', hindex', -⟩ := passive_serving hpassive
        exact ⟨w, hw, hserving' ▸ hserving, hindex' ▸ hindex⟩
    | creator c =>
        obtain hserves | ⟨data, hserves⟩ := hserves
        · exact Or.inl (hcreation c _ hserves)
        · exact Or.inr ⟨data, hcreation c _ hserves⟩
  refine own.keep hserves (fun holder index h => hslots holder index (hserves holder index h)) ?_
  intro holder index data _ _ haccepts
  cases holder with
  | worker t =>
      intro w' hw'
      obtain ⟨w, hw, hpassive⟩ := hworkers t w' hw'
      rw [passive_myPoolDomain hpassive]
      exact haccepts w hw
  | creator c => exact fun found hfound => haccepts found (hcreation c _ hfound)

/-- A creator that found a free slot, or made one, holds it. -/
theorem owned_of_acquire {c : Creator} {index : Nat}
    (own : Ownership s.Serves s.Accepts s.pool.poolDomains)
    (hfree : ∀ holder, ¬ s.Serves holder index)
    (hself : s'.creation c = some (index, .readSlot))
    (hothers : ∀ c', c' ≠ c → s'.creation c' = s.creation c')
    (hworkers : s'.workers = s.workers)
    (hnew : ∃ data, s'.pool.poolDomains index = some data)
    (hslots : ∀ holder other, s.Serves holder other →
      s'.pool.poolDomains other = s.pool.poolDomains other) :
    Ownership s'.Serves s'.Accepts s'.pool.poolDomains := by
  have haccepts : ∀ other data, s'.Accepts (.creator c) other data := by
    intro other data found hfound
    rw [hself] at hfound
    cases hfound
  refine own.acquire (x := .creator c) hfree ?_ ?_ hslots ?_
  · intro holder other hserves
    by_cases hne : holder = .creator c
    · subst hne
      obtain hserves | ⟨data, hserves⟩ := hserves
      · rw [hself] at hserves
        cases hserves
        exact Or.inr ⟨rfl, rfl⟩
      · rw [hself] at hserves
        cases hserves
    · exact Or.inl ((serves_of_ne hothers hworkers hne).mp hserves)
  · obtain ⟨data, hdata⟩ := hnew
    exact ⟨data, hdata, haccepts index data⟩
  · intro holder other data _ _ hold
    by_cases hne : holder = .creator c
    · subst hne
      exact haccepts other data
    · exact (accepts_of_ne hothers hworkers hne).mpr hold

/-- A creation that reads its slot goes on with what it finds there. -/
theorem owned_of_read {c : Creator} {index : Nat}
    (own : Ownership s.Serves s.Accepts s.pool.poolDomains) (hpool : s'.pool = s.pool)
    (hstage : s.creation c = some (index, .readSlot))
    (hself : s'.creation c = some (index, .setMainThread (s.pool.poolDomains index)))
    (hothers : ∀ c', c' ≠ c → s'.creation c' = s.creation c')
    (hworkers : s'.workers = s.workers) :
    Ownership s'.Serves s'.Accepts s'.pool.poolDomains := by
  have hserves : ∀ holder other, s'.Serves holder other → s.Serves holder other := by
    intro holder other hserves
    by_cases hne : holder = .creator c
    · subst hne
      obtain hserves | ⟨data, hserves⟩ := hserves
      · rw [hself] at hserves
        cases hserves
      · rw [hself] at hserves
        simp only [Option.some.injEq, Prod.mk.injEq] at hserves
        exact Or.inl (hserves.1 ▸ hstage)
    · exact (serves_of_ne hothers hworkers hne).mp hserves
  refine own.keep hserves (fun _ other _ => by rw [hpool]) ?_
  intro holder other data _ hdata hold
  by_cases hne : holder = .creator c
  · subst hne
    intro found hfound
    rw [hself] at hfound
    simp only [Option.some.injEq, Prod.mk.injEq, CreateStage.setMainThread.injEq] at hfound
    rw [← hfound.2, hfound.1, hdata]
  · exact (accepts_of_ne hothers hworkers hne).mpr hold

/-- The new thread takes over the slot it was created for. -/
theorem owned_of_create {c : Creator} {index : Nat} {data : DataRef}
    (own : Ownership s.Serves s.Accepts s.pool.poolDomains)
    (hslots : s'.pool.poolDomains = s.pool.poolDomains)
    (hstage : s.creation c = some (index, .setMainThread (some data)))
    (hself : s'.creation c = some (index, .start s.threads))
    (hothers : ∀ c', c' ≠ c → s'.creation c' = s.creation c')
    (hworkers : s'.workers =
      (s.setWorker s.threads (Worker.created s.threads index data)).workers) :
    Ownership s'.Serves s'.Accepts s'.pool.poolDomains := by
  refine own.transfer (x := .creator c) (y := .worker s.threads) (r := index)
    (Or.inr ⟨_, hstage⟩) ?_ ?_ hslots ?_
  · intro holder other hserves
    cases holder with
    | worker t =>
        obtain ⟨w, hw, hserving, hindex⟩ := hserves
        rw [hworkers] at hw
        obtain ⟨rfl, rfl⟩ | ⟨-, hw⟩ := workers_setWorker hw
        · exact Or.inr ⟨rfl, hindex.symm⟩
        · exact Or.inl ⟨⟨w, hw, hserving, hindex⟩, fun heq => by cases heq⟩
    | creator c' =>
        by_cases hne : c' = c
        · subst hne
          obtain hserves | ⟨data', hserves⟩ := hserves
          · rw [hself] at hserves
            cases hserves
          · rw [hself] at hserves
            cases hserves
        · have hold := hothers c' hne
          simp only [Serves, hold] at hserves
          exact Or.inl ⟨hserves, fun heq => hne (Holder.creator.inj heq)⟩
  · intro data' hold w hw
    have hdata := hold _ hstage
    rw [hworkers] at hw
    obtain ⟨-, rfl⟩ | ⟨hne, -⟩ := workers_setWorker hw
    · exact Option.some.inj hdata
    · exact absurd rfl hne
  · intro holder other data' hserves hne hserves' hnew hold
    cases holder with
    | worker t =>
        intro w hw
        rw [hworkers] at hw
        obtain ⟨rfl, rfl⟩ | ⟨-, hw⟩ := workers_setWorker hw
        · obtain ⟨w, hw, -, hindex⟩ := hserves'
          rw [hworkers] at hw
          obtain ⟨-, rfl⟩ | ⟨habsurd, -⟩ := workers_setWorker hw
          · exact absurd ⟨rfl, hindex.symm⟩ hnew
          · exact absurd rfl habsurd
        · exact hold w hw
    | creator c' =>
        intro found hfound
        rw [hothers c' (fun heq => hne (heq ▸ rfl))] at hfound
        exact hold found hfound

theorem owned_step {a : PoolAction} (hs : SupervisionInvariant s)
    (hcond : s.SlotsRespected a) (h : s.step a = .ok s') :
    Ownership s'.Serves s'.Accepts s'.pool.poolDomains := by
  obtain hmoves | hslot := step_slotStep h
  · exact owned_of_moves hs hcond hmoves
  · cases hslot with
    | quiet hslots hallocated hcreation hworkers =>
        exact owned_of_quiet hs.owned (fun _ index _ => congrFun hslots index) hcreation
          hworkers
    | read c index hpool hstage hself hothers hworkers =>
        exact owned_of_read hs.owned hpool hstage hself hothers hworkers
    | create c index data hslots hallocated hstage hself hothers hworkers =>
        exact owned_of_create hs.owned hslots hstage hself hothers hworkers
    | renew index hpc hpool hself hothers hworkers =>
        obtain ⟨rfl, hpc⟩ := hpc
        have hreplaces : s.watchdog.pc.replaces = some index := by
          obtain hpc | ⟨hpc, rfl⟩ := hpc
          · rw [hpc]
            rfl
          · rw [hpc]
            rfl
        have hfree := not_serves_of_unserved hs.numbered hreplaces (hcond index hreplaces)
        refine owned_of_acquire hs.owned hfree hself hothers hworkers ?_ ?_
        · rw [hpool, DomainPool.poolDomains_renewSlot_self]
          exact ⟨_, rfl⟩
        · intro holder other hserves
          have hne : other ≠ index := fun heq => hfree holder (heq ▸ hserves)
          rw [hpool, DomainPool.poolDomains_renewSlot_of_ne _ hne]
    | fill call hpool hself hothers hworkers =>
        have hfilled := DomainPool.filled_fillSlots s.pool
        rw [← hpool] at hfilled
        have hslots : ∀ holder other, s.Serves holder other →
            s'.pool.poolDomains other = s.pool.poolDomains other := by
          intro holder other hserves
          apply hfilled.kept
          obtain ⟨data, hdata, -⟩ := hs.owned.filled holder other hserves
          rw [hdata]
          exact fun heq => by cases heq
        cases hlast : s.pool.fillSlots.2 with
        | none =>
            rw [hlast] at hself
            refine owned_of_quiet hs.owned hslots ?_ (onlyPassive_of_same hworkers)
            intro c x hx
            by_cases heq : c = .submitter call
            · rw [heq, hself] at hx
              cases hx
            · exact (hothers c heq).symm.trans hx
        | some index =>
            rw [hlast] at hself hfilled
            obtain ⟨-, hempty, hfull⟩ := hfilled.last index rfl
            exact owned_of_acquire hs.owned (hs.owned.not_serves_of_empty hempty) hself hothers
              hworkers (Option.ne_none_iff_exists'.mp hfull) hslots

/-- The watchdog takes up no slot but those it finds in its loop and the first. -/
theorem watchdogNext_slot (h : s.watchdogNext = .ok s') (index : Nat)
    (hslot : s'.watchdog.pc.slot = some index) :
    s.watchdog.pc.slot = some index ∨ index < s.pool.numberOfDomainsInPool ∨ index = 0 := by
  have hgoes := watchdogNext_goes h
  generalize s.watchdog.pc = pc at hgoes ⊢
  generalize s'.watchdog = watchdog at hgoes hslot
  cases hgoes with
  | slot i poolDomain hlt _ =>
      cases hslot
      exact Or.inr (Or.inl hlt)
  | ensuring =>
      cases hslot
      exact Or.inr (Or.inr rfl)
  | tooOld | young | reported | cleared | aborted | gone | unloaded | replaced | creating =>
      exact Or.inl hslot
  | _ => cases hslot

theorem Indices.watchdog_step {a : PoolAction} (hs : Indices s) (h : s.step a = .ok s')
    (index : Nat) (hslot : s'.watchdog.pc.slot = some index) :
    index < s.pool.numberOfDomainsInPool := by
  obtain hsame | ⟨rfl, hnext⟩ | hinterrupted := step_watchdog h
  · rw [hsame] at hslot
    exact hs.watchdog index hslot
  · obtain hold | hbound | rfl := watchdogNext_slot hnext index hslot
    · exact hs.watchdog index hold
    · exact hbound
    · exact hs.size
  · rw [hinterrupted] at hslot
    cases hslot

theorem indices_step {a : PoolAction} (hs : Indices s) (h : s.step a = .ok s') :
    Indices s' := by
  have hsize := step_size h
  refine ⟨by rw [hsize]; exact hs.size, ?_, ?_, ?_⟩
  all_goals rw [hsize]
  · exact hs.watchdog_step h
  · intro c index stage hc
    obtain ⟨t, w, p, w', hw, hmove, rfl⟩ | hslot := step_slotStep h
    · exact hs.creations c index stage hc
    · cases hslot with
      | quiet hslots hallocated hcreation hworkers =>
          exact hs.creations c index stage (hcreation c _ hc)
      | renew i hpc hpool hself hothers hworkers =>
          by_cases heq : c = .watchdog
          · rw [heq, hself] at hc
            cases hc
            obtain ⟨-, hpc | ⟨-, rfl⟩⟩ := hpc
            · exact hs.watchdog index (by rw [hpc]; rfl)
            · exact hs.size
          · exact hs.creations c index stage (hothers c heq ▸ hc)
      | fill call hpool hself hothers hworkers =>
          by_cases heq : c = .submitter call
          · rw [heq, hself] at hc
            obtain ⟨last, hlast, hc⟩ := Option.map_eq_some_iff.mp hc
            cases hc
            exact ((DomainPool.filled_fillSlots s.pool).last index hlast).1
          · exact hs.creations c index stage (hothers c heq ▸ hc)
      | read c' i hpool hstage hself hothers hworkers =>
          by_cases heq : c = c'
          · rw [heq, hself] at hc
            simp only [Option.some.injEq, Prod.mk.injEq] at hc
            exact hc.1 ▸ hs.creations c' i _ hstage
          · exact hs.creations c index stage (hothers c heq ▸ hc)
      | create c' i data hslots hallocated hstage hself hothers hworkers =>
          by_cases heq : c = c'
          · rw [heq, hself] at hc
            cases hc
            exact hs.creations c' index _ hstage
          · exact hs.creations c index stage (hothers c heq ▸ hc)
  · intro t w' hw'
    obtain ⟨u, v, p, v', hv, hmove, rfl⟩ | hslot := step_slotStep h
    · obtain ⟨rfl, rfl⟩ | ⟨-, hold⟩ := workers_setWorker hw'
      · rw [hmove.frame.threadIndex]
        exact hs.workers t v hv
      · exact hs.workers t w' hold
    · cases hslot with
      | quiet hslots hallocated hcreation hworkers =>
          obtain ⟨w, hw, hpassive⟩ := hworkers t w' hw'
          rw [(passive_serving hpassive).2.1]
          exact hs.workers t w hw
      | renew i hpc hpool hself hothers hworkers => exact hs.workers t w' (hworkers ▸ hw')
      | fill call hpool hself hothers hworkers => exact hs.workers t w' (hworkers ▸ hw')
      | read c' i hpool hstage hself hothers hworkers =>
          exact hs.workers t w' (hworkers ▸ hw')
      | create c' i data hslots hallocated hstage hself hothers hworkers =>
          rw [hworkers] at hw'
          obtain ⟨rfl, rfl⟩ | ⟨-, hold⟩ := workers_setWorker hw'
          · exact hs.creations c' i _ hstage
          · exact hs.workers t w' hold

theorem cleared_step {a : PoolAction} (hs : SupervisionInvariant s)
    (hcond : s.SlotsRespected a) (h : s.step a = .ok s') (t : ThreadId) (w' : Worker)
    (hw' : s'.workers t = some w') (hcleared : w'.slotCleared = true) :
    w'.pc.afterClear = true := by
  obtain ⟨u, v, p, v', hv, hmove, rfl⟩ | hframe := step_cases h
  · obtain ⟨rfl, rfl⟩ | ⟨-, hold⟩ := workers_setWorker hw'
    · refine moves_cleared (hs.cleared t v hv) ?_ hmove hcleared
      rintro rfl hcleared' hpc
      exact (hcond v hv hcleared').1 hpc
    · exact hs.cleared t w' hold hcleared
  · obtain ⟨w, hw, hpassive⟩ | ⟨-, -, index, data, rfl⟩ := hframe.workers.origin t w' hw'
    · obtain ⟨-, -, hsame, hpc⟩ := passive_serving hpassive
      exact hpc (hs.cleared t w hw (hsame ▸ hcleared))
    · cases hcleared

theorem supervisionInvariant_step {a : PoolAction} (hs : SupervisionInvariant s)
    (hcond : s.SlotsRespected a) (h : s.step a = .ok s') : SupervisionInvariant s' :=
  ⟨numbered_step hs.numbered h, indices_step hs.indices h, owned_step hs hcond h,
    cleared_step hs hcond h⟩

theorem SupervisionInvariant.supervised (hs : SupervisionInvariant s) : s.Supervised := by
  constructor
  · intro t w hw hregion
    refine ⟨hs.indices.workers t w hw, ?_⟩
    have hheld : w.slotCleared = false := by
      by_contra hnot
      have hafter := hs.cleared t w hw (Bool.eq_true_of_not_eq_false hnot)
      rw [afterClear_of_innerTry hregion] at hafter
      cases hafter
    have hlive : w.pc ≠ .ended := by
      intro hended
      rw [hended] at hregion
      cases hregion
    obtain ⟨data, hdata, haccepts⟩ :=
      hs.owned.filled (.worker t) w.threadIndex ⟨w, hw, by simp [Worker.serving, hheld, hlive], rfl⟩
    rw [hdata, haccepts w hw]
  · intro t t' w w' hw hw' hserving hserving' hindex
    have heq := hs.owned.exclusive (.worker t) (.worker t') w.threadIndex
      ⟨w, hw, hserving, rfl⟩ ⟨w', hw', hserving', hindex.symm⟩
    exact Holder.worker.inj heq

theorem supervisionInvariant_initial {numberOfDomainsInPool : Nat}
    (hsize : 0 < numberOfDomainsInPool) :
    SupervisionInvariant (initial numberOfDomainsInPool) := by
  have hworkers : ∀ t w, (initial numberOfDomainsInPool).workers t = some w →
      t < numberOfDomainsInPool ∧ w.threadIndex = t ∧ w.myPoolDomain = t ∧
        w.slotCleared = false := by
    intro t w hw
    obtain ⟨hlt, rfl⟩ := initial_workers hw
    exact ⟨hlt, rfl, rfl, rfl⟩
  have hcreation : ∀ c, (initial numberOfDomainsInPool).creation c = none := by
    intro c
    cases c <;> rfl
  have hserves : ∀ holder index, (initial numberOfDomainsInPool).Serves holder index →
      holder = .worker index ∧ index < numberOfDomainsInPool := by
    intro holder index hserves
    cases holder with
    | worker t =>
        obtain ⟨w, hw, -, rfl⟩ := hserves
        obtain ⟨hlt, hindex, -⟩ := hworkers t w hw
        rw [hindex]
        exact ⟨rfl, hlt⟩
    | creator c =>
        simp [Serves, hcreation c] at hserves
  refine ⟨numbered_initial _, ⟨hsize, ?_, ?_, ?_⟩, ⟨?_, ?_⟩, ?_⟩
  · exact fun _ h => by cases h
  · intro c index stage hc
    rw [hcreation c] at hc
    cases hc
  · intro t w hw
    obtain ⟨hlt, hindex, -⟩ := hworkers t w hw
    rw [hindex]
    exact hlt
  · intro holder holder' index h h'
    rw [(hserves holder index h).1, (hserves holder' index h').1]
  · intro holder index h
    obtain ⟨rfl, hlt⟩ := hserves holder index h
    refine ⟨index, by simp [initial, hlt], ?_⟩
    intro w hw
    exact (hworkers index w hw).2.2.1
  · intro t w hw hcleared
    rw [(hworkers t w hw).2.2.2] at hcleared
    cases hcleared

/-- In every run in which the watchdog replaces only what nobody holds, and no worker
goes on after it emptied its slot, every snippet is supervised. -/
theorem snippets_supervised (numberOfDomainsInPool : Nat)
    (hsize : 0 < numberOfDomainsInPool) (actions : List PoolAction)
    (hrespected : Meets step SlotsRespected (initial numberOfDomainsInPool) actions) :
    Always step Supervised (initial numberOfDomainsInPool) actions := by
  have hinvariant :
      Always step SupervisionInvariant (initial numberOfDomainsInPool) actions :=
    always_of_meets (fun _ _ _ hs hcond h => supervisionInvariant_step hs hcond h)
      (supervisionInvariant_initial hsize) hrespected
  exact hinvariant.imp (fun _ => SupervisionInvariant.supervised)

/-- A worker dies rudely, the watchdog replaces it, and the new worker runs a snippet
in the new object of the slot. -/
theorem snippets_supervised_replacement :
    let actions := firstWorkerReady ++ [.rudeAbort 0] ++
      List.replicate 11 (.watchdog .next) ++ goesOn 1 1 ++ [.worker 1 (.sandbox 3)] ++
      goesOn 1 4 ++ submitted 0 ++ goesOn 1 5
    Always step Supervised (initial 1) actions ∧
      ∃ s w, run step (initial 1) actions = .ok s ∧ s.workers 1 = some w ∧
        w.pc = .running ∧ s.pool.poolDomains 0 = some 1 :=
  ⟨snippets_supervised 1 (by decide) _ (by decide), _, _, rfl, rfl, rfl, rfl⟩

/-- The watchdog makes sure there is a thread before the first one counted itself. The
first worker then runs a snippet that the watchdog does not see. -/
theorem uncounted_worker_unsupervised :
    ¬ Always step Supervised (initial 1)
      (List.replicate 12 (.watchdog .next) ++ firstWorkerReady ++ submitted 0 ++
        goesOn 0 5) := by
  intro h
  obtain ⟨-, hslot⟩ := (h.last rfl).visible 0 _ rfl rfl
  cases hslot

end PoolSystem

end HostedPumpkin
