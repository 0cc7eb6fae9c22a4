import HostedPumpkin.Pool.Delivery
import HostedPumpkin.Pool.IdleTime

/-!
The aborts of one snippet. The watchdog has two reasons to call `Thread.Abort`, and
each has a guard against doing so twice: `isAborting` for thread exhaustion, a
cleared `timeOfSubmission` for the timeout. Neither guard knows of the other reason.
The pool is put together with the aborts issued on each thread since its last `Take`;
each guard does its work, and what is left are the two ways from one to the other.
-/

namespace HostedPumpkin

open Runs

/-- The worker has a snippet and is past the statement that writes its start. -/
def WorkerPc.begun : WorkerPc → Bool
  | .running | .readEnd | .clearStart | .catchAbort _ | .catchException _ | .getThreadCount
  | .getMemoryUsage | .decide | .deliver => true
  | _ => false

/-- The object whose thread the watchdog has decided to abort. -/
def WatchdogPc.abortData : WatchdogPc → Option DataRef
  | .abortExausted poolDomain | .reportTimeout _ poolDomain | .writeZero _ poolDomain
  | .abortTimeout _ poolDomain => some poolDomain
  | _ => none

namespace PoolSystem

/-- The thread on which the watchdog's next statement is
`Abort(threadsExaustedAbortToken)`. -/
def exaustedThread (s : PoolSystem) : Option ThreadId :=
  match s.watchdog.pc with
  | .abortExausted poolDomain => (s.pool.heap poolDomain).mainThread
  | _ => none

/-- The thread on which it is `Abort(timeoutAbortToken)`. -/
def timeoutThread (s : PoolSystem) : Option ThreadId :=
  match s.watchdog.pc with
  | .abortTimeout index _ =>
      (s.pool.poolDomains index).bind (fun data => (s.pool.heap data).mainThread)
  | _ => none

/-- Whatever thread the object has, if it holds a snippet. -/
def MainThreadIs (s : PoolSystem) (data : DataRef) (P : ThreadId → Worker → Prop) : Prop :=
  ∀ t ∈ (s.pool.heap data).mainThread, ∀ w ∈ s.workers t, w.pc.holdsSnippet = true → P t w

instance (s : PoolSystem) (data : DataRef) (P : ThreadId → Worker → Prop)
    [∀ t w, Decidable (P t w)] : Decidable (s.MainThreadIs data P) :=
  inferInstanceAs (Decidable (∀ t ∈ (s.pool.heap data).mainThread, ∀ w ∈ s.workers t,
    w.pc.holdsSnippet = true → P t w))

end PoolSystem

/-- The watchdog's calls of `Thread.Abort` on a thread, by their token. -/
@[ext]
structure Aborts where
  exausted : Nat
  timeouts : Nat
deriving DecidableEq

/-- The pool with the aborts issued on each thread since it called `Take`. -/
structure AbortSystem where
  system : PoolSystem
  aborts : ThreadId → Aborts

namespace AbortSystem

def abortsAfter (s : AbortSystem) : PoolAction → ThreadId → Aborts
  | .watchdog .next => fun t =>
      { exausted := (s.aborts t).exausted + if s.system.exaustedThread = some t then 1 else 0
        timeouts := (s.aborts t).timeouts + if s.system.timeoutThread = some t then 1 else 0 }
  | .worker thread .next =>
      match s.system.workers thread with
      | some w => if w.pc = .take then Function.update s.aborts thread ⟨0, 0⟩ else s.aborts
      | none => s.aborts
  | _ => s.aborts

def step (s : AbortSystem) (a : PoolAction) : Except PoolFault AbortSystem :=
  match s.system.step a with
  | .ok system => .ok ⟨system, s.abortsAfter a⟩
  | .error fault => .error fault

def initial (numberOfDomainsInPool : Nat) : AbortSystem :=
  ⟨PoolSystem.initial numberOfDomainsInPool, fun _ => ⟨0, 0⟩⟩

/-- No worker that holds a snippet has been aborted twice since it took it. -/
def AbortedOnce (s : AbortSystem) : Prop :=
  ∀ t w, s.system.workers t = some w → w.pc.holdsSnippet = true →
    (s.aborts t).exausted + (s.aborts t).timeouts ≤ 1

/-- The condition on a statement of the watchdog, where the thread concerned holds a
snippet. A guard that lets an abort pass is not passed after an abort for the other
reason. By the time of the abort, what the guard has set still stands: the flag, or
the cleared start of the object that was read, in the run it was read for. -/
def GuardStands (s : AbortSystem) : WatchdogPc → Prop
  | .exchangeAborting poolDomain => (s.system.pool.heap poolDomain).isAborting = 0 →
      s.system.MainThreadIs poolDomain (fun t _ => (s.aborts t).timeouts = 0)
  | .readStart _ poolDomain => s.system.TooOld poolDomain →
      s.system.MainThreadIs poolDomain (fun t _ => (s.aborts t).exausted = 0)
  | .abortExausted poolDomain => s.system.MainThreadIs poolDomain (fun _ _ =>
      (s.system.pool.heap poolDomain).isAborting ≠ 0)
  | .abortTimeout index poolDomain => ∀ data ∈ s.system.pool.poolDomains index,
      s.system.MainThreadIs data (fun _ w => data = poolDomain ∧ w.pc.begun = true ∧
        (s.system.pool.heap data).timeOfSubmission = 0)
  | _ => True

instance (s : AbortSystem) : (pc : WatchdogPc) → Decidable (s.GuardStands pc)
  | .exchangeAborting _ => inferInstanceAs (Decidable (_ = _ → PoolSystem.MainThreadIs _ _ _))
  | .readStart _ _ =>
      inferInstanceAs (Decidable (PoolSystem.TooOld _ _ → PoolSystem.MainThreadIs _ _ _))
  | .abortExausted _ => inferInstanceAs (Decidable (PoolSystem.MainThreadIs _ _ _))
  | .abortTimeout index _ =>
      inferInstanceAs (Decidable (∀ data ∈ s.system.pool.poolDomains index,
        PoolSystem.MainThreadIs _ data _))
  | .loopHead | .getMessage | .findDomain _ | .readClock | .scan _ | .reportTimeout _ _
  | .writeZero _ _ | .checkThread _ _ | .unloadOld _ _ | .replaceSlot _ | .creating _ _ _
  | .ensureOne | .ensureSlot | .ended => isTrue trivial

/-- A worker that shares its object with the thread of a slot does not undo what a
guard has set for that thread's snippet. -/
def LeavesGuards (s : AbortSystem) (thread : ThreadId) (w : Worker) : Prop :=
  (w.pc = .resetAborting → s.system.MainThreadIs w.myPoolDomain (fun t _ =>
    t ≠ thread → (s.aborts t).exausted = 0)) ∧
  (w.pc = .writeStart → s.system.MainThreadIs w.myPoolDomain (fun t _ =>
    t ≠ thread → (s.aborts t).timeouts = 0))

instance (s : AbortSystem) (thread : ThreadId) (w : Worker) :
    Decidable (s.LeavesGuards thread w) :=
  inferInstanceAs (Decidable ((_ = _ → PoolSystem.MainThreadIs _ _ _) ∧
    (_ = _ → PoolSystem.MainThreadIs _ _ _)))

def GuardsHold (s : AbortSystem) : PoolAction → Prop
  | .watchdog .next => s.GuardStands s.system.watchdog.pc
  | .worker thread .next => ∀ w ∈ s.system.workers thread, s.LeavesGuards thread w
  | _ => True

instance (s : AbortSystem) : (a : PoolAction) → Decidable (s.GuardsHold a)
  | .watchdog .next => inferInstanceAs (Decidable (s.GuardStands s.system.watchdog.pc))
  | .worker thread .next => inferInstanceAs (Decidable (∀ w ∈ s.system.workers thread,
      s.LeavesGuards thread w))
  | .watchdog .interrupted | .worker _ (.throws _) | .worker _ (.aborted _)
  | .worker _ (.sandbox _) | .worker _ (.finished _) | .rudeAbort _ | .submit _ | .submitter _
  | .foreignAbort _ | .settle _ | .host _ | .tick _ => isTrue trivial

end AbortSystem

namespace PoolSystem

variable {s s' : PoolSystem} {a : PoolAction}

theorem exaustedThread_eq_some {t : ThreadId} :
    s.exaustedThread = some t ↔ ∃ data, s.watchdog.pc = .abortExausted data ∧
      (s.pool.heap data).mainThread = some t := by
  unfold exaustedThread
  split
  next data hpc => simp [hpc]
  next hpc =>
    refine ⟨nofun, ?_⟩
    rintro ⟨data, heq, -⟩
    exact absurd heq (hpc data)

theorem timeoutThread_eq_some {t : ThreadId} :
    s.timeoutThread = some t ↔ ∃ index poolDomain data,
      s.watchdog.pc = .abortTimeout index poolDomain ∧
        s.pool.poolDomains index = some data ∧ (s.pool.heap data).mainThread = some t := by
  unfold timeoutThread
  split
  next index poolDomain hpc => simp [hpc, Option.bind_eq_some_iff]
  next hpc =>
    refine ⟨nofun, ?_⟩
    rintro ⟨index, poolDomain, data, heq, -⟩
    exact absurd heq (hpc index poolDomain)

/-- The watchdog has decided on an abort since one of its guards let it pass. -/
theorem abortData_step (h : OtherStep s a s') {poolDomain : DataRef}
    (hdata : s'.watchdog.pc.abortData = some poolDomain) :
    (s.watchdog.pc.abortData = some poolDomain ∧
        (a = .watchdog .next → s.exaustedThread = none ∧ s.timeoutThread = none)) ∨
      (a = .watchdog .next ∧ s.watchdog.pc = .exchangeAborting poolDomain ∧
        (s.pool.heap poolDomain).isAborting = 0) ∨
      (a = .watchdog .next ∧ ∃ index, s.watchdog.pc = .readStart index poolDomain ∧
        s.TooOld poolDomain) := by
  cases h with
  | watchdog _ hnext =>
      have hgoes := watchdogNext_goes hnext
      generalize hpc : s.watchdog.pc = pc at hgoes ⊢
      generalize s'.watchdog = watchdog at hgoes hdata
      cases hgoes with
      | exchanged data hclear =>
          cases hdata
          exact Or.inr (Or.inl ⟨rfl, rfl, hclear⟩)
      | tooOld index data hold =>
          cases hdata
          exact Or.inr (Or.inr ⟨rfl, index, rfl, hold⟩)
      | reported index data | cleared index data =>
          refine Or.inl ⟨hdata, fun _ => ?_⟩
          simp [exaustedThread, timeoutThread, hpc]
      | _ => cases hdata
  | interrupted => cases hdata
  | submitter call submitter _ hsubmitter hnext =>
      rw [(submitterNext_sameEvents hnext).2.2] at hdata
      exact Or.inl ⟨hdata, fun heq => by cases heq⟩
  | submit | foreignAbort | host | tick => exact Or.inl ⟨hdata, fun heq => by cases heq⟩

end PoolSystem

/-! What the steps of a worker have to do with its snippet. -/

namespace Worker

variable {p p' : DomainPool} {w w' : Worker} {t : ThreadId} {a : PoolAction}

/-- Only `Take` gives a worker a snippet, and once its start is written it is written
for good. -/
theorem Moves.holdsSnippet (h : Moves t a p p' w w') (hholds : w'.pc.holdsSnippet = true) :
    (a = .worker t .next ∧ w.pc = .take) ∨
      (w.pc.holdsSnippet = true ∧ (w.pc.begun = true → w'.pc.begun = true)) := by
  have hgoes := h.goes
  generalize w.pc = pc at hgoes ⊢
  generalize w'.pc = pc' at hgoes hholds ⊢
  cases hgoes with
  | next hnext =>
      cases hnext with
      | took => exact Or.inl ⟨rfl, rfl⟩
      | prepared | used | recorded | started => exact Or.inr ⟨rfl, fun hbegun => by cases hbegun⟩
      | timed | cleared | caughtAbort | caughtException | threadsRead | memoryRead | decided =>
          exact Or.inr ⟨rfl, fun _ => rfl⟩
      | recycled caller => cases caller <;> cases hholds
      | _ => cases hholds
  | finished outcome => exact Or.inr ⟨rfl, fun _ => rfl⟩
  | caught input _ _ hinput hregion hcatch =>
      obtain ⟨message, rfl | rfl⟩ := hcatch
      all_goals exact Or.inr ⟨holdsSnippet_of_innerTry hregion, fun _ => rfl⟩
  | sandbox | outer | dead => cases hholds

theorem Passive.holdsSnippet {timeout : Prop} (h : Passive timeout w w')
    (hholds : w'.pc.holdsSnippet = true) : w'.pc = w.pc := by
  obtain hpc | hpc := h.pc_cases
  · exact hpc
  · rw [hpc] at hholds
    cases hholds

end Worker

namespace AbortSystem

/-- The aborts of a snippet left their marks, and there is one at most. -/
structure Marked (p : DomainPool) (t : ThreadId) (aborts : Aborts) (w : Worker) : Prop where
  once : aborts.exausted + aborts.timeouts ≤ 1
  exausted : (p.heap w.myPoolDomain).mainThread = some t → aborts.exausted ≠ 0 →
    (p.heap w.myPoolDomain).isAborting ≠ 0
  timeouts : (p.heap w.myPoolDomain).mainThread = some t → aborts.timeouts ≠ 0 →
    (p.heap w.myPoolDomain).timeOfSubmission = 0 ∧ w.pc.begun = true

theorem marked_zero (p : DomainPool) (t : ThreadId) (w : Worker) : Marked p t ⟨0, 0⟩ w :=
  ⟨Nat.zero_le 1, fun _ hne => absurd rfl hne, fun _ hne => absurd rfl hne⟩

/-- Every snippet carries the marks of its aborts, and one that the watchdog has
decided to abort has none. -/
structure AbortInvariant (s : AbortSystem) : Prop where
  numbered : s.system.Numbered
  mainThreads : s.system.MainThreads
  marked : ∀ t w, s.system.workers t = some w → w.pc.holdsSnippet = true →
    Marked s.system.pool t (s.aborts t) w
  decided : ∀ poolDomain, s.system.watchdog.pc.abortData = some poolDomain →
    s.system.MainThreadIs poolDomain (fun t _ => s.aborts t = ⟨0, 0⟩)

variable {s s' : AbortSystem} {a : PoolAction}

theorem step_ok (h : s.step a = .ok s') :
    s.system.step a = .ok s'.system ∧ s'.aborts = s.abortsAfter a := by
  simp only [step] at h
  split at h
  next system hsystem =>
    cases h
    exact ⟨hsystem, rfl⟩
  next => cases h

/-- What a step of a worker does to the counts of a thread. -/
theorem abortsAfter_moves {u : ThreadId} {v v' : Worker} {p : DomainPool}
    (hv : s.system.workers u = some v) (h : Worker.Moves u a s.system.pool p v v')
    (t : ThreadId) :
    s.abortsAfter a t = s.aborts t ∨ (t = u ∧ s.abortsAfter a t = ⟨0, 0⟩) := by
  obtain ⟨input, rfl, -⟩ | ⟨rfl, -⟩ | ⟨rfl, -⟩ := h
  · cases input with
    | next =>
        simp only [abortsAfter, hv]
        split
        next =>
          by_cases heq : t = u
          · subst heq
            exact Or.inr ⟨rfl, Function.update_self _ _ _⟩
          · exact Or.inl (Function.update_of_ne heq _ _)
        next => exact Or.inl rfl
    | _ => exact Or.inl rfl
  · exact Or.inl rfl
  · exact Or.inl rfl

theorem abortsAfter_take {t : ThreadId} {w : Worker} (hw : s.system.workers t = some w)
    (hpc : w.pc = .take) : s.abortsAfter (.worker t .next) t = ⟨0, 0⟩ := by
  simp [abortsAfter, hw, hpc]

/-- What a statement of the watchdog does to them. -/
theorem abortsAfter_watchdog (s : AbortSystem) (t : ThreadId) :
    s.abortsAfter (.watchdog .next) t = s.aborts t ∨
      (s.system.exaustedThread = some t ∧ s.abortsAfter (.watchdog .next) t =
        ⟨(s.aborts t).exausted + 1, (s.aborts t).timeouts⟩) ∨
      (s.system.timeoutThread = some t ∧ s.abortsAfter (.watchdog .next) t =
        ⟨(s.aborts t).exausted, (s.aborts t).timeouts + 1⟩) := by
  by_cases hexausted : s.system.exaustedThread = some t
  · have htimeout : s.system.timeoutThread ≠ some t := by
      obtain ⟨data, hpc, -⟩ := PoolSystem.exaustedThread_eq_some.mp hexausted
      simp [PoolSystem.timeoutThread, hpc]
    exact Or.inr (Or.inl ⟨hexausted, by simp [abortsAfter, hexausted, htimeout]⟩)
  · by_cases htimeout : s.system.timeoutThread = some t
    · exact Or.inr (Or.inr ⟨htimeout, by simp [abortsAfter, hexausted, htimeout]⟩)
    · exact Or.inl (by simp [abortsAfter, hexausted, htimeout])

/-- The step of a worker keeps the marks of its own snippet. -/
theorem Marked.of_moves {p p' : DomainPool} {t u : ThreadId} {aborts : Aborts}
    {w w' : Worker} (h : Marked p t aborts w) (hmove : Worker.Moves u a p p' w w')
    (hholds : w'.pc.holdsSnippet = true) (hbegun : w.pc.begun = true → w'.pc.begun = true) :
    Marked p' t aborts w' := by
  refine ⟨h.once, ?_, ?_⟩
  · rw [hmove.frame.myPoolDomain, hmove.mainThread]
    intro hmain hne
    obtain hsame | ⟨-, -, hreset⟩ := hmove.ownData.aborting
    · rw [hsame]
      exact h.exausted hmain hne
    · rw [hreset] at hholds
      cases hholds
  · rw [hmove.frame.myPoolDomain, hmove.mainThread]
    intro hmain hne
    obtain ⟨hzero, hbegan⟩ := h.timeouts hmain hne
    refine ⟨?_, hbegun hbegan⟩
    obtain hsame | ⟨-, hstarts, -⟩ | ⟨-, -, -, hcleared⟩ := hmove.ownData.time
    · rw [hsame, hzero]
    · rw [hstarts] at hbegan
      cases hbegan
    · exact hcleared

/-- So does the step of another worker that leaves the guards alone. -/
theorem Marked.of_other {p : DomainPool} {t u : ThreadId} {v v' w : Worker}
    (h : Marked s.system.pool t (s.aborts t) w) (hw : s.system.workers t = some w)
    (hholds : w.pc.holdsSnippet = true) (hne : t ≠ u)
    (hmove : Worker.Moves u a s.system.pool p v v')
    (hleaves : a = .worker u .next → s.LeavesGuards u v) :
    Marked p t (s.aborts t) w := by
  by_cases hshared : w.myPoolDomain = v.myPoolDomain
  · refine ⟨h.once, ?_, ?_⟩
    · rw [hmove.mainThread]
      intro hmain haborted
      have hflag := h.exausted hmain haborted
      rw [hshared] at hmain hflag ⊢
      obtain hsame | ⟨hnext, hreset, -⟩ := hmove.ownData.aborting
      · rw [hsame]
        exact hflag
      · exact absurd ((hleaves hnext).1 hreset t hmain w hw hholds hne) haborted
    · rw [hmove.mainThread]
      intro hmain haborted
      obtain ⟨hzero, hbegun⟩ := h.timeouts hmain haborted
      refine ⟨?_, hbegun⟩
      rw [hshared] at hmain hzero ⊢
      obtain hsame | ⟨hnext, hstarts, -⟩ | ⟨-, -, -, hcleared⟩ := hmove.ownData.time
      · rw [hsame, hzero]
      · exact absurd ((hleaves hnext).2 hstarts t hmain w hw hholds hne) haborted
      · exact hcleared
  · have hheap := hmove.frame.otherData _ hshared
    refine ⟨h.once, ?_, ?_⟩
    · rw [hheap]
      exact h.exausted
    · rw [hheap]
      exact h.timeouts

/-- No step but that of a worker undoes a mark. -/
theorem Marked.of_otherStep {s s' : PoolSystem} {t : ThreadId} {aborts : Aborts}
    {w w' : Worker} (h : Marked s.pool t aborts w) (hstep : PoolSystem.OtherStep s a s')
    (hpc : w'.pc = w.pc) (hdata : w'.myPoolDomain = w.myPoolDomain) (ht : t ≠ s.threads) :
    Marked s'.pool t aborts w' := by
  refine ⟨h.once, ?_, ?_⟩
  · rw [hdata]
    intro hmain hne
    cases hstep.dataStep w.myPoolDomain with
    | same hheap =>
        rw [hheap] at hmain ⊢
        exact h.exausted hmain hne
    | fresh hnew hheap =>
        rw [hheap] at hmain
        cases hmain
    | mainThread index hheap hworkers =>
        rw [hheap] at hmain
        exact absurd (Option.some.inj hmain).symm ht
    | flagged hguard hclear hheap =>
        rw [hheap]
        exact one_ne_zero
    | zeroed index poolDomain hguard hslot hheap =>
        rw [hheap] at hmain ⊢
        exact h.exausted hmain hne
  · rw [hdata, hpc]
    intro hmain hne
    cases hstep.dataStep w.myPoolDomain with
    | same hheap =>
        rw [hheap] at hmain ⊢
        exact h.timeouts hmain hne
    | fresh hnew hheap =>
        rw [hheap] at hmain
        cases hmain
    | mainThread index hheap hworkers =>
        rw [hheap] at hmain
        exact absurd (Option.some.inj hmain).symm ht
    | flagged hguard hclear hheap =>
        rw [hheap] at hmain ⊢
        exact h.timeouts hmain hne
    | zeroed index poolDomain hguard hslot hheap =>
        rw [hheap] at hmain ⊢
        exact ⟨rfl, (h.timeouts hmain hne).2⟩

/-- A statement that is no abort leaves the counts alone. -/
theorem abortsAfter_otherStep {next : PoolSystem} (h : PoolSystem.OtherStep s.system a next)
    (hnext : a ≠ .watchdog .next) : s.abortsAfter a = s.aborts := by
  cases h with
  | watchdog _ _ => exact absurd rfl hnext
  | interrupted | submit | submitter | foreignAbort | host | tick => rfl

theorem abortsAfter_of_none {next : PoolSystem}
    (hnone : a = .watchdog .next →
      s.system.exaustedThread = none ∧ s.system.timeoutThread = none)
    (h : PoolSystem.OtherStep s.system a next) : s.abortsAfter a = s.aborts := by
  by_cases hnext : a = .watchdog .next
  · obtain ⟨hexausted, htimeout⟩ := hnone hnext
    subst hnext
    simp [abortsAfter, hexausted, htimeout]
  · exact abortsAfter_otherStep h hnext

/-- The object of a thread is the one that names it. -/
theorem AbortInvariant.object (hs : AbortInvariant s) {data : DataRef} {t : ThreadId}
    {w : Worker} (hmain : (s.system.pool.heap data).mainThread = some t)
    (hw : s.system.workers t = some w) : w.myPoolDomain = data := by
  obtain ⟨owner, howner, hown⟩ := hs.mainThreads data t hmain
  rw [hw] at howner
  cases howner
  exact hown

section

variable {next : PoolSystem} {t : ThreadId} {w w' : Worker}

/-- The abort for thread exhaustion is the first of its snippet, and its flag is up. -/
theorem marked_abortExausted (hs : AbortInvariant s) (hcond : s.GuardsHold (.watchdog .next))
    (h : s.system.watchdogNext = .ok next) (hthread : s.system.exaustedThread = some t)
    (hw : s.system.workers t = some w) (hheld : w.pc.holdsSnippet = true)
    (hdata : w'.myPoolDomain = w.myPoolDomain) :
    Marked next.pool t ⟨(s.aborts t).exausted + 1, (s.aborts t).timeouts⟩ w' := by
  obtain ⟨data, hwatchdog, hmain⟩ := PoolSystem.exaustedThread_eq_some.mp hthread
  have hzero := hs.decided data (by rw [hwatchdog]; rfl) t hmain w hw hheld
  have hflag : (s.system.pool.heap data).isAborting ≠ 0 := by
    simp only [GuardsHold, hwatchdog, GuardStands] at hcond
    exact hcond t hmain w hw hheld
  obtain ⟨thread, v, -, rfl⟩ := PoolSystem.watchdogNext_abortExausted hwatchdog h
  rw [hzero]
  refine ⟨le_rfl, ?_, fun _ hne => absurd rfl hne⟩
  rw [hdata, hs.object hmain hw]
  exact fun _ _ => hflag

/-- So is the abort for the timeout, and the start is cleared. -/
theorem marked_abortTimeout (hs : AbortInvariant s) (hcond : s.GuardsHold (.watchdog .next))
    (h : s.system.watchdogNext = .ok next) (hthread : s.system.timeoutThread = some t)
    (hw : s.system.workers t = some w) (hheld : w.pc.holdsSnippet = true)
    (hpc : w'.pc = w.pc) (hdata : w'.myPoolDomain = w.myPoolDomain) :
    Marked next.pool t ⟨(s.aborts t).exausted, (s.aborts t).timeouts + 1⟩ w' := by
  obtain ⟨index, poolDomain, data, hwatchdog, hslot, hmain⟩ :=
    PoolSystem.timeoutThread_eq_some.mp hthread
  simp only [GuardsHold, hwatchdog, GuardStands] at hcond
  obtain ⟨rfl, hbegun, hcleared⟩ := hcond data hslot t hmain w hw hheld
  have hzero := hs.decided data (by rw [hwatchdog]; rfl) t hmain w hw hheld
  obtain ⟨thread, v, -, -, rfl⟩ := PoolSystem.watchdogNext_abortTimeout hwatchdog h
  rw [hzero]
  refine ⟨le_rfl, fun _ hne => absurd rfl hne, ?_⟩
  rw [hdata, hs.object hmain hw, hpc]
  exact fun _ _ => ⟨hcleared, hbegun⟩

/-- What the watchdog and the other threads leave of the marks. -/
theorem marked_otherStep (hs : AbortInvariant s) (hcond : s.GuardsHold a)
    (h : PoolSystem.OtherStep s.system a next) (hw' : next.workers t = some w')
    (hholds : w'.pc.holdsSnippet = true) : Marked next.pool t (s.abortsAfter a t) w' := by
  obtain ⟨w, hw, hpassive⟩ | ⟨-, -, index, data, rfl⟩ := h.frame.workers.origin t w' hw'
  · have hpc := hpassive.holdsSnippet hholds
    have hdata := PoolSystem.passive_myPoolDomain hpassive
    have hheld : w.pc.holdsSnippet = true := hpc ▸ hholds
    have hmarked : Marked next.pool t (s.aborts t) w' :=
      (hs.marked t w hw hheld).of_otherStep h hpc hdata (hs.numbered.threads t w hw).1.ne
    by_cases hnext : a = .watchdog .next
    · subst hnext
      have hwatchdog : s.system.watchdogNext = .ok next := by
        cases h with
        | watchdog _ hnext => exact hnext
      obtain hsame | ⟨hthread, hone⟩ | ⟨hthread, hone⟩ := abortsAfter_watchdog s t
      · rw [hsame]
        exact hmarked
      · rw [hone]
        exact marked_abortExausted hs hcond hwatchdog hthread hw hheld hdata
      · rw [hone]
        exact marked_abortTimeout hs hcond hwatchdog hthread hw hheld hpc hdata
    · rw [abortsAfter_otherStep h hnext]
      exact hmarked
  · cases hholds

end

theorem marked_step (hs : AbortInvariant s) (hcond : s.GuardsHold a) (h : s.step a = .ok s')
    {t : ThreadId} {w' : Worker} (hw' : s'.system.workers t = some w')
    (hholds : w'.pc.holdsSnippet = true) : Marked s'.system.pool t (s'.aborts t) w' := by
  obtain ⟨hstep, haborts⟩ := step_ok h
  rw [haborts]
  obtain ⟨u, v, p, v', hv, hmove, hnext⟩ | hother := PoolSystem.step_ok hstep
  · rw [hnext] at hw' ⊢
    change Marked p t (s.abortsAfter a t) w'
    have hcounts := abortsAfter_moves hv hmove t
    obtain ⟨rfl, rfl⟩ | ⟨hne, hw⟩ := PoolSystem.workers_setWorker hw'
    · obtain ⟨rfl, htake⟩ | ⟨hheld, hbegun⟩ := hmove.holdsSnippet hholds
      · rw [abortsAfter_take hv htake]
        exact marked_zero p t w'
      · obtain hsame | ⟨-, hzero⟩ := hcounts
        · rw [hsame]
          exact (hs.marked t v hv hheld).of_moves hmove hholds hbegun
        · rw [hzero]
          exact marked_zero p t w'
    · obtain hsame | ⟨heq, -⟩ := hcounts
      · rw [hsame]
        refine (hs.marked t w' hw hholds).of_other hw hholds hne hmove ?_
        rintro rfl
        exact hcond v hv
      · exact absurd heq hne
  · exact marked_otherStep hs hcond hother hw' hholds

/-- A snippet whose thread the watchdog has decided to abort has not been aborted. -/
theorem decided_step (hs : AbortInvariant s) (hcond : s.GuardsHold a) (h : s.step a = .ok s')
    {poolDomain : DataRef} (hdata : s'.system.watchdog.pc.abortData = some poolDomain) :
    s'.system.MainThreadIs poolDomain (fun t _ => s'.aborts t = ⟨0, 0⟩) := by
  intro t hmain w' hw' hholds
  obtain ⟨hstep, haborts⟩ := step_ok h
  rw [haborts]
  obtain ⟨u, v, p, v', hv, hmove, hnext⟩ | hother := PoolSystem.step_ok hstep
  · rw [hnext] at hdata hmain hw'
    have hbefore : (s.system.pool.heap poolDomain).mainThread = some t :=
      (hmove.mainThread poolDomain).symm.trans hmain
    have hcounts := abortsAfter_moves hv hmove t
    obtain ⟨rfl, rfl⟩ | ⟨hne, hw⟩ := PoolSystem.workers_setWorker hw'
    · obtain ⟨rfl, htake⟩ | ⟨hheld, -⟩ := hmove.holdsSnippet hholds
      · exact abortsAfter_take hv htake
      · obtain hsame | ⟨-, hzero⟩ := hcounts
        · rw [hsame]
          exact hs.decided poolDomain hdata t hbefore v hv hheld
        · exact hzero
    · obtain hsame | ⟨heq, -⟩ := hcounts
      · rw [hsame]
        exact hs.decided poolDomain hdata t hbefore w' hw hholds
      · exact absurd heq hne
  · obtain ⟨w, hw, hpassive⟩ | ⟨-, -, index, data, rfl⟩ :=
      hother.frame.workers.origin t w' hw'
    · have hheld : w.pc.holdsSnippet = true := hpassive.holdsSnippet hholds ▸ hholds
      have hbefore : (s.system.pool.heap poolDomain).mainThread = some t := by
        obtain hold | ⟨hnew, -⟩ := (hother.dataStep poolDomain).mainThread_cases hmain
        · exact hold
        · exact absurd hnew (hs.numbered.threads t w hw).1.ne
      obtain ⟨hdecided, hnone⟩ | ⟨rfl, hpc, hclear⟩ | ⟨rfl, index, hpc, hold⟩ :=
        PoolSystem.abortData_step hother hdata
      · rw [abortsAfter_of_none hnone hother]
        exact hs.decided poolDomain hdecided t hbefore w hw hheld
      · have hmarked := hs.marked t w hw hheld
        have htimeouts : (s.aborts t).timeouts = 0 := by
          simp only [GuardsHold, hpc, GuardStands] at hcond
          exact hcond hclear t hbefore w hw hheld
        have hexausted : (s.aborts t).exausted = 0 := by
          by_contra hne
          obtain rfl := hs.object hbefore hw
          exact hmarked.exausted hbefore hne hclear
        rw [abortsAfter_of_none (fun _ => ?_) hother]
        · exact Aborts.ext hexausted htimeouts
        · simp [PoolSystem.exaustedThread, PoolSystem.timeoutThread, hpc]
      · have hmarked := hs.marked t w hw hheld
        have hexausted : (s.aborts t).exausted = 0 := by
          simp only [GuardsHold, hpc, GuardStands] at hcond
          exact hcond hold t hbefore w hw hheld
        have htimeouts : (s.aborts t).timeouts = 0 := by
          by_contra hne
          obtain rfl := hs.object hbefore hw
          have hpositive := hold.1
          rw [(hmarked.timeouts hbefore hne).1] at hpositive
          exact lt_irrefl _ hpositive
        rw [abortsAfter_of_none (fun _ => ?_) hother]
        · exact Aborts.ext hexausted htimeouts
        · simp [PoolSystem.exaustedThread, PoolSystem.timeoutThread, hpc]
    · cases hholds

theorem abortInvariant_step (hs : AbortInvariant s) (hcond : s.GuardsHold a)
    (h : s.step a = .ok s') : AbortInvariant s' :=
  ⟨PoolSystem.numbered_step hs.numbered (step_ok h).1,
    PoolSystem.mainThreads_step hs.numbered hs.mainThreads (step_ok h).1,
    fun _ _ hw hholds => marked_step hs hcond h hw hholds,
    fun _ hdata => decided_step hs hcond h hdata⟩

theorem abortInvariant_initial (numberOfDomainsInPool : Nat) :
    AbortInvariant (initial numberOfDomainsInPool) := by
  refine ⟨PoolSystem.numbered_initial _, PoolSystem.mainThreads_initial _, ?_, ?_⟩
  · intro t w hw hholds
    obtain ⟨-, rfl⟩ := PoolSystem.initial_workers hw
    cases hholds
  · intro poolDomain hdata
    cases hdata

/-- Each snippet is aborted once at most, in every run in which the guards stand and
do not let an abort pass after one for the other reason. -/
theorem aborted_once (numberOfDomainsInPool : Nat) (actions : List PoolAction)
    (hguards : Meets step GuardsHold (initial numberOfDomainsInPool) actions) :
    Always step AbortedOnce (initial numberOfDomainsInPool) actions := by
  have hinvariant : Always step AbortInvariant (initial numberOfDomainsInPool) actions :=
    always_of_meets (fun _ _ _ hs hcond h => abortInvariant_step hs hcond h)
      (abortInvariant_initial numberOfDomainsInPool) hguards
  exact hinvariant.imp (fun _ hs t w hw hholds => (hs.marked t w hw hholds).once)

/-- The only worker runs a snippet, and thread exhaustion has it aborted. -/
def exaustedRun : List PoolAction :=
  .tick 1 :: PoolSystem.firstWorkerReady ++ PoolSystem.submitted 0 ++ PoolSystem.goesOn 0 5 ++
    .host (.postHostMessage HostEventType.outOfTasks 2 0) ::
    List.replicate 5 (.watchdog .next)

/-- It delivers its result at once, and its next snippet times out. -/
theorem aborted_once_each :
    let actions := exaustedRun ++ PoolSystem.submitted 1 ++
      .worker 0 (.aborted "Thread was being aborted.") :: PoolSystem.goesOn 0 15 ++
      .tick 4000 :: List.replicate 9 (.watchdog .next)
    Always step AbortedOnce (initial 1) actions ∧
      Reaches step (fun s => s.aborts 0 = ⟨0, 1⟩) (initial 1) actions :=
  ⟨aborted_once 1 _ (by decide +kernel), by decide +kernel⟩

/-- It is still cleaning up after four seconds, and is aborted for the timeout. -/
theorem aborted_twice :
    Reaches step (fun s => s.aborts 0 = ⟨1, 1⟩ ∧ ∃ w ∈ s.system.workers 0,
        w.pc = .running ∧ w.abortRequested = some .threadsExausted) (initial 1)
        (exaustedRun ++ .tick 4000 :: List.replicate 9 (.watchdog .next)) ∧
      ¬ ∀ numberOfDomainsInPool actions,
        Always step AbortedOnce (initial numberOfDomainsInPool) actions := by
  have hrun : Reaches step (fun s => s.aborts 0 = ⟨1, 1⟩ ∧ ∃ w ∈ s.system.workers 0,
      w.pc = .running ∧ w.abortRequested = some .threadsExausted) (initial 1)
      (exaustedRun ++ .tick 4000 :: List.replicate 9 (.watchdog .next)) := by
    decide +kernel
  refine ⟨hrun, ?_⟩
  intro hall
  obtain ⟨s, hrun, hcounts, w, hw, hpc, -⟩ := reaches_iff.mp hrun
  have honce := ((hall 1 _).last hrun) 0 w hw (by rw [hpc]; rfl)
  rw [hcounts] at honce
  exact absurd honce (by decide)

end AbortSystem

end HostedPumpkin
