import HostedPumpkin.Pool.Slots

/-!
The refill section of `SubmitSnippet`: the loop under the lock gives every empty
slot a new object, and one thread is created afterwards, for the last of them. A
pool of one domain never notices. In a larger one the other slots stay marked as
used, with nobody to serve them.
-/

namespace HostedPumpkin

open Runs

namespace DomainPool

/-- The first `bound` turns of the loop in `fillSlots`. -/
def fillUpTo (p : DomainPool) (bound : Nat) : DomainPool × Option Nat :=
  (List.range bound).foldl
    (fun (p, emptySlotIdx) i =>
      if (p.poolDomains i).isNone then (p.renewSlot i, some i) else (p, emptySlotIdx))
    (p, none)

theorem fillUpTo_succ (p : DomainPool) (bound : Nat) :
    p.fillUpTo (bound + 1) =
      if ((p.fillUpTo bound).1.poolDomains bound).isNone then
        ((p.fillUpTo bound).1.renewSlot bound, some bound)
      else p.fillUpTo bound := by
  rw [fillUpTo, List.range_succ, List.foldl_append]
  rfl

/-- `p'` is `p` with all empty slots below the bound filled, each with a new object
of its own. -/
structure Refilled (p : DomainPool) (bound : Nat) (p' : DomainPool) : Prop where
  size : p'.numberOfDomainsInPool = p.numberOfDomainsInPool
  allocated : p.allocated ≤ p'.allocated
  heap : ∀ data, data < p.allocated → p'.heap data = p.heap data
  kept : ∀ index, p.poolDomains index ≠ none ∨ bound ≤ index →
    p'.poolDomains index = p.poolDomains index
  fresh : ∀ index, index < bound → p.poolDomains index = none →
    ∃ data, p'.poolDomains index = some data ∧ p.allocated ≤ data ∧ data < p'.allocated ∧
      p'.heap data = {}
  distinct : ∀ index other data, index < bound → other < bound →
    p.poolDomains index = none → p.poolDomains other = none →
      p'.poolDomains index = some data → p'.poolDomains other = some data → index = other

/-- The last empty slot below the bound, if there is one. -/
def IsLastEmpty (p : DomainPool) (bound : Nat) : Option Nat → Prop
  | none => ∀ index, index < bound → p.poolDomains index ≠ none
  | some last => last < bound ∧ p.poolDomains last = none

theorem Refilled.renewSlot {p p' : DomainPool} {bound : Nat} (h : Refilled p bound p')
    (hempty : p.poolDomains bound = none) : Refilled p (bound + 1) (p'.renewSlot bound) := by
  have hheap : ∀ data, data ≠ p'.allocated → (p'.renewSlot bound).heap data = p'.heap data :=
    fun data hne => Function.update_of_ne hne _ _
  have hself := poolDomains_renewSlot_self p' bound
  have hother : ∀ index, index ≠ bound →
      (p'.renewSlot bound).poolDomains index = p'.poolDomains index :=
    fun index hne => poolDomains_renewSlot_of_ne p' hne
  -- a slot filled earlier holds an older object
  have holder : ∀ index data, index < bound → p.poolDomains index = none →
      p'.poolDomains index = some data → data < p'.allocated := by
    intro index data hindex hnone hdata
    obtain ⟨data', hdata', -, hlt, -⟩ := h.fresh index hindex hnone
    rw [hdata] at hdata'
    cases hdata'
    exact hlt
  refine ⟨h.size, h.allocated.trans (Nat.le_succ _), ?_, ?_, ?_, ?_⟩
  · intro data hdata
    rw [hheap data (hdata.trans_le h.allocated).ne]
    exact h.heap data hdata
  · intro index hindex
    have hne : index ≠ bound := by
      rintro rfl
      obtain hsome | hle := hindex
      · exact hsome hempty
      · omega
    rw [hother index hne]
    exact h.kept index (hindex.imp_right (fun hle => by omega))
  · intro index hindex hnone
    by_cases heq : index = bound
    · subst heq
      exact ⟨p'.allocated, hself, h.allocated, Nat.lt_succ_self _, Function.update_self _ _ _⟩
    · obtain ⟨data, hdata, hge, hlt, hnew⟩ := h.fresh index (by omega) hnone
      exact ⟨data, (hother index heq).trans hdata, hge, hlt.trans (Nat.lt_succ_self _),
        (hheap data hlt.ne).trans hnew⟩
  · intro index other data hindex hother' hnone hnone' hdata hdata'
    by_cases heq : index = bound
    · by_cases heq' : other = bound
      · rw [heq, heq']
      · subst heq
        rw [hself] at hdata
        rw [hother other heq'] at hdata'
        cases hdata
        exact absurd (holder other _ (by omega) hnone' hdata') (lt_irrefl _)
    · rw [hother index heq] at hdata
      by_cases heq' : other = bound
      · subst heq'
        rw [hself] at hdata'
        cases hdata'
        exact absurd (holder index _ (by omega) hnone hdata) (lt_irrefl _)
      · rw [hother other heq'] at hdata'
        exact h.distinct index other data (by omega) (by omega) hnone hnone' hdata hdata'

theorem Refilled.skip {p p' : DomainPool} {bound : Nat} (h : Refilled p bound p')
    (hsome : p.poolDomains bound ≠ none) : Refilled p (bound + 1) p' := by
  have hne : ∀ index, p.poolDomains index = none → index < bound + 1 → index < bound := by
    intro index hnone hindex
    have hneq : index ≠ bound := by
      rintro rfl
      exact hsome hnone
    omega
  refine ⟨h.size, h.allocated, h.heap, ?_, ?_, ?_⟩
  · intro index hindex
    exact h.kept index (hindex.imp_right (fun hle => by omega))
  · intro index hindex hnone
    exact h.fresh index (hne index hnone hindex) hnone
  · intro index other data hindex hother hnone hnone' hdata hdata'
    exact h.distinct index other data (hne index hnone hindex) (hne other hnone' hother)
      hnone hnone' hdata hdata'

theorem refilled_fillUpTo (p : DomainPool) (bound : Nat) :
    Refilled p bound (p.fillUpTo bound).1 ∧ IsLastEmpty p bound (p.fillUpTo bound).2 := by
  induction bound with
  | zero =>
      refine ⟨⟨rfl, le_rfl, fun _ _ => rfl, fun _ _ => rfl, ?_, ?_⟩, ?_⟩
      · intro index hindex
        exact absurd hindex (Nat.not_lt_zero _)
      · intro index other data hindex
        exact absurd hindex (Nat.not_lt_zero _)
      · intro index hindex
        exact absurd hindex (Nat.not_lt_zero _)
  | succ bound ih =>
      obtain ⟨hfilled, hlast⟩ := ih
      have hsame := hfilled.kept bound (Or.inr le_rfl)
      rw [fillUpTo_succ, hsame]
      split
      next hempty =>
        rw [Option.isNone_iff_eq_none] at hempty
        exact ⟨hfilled.renewSlot hempty, Nat.lt_succ_self _, hempty⟩
      next hsome =>
        rw [Option.isNone_iff_eq_none] at hsome
        refine ⟨hfilled.skip hsome, ?_⟩
        cases hidx : (p.fillUpTo bound).2 with
        | none =>
            rw [hidx] at hlast
            intro index hindex
            by_cases heq : index = bound
            · rwa [heq]
            · exact hlast index (by omega)
        | some last =>
            rw [hidx] at hlast
            exact ⟨hlast.1.trans (Nat.lt_succ_self _), hlast.2⟩

theorem refilled_fillSlots (p : DomainPool) :
    Refilled p p.numberOfDomainsInPool p.fillSlots.1 ∧
      IsLastEmpty p p.numberOfDomainsInPool p.fillSlots.2 :=
  refilled_fillUpTo p p.numberOfDomainsInPool

/-- The slots that hold nothing. -/
def emptySlots (p : DomainPool) : Finset Nat :=
  (Finset.range p.numberOfDomainsInPool).filter (fun index => p.poolDomains index = none)

theorem mem_emptySlots {p : DomainPool} {index : Nat} :
    index ∈ p.emptySlots ↔ index < p.numberOfDomainsInPool ∧ p.poolDomains index = none := by
  simp [emptySlots]

end DomainPool

namespace PoolSystem

/-- A thread has been created for the object and started. -/
def HasThread (s : PoolSystem) (data : DataRef) : Prop :=
  ∃ t w, (s.pool.heap data).mainThread = some t ∧ s.workers t = some w ∧
    w.myPoolDomain = data ∧ w.pc ≠ .unstarted

/-- No slot is marked as used without a thread to serve it. -/
def AllServed (s : PoolSystem) : Prop :=
  ∀ index data, s.pool.poolDomains index = some data → s.HasThread data

/-- The call has left the refill section. -/
def Refilled (s : PoolSystem) (call : Nat) : Prop :=
  (s.submitters call).map Submitter.pc = some .store

/-- The thread that the refill section starts. -/
def refillWorker (s : PoolSystem) (index : Nat) (data : DataRef) : Worker :=
  { Worker.created s.threads index data with pc := .incrementThreads }

/-- What the refill section leaves: nothing was missing, no slot was empty, or
the last of those that were got a thread. -/
inductive RefillOutcome (s s' : PoolSystem) : Prop
  | enough
      (hcount : (s.pool.numberOfDomainsInPool : Int) ≤ s.pool.numberOfThreadsInPool)
      (hpool : s'.pool = s.pool) (hworkers : s'.workers = s.workers)
  | full (hfull : s.pool.emptySlots = ∅) (hpool : s'.pool = s.pool.fillSlots.1)
      (hworkers : s'.workers = s.workers)
  | created (last : Nat) (data : DataRef)
      (hcount : s.pool.numberOfThreadsInPool < s.pool.numberOfDomainsInPool)
      (hlast : last ∈ s.pool.emptySlots)
      (hdata : s.pool.fillSlots.1.poolDomains last = some data)
      (hpool : s'.pool = s.pool.fillSlots.1.modifyData data (fun old =>
        { old with mainThread := some s.threads }))
      (hworkers : s'.workers = (s.setWorker s.threads (s.refillWorker last data)).workers)

variable {s s' : PoolSystem}

theorem step_submitter {call : Nat} {submitter : Submitter} {next : PoolSystem}
    (hsubmitter : s.submitters call = some submitter)
    (h : s.submitterNext call submitter = .ok next) :
    s.step (.submitter call) = .ok next := by
  simp only [step, hsubmitter, h]

/-- The three statements that create the thread for a filled slot. -/
theorem creation_runs {call index : Nat} {submitter : Submitter} {data : DataRef}
    (hsubmitter : s.submitters call = some submitter)
    (hpc : submitter.pc = .creating index .readSlot)
    (hslot : s.pool.poolDomains index = some data) :
    ∃ s', run step s (List.replicate 3 (.submitter call)) = .ok s' ∧ s'.Refilled call ∧
      s'.pool = s.pool.modifyData data (fun old => { old with mainThread := some s.threads }) ∧
      s'.workers = (s.setWorker s.threads (s.refillWorker index data)).workers := by
  let s₁ := s.setSubmitter call
    { submitter with pc := .creating index (.setMainThread (some data)) }
  let s₂ := (s₁.newThread index data).setSubmitter call
    { submitter with pc := .creating index (.start s.threads) }
  let s₃ := (s₂.setWorker s.threads (s.refillWorker index data)).setSubmitter call
    { submitter with pc := .store }
  have hread : s.step (.submitter call) = .ok s₁ :=
    step_submitter hsubmitter (by simp only [submitterNext, hpc, createStep, hslot, s₁])
  have hcreate : s₁.step (.submitter call) = .ok s₂ := by
    refine step_submitter (setSubmitter_self _ call _) ?_
    simp only [submitterNext, createStep, s₂]
    rfl
  have hstart : s₂.step (.submitter call) = .ok s₃ := by
    refine step_submitter (setSubmitter_self _ call _) ?_
    have hw : s₂.workers s.threads = some (Worker.created s.threads index data) :=
      Function.update_self _ _ _
    have hunstarted : (Worker.created s.threads index data).pc = .unstarted := rfl
    simp only [submitterNext, createStep, hw, if_pos hunstarted, s₃, refillWorker]
  refine ⟨s₃, ?_, ?_, rfl, ?_⟩
  · calc run step s (List.replicate 3 (.submitter call))
        = run step s₁ (List.replicate 2 (.submitter call)) := run_cons_ok hread _
      _ = run step s₂ (List.replicate 1 (.submitter call)) := run_cons_ok hcreate _
      _ = .ok s₃ := run_cons_ok hstart _
  · rw [Refilled, setSubmitter_self]
    rfl
  · exact Function.update_idem _ _ _

/-- Nothing stops the refill section. -/
theorem refill_runs {call : Nat} {submitter : Submitter}
    (hsubmitter : s.submitters call = some submitter) (hpc : submitter.pc = .readCount) :
    ∃ statements s', run step s (List.replicate statements (.submitter call)) = .ok s' ∧
      s'.Refilled call ∧ RefillOutcome s s' := by
  by_cases hcount : s.pool.numberOfThreadsInPool < s.pool.numberOfDomainsInPool
  · let s₁ := s.setSubmitter call { submitter with pc := .fillSlots }
    have hread : s.step (.submitter call) = .ok s₁ :=
      step_submitter hsubmitter (by simp only [submitterNext, hpc, if_pos hcount, s₁])
    have hs₁ : s₁.submitters call = some { submitter with pc := .fillSlots } :=
      setSubmitter_self s call _
    obtain ⟨hfilled, hlast⟩ := DomainPool.refilled_fillSlots s.pool
    cases hfill : s.pool.fillSlots.2 with
    | none =>
        rw [hfill] at hlast
        let s₂ := { s₁ with pool := s.pool.fillSlots.1 }.setSubmitter call
          { submitter with pc := .store }
        have hstep : s₁.step (.submitter call) = .ok s₂ := by
          refine step_submitter hs₁ ?_
          have hpair : s₁.pool.fillSlots = (s.pool.fillSlots.1, none) := by
            rw [← hfill]
            rfl
          simp only [submitterNext, hpair, s₂]
        refine ⟨2, s₂, ?_, ?_, .full ?_ rfl rfl⟩
        · exact (run_cons_ok hread _).trans (run_cons_ok hstep _)
        · rw [Refilled, setSubmitter_self]
          rfl
        · ext index
          rw [DomainPool.mem_emptySlots]
          simp only [Finset.notMem_empty, iff_false]
          exact fun h => hlast index h.1 h.2
    | some last =>
        rw [hfill] at hlast
        obtain ⟨data, hdata, -⟩ := hfilled.fresh last hlast.1 hlast.2
        let s₂ := { s₁ with pool := s.pool.fillSlots.1 }.setSubmitter call
          { submitter with pc := .creating last .readSlot }
        have hfillSlots : s₁.step (.submitter call) = .ok s₂ := by
          refine step_submitter hs₁ ?_
          have hpair : s₁.pool.fillSlots = (s.pool.fillSlots.1, some last) := by
            rw [← hfill]
            rfl
          simp only [submitterNext, hpair, s₂]
        have hslot : s₂.pool.poolDomains last = some data := hdata
        obtain ⟨s', hcreates, hstore, hpool, hworkers⟩ :=
          creation_runs (setSubmitter_self _ call _) rfl hslot
        refine ⟨5, s', ?_, hstore, .created last data hcount ?_ hdata hpool hworkers⟩
        · calc run step s (List.replicate 5 (.submitter call))
              = run step s₁ (List.replicate 4 (.submitter call)) := run_cons_ok hread _
            _ = run step s₂ (List.replicate 3 (.submitter call)) := run_cons_ok hfillSlots _
            _ = .ok s' := hcreates
        · exact DomainPool.mem_emptySlots.mpr hlast
  · refine ⟨1, s.setSubmitter call { submitter with pc := .store }, ?_, ?_,
      .enough (not_lt.mp hcount) rfl rfl⟩
    · exact run_cons_ok (step_submitter hsubmitter
        (by simp only [submitterNext, hpc, if_neg hcount])) _
    · rw [Refilled, setSubmitter_self]
      rfl

theorem hasThread_congr {data : DataRef} (hheap : s'.pool.heap data = s.pool.heap data)
    (hworkers : s'.workers = s.workers) : s'.HasThread data ↔ s.HasThread data := by
  simp only [HasThread, hheap, hworkers]

/-- Who serves an object that was there before the thread was created. -/
theorem hasThread_old_iff (hnumbered : Numbered s) {index : Nat} {data old : DataRef}
    (hold : old ≠ data) (hheap : s'.pool.heap old = s.pool.heap old)
    (hworkers : s'.workers = (s.setWorker s.threads (s.refillWorker index data)).workers) :
    s'.HasThread old ↔ s.HasThread old := by
  constructor
  · rintro ⟨t, w, hmain, hw, howner, hstarted⟩
    rw [hheap] at hmain
    rw [hworkers] at hw
    obtain ⟨-, rfl⟩ | ⟨-, hw⟩ := workers_setWorker hw
    · exact absurd howner.symm hold
    · exact ⟨t, w, hmain, hw, howner, hstarted⟩
  · rintro ⟨t, w, hmain, hw, howner, hstarted⟩
    have hne : t ≠ s.threads := (hnumbered.threads t w hw).1.ne
    refine ⟨t, w, ?_, ?_, howner, hstarted⟩
    · rw [hheap, hmain]
    · rw [hworkers]
      exact (Function.update_of_ne hne _ _).trans hw

theorem allServed_created_iff (hobjects : Objects s) (hnumbered : Numbered s) {last : Nat}
    {data : DataRef} (hlast : last ∈ s.pool.emptySlots)
    (hdata : s.pool.fillSlots.1.poolDomains last = some data)
    (hpool : s'.pool = s.pool.fillSlots.1.modifyData data (fun old =>
      { old with mainThread := some s.threads }))
    (hworkers : s'.workers = (s.setWorker s.threads (s.refillWorker last data)).workers) :
    s'.AllServed ↔ s.AllServed ∧ s.pool.emptySlots.card ≤ 1 := by
  obtain ⟨hfilled, -⟩ := DomainPool.refilled_fillSlots s.pool
  obtain ⟨hlt, hnone⟩ := DomainPool.mem_emptySlots.mp hlast
  obtain ⟨data', hdata', hnew, -⟩ := hfilled.fresh last hlt hnone
  rw [hdata] at hdata'
  cases hdata'
  have hslots : s'.pool.poolDomains = s.pool.fillSlots.1.poolDomains := by
    rw [hpool]
    rfl
  have hheap : ∀ other, other ≠ data →
      s'.pool.heap other = s.pool.fillSlots.1.heap other := by
    intro other hne
    rw [hpool]
    exact Function.update_of_ne hne _ _
  have hold : ∀ index old, s.pool.poolDomains index = some old →
      s'.pool.poolDomains index = some old ∧ (s'.HasThread old ↔ s.HasThread old) := by
    intro index old hslot
    have hexists := hobjects.slots index old hslot
    have hne : old ≠ data := (hexists.trans_le hnew).ne
    refine ⟨?_, hasThread_old_iff hnumbered hne ?_ hworkers⟩
    · rw [hslots, hfilled.kept index (Or.inl (by simp [hslot])), hslot]
    · rw [hheap old hne, hfilled.heap old hexists]
  constructor
  · intro hserved
    refine ⟨?_, ?_⟩
    · intro index old hslot
      obtain ⟨hslot', hsame⟩ := hold index old hslot
      exact hsame.mp (hserved index old hslot')
    · have honly : ∀ index, index ∈ s.pool.emptySlots → index = last := by
        intro index hempty
        by_contra hne
        obtain ⟨hindex, hnone'⟩ := DomainPool.mem_emptySlots.mp hempty
        obtain ⟨other, hother, -, -, hblank⟩ := hfilled.fresh index hindex hnone'
        -- its object is new and nobody's
        have hdistinct : other ≠ data := by
          rintro rfl
          exact hne (hfilled.distinct index last other hindex hlt hnone' hnone hother hdata)
        obtain ⟨t, w, hmain, -⟩ := hserved index other (by rw [hslots, hother])
        rw [hheap other hdistinct, hblank] at hmain
        cases hmain
      exact Finset.card_le_one.mpr (fun i hi j hj => (honly i hi).trans (honly j hj).symm)
  · rintro ⟨hserved, hcard⟩ index other hslot
    by_cases hempty : index ∈ s.pool.emptySlots
    · have hsame : index = last := Finset.card_le_one.mp hcard index hempty last hlast
      subst hsame
      rw [hslots, hdata] at hslot
      cases hslot
      refine ⟨s.threads, s.refillWorker index data, ?_, ?_, rfl, ?_⟩
      · rw [hpool]
        simp [DomainPool.modifyData]
      · rw [hworkers]
        exact Function.update_self _ _ _
      · simp [refillWorker]
    · have hkept : s.pool.poolDomains index = some other := by
        rw [hslots, hfilled.kept index] at hslot
        · exact hslot
        · rw [DomainPool.mem_emptySlots, not_and, or_comm] at *
          exact (le_or_gt _ _).imp_right hempty
      exact (hold index other hkept).2.mpr (hserved index other hkept)

theorem allServed_full_iff (hobjects : Objects s) (hfull : s.pool.emptySlots = ∅)
    (hpool : s'.pool = s.pool.fillSlots.1) (hworkers : s'.workers = s.workers) :
    s'.AllServed ↔ s.AllServed := by
  obtain ⟨hfilled, -⟩ := DomainPool.refilled_fillSlots s.pool
  have hslots : ∀ index, s'.pool.poolDomains index = s.pool.poolDomains index := by
    intro index
    have hempty : index ∉ s.pool.emptySlots := by simp [hfull]
    rw [DomainPool.mem_emptySlots, not_and] at hempty
    rw [hpool]
    exact hfilled.kept index ((le_or_gt _ _).symm.imp hempty id)
  have hserves : ∀ index data, s.pool.poolDomains index = some data →
      (s'.HasThread data ↔ s.HasThread data) := by
    intro index data hslot
    refine hasThread_congr ?_ hworkers
    rw [hpool, hfilled.heap data (hobjects.slots index data hslot)]
  constructor
  · intro hserved index data hslot
    exact (hserves index data hslot).mp (hserved index data (by rw [hslots, hslot]))
  · intro hserved index data hslot
    rw [hslots] at hslot
    exact (hserves index data hslot).mpr (hserved index data hslot)

/-- In any state the pool can be in, the refill section ends, and it ends with
all slots served if and only if they were before and it did not have to fill two. -/
theorem refill_serves_iff {numberOfDomainsInPool : Nat} {actions : List PoolAction}
    (hrun : run step (initial numberOfDomainsInPool) actions = .ok s) {call : Nat}
    {submitter : Submitter} (hsubmitter : s.submitters call = some submitter)
    (hpc : submitter.pc = .readCount) :
    ∃ statements s', run step s (List.replicate statements (.submitter call)) = .ok s' ∧
      s'.Refilled call ∧
      (s'.AllServed ↔ s.AllServed ∧
        ((s.pool.numberOfDomainsInPool : Int) ≤ s.pool.numberOfThreadsInPool ∨
          s.pool.emptySlots.card ≤ 1)) := by
  have hobjects : Objects s :=
    (always_of_step (fun _ _ _ hs h => objects_step hs h)
      (objects_initial numberOfDomainsInPool) actions).last hrun
  have hnumbered : Numbered s :=
    (always_of_step (fun _ _ _ hs h => numbered_step hs h)
      (numbered_initial numberOfDomainsInPool) actions).last hrun
  obtain ⟨statements, s', hrefill, hstore, houtcome⟩ := refill_runs hsubmitter hpc
  refine ⟨statements, s', hrefill, hstore, ?_⟩
  cases houtcome with
  | enough hcount hpool hworkers =>
      have hsame : s'.AllServed ↔ s.AllServed := by
        simp only [AllServed, HasThread, hpool, hworkers]
      simp [hsame, hcount]
  | full hfull hpool hworkers =>
      simp [allServed_full_iff hobjects hfull hpool hworkers, hfull]
  | created last data hcount hlast hdata hpool hworkers =>
      simp [allServed_created_iff hobjects hnumbered hlast hdata hpool hworkers,
        not_le.mpr hcount]

/-- A worker that gets no AppDomain gives its slot up. -/
def slotGivenUp (thread : ThreadId) : List PoolAction :=
  goesOn thread 1 ++ [.worker thread (.throws "no sandbox")] ++ goesOn thread 3

instance (s : PoolSystem) (call : Nat) : Decidable (s.Refilled call) :=
  inferInstanceAs (Decidable (_ = _))

/-- The first worker of a pool of two gives its slot up, and a snippet is submitted. -/
def oneSlotEmpty : List PoolAction := slotGivenUp 0 ++ [.submit true]

theorem poolDomains_oneSlotEmpty (index : Nat) :
    (run step (initial 2) oneSlotEmpty).map (fun s => s.pool.poolDomains (index + 2)) =
      .ok none := rfl

/-- The empty slot gets its thread, and the other has the one it had. -/
theorem refill_serves_iff_one_empty :
    ∃ s submitter statements s', run step (initial 2) oneSlotEmpty = .ok s ∧
      s.submitters 0 = some submitter ∧ s.pool.poolDomains 0 = none ∧
      run step s (List.replicate statements (.submitter 0)) = .ok s' ∧ s'.Refilled 0 ∧
      s'.AllServed := by
  have hrun : Reaches step (fun s => (∃ submitter ∈ s.submitters 0, submitter.pc = .readCount) ∧
      s.pool.poolDomains 0 = none ∧ s.pool.poolDomains 1 = some 1 ∧
      (s.pool.heap 1).mainThread = some 1 ∧
      (∃ w ∈ s.workers 1, w.myPoolDomain = 1 ∧ w.pc ≠ .unstarted) ∧
      s.pool.emptySlots.card ≤ 1) (initial 2) oneSlotEmpty := by decide
  obtain ⟨s, hrun, ⟨submitter, hsubmitter, hpc⟩, hzero, hone, hthread, ⟨w, hw, hserves⟩, hempty⟩ :=
    reaches_iff.mp hrun
  have hserved : s.AllServed := by
    intro index data hdata
    match index with
    | 0 =>
        rw [hzero] at hdata
        cases hdata
    | 1 =>
        rw [hone] at hdata
        cases hdata
        exact ⟨1, w, hthread, hw, hserves⟩
    | rest + 2 =>
        have hrest := poolDomains_oneSlotEmpty rest
        rw [hrun, Except.map, hdata] at hrest
        cases hrest
  obtain ⟨statements, s', hrefill, hstore, hiff⟩ := refill_serves_iff hrun hsubmitter hpc
  exact ⟨s, submitter, statements, s', hrun, hsubmitter, hzero, hrefill, hstore,
    hiff.mpr ⟨hserved, .inr hempty⟩⟩

/-- Both slots of a pool of two are empty, and a snippet is submitted. -/
def bothSlotsEmpty : List PoolAction :=
  slotGivenUp 0 ++ slotGivenUp 1 ++ [.submit true]

/-- Slot 0 is filled and nobody is to serve it. -/
theorem slot_without_thread :
    ∃ s s', run step (initial 2) bothSlotsEmpty = .ok s ∧
      s.pool.poolDomains 0 = none ∧ s.pool.poolDomains 1 = none ∧
      run step s (List.replicate 5 (.submitter 0)) = .ok s' ∧ s'.Refilled 0 ∧
      (∃ data, s'.pool.poolDomains 0 = some data ∧
        (s'.pool.heap data).mainThread = none) ∧ ¬ s'.AllServed := by
  have hrun : Reaches step (fun s => s.pool.poolDomains 0 = none ∧ s.pool.poolDomains 1 = none ∧
      Reaches step (fun s' => s'.Refilled 0 ∧ ∃ data ∈ s'.pool.poolDomains 0,
        (s'.pool.heap data).mainThread = none) s (List.replicate 5 (.submitter 0)))
      (initial 2) bothSlotsEmpty := by decide
  obtain ⟨s, hrun, hzero, hone, hrefill⟩ := reaches_iff.mp hrun
  obtain ⟨s', hrefill, hstore, data, hdata, hmain⟩ := reaches_iff.mp hrefill
  refine ⟨s, s', hrun, hzero, hone, hrefill, hstore, ⟨data, hdata, hmain⟩, ?_⟩
  intro hserved
  obtain ⟨t, w, hthread, -⟩ := hserved 0 data hdata
  rw [hmain] at hthread
  cases hthread

end PoolSystem

end HostedPumpkin
