import HostedPumpkin.Pool.DataSteps

/-!
Whose AppDomain an id stands for. A worker creates one AppDomain, under an id that no other has
had, and writes it into the object it works on. The watchdog goes the way back: it looks for the
object with the id of an event. What it finds is the object of the worker during whose run the
event was posted, unless the id is the 0 of an object that has no AppDomain yet.
-/

namespace HostedPumpkin

/-- The worker has its AppDomain, or will never have one. -/
def WorkerPc.pastSandbox : WorkerPc → Bool
  | .unstarted | .incrementThreads | .createSandbox => false
  | _ => true

/-- The object the watchdog has found for the event in hand. -/
def WatchdogPc.found : WatchdogPc → Option DataRef
  | .exchangeAborting poolDomain | .abortExausted poolDomain => some poolDomain
  | _ => none

theorem DomainPool.findByAppDomainId_domainId {p : DomainPool} {appDomainId : DomainId}
    {data : DataRef} (h : p.findByAppDomainId appDomainId = some data) :
    (p.heap data).domainId = appDomainId := by
  obtain ⟨index, -, hslot⟩ := List.exists_of_findSome?_eq_some h
  simpa using (Option.filter_eq_some_iff.mp hslot).2

namespace Worker

/-- What a step of a worker does about AppDomains: it creates its own, or leaves the ids in use
as they are. An object and a run are put down to no AppDomain but its own. -/
inductive DomainStep (p p' : DomainPool) (w w' : Worker) : Prop
  | creates (hpc : w.pc.pastSandbox = false) (hpc' : w'.pc.pastSandbox = true)
      (hnew : w'.appDomain ∉ p.domains) (hdomains : p'.domains = w'.appDomain :: p.domains)
      (hheap : p'.heap = p.heap) (hcurrent : p'.currentRun = p.currentRun)
  | keeps (hpc : w.pc.pastSandbox = true → w'.pc.pastSandbox = true)
      (hdomain : w'.appDomain = w.appDomain) (hdomains : p'.domains = p.domains)
      (hdata : (p'.heap w.myPoolDomain).domainId = (p.heap w.myPoolDomain).domainId ∨
        (p'.heap w.myPoolDomain).domainId = w.appDomain)
      (hcurrent : ∀ appDomain run, p'.currentRun appDomain = some run →
        p.currentRun appDomain = some run ∨
          (w.pc.pastSandbox = true ∧ appDomain = w.appDomain ∧ run.thread = w.thread))

variable {p p' : DomainPool} {w w' : Worker}

theorem DomainStep.of_same (hpc : w.pc.pastSandbox = true → w'.pc.pastSandbox = true)
    (hdomain : w'.appDomain = w.appDomain) (hdomains : p'.domains = p.domains)
    (hheap : (p'.heap w.myPoolDomain).domainId = (p.heap w.myPoolDomain).domainId)
    (hcurrent : p'.currentRun = p.currentRun) : DomainStep p p' w w' := by
  refine .keeps hpc hdomain hdomains (Or.inl hheap) ?_
  intro appDomain run hrun
  rw [hcurrent] at hrun
  exact Or.inl hrun

/-- The end of a run names no new one. -/
theorem currentRun_of_cleared {appDomain : DomainId} {run : RunId} {d : DomainId}
    (h : Function.update p.currentRun d none appDomain = some run) :
    p.currentRun appDomain = some run := by
  by_cases hdomain : appDomain = d
  · rw [hdomain, Function.update_self] at h
    cases h
  · rwa [Function.update_of_ne hdomain] at h

theorem DomainStep.of_cleared (hpc : w.pc.pastSandbox = true → w'.pc.pastSandbox = true)
    (hdomain : w'.appDomain = w.appDomain) (hdomains : p'.domains = p.domains)
    (hheap : (p'.heap w.myPoolDomain).domainId = (p.heap w.myPoolDomain).domainId)
    (hcurrent : p'.currentRun = Function.update p.currentRun w.appDomain none) :
    DomainStep p p' w w' := by
  refine .keeps hpc hdomain hdomains (Or.inl hheap) ?_
  intro appDomain run hrun
  rw [hcurrent] at hrun
  exact Or.inl (currentRun_of_cleared hrun)

theorem next_domainStep (h : w.next p = .ok (p', w')) : DomainStep p p' w w' := by
  cases hpc : w.pc with
  | incrementThreads =>
      simp only [next, hpc] at h
      cases h
      exact .of_same (by simp [hpc, WorkerPc.pastSandbox]) rfl rfl rfl rfl
  | setDomainId =>
      simp only [next, hpc] at h
      cases h
      refine .keeps (fun _ => rfl) rfl rfl (Or.inr ?_) (fun _ _ hrun => Or.inl hrun)
      simp [DomainPool.modifyData]
  | resetAborting | incrementUsages =>
      simp only [next, hpc] at h
      cases h
      refine .of_same (fun _ => rfl) rfl rfl ?_ rfl
      simp [DomainPool.modifyData]
  | clearStart =>
      simp only [next, hpc] at h
      cases h
      refine .of_cleared (fun _ => rfl) rfl rfl ?_ rfl
      simp [DomainPool.modifyData]
  | writeStart =>
      simp only [next, hpc] at h
      cases h
      refine .keeps (fun _ => rfl) rfl rfl (Or.inl ?_) ?_
      · simp [DomainPool.modifyData]
      · intro appDomain run hrun
        change Function.update p.currentRun w.appDomain (some ⟨w.thread, w.started + 1⟩) appDomain =
          some run at hrun
        by_cases hdomain : appDomain = w.appDomain
        · subst hdomain
          rw [Function.update_self] at hrun
          cases hrun
          exact Or.inr ⟨by rw [hpc]; rfl, rfl, rfl⟩
        · rw [Function.update_of_ne hdomain] at hrun
          exact Or.inl hrun
  | recycle caller stage =>
      simp only [next, hpc] at h
      obtain ⟨⟨_, _, _, _, _, _, rfl⟩, _, _, _, rfl, hafter⟩ := recycleStep_ok h
      refine .of_same (fun _ => ?_) rfl rfl rfl rfl
      obtain ⟨stage', rfl⟩ | rfl := hafter
      · rfl
      · cases caller <;> rfl
  | unstarted | createSandbox | running | ended =>
      simp only [next, hpc] at h
      cases h
  | _ =>
      simp only [next, hpc] at h
      repeat' split at h
      all_goals cases h
      all_goals exact .of_same (fun _ => rfl) rfl rfl rfl rfl

theorem Moves.domainStep {t : ThreadId} {a : PoolAction} (h : Moves t a p p' w w') :
    DomainStep p p' w w' := by
  obtain ⟨input, rfl, h⟩ | ⟨rfl, h⟩ | ⟨rfl, h⟩ := h
  · cases input with
    | next => exact next_domainStep h
    | sandbox appDomain =>
        simp only [step] at h
        split at h
        next hcreate =>
          cases h
          exact .creates (by rw [hcreate.1]; rfl) rfl hcreate.2 rfl rfl rfl
        next => cases h
    | finished outcome =>
        simp only [step] at h
        split at h
        next hpc =>
          cases h
          exact .of_same (fun _ => rfl) rfl rfl rfl rfl
        next => cases h
    | throws message | aborted message =>
        cases step_thrown ⟨message, by simp⟩ h with
        | inner pc hregion hcatch =>
            refine .of_cleared (fun _ => ?_) rfl rfl rfl rfl
            obtain ⟨text, rfl | rfl⟩ := hcatch <;> rfl
        | outer hregion => exact .of_same (fun _ => rfl) rfl rfl rfl rfl
        | dies hregion => exact .of_same (fun _ => rfl) rfl rfl rfl rfl
  · obtain ⟨-, rfl, rfl⟩ := dieRudely_ok h
    exact .of_cleared (fun _ => rfl) rfl rfl rfl rfl
  · obtain ⟨hended, rfl, rfl⟩ := settle_ok h
    exact .of_same id rfl rfl rfl rfl

/-- Another thread leaves a worker its AppDomain, and does not take it back before it. -/
theorem Passive.domain {timeout : Prop} (h : Passive timeout w w') :
    w'.appDomain = w.appDomain ∧ w'.pc.pastSandbox = w.pc.pastSandbox := by
  obtain ⟨request, rfl⟩ | ⟨hpc, rfl⟩ := h.eq_cases
  · exact ⟨rfl, rfl⟩
  · rw [hpc]
    exact ⟨rfl, rfl⟩

end Worker

namespace PoolSystem

variable {s s' : PoolSystem} {a : PoolAction}

/-- The thread is a worker past the creation of its AppDomain. The AppDomain and the object it
works on are then its for good. -/
def Established (s : PoolSystem) (t : ThreadId) (P : DomainId → DataRef → Prop) : Prop :=
  ∃ w, s.workers t = some w ∧ w.pc.pastSandbox = true ∧ P w.appDomain w.myPoolDomain

/-- The worker has this AppDomain. -/
def Owns (s : PoolSystem) (t : ThreadId) (appDomain : DomainId) : Prop :=
  s.Established t fun d _ => d = appDomain

/-- The worker works on this object, if its AppDomain has an id at all. -/
def WorksOn (s : PoolSystem) (t : ThreadId) (poolDomain : DataRef) : Prop :=
  s.Established t fun d data => d ≠ 0 → data = poolDomain

/-- What becomes of a worker in a step: it takes the step, or another does. -/
theorem worker_forward (hnumbered : Numbered s) (h : s.step a = .ok s') {t : ThreadId}
    {w : Worker} (hw : s.workers t = some w) :
    ∃ w', s'.workers t = some w' ∧ w'.myPoolDomain = w.myPoolDomain ∧
      (w.pc.pastSandbox = true → w'.pc.pastSandbox = true ∧ w'.appDomain = w.appDomain) := by
  obtain ⟨u, v, p, v', hv, hmove, rfl⟩ | hframe := step_cases h
  · by_cases ht : t = u
    · subst ht
      rw [hv] at hw
      cases hw
      refine ⟨v', Function.update_self _ _ _, hmove.frame.myPoolDomain, ?_⟩
      intro hpast
      cases hmove.domainStep with
      | creates hpc => exact absurd (hpast.symm.trans hpc) (by simp)
      | keeps hpc hdomain => exact ⟨hpc hpast, hdomain⟩
    · exact ⟨w, (Function.update_of_ne ht _ _).trans hw, rfl, fun hpast => ⟨hpast, rfl⟩⟩
  · obtain ⟨w', hw', hpassive⟩ := hframe.forward hw (hnumbered.threads t w hw).1.ne
    obtain ⟨hdomain, hpc⟩ := hpassive.domain
    exact ⟨w', hw', passive_myPoolDomain hpassive, fun hpast => ⟨hpc.trans hpast, hdomain⟩⟩

theorem Established.step {t : ThreadId} {P : DomainId → DataRef → Prop} (hs : s.Established t P)
    (hnumbered : Numbered s) (h : s.step a = .ok s') : s'.Established t P := by
  obtain ⟨w, hw, hpast, hP⟩ := hs
  obtain ⟨w', hw', hdata, hkept⟩ := worker_forward hnumbered h hw
  obtain ⟨hpast', hdomain⟩ := hkept hpast
  refine ⟨w', hw', hpast', ?_⟩
  rwa [hdomain, hdata]

/-- Ids are in use at one place only. -/
structure DomainIds (s : PoolSystem) : Prop where
  none : ∀ t w, s.workers t = some w → w.pc.pastSandbox = false → w.appDomain = 0
  known : ∀ t w, s.workers t = some w → w.appDomain ≠ 0 → w.appDomain ∈ s.pool.domains
  apart : ∀ t u v w, s.workers t = some v → s.workers u = some w →
    v.appDomain = w.appDomain → v.appDomain ≠ 0 → t = u
  objects : ∀ data, (s.pool.heap data).domainId ≠ 0 →
    ∃ t w, s.workers t = some w ∧ w.myPoolDomain = data ∧
      w.appDomain = (s.pool.heap data).domainId

theorem DomainIds.pastSandbox (hs : DomainIds s) {t : ThreadId} {w : Worker}
    (hw : s.workers t = some w) (hid : w.appDomain ≠ 0) : w.pc.pastSandbox = true := by
  by_contra hpast
  exact hid (hs.none t w hw (Bool.eq_false_iff.mpr hpast))

/-- A step that no worker takes creates no AppDomain. -/
theorem OtherStep.domains (h : OtherStep s a s') : s'.pool.domains = s.pool.domains := by
  cases h with
  | watchdog _ hnext =>
      obtain ⟨_, _, _, _, _, _, hpool⟩ := watchdogNext_pool hnext
      rw [hpool]
  | submitter _ _ _ _ hnext =>
      obtain ⟨_, _, _, _, _, hpool⟩ := submitterNext_pool hnext
      rw [hpool]
  | _ => rfl

/-- It gives no object an id either. -/
theorem DataStep.domainId {data : DataRef} (h : DataStep s a s' data)
    (hid : (s'.pool.heap data).domainId ≠ 0) :
    (s'.pool.heap data).domainId = (s.pool.heap data).domainId := by
  cases h with
  | same hheap => rw [hheap]
  | fresh hnew hheap =>
      rw [hheap] at hid
      exact absurd rfl hid
  | mainThread index hheap hworkers => rw [hheap]
  | flagged hpc hclear hheap => rw [hheap]
  | zeroed index poolDomain hpc hslot hheap => rw [hheap]

/-- Where a worker comes from when no worker moves, as far as its AppDomain goes. -/
theorem Frame.domain_origin (h : Frame s a s') {t : ThreadId} {w' : Worker}
    (hw' : s'.workers t = some w') :
    (∃ w, s.workers t = some w ∧ w'.appDomain = w.appDomain ∧
      w'.pc.pastSandbox = w.pc.pastSandbox) ∨ w'.appDomain = 0 := by
  obtain ⟨w, hw, hpassive⟩ | ⟨-, -, index, data, rfl⟩ := h.workers.origin t w' hw'
  · exact Or.inl ⟨w, hw, hpassive.domain⟩
  · exact Or.inr rfl

theorem domainIds_of_other (hnumbered : Numbered s) (hs : DomainIds s) (h : OtherStep s a s')
    (hstep : s.step a = .ok s') : DomainIds s' := by
  have hframe := h.frame
  refine ⟨?_, ?_, ?_, ?_⟩
  · intro t w' hw' hpc
    obtain ⟨w, hw, hdomain, hpc'⟩ | hnone := hframe.domain_origin hw'
    · rw [hdomain]
      exact hs.none t w hw (hpc'.symm.trans hpc)
    · exact hnone
  · intro t w' hw' hid
    obtain ⟨w, hw, hdomain, -⟩ | hnone := hframe.domain_origin hw'
    · rw [hdomain] at hid ⊢
      rw [h.domains]
      exact hs.known t w hw hid
    · exact absurd hnone hid
  · intro t u v' w' hv' hw' heq hid
    obtain ⟨v, hv, hv'', -⟩ | hnone := hframe.domain_origin hv'
    · obtain ⟨w, hw, hw'', -⟩ | hnone := hframe.domain_origin hw'
      · rw [hv''] at hid
        rw [hv'', hw''] at heq
        exact hs.apart t u v w hv hw heq hid
      · exact absurd (heq.trans hnone) hid
    · exact absurd hnone hid
  · intro data hid
    have hsame := (h.dataStep data).domainId hid
    rw [hsame] at hid ⊢
    obtain ⟨t, w, hw, hdata, hdomain⟩ := hs.objects data hid
    obtain ⟨w', hw', hdata', hkept⟩ := worker_forward hnumbered hstep hw
    have hpast := hs.pastSandbox hw (by rwa [hdomain])
    exact ⟨t, w', hw', hdata'.trans hdata, (hkept hpast).2.trans hdomain⟩

/-- The worker creates its AppDomain: the id is in use nowhere else. -/
theorem DomainIds.creates {t : ThreadId} {w w' : Worker} {p : DomainPool} (hs : DomainIds s)
    (hw : s.workers t = some w) (hpc : w.pc.pastSandbox = false)
    (hpc' : w'.pc.pastSandbox = true) (hnew : w'.appDomain ∉ s.pool.domains)
    (hdomains : p.domains = w'.appDomain :: s.pool.domains) (hheap : p.heap = s.pool.heap) :
    DomainIds ({ s with pool := p }.setWorker t w') := by
  have hothers : ∀ u v, s.workers u = some v → v.appDomain = w'.appDomain → v.appDomain = 0 := by
    intro u v hv heq
    by_contra hid
    exact hnew (heq ▸ hs.known u v hv hid)
  refine ⟨?_, ?_, ?_, ?_⟩
  · intro u v hv hearly
    obtain ⟨rfl, rfl⟩ | ⟨-, hv⟩ := workers_setWorker hv
    · exact absurd (hpc'.symm.trans hearly) (by simp)
    · exact hs.none u v hv hearly
  · intro u v hv hid
    change v.appDomain ∈ p.domains
    rw [hdomains]
    obtain ⟨rfl, rfl⟩ | ⟨-, hv⟩ := workers_setWorker hv
    · exact List.mem_cons_self
    · exact List.mem_cons_of_mem _ (hs.known u v hv hid)
  · intro u₁ u₂ v₁ v₂ hv₁ hv₂ heq hid
    obtain ⟨rfl, rfl⟩ | ⟨-, hold₁⟩ := workers_setWorker hv₁
    · obtain ⟨rfl, -⟩ | ⟨-, hold₂⟩ := workers_setWorker hv₂
      · rfl
      · exact absurd (heq.trans (hothers u₂ v₂ hold₂ heq.symm)) hid
    · obtain ⟨rfl, rfl⟩ | ⟨-, hold₂⟩ := workers_setWorker hv₂
      · exact absurd (hothers u₁ v₁ hold₁ heq) hid
      · exact hs.apart u₁ u₂ v₁ v₂ hold₁ hold₂ heq hid
  · intro data hid
    change (p.heap data).domainId ≠ 0 at hid
    have hsame : (p.heap data).domainId = (s.pool.heap data).domainId := by rw [hheap]
    rw [hsame] at hid
    obtain ⟨u, v, hv, hdata, hdomain⟩ := hs.objects data hid
    have hne : u ≠ t := by
      rintro rfl
      rw [hw] at hv
      cases hv
      rw [← hdomain] at hid
      exact hid (hs.none _ _ hw hpc)
    exact ⟨u, v, (Function.update_of_ne hne _ _).trans hv, hdata, hdomain.trans hsame.symm⟩

/-- Every other step of a worker: its AppDomain stays, and at most its own object gets the id
of it. -/
theorem DomainIds.keeps {t : ThreadId} {w w' : Worker} {p : DomainPool} (hs : DomainIds s)
    (hw : s.workers t = some w) (hframe : Worker.Frame s.pool p w w')
    (hpc : w.pc.pastSandbox = true → w'.pc.pastSandbox = true)
    (hdomain : w'.appDomain = w.appDomain) (hdomains : p.domains = s.pool.domains)
    (hdata : (p.heap w.myPoolDomain).domainId = (s.pool.heap w.myPoolDomain).domainId ∨
      (p.heap w.myPoolDomain).domainId = w.appDomain) :
    DomainIds ({ s with pool := p }.setWorker t w') := by
  -- each worker stands for one that was there, with the AppDomain and object it has
  have hbefore : ∀ u v, ({ s with pool := p }.setWorker t w').workers u = some v →
      ∃ v₀, s.workers u = some v₀ ∧ v.appDomain = v₀.appDomain ∧
        (v₀.pc.pastSandbox = true → v.pc.pastSandbox = true) := by
    intro u v hv
    obtain ⟨rfl, rfl⟩ | ⟨-, hv⟩ := workers_setWorker hv
    · exact ⟨w, hw, hdomain, hpc⟩
    · exact ⟨v, hv, rfl, id⟩
  have hafter : ∀ u v, s.workers u = some v →
      ∃ v', ({ s with pool := p }.setWorker t w').workers u = some v' ∧
        v'.myPoolDomain = v.myPoolDomain ∧ v'.appDomain = v.appDomain := by
    intro u v hv
    by_cases hu : u = t
    · subst hu
      rw [hw] at hv
      cases hv
      exact ⟨w', Function.update_self _ _ _, hframe.myPoolDomain, hdomain⟩
    · exact ⟨v, (Function.update_of_ne hu _ _).trans hv, rfl, rfl⟩
  refine ⟨?_, ?_, ?_, ?_⟩
  · intro u v hv hearly
    obtain ⟨v₀, hv₀, heq, hpast⟩ := hbefore u v hv
    rw [heq]
    apply hs.none u v₀ hv₀
    by_contra hlate
    exact absurd ((hpast (Bool.not_eq_false _ ▸ hlate)).symm.trans hearly) (by simp)
  · intro u v hv hid
    obtain ⟨v₀, hv₀, heq, -⟩ := hbefore u v hv
    change v.appDomain ∈ p.domains
    rw [heq] at hid ⊢
    rw [hdomains]
    exact hs.known u v₀ hv₀ hid
  · intro u₁ u₂ v₁ v₂ hv₁ hv₂ heq hid
    obtain ⟨w₁, hw₁, heq₁, -⟩ := hbefore u₁ v₁ hv₁
    obtain ⟨w₂, hw₂, heq₂, -⟩ := hbefore u₂ v₂ hv₂
    rw [heq₁] at hid
    rw [heq₁, heq₂] at heq
    exact hs.apart u₁ u₂ w₁ w₂ hw₁ hw₂ heq hid
  · intro data hid
    change (p.heap data).domainId ≠ 0 at hid
    have hold : (p.heap data).domainId = (s.pool.heap data).domainId ∨
        (data = w.myPoolDomain ∧ (p.heap data).domainId = w.appDomain) := by
      by_cases hown : data = w.myPoolDomain
      · subst hown
        exact hdata.imp id fun hset => ⟨rfl, hset⟩
      · rw [hframe.otherData data hown]
        exact Or.inl rfl
    obtain hsame | ⟨rfl, hset⟩ := hold
    · rw [hsame] at hid
      obtain ⟨u, v, hv, hv', hid'⟩ := hs.objects data hid
      obtain ⟨v', hv'', hdata', hdomain'⟩ := hafter u v hv
      exact ⟨u, v', hv'', hdata'.trans hv', (hdomain'.trans hid').trans hsame.symm⟩
    · exact ⟨t, w', Function.update_self _ _ _, hframe.myPoolDomain, hdomain.trans hset.symm⟩

theorem domainIds_step (hnumbered : Numbered s) (hs : DomainIds s) (h : s.step a = .ok s') :
    DomainIds s' := by
  obtain ⟨t, w, p, w', hw, hmove, rfl⟩ | hother := step_ok h
  · cases hmove.domainStep with
    | creates hpc hpc' hnew hdomains hheap => exact hs.creates hw hpc hpc' hnew hdomains hheap
    | keeps hpc hdomain hdomains hdata => exact hs.keeps hw hmove.frame hpc hdomain hdomains hdata
  · exact domainIds_of_other hnumbered hs hother h

theorem domainIds_initial (numberOfDomainsInPool : Nat) :
    DomainIds (initial numberOfDomainsInPool) := by
  refine ⟨?_, ?_, ?_, ?_⟩
  · intro t w hw _
    obtain ⟨-, rfl⟩ := initial_workers hw
    rfl
  · intro t w hw hid
    obtain ⟨-, rfl⟩ := initial_workers hw
    exact absurd rfl hid
  · intro t u v w hv hw heq hid
    obtain ⟨-, rfl⟩ := initial_workers hv
    exact absurd rfl hid
  · intro data hid
    simp only [initial] at hid
    split at hid
    all_goals exact absurd rfl hid

/-! Whom an event is about. -/

/-- A run the history names for an AppDomain is one of the worker that has it, and the object the
watchdog has found for an event is the one that worker works on. -/
structure EventsPlaced (s : PoolSystem) : Prop where
  currentRun : ∀ appDomain run, s.pool.currentRun appDomain = some run →
    s.Owns run.thread appDomain
  postedDuring : ∀ appDomain run, s.pool.postedDuring appDomain = some run →
    s.Owns run.thread appDomain
  inHand : ∀ hostEvent run, s.watchdog.pc = .findDomain hostEvent → s.watchdog.cause = some run →
    s.Owns run.thread hostEvent.appDomainId
  found : ∀ poolDomain run, s.watchdog.pc.found = some poolDomain →
    s.watchdog.cause = some run → s.WorksOn run.thread poolDomain

/-- Looking for the id of its AppDomain finds the object of a worker. -/
theorem Owns.worksOn (hs : DomainIds s) {t : ThreadId} {appDomain : DomainId} {data : DataRef}
    (howns : s.Owns t appDomain) (hfind : s.pool.findByAppDomainId appDomain = some data) :
    s.WorksOn t data := by
  obtain ⟨w, hw, hpast, rfl⟩ := howns
  refine ⟨w, hw, hpast, ?_⟩
  intro hid
  have hfound := DomainPool.findByAppDomainId_domainId hfind
  obtain ⟨u, v, hv, hdata, hdomain⟩ := hs.objects data (by rwa [hfound])
  have hu := hs.apart t u w v hw hv (hdomain.trans hfound).symm hid
  subst hu
  rw [hw] at hv
  cases hv
  exact hdata

theorem OtherStep.postedDuring (h : OtherStep s a s') {appDomain : DomainId} {run : RunId}
    (hposted : s'.pool.postedDuring appDomain = some run) :
    s.pool.postedDuring appDomain = some run ∨ s.pool.currentRun appDomain = some run := by
  cases h with
  | watchdog _ hnext =>
      rw [(watchdogNext_samePool hnext).1.postedDuring] at hposted
      exact Or.inl hposted
  | submitter _ _ _ _ hnext =>
      rw [(submitterNext_sameEvents hnext).2.1] at hposted
      exact Or.inl hposted
  | host op host =>
      simp only [DomainPool.setHost] at hposted
      split at hposted
      next => exact Or.inr hposted
      next => exact Or.inl hposted
  | _ => exact Or.inl hposted

/-- What the watchdog has read or found in a step, before the step. -/
theorem EventsPlaced.watchdog (hs : EventsPlaced s) (hids : DomainIds s)
    (h : s.watchdogNext = .ok s') {run : RunId} (hcause : s'.watchdog.cause = some run) :
    (∀ hostEvent, s'.watchdog.pc = .findDomain hostEvent →
      s.Owns run.thread hostEvent.appDomainId) ∧
    ∀ poolDomain, s'.watchdog.pc.found = some poolDomain → s.WorksOn run.thread poolDomain := by
  have hgoes := watchdogNext_goes h
  generalize hpc : s.watchdog.pc = pc at hgoes
  generalize s'.watchdog = watchdog at hgoes hcause
  cases hgoes with
  | message event hevent =>
      refine ⟨?_, nofun⟩
      rintro _ ⟨⟩
      exact hs.postedDuring _ run hcause
  | found event poolDomain hfind =>
      refine ⟨nofun, ?_⟩
      rintro _ ⟨⟩
      exact (hs.inHand event run hpc hcause).worksOn hids hfind
  | exchanged poolDomain hclear =>
      refine ⟨nofun, ?_⟩
      rintro _ ⟨⟩
      exact hs.found poolDomain run (by rw [hpc]; rfl) hcause
  | _ => exact ⟨nofun, nofun⟩

theorem EventsPlaced.step_currentRun (hs : EventsPlaced s) (hnumbered : Numbered s)
    (h : s.step a = .ok s') {appDomain : DomainId} {run : RunId}
    (hrun : s'.pool.currentRun appDomain = some run) : s'.Owns run.thread appDomain := by
  have hkept : s.pool.currentRun appDomain = some run → s'.Owns run.thread appDomain :=
    fun hold => (hs.currentRun appDomain run hold).step hnumbered h
  obtain ⟨t, w, p, w', hw, hmove, rfl⟩ | hframe := step_cases h
  · change p.currentRun appDomain = some run at hrun
    cases hmove.domainStep with
    | creates _ _ _ _ _ hcurrent =>
        rw [hcurrent] at hrun
        exact hkept hrun
    | keeps _ _ _ _ hcurrent =>
        obtain hold | ⟨hpast, rfl, hthread⟩ := hcurrent appDomain run hrun
        · exact hkept hold
        · have howns : s.Owns t w.appDomain := ⟨w, hw, hpast, rfl⟩
          rw [hthread, (hnumbered.threads t w hw).2]
          exact howns.step hnumbered h
  · rw [hframe.currentRun] at hrun
    exact hkept hrun

theorem eventsPlaced_step (hnumbered : Numbered s) (hids : DomainIds s) (hs : EventsPlaced s)
    (h : s.step a = .ok s') : EventsPlaced s' := by
  have hwatchdog : ∀ run, s'.watchdog.cause = some run →
      (∀ hostEvent, s'.watchdog.pc = .findDomain hostEvent →
        s.Owns run.thread hostEvent.appDomainId) ∧
      ∀ poolDomain, s'.watchdog.pc.found = some poolDomain → s.WorksOn run.thread poolDomain := by
    intro run hcause
    obtain hsame | ⟨-, hnext⟩ | hloops := step_watchdog h
    · rw [hsame] at hcause ⊢
      exact ⟨fun hostEvent hpc => hs.inHand hostEvent run hpc hcause,
        fun poolDomain hpc => hs.found poolDomain run hpc hcause⟩
    · exact hs.watchdog hids hnext hcause
    · rw [hloops]
      exact ⟨nofun, nofun⟩
  refine ⟨fun appDomain run hrun => hs.step_currentRun hnumbered h hrun, ?_, ?_, ?_⟩
  · intro appDomain run hposted
    have hbefore : s.Owns run.thread appDomain := by
      obtain ⟨t, w, p, w', -, hmove, rfl⟩ | hother := step_ok h
      · exact hs.postedDuring appDomain run (hmove.frame.postedDuring ▸ hposted)
      · obtain hold | hcurrent := hother.postedDuring hposted
        · exact hs.postedDuring appDomain run hold
        · exact hs.currentRun appDomain run hcurrent
    exact hbefore.step hnumbered h
  · intro hostEvent run hpc hcause
    exact ((hwatchdog run hcause).1 hostEvent hpc).step hnumbered h
  · intro poolDomain run hpc hcause
    exact ((hwatchdog run hcause).2 poolDomain hpc).step hnumbered h

theorem eventsPlaced_initial (numberOfDomainsInPool : Nat) :
    EventsPlaced (initial numberOfDomainsInPool) :=
  ⟨nofun, nofun, nofun, nofun⟩

/-- The worker's AppDomain has an id, and no other worker was given its object. Two threads that
fill the same slot hand one object to two workers. -/
def HasOwnObject (s : PoolSystem) (t : ThreadId) : Prop :=
  ∀ w, s.workers t = some w → w.appDomain ≠ 0 ∧
    ∀ u v, s.workers u = some v → v.myPoolDomain = w.myPoolDomain → u = t

/-- Its object then names the worker itself. -/
theorem WorksOn.mainThread (hmain : MainThreads s) {t u : ThreadId} {poolDomain : DataRef}
    (hworks : s.WorksOn t poolDomain) (hown : s.HasOwnObject t)
    (hthread : (s.pool.heap poolDomain).mainThread = some u) : u = t := by
  obtain ⟨w, hw, -, hdata⟩ := hworks
  obtain ⟨hid, halone⟩ := hown w hw
  obtain ⟨v, hv, hv'⟩ := hmain poolDomain u hthread
  exact halone u v hv (hv'.trans (hdata hid).symm)

end PoolSystem

end HostedPumpkin
