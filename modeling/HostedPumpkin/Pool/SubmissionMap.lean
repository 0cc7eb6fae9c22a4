import HostedPumpkin.Pool.Delivery

/-!
The keys of `submissionMap`. `SubmitSnippet` registers the completion before it
queues the snippet, a worker looks it up when it has the result, and nothing ever
removes it. `SubmitSnippet` is called with any snippet and any completion here:
ids may come twice, and an id may come without a completion. The run remembers
the ids a completion was registered for.
-/

namespace HostedPumpkin

open Runs

namespace PoolSystem

variable {s s' : PoolSystem}

theorem watchdogNext_queue (h : s.watchdogNext = .ok s') :
    s'.pool.snippetsQueue = s.pool.snippetsQueue := by
  obtain ⟨_, _, _, _, _, _, hpool⟩ := watchdogNext_pool h
  rw [hpool]

/-- What a step of `SubmitSnippet` does to the map and to the queue: it registers
the completion, it queues the snippet, or it touches neither. -/
inductive SubmissionStep (s : PoolSystem) (submitter : Submitter) (pc : SubmitterPc)
    (s' : PoolSystem) : Prop
  | elsewhere (hpc : submitter.pc ≠ .store ∧ pc ≠ .add ∧ pc ≠ .returned)
      (hmap : s'.pool.submissionMap = s.pool.submissionMap)
      (hqueue : s'.pool.snippetsQueue = s.pool.snippetsQueue)
  | store (hpc : submitter.pc = .store ∧ pc = .add)
      (hmap : ∀ id, s'.pool.submissionMap id ≠ none ↔ s.pool.submissionMap id ≠ none ∨
        (submitter.completion ≠ none ∧ submitter.snippetInfo.submissionId = some id))
      (hqueue : s'.pool.snippetsQueue = s.pool.snippetsQueue)
  | add (hpc : submitter.pc = .add ∧ pc = .returned)
      (hmap : s'.pool.submissionMap = s.pool.submissionMap)
      (hqueue : s'.pool.snippetsQueue = s.pool.snippetsQueue ++ [submitter.snippetInfo])

theorem submitterNext_submission {call : Nat} {submitter : Submitter}
    (h : s.submitterNext call submitter = .ok s') :
    ∃ pc, s'.submitters = Function.update s.submitters call (some { submitter with pc }) ∧
      SubmissionStep s submitter pc s' := by
  cases hpc : submitter.pc with
  | readCount =>
      simp only [submitterNext, hpc] at h
      split at h
      all_goals cases h
      · exact ⟨.fillSlots, rfl, .elsewhere (by simp [hpc]) rfl rfl⟩
      · exact ⟨.store, rfl, .elsewhere (by simp [hpc]) rfl rfl⟩
  | fillSlots =>
      obtain ⟨pc, rfl, hpc'⟩ := submitterNext_fillSlots hpc h
      obtain ⟨_, _, _, hfill⟩ := fillSlots_eq s.pool
      refine ⟨pc, rfl, .elsewhere ?_ (by rw [hfill]; rfl) (by rw [hfill]; rfl)⟩
      obtain ⟨index, -, rfl⟩ | ⟨-, rfl⟩ := hpc'
      all_goals simp [hpc]
  | creating index stage =>
      obtain rfl | ⟨next, left, pc, hnext, rfl, hpc'⟩ := submitterNext_creating hpc h
      · exact ⟨.threw, rfl, .elsewhere (by simp [hpc]) rfl rfl⟩
      · obtain ⟨_, hpool⟩ := createStep_pool hnext
        have hqueue : next.pool.snippetsQueue = s.pool.snippetsQueue := by rw [hpool]
        refine ⟨pc, ?_, .elsewhere ?_ (createStep_samePool hnext).submissionMap hqueue⟩
        · rw [← (createStep_sameCalls hnext).submitters]
          rfl
        · obtain ⟨stage', -, rfl⟩ | ⟨-, rfl⟩ := hpc'
          all_goals simp [hpc]
  | store =>
      simp only [submitterNext, hpc] at h
      split at h
      next id completion hid hcompletion =>
        cases h
        refine ⟨.add, rfl, .store ⟨hpc, rfl⟩ ?_ rfl⟩
        intro other
        by_cases hother : other = id
        · subst hother
          simp [setSubmitter, hid, hcompletion]
        · simp [setSubmitter, Function.update_of_ne hother, hid, Ne.symm hother]
      next hnothing =>
        cases h
        refine ⟨.add, rfl, .store ⟨hpc, rfl⟩ ?_ rfl⟩
        intro id
        have hnone : ¬ (submitter.completion ≠ none ∧
            submitter.snippetInfo.submissionId = some id) := by
          rintro ⟨hcompletion, hid⟩
          obtain ⟨completion, hsome⟩ := Option.ne_none_iff_exists'.mp hcompletion
          exact hnothing id completion hid hsome
        rw [or_iff_left hnone]
        rfl
  | add =>
      simp only [submitterNext, hpc] at h
      split at h
      all_goals cases h
      · exact ⟨.threw, rfl, .elsewhere (by simp [hpc]) rfl rfl⟩
      · exact ⟨.returned, rfl, .add ⟨hpc, rfl⟩ rfl rfl⟩
  | returned | threw =>
      simp only [submitterNext, hpc] at h
      cases h

end PoolSystem

namespace Worker

variable {p p' : DomainPool} {w w' : Worker}

theorem next_queue (h : w.next p = .ok (p', w')) (htake : w.pc ≠ .take) :
    p'.snippetsQueue = p.snippetsQueue := by
  cases hpc : w.pc with
  | take => exact absurd hpc htake
  | recycle caller stage =>
      simp only [next, hpc] at h
      obtain ⟨⟨_, _, _, _, _, _, rfl⟩, -⟩ := recycleStep_ok h
      rfl
  | _ =>
      simp only [next, hpc] at h
      repeat' split at h
      all_goals cases h
      all_goals rfl

/-- A worker takes snippets out of the queue and holds no others. -/
structure TakesFromQueue (p p' : DomainPool) (w w' : Worker) : Prop where
  queue : ∀ snippet ∈ p'.snippetsQueue, snippet ∈ p.snippetsQueue
  held : w'.pc.holdsSnippet = true →
    (w.pc.holdsSnippet = true ∧ w'.snippetToRun = w.snippetToRun) ∨
      w'.snippetToRun ∈ p.snippetsQueue

theorem next_takesFromQueue (h : w.next p = .ok (p', w')) : TakesFromQueue p p' w w' := by
  by_cases htake : w.pc = .take
  · simp only [next, htake] at h
    split at h
    next snippet rest hqueue =>
      cases h
      refine ⟨?_, fun _ => Or.inr ?_⟩
      · intro other hother
        rw [hqueue]
        exact List.mem_cons_of_mem _ hother
      · rw [hqueue]
        exact List.mem_cons_self
    next =>
      split at h
      all_goals cases h
      exact ⟨fun _ hmem => hmem, fun hholds => by cases hholds⟩
  · have hqueue := next_queue h htake
    refine ⟨fun snippet hmem => by rwa [hqueue] at hmem, ?_⟩
    intro hholds
    by_cases hdeliver : w.pc = .deliver
    · exfalso
      simp only [next, hdeliver] at h
      repeat' split at h
      all_goals cases h
      all_goals cases hholds
    · obtain ⟨hsame, hsnippet, -⟩ := next_keepsSnippet h htake hdeliver
      exact Or.inl ⟨hsame ▸ hholds, hsnippet⟩

theorem Thrown.takesFromQueue (h : Thrown p w p' w') : TakesFromQueue p p' w w' := by
  cases h with
  | inner pc hregion hpc =>
      exact ⟨fun _ hmem => hmem, fun _ => Or.inl ⟨holdsSnippet_of_innerTry hregion, rfl⟩⟩
  | outer hregion => exact ⟨fun _ hmem => hmem, fun hholds => by cases hholds⟩
  | dies hregion => exact ⟨fun _ hmem => hmem, fun hholds => by cases hholds⟩

theorem Moves.takesFromQueue {t : ThreadId} {a : PoolAction} (h : Moves t a p p' w w') :
    TakesFromQueue p p' w w' := by
  obtain ⟨input, -, h⟩ | ⟨-, h⟩ | ⟨-, h⟩ := h
  · cases input with
    | next => exact next_takesFromQueue h
    | sandbox appDomain =>
        simp only [step] at h
        split at h
        all_goals cases h
        exact ⟨fun _ hmem => hmem, fun hholds => by cases hholds⟩
    | finished outcome =>
        simp only [step] at h
        split at h
        next hpc =>
          cases h
          refine ⟨fun _ hmem => hmem, fun _ => Or.inl ⟨?_, rfl⟩⟩
          rw [hpc]
          rfl
        next => cases h
    | throws message => exact (throws_thrown h).takesFromQueue
    | aborted message => exact (aborted_thrown h).takesFromQueue
  · obtain ⟨-, rfl, rfl⟩ := dieRudely_ok h
    exact ⟨fun _ hmem => hmem, fun hholds => by cases hholds⟩
  · obtain ⟨-, rfl, rfl⟩ := settle_ok h
    exact ⟨fun _ hmem => hmem, fun hholds => Or.inl ⟨hholds, rfl⟩⟩

theorem Passive.snippet {timeout : Prop} (h : Passive timeout w w') :
    w'.pc.holdsSnippet = w.pc.holdsSnippet ∧ w'.snippetToRun = w.snippetToRun := by
  obtain ⟨request, rfl⟩ | ⟨hpc, rfl⟩ := h.eq_cases
  · exact ⟨rfl, rfl⟩
  · rw [hpc]
    exact ⟨rfl, rfl⟩

end Worker

/-- The pool, and the ids a completion was registered for. -/
structure SubmissionSystem where
  system : PoolSystem
  registered : List SubmissionId

inductive SubmissionAction where
  | submitSnippet (snippetInfo : SnippetInfo) (completion : Option Completion)
  | pool (a : PoolAction)
deriving DecidableEq

namespace SubmissionSystem

def initial (numberOfDomainsInPool : Nat) : SubmissionSystem :=
  ⟨PoolSystem.initial numberOfDomainsInPool, []⟩

/-- The id that a step registers a completion for. -/
def registers (s : PoolSystem) : PoolAction → List SubmissionId
  | .submitter call =>
      match s.submitters call with
      | some submitter =>
          if submitter.pc = .store ∧ submitter.completion ≠ none then
            submitter.snippetInfo.submissionId.toList
          else []
      | none => []
  | _ => []

def step (s : SubmissionSystem) : SubmissionAction → Except PoolFault SubmissionSystem
  | .submitSnippet snippetInfo completion =>
      .ok { s with system :=
        { s.system.setSubmitter s.system.calls { snippetInfo, completion } with
          calls := s.system.calls + 1 } }
  | .pool a =>
      match s.system.step a with
      | .error fault => .error fault
      | .ok next => .ok ⟨next, s.registered ++ registers s.system a⟩

/-- The snippet is queued or being executed. -/
def Live (s : PoolSystem) (snippet : SnippetInfo) : Prop :=
  snippet ∈ s.pool.snippetsQueue ∨
    ∃ t w, s.workers t = some w ∧ w.pc.holdsSnippet = true ∧ w.snippetToRun = snippet

/-- The keys are the ids registered so far. Every call that has come as far as
`Add` has registered its completion, and every snippet that is queued or being
executed is from a call that returned. -/
structure Registry (s : SubmissionSystem) : Prop where
  keys : ∀ id, s.system.pool.submissionMap id ≠ none ↔ id ∈ s.registered
  calls : ∀ call submitter, s.system.submitters call = some submitter →
    submitter.pc = .add ∨ submitter.pc = .returned → submitter.completion ≠ none →
      ∀ id, submitter.snippetInfo.submissionId = some id → id ∈ s.registered
  live : ∀ snippet, Live s.system snippet → ∃ call submitter,
    s.system.submitters call = some submitter ∧ submitter.pc = .returned ∧
      submitter.snippetInfo = snippet

/-- And no step removes a key. -/
structure KeysKept (s : SubmissionSystem) : Prop extends Registry s where
  kept : ∀ a next, s.step a = .ok next → ∀ id, s.system.pool.submissionMap id ≠ none →
    next.system.pool.submissionMap id ≠ none

theorem step_pool_ok {s next : SubmissionSystem} {a : PoolAction}
    (h : s.step (.pool a) = .ok next) :
    s.system.step a = .ok next.system ∧
      next.registered = s.registered ++ registers s.system a := by
  simp only [step] at h
  split at h
  next => cases h
  next system hstep =>
    cases h
    exact ⟨hstep, rfl⟩

theorem registered_mono {s next : SubmissionSystem} {a : SubmissionAction}
    (h : s.step a = .ok next) {id : SubmissionId} (hid : id ∈ s.registered) :
    id ∈ next.registered := by
  cases a with
  | submitSnippet snippetInfo completion =>
      cases h
      exact hid
  | pool a =>
      rw [(step_pool_ok h).2]
      exact List.mem_append_left _ hid

theorem numbered_step {s next : SubmissionSystem} {a : SubmissionAction}
    (hs : s.system.Numbered) (h : s.step a = .ok next) : next.system.Numbered := by
  cases a with
  | submitSnippet snippetInfo completion =>
      cases h
      refine ⟨hs.threads, ?_⟩
      intro call submitter hcall
      by_cases hnew : call = s.system.calls
      · rw [hnew]
        exact Nat.lt_succ_self _
      · have hold := (Function.update_of_ne hnew _ _).symm.trans hcall
        exact (hs.calls call submitter hold).trans (Nat.lt_succ_self _)
  | pool a => exact PoolSystem.numbered_step hs (step_pool_ok h).1

/-- A new call has neither registered nor queued anything. -/
theorem Registry.called {s : SubmissionSystem} {next : PoolSystem} (hs : Registry s)
    (hnumbered : s.system.Numbered) {snippetInfo : SnippetInfo} {completion : Option Completion}
    (hpool : next.pool = s.system.pool) (hworkers : next.workers = s.system.workers)
    (hcalls : next.submitters =
      (s.system.setSubmitter s.system.calls { snippetInfo, completion }).submitters) :
    Registry ⟨next, s.registered⟩ := by
  refine ⟨?_, ?_, ?_⟩
  · rw [hpool]
    exact hs.keys
  · intro call submitter hcall hpc
    rw [hcalls] at hcall
    by_cases hnew : call = s.system.calls
    · subst hnew
      have hself := (PoolSystem.setSubmitter_self _ _ _).symm.trans hcall
      cases hself
      obtain hpc | hpc := hpc <;> cases hpc
    · exact hs.calls call submitter ((Function.update_of_ne hnew _ _).symm.trans hcall) hpc
  · intro snippet hlive
    rw [Live, hpool, hworkers] at hlive
    obtain ⟨call, submitter, hcall, hpc, hsnippet⟩ := hs.live snippet hlive
    refine ⟨call, submitter, ?_, hpc, hsnippet⟩
    rw [hcalls]
    exact (Function.update_of_ne (hnumbered.calls call submitter hcall).ne _ _).trans hcall

theorem Registry.of_same {s : SubmissionSystem} {next : PoolSystem} (hs : Registry s)
    (hmap : next.pool.submissionMap = s.system.pool.submissionMap)
    (hsubmitters : next.submitters = s.system.submitters)
    (hlive : ∀ snippet, Live next snippet → Live s.system snippet) :
    Registry ⟨next, s.registered⟩ := by
  refine ⟨?_, ?_, ?_⟩
  · rw [hmap]
    exact hs.keys
  · rw [hsubmitters]
    exact hs.calls
  · intro snippet h
    rw [hsubmitters]
    exact hs.live snippet (hlive snippet h)

theorem live_of_moves {s : PoolSystem} {a : PoolAction} {t : ThreadId} {p : DomainPool}
    {w w' : Worker} (hw : s.workers t = some w) (hmove : Worker.Moves t a s.pool p w w')
    {snippet : SnippetInfo} (h : Live ({ s with pool := p }.setWorker t w') snippet) :
    Live s snippet := by
  have htakes := hmove.takesFromQueue
  obtain hqueue | ⟨u, v, hv, hholds, rfl⟩ := h
  · exact Or.inl (htakes.queue snippet hqueue)
  · obtain ⟨rfl, rfl⟩ | ⟨-, hv⟩ := PoolSystem.workers_setWorker hv
    · obtain ⟨hheld, hsame⟩ | hqueue := htakes.held hholds
      · exact Or.inr ⟨u, w, hw, hheld, hsame.symm⟩
      · exact Or.inl hqueue
    · exact Or.inr ⟨u, v, hv, hholds, rfl⟩

/-- A step that no worker takes gives no worker a snippet. -/
theorem live_of_frame {s s' : PoolSystem} {a : PoolAction} (hframe : PoolSystem.Frame s a s')
    {snippet : SnippetInfo} (h : Live s' snippet) :
    snippet ∈ s'.pool.snippetsQueue ∨ Live s snippet := by
  obtain hqueue | ⟨t, w', hw', hholds, rfl⟩ := h
  · exact Or.inl hqueue
  · obtain ⟨w, hw, hpassive⟩ | ⟨-, -, index, data, rfl⟩ := hframe.workers.origin t w' hw'
    · obtain ⟨hheld, hsame⟩ := hpassive.snippet
      exact Or.inr (Or.inr ⟨t, w, hw, hheld ▸ hholds, hsame.symm⟩)
    · cases hholds

theorem live_of_same {s s' : PoolSystem} {a : PoolAction} (hframe : PoolSystem.Frame s a s')
    (hqueue : s'.pool.snippetsQueue = s.pool.snippetsQueue) {snippet : SnippetInfo}
    (h : Live s' snippet) : Live s snippet := by
  obtain hmem | hlive := live_of_frame hframe h
  · rw [hqueue] at hmem
    exact Or.inl hmem
  · exact hlive

/-- A call has taken a step, and the other calls are where they were. -/
theorem Registry.of_call {s : SubmissionSystem} {next : PoolSystem}
    {registered : List SubmissionId} (hs : Registry s) {call : Nat} {submitter : Submitter}
    (hself : next.submitters call = some submitter)
    (hother : ∀ k, k ≠ call → next.submitters k = s.system.submitters k)
    (hsubset : ∀ id ∈ s.registered, id ∈ registered)
    (hkeys : ∀ id, next.pool.submissionMap id ≠ none ↔ id ∈ registered)
    (hcall : submitter.pc = .add ∨ submitter.pc = .returned → submitter.completion ≠ none →
      ∀ id, submitter.snippetInfo.submissionId = some id → id ∈ registered)
    (hlive : ∀ snippet, Live next snippet → ∃ k submitter',
      next.submitters k = some submitter' ∧ submitter'.pc = .returned ∧
        submitter'.snippetInfo = snippet) : Registry ⟨next, registered⟩ := by
  refine ⟨hkeys, ?_, hlive⟩
  intro k submitter' hk hpc hcompletion id hid
  by_cases heq : k = call
  · subst heq
    rw [hself] at hk
    cases hk
    exact hcall hpc hcompletion id hid
  · exact hsubset id
      (hs.calls k submitter' ((hother k heq).symm.trans hk) hpc hcompletion id hid)

/-- What a step of a call registers, by where the call is. -/
theorem mem_registers {s : PoolSystem} {call : Nat} {submitter : Submitter}
    (hsubmitter : s.submitters call = some submitter) (id : SubmissionId) :
    id ∈ registers s (.submitter call) ↔ submitter.pc = .store ∧
      submitter.completion ≠ none ∧ submitter.snippetInfo.submissionId = some id := by
  simp only [registers, hsubmitter]
  split
  next hstores => simp [hstores]
  next hstores =>
    refine ⟨nofun, ?_⟩
    rintro ⟨hpc, hcompletion, -⟩
    exact absurd ⟨hpc, hcompletion⟩ hstores

theorem Registry.submitter {s : SubmissionSystem} {next : PoolSystem} (hs : Registry s)
    {call : Nat} {submitter : Submitter}
    (hsubmitter : s.system.submitters call = some submitter)
    (hnext : s.system.submitterNext call submitter = .ok next) :
    Registry ⟨next, s.registered ++ registers s.system (.submitter call)⟩ := by
  have hframe := PoolSystem.submitterNext_frame hsubmitter hnext (.submitter call)
  obtain ⟨pc, hcalls, hstep⟩ := PoolSystem.submitterNext_submission hnext
  have hself : next.submitters call = some { submitter with pc } := by
    rw [hcalls]
    exact Function.update_self _ _ _
  have hother : ∀ k, k ≠ call → next.submitters k = s.system.submitters k := by
    intro k hk
    rw [hcalls]
    exact Function.update_of_ne hk _ _
  -- a call that has returned takes no step, so this is not the one that did
  have hreturned : submitter.pc ≠ .returned := by
    intro hpc
    simp only [PoolSystem.submitterNext, hpc] at hnext
    cases hnext
  have hlive : ∀ snippet, Live s.system snippet → ∃ k submitter',
      next.submitters k = some submitter' ∧ submitter'.pc = .returned ∧
        submitter'.snippetInfo = snippet := by
    intro snippet h
    obtain ⟨k, submitter', hk, hpc, hsnippet⟩ := hs.live snippet h
    refine ⟨k, submitter', ?_, hpc, hsnippet⟩
    rw [hother k, hk]
    rintro rfl
    rw [hsubmitter] at hk
    cases hk
    exact hreturned hpc
  have hregisters := mem_registers hsubmitter
  refine hs.of_call hself hother (fun id hid => List.mem_append_left _ hid) ?_ ?_ ?_
  · intro id
    rw [List.mem_append, hregisters, ← hs.keys]
    cases hstep with
    | elsewhere hpc hmap hqueue => simp [hmap, hpc.1]
    | store hpc hmap hqueue => simp [hmap, hpc.1]
    | add hpc hmap hqueue => simp [hmap, hpc.1]
  · intro hpc' hcompletion id hid
    rw [List.mem_append, hregisters]
    cases hstep with
    | elsewhere hpc hmap hqueue =>
        obtain hpc' | hpc' := hpc'
        · exact absurd hpc' hpc.2.1
        · exact absurd hpc' hpc.2.2
    | store hpc hmap hqueue => exact Or.inr ⟨hpc.1, hcompletion, hid⟩
    | add hpc hmap hqueue =>
        exact Or.inl (hs.calls call submitter hsubmitter (Or.inl hpc.1) hcompletion id hid)
  · intro snippet h
    cases hstep with
    | elsewhere hpc hmap hqueue => exact hlive snippet (live_of_same hframe hqueue h)
    | store hpc hmap hqueue => exact hlive snippet (live_of_same hframe hqueue h)
    | add hpc hmap hqueue =>
        obtain hmem | hold := live_of_frame hframe h
        · rw [hqueue, List.mem_append, List.mem_singleton] at hmem
          obtain hmem | rfl := hmem
          · exact hlive snippet (Or.inl hmem)
          · exact ⟨call, _, hself, hpc.2, rfl⟩
        · exact hlive snippet hold

theorem registry_step {s next : SubmissionSystem} {a : SubmissionAction}
    (hnumbered : s.system.Numbered) (hs : Registry s) (h : s.step a = .ok next) :
    Registry next := by
  cases a with
  | submitSnippet snippetInfo completion =>
      cases h
      exact hs.called hnumbered rfl rfl rfl
  | pool a =>
      obtain ⟨next, registered⟩ := next
      obtain ⟨hstep, rfl⟩ := step_pool_ok h
      obtain ⟨t, w, p, w', hw, hmove, rfl⟩ | hother := PoolSystem.step_ok hstep
      · have hnone : registers s.system a = [] := by
          obtain ⟨input, rfl, -⟩ | ⟨rfl, -⟩ | ⟨rfl, -⟩ := hmove <;> rfl
        rw [hnone, List.append_nil]
        exact hs.of_same hmove.frame.submissionMap rfl (fun _ hlive => live_of_moves hw hmove hlive)
      · have hframe := hother.frame
        cases hother with
        | submitter call submitter _ hsubmitter hnext => exact hs.submitter hsubmitter hnext
        | submit withCompletion id hid =>
            have hnone : registers s.system (.submit withCompletion) = [] := rfl
            rw [hnone, List.append_nil]
            exact hs.called hnumbered rfl rfl rfl
        | watchdog _ hnext =>
            have hnone : registers s.system (.watchdog .next) = [] := rfl
            rw [hnone, List.append_nil]
            obtain ⟨hpool, hcalls⟩ := PoolSystem.watchdogNext_samePool hnext
            exact hs.of_same hpool.submissionMap hcalls.submitters
              (fun _ => live_of_same hframe (PoolSystem.watchdogNext_queue hnext))
        | interrupted | foreignAbort | host | tick =>
            simp only [registers, List.append_nil] at hframe ⊢
            exact hs.of_same rfl rfl (fun _ => live_of_same hframe rfl)

theorem registry_initial (numberOfDomainsInPool : Nat) :
    Registry (initial numberOfDomainsInPool) := by
  refine ⟨?_, ?_, ?_⟩
  · intro id
    simp [initial, PoolSystem.initial]
  · intro call submitter hcall
    cases hcall
  · rintro snippet (hqueue | ⟨t, w, hw, hholds, -⟩)
    · cases hqueue
    · obtain ⟨-, rfl⟩ := PoolSystem.initial_workers hw
      cases hholds

/-- Whatever is submitted, the keys are the ids registered so far, for ever. -/
theorem submissions_registered (numberOfDomainsInPool : Nat) (actions : List SubmissionAction) :
    Always step KeysKept (initial numberOfDomainsInPool) actions := by
  have hinvariant : Always step (fun s => s.system.Numbered ∧ Registry s)
      (initial numberOfDomainsInPool) actions := by
    refine always_of_step ?_ ⟨?_, registry_initial _⟩ actions
    · intro s a next hs h
      exact ⟨numbered_step hs.1 h, registry_step hs.1 hs.2 h⟩
    · exact PoolSystem.numbered_initial numberOfDomainsInPool
  refine hinvariant.imp ?_
  intro s hs
  refine ⟨hs.2, ?_⟩
  intro a next h id hid
  rw [(registry_step hs.1 hs.2 h).keys]
  exact registered_mono h ((hs.2.keys id).mp hid)

/-- The keys are the ids of the snippets that are queued or being executed. -/
def KeysLive (s : PoolSystem) : Prop :=
  ∀ id, s.pool.submissionMap id ≠ none ↔
    ∃ snippet, Live s snippet ∧ snippet.submissionId = some id

def onPool (actions : List PoolAction) : List SubmissionAction := actions.map .pool

/-- The only worker delivers the result of snippet 7. -/
def resultDelivered : List SubmissionAction :=
  onPool PoolSystem.firstWorkerReady ++ [.submitSnippet ⟨some 7⟩ (some 0)] ++
    onPool (List.replicate 3 (.submitter 0) ++ PoolSystem.goesOn 0 5 ++
      [.worker 0 (.finished .success)] ++ PoolSystem.goesOn 0 6)

/-- The only worker fails when there are too many zombies, and calls `Exit`; snippet
7 is submitted after it. -/
def submittedAfterExit : List SubmissionAction :=
  onPool (List.replicate 21 (.host .onDomainRudeUnload) ++ PoolSystem.goesOn 0 1 ++
      [.worker 0 (.throws "no sandbox")] ++ PoolSystem.goesOn 0 3) ++
    [.submitSnippet ⟨some 7⟩ (some 0)] ++ onPool (List.replicate 3 (.submitter 0))

/-- Nothing is queued, and no thread holds a snippet. -/
def Idle (s : PoolSystem) : Prop :=
  s.pool.snippetsQueue = [] ∧
    ∀ t, t < s.threads → ∀ w ∈ s.workers t, w.pc.holdsSnippet = false

instance (s : PoolSystem) : Decidable (Idle s) :=
  inferInstanceAs (Decidable (_ = _ ∧ ∀ t, t < s.threads → ∀ w ∈ s.workers t, _ = _))

theorem not_live_of_idle {s : PoolSystem} (hnumbered : s.Numbered) (hidle : Idle s)
    (snippet : SnippetInfo) : ¬ Live s snippet := by
  rintro (hqueue | ⟨t, w, hw, hholds, -⟩)
  · rw [hidle.1] at hqueue
    cases hqueue
  · rw [hidle.2 t (hnumbered.threads t w hw).1 w hw] at hholds
    cases hholds

/-- Id 7 is a key when its result has been delivered, and when its call threw. -/
theorem key_outlives_snippet :
    Reaches step (fun s => s.system.pool.submissionMap 7 ≠ none ∧ Idle s.system ∧
      s.system.pool.delivered ≠ []) (initial 1) resultDelivered ∧
    Reaches step (fun s => s.system.pool.submissionMap 7 ≠ none ∧ Idle s.system ∧
      (s.system.submitters 0).map Submitter.pc = some .threw) (initial 1) submittedAfterExit ∧
    ¬ Always step (fun s => KeysLive s.system) (initial 1) resultDelivered ∧
    ¬ Always step (fun s => KeysLive s.system) (initial 1) submittedAfterExit := by
  have hstale : ∀ actions, Reaches step (fun s => s.system.pool.submissionMap 7 ≠ none ∧
      Idle s.system) (initial 1) actions →
        ¬ Always step (fun s => KeysLive s.system) (initial 1) actions := by
    intro actions hreaches hlive
    obtain ⟨s, hrun, hkey, hidle⟩ := reaches_iff.mp hreaches
    have hnumbered : s.system.Numbered :=
      (always_of_step (fun _ _ _ hs h => numbered_step hs h)
        (PoolSystem.numbered_initial 1) actions).last hrun
    obtain ⟨snippet, hsnippet, -⟩ := (hlive.last hrun 7).mp hkey
    exact not_live_of_idle hnumbered hidle snippet hsnippet
  exact ⟨by decide, by decide, hstale _ (by decide), hstale _ (by decide)⟩

end SubmissionSystem

end HostedPumpkin
