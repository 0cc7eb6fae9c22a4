import HostedPumpkin.Pool.SubmissionMap
import HostedPumpkin.Pool.Timeout

/-!
The way of the snippets through `snippetsQueue`, whatever is thrown and whoever dies. The
run remembers which calls have added their snippet and which workers have taken one, both
in their order. A snippet is taken in its turn, by one worker, and the client of a call gets
at most one result, from a worker that took the snippet of that call.
-/

namespace HostedPumpkin

open Runs

/-- The pool, the calls that have added their snippet and the workers that have taken one. -/
structure QueueSystem where
  system : PoolSystem
  added : List (Nat × SnippetInfo)
  taken : List (ThreadId × SnippetInfo)

namespace QueueSystem

def initial (numberOfDomainsInPool : Nat) : QueueSystem :=
  ⟨PoolSystem.initial numberOfDomainsInPool, [], []⟩

/-- `snippetsQueue.Add(snippetInfo)`, unless it throws. -/
def addedBy (s : PoolSystem) : PoolAction → List (Nat × SnippetInfo)
  | .submitter call =>
      match s.submitters call with
      | some submitter =>
          if submitter.pc = .add ∧ s.pool.isAddingCompleted = false then
            [(call, submitter.snippetInfo)]
          else []
      | none => []
  | _ => []

/-- `snippetsQueue.Take()`, when it returns. -/
def takenBy (s : PoolSystem) : PoolAction → List (ThreadId × SnippetInfo)
  | .worker t .next =>
      match s.workers t, s.pool.snippetsQueue with
      | some w, snippet :: _ => if w.pc = .take then [(t, snippet)] else []
      | _, _ => []
  | _ => []

def step (s : QueueSystem) (a : PoolAction) : Except PoolFault QueueSystem :=
  match s.system.step a with
  | .error fault => .error fault
  | .ok next => .ok ⟨next, s.added ++ addedBy s.system a, s.taken ++ takenBy s.system a⟩

variable {s next : QueueSystem} {a : PoolAction}

theorem step_eq_ok (h : s.step a = .ok next) :
    s.system.step a = .ok next.system ∧ next.added = s.added ++ addedBy s.system a ∧
      next.taken = s.taken ++ takenBy s.system a := by
  unfold step at h
  split at h
  next => cases h
  next system hstep =>
    cases h
    exact ⟨hstep, rfl, rfl⟩

/-- What the step of a worker does with snippets and results: it takes the first snippet of
the queue, it sets the result of the one it holds, or it does neither. -/
inductive WorkerStep (t : ThreadId) (a : PoolAction) (p p' : DomainPool) (w w' : Worker) : Prop
  | take (snippet : SnippetInfo) (ha : a = .worker t .next) (hpc : w.pc = .take)
      (hqueue : p.snippetsQueue = snippet :: p'.snippetsQueue)
      (hdelivered : p'.delivered = p.delivered) (hsnippet : w'.snippetToRun = snippet)
  | deliver (id : SubmissionId) (delivery : Delivery)
      (htake : a = .worker t .next → w.pc = .take → p.snippetsQueue = [])
      (hholds : w.pc.holdsSnippet = true) (hid : w.snippetToRun.submissionId = some id)
      (hmap : p.submissionMap id = some delivery.completion)
      (hqueue : p'.snippetsQueue = p.snippetsQueue)
      (hdelivered : p'.delivered = p.delivered ++ [delivery])
      (hdone : w'.pc.holdsSnippet = false)
  | other (htake : a = .worker t .next → w.pc = .take → p.snippetsQueue = [])
      (hqueue : p'.snippetsQueue = p.snippetsQueue) (hdelivered : p'.delivered = p.delivered)
      (hholds : w'.pc.holdsSnippet = true →
        w.pc.holdsSnippet = true ∧ w'.snippetToRun = w.snippetToRun)

section

variable {t : ThreadId} {p p' : DomainPool} {w w' : Worker}

theorem next_workerStep (ha : a = .worker t .next) (h : w.next p = .ok (p', w')) :
    WorkerStep t a p p' w w' := by
  by_cases htake : w.pc = .take
  · simp only [Worker.next, htake] at h
    split at h
    next snippet rest hqueue =>
      cases h
      exact .take snippet ha htake hqueue rfl rfl
    next hqueue =>
      split at h
      all_goals cases h
      exact .other (fun _ _ => hqueue) rfl rfl (fun hholds => by cases hholds)
  · have hnot : a = .worker t .next → w.pc = .take → p.snippetsQueue = [] :=
      fun _ hpc => absurd hpc htake
    by_cases hdeliver : w.pc = .deliver
    · simp only [Worker.next, hdeliver] at h
      split at h
      next =>
        cases h
        exact .other hnot rfl rfl (fun hholds => by cases hholds)
      next id hid =>
        split at h
        next =>
          cases h
          exact .other hnot rfl rfl (fun hholds => by cases hholds)
        next completion hmap =>
          cases h
          exact .deliver id ⟨completion, _, _⟩ hnot (by rw [hdeliver]; rfl) hid hmap rfl rfl rfl
    · obtain ⟨hsame, hsnippet, -⟩ := Worker.next_keepsSnippet h htake hdeliver
      have hdelivered : p'.delivered = p.delivered := by
        have hstep : w.step p .next = .ok (p', w') := h
        obtain hdelivered | ⟨hpc, -⟩ := Worker.step_delivered hstep
        · exact hdelivered
        · exact absurd hpc hdeliver
      exact .other hnot (Worker.next_queue h htake) hdelivered
        (fun hholds => ⟨hsame ▸ hholds, hsnippet⟩)

/-- A step that takes and delivers nothing. -/
theorem workerStep_of_same (ha : a ≠ .worker t .next) (hqueue : p'.snippetsQueue = p.snippetsQueue)
    (hdelivered : p'.delivered = p.delivered)
    (hholds : w'.pc.holdsSnippet = true →
      w.pc.holdsSnippet = true ∧ w'.snippetToRun = w.snippetToRun) :
    WorkerStep t a p p' w w' :=
  .other (fun heq => absurd heq ha) hqueue hdelivered hholds

theorem thrown_workerStep (ha : a ≠ .worker t .next) (h : Worker.Thrown p w p' w') :
    WorkerStep t a p p' w w' := by
  apply workerStep_of_same ha
  · cases h <;> rfl
  · cases h <;> rfl
  · intro hholds
    cases h with
    | inner pc hregion hpc => exact ⟨Worker.holdsSnippet_of_innerTry hregion, rfl⟩
    | outer hregion | dies hregion => cases hholds

theorem moves_workerStep (h : Worker.Moves t a p p' w w') : WorkerStep t a p p' w w' := by
  obtain ⟨input, rfl, h⟩ | ⟨rfl, h⟩ | ⟨rfl, h⟩ := h
  · cases input with
    | next => exact next_workerStep rfl h
    | sandbox appDomain =>
        simp only [Worker.step] at h
        split at h
        all_goals cases h
        exact workerStep_of_same (by simp) rfl rfl (fun hholds => by cases hholds)
    | finished outcome =>
        simp only [Worker.step] at h
        split at h
        next hpc =>
          cases h
          exact workerStep_of_same (by simp) rfl rfl (fun _ => ⟨by rw [hpc]; rfl, rfl⟩)
        next => cases h
    | throws message => exact thrown_workerStep (by simp) (Worker.throws_thrown h)
    | aborted message => exact thrown_workerStep (by simp) (Worker.aborted_thrown h)
  · obtain ⟨-, rfl, rfl⟩ := Worker.dieRudely_ok h
    exact workerStep_of_same (by simp) rfl rfl (fun hholds => by cases hholds)
  · obtain ⟨-, rfl, rfl⟩ := Worker.settle_ok h
    exact workerStep_of_same (by simp) rfl rfl (fun hholds => ⟨hholds, rfl⟩)

end

/-- What a step that no worker takes does with the calls and their snippets. -/
inductive CallStep (s : PoolSystem) (a : PoolAction) (s' : PoolSystem) : Prop
  | none (hadded : addedBy s a = []) (hqueue : s'.pool.snippetsQueue = s.pool.snippetsQueue)
      (hsubmitters : s'.submitters = s.submitters)
  | called (id : Option SubmissionId) (hid : ∀ value ∈ id, value = s.calls)
      (hadded : addedBy s a = []) (hqueue : s'.pool.snippetsQueue = s.pool.snippetsQueue)
      (hsubmitters : s'.submitters = Function.update s.submitters s.calls
        (some { snippetInfo := ⟨id⟩, completion := id }))
  | moved (call : Nat) (submitter : Submitter) (pc : SubmitterPc)
      (hsubmitter : s.submitters call = some submitter)
      (hpc : submitter.pc ≠ .returned ∧ pc ≠ .returned)
      (hadded : addedBy s a = []) (hqueue : s'.pool.snippetsQueue = s.pool.snippetsQueue)
      (hsubmitters : s'.submitters =
        Function.update s.submitters call (some { submitter with pc }))
  | added (call : Nat) (submitter : Submitter)
      (hsubmitter : s.submitters call = some submitter) (hpc : submitter.pc ≠ .returned)
      (hadded : addedBy s a = [(call, submitter.snippetInfo)])
      (hqueue : s'.pool.snippetsQueue = s.pool.snippetsQueue ++ [submitter.snippetInfo])
      (hsubmitters : s'.submitters =
        Function.update s.submitters call (some { submitter with pc := .returned }))

theorem submitter_callStep {s s' : PoolSystem} {call : Nat} {submitter : Submitter}
    (hsubmitter : s.submitters call = some submitter)
    (h : s.submitterNext call submitter = .ok s') : CallStep s (.submitter call) s' := by
  by_cases hpc : submitter.pc = .add
  · simp only [PoolSystem.submitterNext, hpc] at h
    split at h
    next hcompleted =>
      cases h
      refine .moved call submitter .threw hsubmitter (by simp [hpc]) ?_ rfl rfl
      simp [addedBy, hsubmitter, hcompleted]
    next hcompleted =>
      cases h
      refine .added call submitter hsubmitter (by simp [hpc]) ?_ rfl rfl
      simp [addedBy, hsubmitter, hpc, hcompleted]
  · have hadded : addedBy s (.submitter call) = [] := by simp [addedBy, hsubmitter, hpc]
    have hreturned : submitter.pc ≠ .returned := by
      intro hreturned
      simp only [PoolSystem.submitterNext, hreturned] at h
      cases h
    obtain ⟨pc, hsubmitters, hstep⟩ := PoolSystem.submitterNext_submission h
    cases hstep with
    | elsewhere hpc' hmap hqueue =>
        exact .moved call submitter pc hsubmitter ⟨hreturned, hpc'.2.2⟩ hadded hqueue hsubmitters
    | store hpc' hmap hqueue =>
        exact .moved call submitter pc hsubmitter ⟨hreturned, by simp [hpc'.2]⟩ hadded hqueue
          hsubmitters
    | add hpc' => exact absurd hpc'.1 hpc

theorem otherStep_callStep {s s' : PoolSystem} {a : PoolAction}
    (h : PoolSystem.OtherStep s a s') : CallStep s a s' := by
  cases h with
  | watchdog _ hnext =>
      exact .none rfl (PoolSystem.watchdogNext_queue hnext)
        (PoolSystem.watchdogNext_samePool hnext).2.submitters
  | submit withCompletion id hid =>
      refine .called id ?_ rfl rfl rfl
      rintro value hvalue
      rw [hid] at hvalue
      split at hvalue
      all_goals cases hvalue
      rfl
  | submitter call submitter _ hsubmitter hnext => exact submitter_callStep hsubmitter hnext
  | interrupted | foreignAbort | host | tick => exact .none rfl rfl rfl

theorem otherStep_takenBy {s s' : PoolSystem} {a : PoolAction}
    (h : PoolSystem.OtherStep s a s') : takenBy s a = [] := by
  cases h <;> rfl

/-- The two snippets are not of one submission. -/
def Apart (snippet other : SnippetInfo) : Prop :=
  snippet.submissionId = other.submissionId → snippet.submissionId = none

theorem Apart.symm {snippet other : SnippetInfo} (h : Apart snippet other) :
    Apart other snippet := by
  intro hsame
  rw [hsame]
  exact h hsame.symm

/-- Snippets leave the queue in the order they came in, each of them added by a call that has
returned. A worker has taken the snippet it holds. Every result is of a snippet that a call
added and a worker took, and no submission has two of them. -/
structure ServedInOrder (s : QueueSystem) : Prop where
  order : s.added.map Prod.snd = s.taken.map Prod.snd ++ s.system.pool.snippetsQueue
  added_iff : ∀ call snippet, (call, snippet) ∈ s.added ↔ ∃ submitter,
    s.system.submitters call = some submitter ∧ submitter.pc = .returned ∧
      submitter.snippetInfo = snippet
  addedOnce : (s.added.map Prod.fst).Nodup
  held : ∀ t w, s.system.workers t = some w → w.pc.holdsSnippet = true →
    (t, w.snippetToRun) ∈ s.taken
  answered : ∀ delivery ∈ s.system.pool.delivered,
    (delivery.completion, ⟨some delivery.completion⟩) ∈ s.added ∧
      ∃ t, (t, ⟨some delivery.completion⟩) ∈ s.taken
  answeredOnce : (s.system.pool.delivered.map Delivery.completion).Nodup

/-- What the calls and the map of the pool say about ids: the id of a call is its number, and
so is its completion. -/
structure OwnIds (s : PoolSystem) : Prop where
  calls : ∀ call submitter, s.submitters call = some submitter →
    submitter.completion = submitter.snippetInfo.submissionId ∧
      ∀ id ∈ submitter.snippetInfo.submissionId, id = call
  submissionMap : ∀ id completion, s.pool.submissionMap id = some completion → completion = id

theorem ownIds_calls {s s' : PoolSystem} {a : PoolAction} (hs : OwnIds s)
    (h : CallStep s a s') : ∀ call submitter, s'.submitters call = some submitter →
      submitter.completion = submitter.snippetInfo.submissionId ∧
        ∀ id ∈ submitter.snippetInfo.submissionId, id = call := by
  intro call submitter hcall
  cases h with
  | none _ _ hsubmitters =>
      rw [hsubmitters] at hcall
      exact hs.calls call submitter hcall
  | called id hid _ _ hsubmitters =>
      rw [hsubmitters] at hcall
      by_cases hnew : call = s.calls
      · rw [hnew, Function.update_self] at hcall
        cases hcall
        exact ⟨rfl, fun value hvalue => (hid value hvalue).trans hnew.symm⟩
      · rw [Function.update_of_ne hnew] at hcall
        exact hs.calls call submitter hcall
  | moved moving old pc hold _ _ _ hsubmitters | added moving old hold _ _ _ hsubmitters =>
      rw [hsubmitters] at hcall
      by_cases hmoves : call = moving
      · rw [hmoves, Function.update_self] at hcall
        cases hcall
        rw [hmoves]
        exact hs.calls moving old hold
      · rw [Function.update_of_ne hmoves] at hcall
        exact hs.calls call submitter hcall

theorem ownIds_step {s s' : PoolSystem} {a : PoolAction} (hs : OwnIds s)
    (h : s.step a = .ok s') : OwnIds s' := by
  obtain ⟨t, w, p, w', -, hmove, rfl⟩ | hother := PoolSystem.step_ok h
  · refine ⟨hs.calls, ?_⟩
    intro id completion hmap
    change p.submissionMap id = some completion at hmap
    rw [hmove.frame.submissionMap] at hmap
    exact hs.submissionMap id completion hmap
  · refine ⟨ownIds_calls hs (otherStep_callStep hother), ?_⟩
    intro id completion hmap
    obtain hsame | ⟨call, submitter, own, registered, hcall, hown, hregistered, hupdate⟩ :=
      hother.frame.submissionMap
    · rw [hsame] at hmap
      exact hs.submissionMap id completion hmap
    · rw [hupdate] at hmap
      by_cases hid : id = own
      · rw [hid, Function.update_self] at hmap
        have hsame := (hs.calls call submitter hcall).1
        rw [hregistered, hown, hmap] at hsame
        rw [hid]
        exact Option.some.inj hsame
      · rw [Function.update_of_ne hid] at hmap
        exact hs.submissionMap id completion hmap

/-- What carries the order through every step. -/
structure Invariant (s : QueueSystem) : Prop extends ServedInOrder s where
  numbered : s.system.Numbered
  ids : OwnIds s.system
  unanswered : ∀ t w, s.system.workers t = some w → w.pc.holdsSnippet = true →
    ∀ id ∈ w.snippetToRun.submissionId, id ∉ s.system.pool.delivered.map Delivery.completion

/-- The id of a snippet that was added is the number of the call that added it. -/
theorem Invariant.added_id (hs : Invariant s) {call : Nat} {snippet : SnippetInfo}
    (hadded : (call, snippet) ∈ s.added) {id : SubmissionId}
    (hid : snippet.submissionId = some id) : id = call := by
  obtain ⟨submitter, hsubmitter, -, rfl⟩ := (hs.added_iff call snippet).mp hadded
  exact (hs.ids.calls call submitter hsubmitter).2 id hid

/-- No two of the snippets that were taken or are waiting are of one submission. -/
theorem Invariant.apart (hs : Invariant s) :
    (s.taken.map Prod.snd ++ s.system.pool.snippetsQueue).Pairwise Apart := by
  rw [← hs.order, List.pairwise_map]
  have hcalls : s.added.Pairwise (fun entry other => entry.1 ≠ other.1) :=
    List.pairwise_map.mp hs.addedOnce
  refine hcalls.imp_of_mem ?_
  rintro ⟨call, snippet⟩ ⟨other, snippet'⟩ hentry hother hne hsame
  cases hid : snippet.submissionId with
  | none => rfl
  | some id =>
      have hcall := hs.added_id hentry hid
      have hother' := hs.added_id hother (hsame.symm.trans hid)
      exact absurd (hcall.symm.trans hother') hne

/-- A submission is taken by one worker. -/
theorem Invariant.taken_unique (hs : Invariant s) {t u : ThreadId} {snippet snippet' : SnippetInfo}
    (ht : (t, snippet) ∈ s.taken) (hu : (u, snippet') ∈ s.taken) {id : SubmissionId}
    (hid : snippet.submissionId = some id) (hid' : snippet'.submissionId = some id) : t = u := by
  have hapart : s.taken.Pairwise (fun entry other => Apart entry.2 other.2) :=
    List.pairwise_map.mp (List.pairwise_append.mp hs.apart).1
  by_contra hne
  have hentries : (t, snippet) ≠ (u, snippet') := by
    intro heq
    exact hne (congrArg Prod.fst heq)
  have hsymm : Std.Symm (fun entry other : ThreadId × SnippetInfo => Apart entry.2 other.2) :=
    ⟨fun _ _ h => h.symm⟩
  have hnone := hapart.forall ht hu hentries (hid.trans hid'.symm)
  rw [hid] at hnone
  cases hnone

/-- A step of a worker leaves what the calls have added. -/
theorem addedBy_worker {s : PoolSystem} {a : PoolAction} {t : ThreadId} {p p' : DomainPool}
    {w w' : Worker} (h : Worker.Moves t a p p' w w') : addedBy s a = [] := by
  obtain ⟨input, rfl, -⟩ | ⟨rfl, -⟩ | ⟨rfl, -⟩ := h
  all_goals rfl

theorem takenBy_take {s : PoolSystem} {t : ThreadId} {w : Worker} {snippet : SnippetInfo}
    {rest : List SnippetInfo} (hw : s.workers t = some w) (hpc : w.pc = .take)
    (hqueue : s.pool.snippetsQueue = snippet :: rest) :
    takenBy s (.worker t .next) = [(t, snippet)] := by
  simp [takenBy, hw, hqueue, hpc]

theorem takenBy_other {s : PoolSystem} {a : PoolAction} {t : ThreadId} {p' : DomainPool}
    {w w' : Worker} (hw : s.workers t = some w) (hmove : Worker.Moves t a s.pool p' w w')
    (htake : a = .worker t .next → w.pc = .take → s.pool.snippetsQueue = []) :
    takenBy s a = [] := by
  obtain ⟨input, rfl, -⟩ | ⟨rfl, -⟩ | ⟨rfl, -⟩ := hmove
  · cases input with
    | next =>
        by_cases hpc : w.pc = .take
        · simp [takenBy, hw, htake rfl hpc]
        · cases hqueue : s.pool.snippetsQueue <;> simp [takenBy, hw, hqueue, hpc]
    | _ => rfl
  all_goals rfl

/-- A submission whose snippet is still waiting has no result. -/
theorem Invariant.waiting_unanswered (hs : Invariant s) {snippet : SnippetInfo}
    (hwaiting : snippet ∈ s.system.pool.snippetsQueue) {id : SubmissionId}
    (hid : snippet.submissionId = some id) :
    id ∉ s.system.pool.delivered.map Delivery.completion := by
  intro hmem
  obtain ⟨delivery, hdelivery, rfl⟩ := List.mem_map.mp hmem
  obtain ⟨-, t, ht⟩ := hs.answered delivery hdelivery
  have hapart := (List.pairwise_append.mp hs.apart).2.2
  cases hapart _ (List.mem_map_of_mem ht) snippet hwaiting hid.symm

/-- The call whose snippet a worker has taken. -/
theorem Invariant.taken_added (hs : Invariant s) {t : ThreadId} {snippet : SnippetInfo}
    (ht : (t, snippet) ∈ s.taken) {id : SubmissionId} (hid : snippet.submissionId = some id) :
    (id, snippet) ∈ s.added := by
  have hmem : snippet ∈ s.added.map Prod.snd := by
    rw [hs.order]
    exact List.mem_append_left _ (List.mem_map_of_mem ht)
  obtain ⟨⟨call, added⟩, hadded, rfl⟩ := List.mem_map.mp hmem
  rw [hs.added_id hadded hid]
  exact hadded

/-- What the step of a worker leaves to show: the calls are where they were, so the same
snippets have been added. -/
theorem Invariant.of_worker (hs : Invariant s) {t : ThreadId} {p : DomainPool} {w' : Worker}
    {taken : List (ThreadId × SnippetInfo)}
    (hnumbered : ({ s.system with pool := p }.setWorker t w').Numbered)
    (hids : OwnIds ({ s.system with pool := p }.setWorker t w'))
    (htaken : ∀ entry ∈ s.taken, entry ∈ taken)
    (horder : taken.map Prod.snd ++ p.snippetsQueue =
      s.taken.map Prod.snd ++ s.system.pool.snippetsQueue)
    (hanswered : ∀ delivery ∈ p.delivered,
      (delivery.completion, ⟨some delivery.completion⟩) ∈ s.added ∧
        ∃ u, (u, ⟨some delivery.completion⟩) ∈ taken)
    (honce : (p.delivered.map Delivery.completion).Nodup)
    (hself : w'.pc.holdsSnippet = true → (t, w'.snippetToRun) ∈ taken ∧
      ∀ id ∈ w'.snippetToRun.submissionId, id ∉ p.delivered.map Delivery.completion)
    (hothers : ∀ u v, u ≠ t → s.system.workers u = some v → v.pc.holdsSnippet = true →
      ∀ id ∈ v.snippetToRun.submissionId, id ∉ p.delivered.map Delivery.completion) :
    Invariant ⟨{ s.system with pool := p }.setWorker t w', s.added, taken⟩ := by
  refine ⟨⟨hs.order.trans horder.symm, hs.added_iff, hs.addedOnce, ?_, hanswered, honce⟩,
    hnumbered, hids, ?_⟩
  · intro u v hv hholds
    obtain ⟨rfl, rfl⟩ | ⟨-, hv⟩ := PoolSystem.workers_setWorker hv
    · exact (hself hholds).1
    · exact htaken _ (hs.held u v hv hholds)
  · intro u v hv hholds
    obtain ⟨rfl, rfl⟩ | ⟨hne, hv⟩ := PoolSystem.workers_setWorker hv
    · exact (hself hholds).2
    · exact hothers u v hne hv hholds

theorem invariant_worker (hs : Invariant s) {t : ThreadId} {p : DomainPool} {w w' : Worker}
    (hw : s.system.workers t = some w) (hmove : Worker.Moves t a s.system.pool p w w')
    (hnumbered : ({ s.system with pool := p }.setWorker t w').Numbered)
    (hids : OwnIds ({ s.system with pool := p }.setWorker t w')) :
    Invariant ⟨{ s.system with pool := p }.setWorker t w', s.added,
      s.taken ++ takenBy s.system a⟩ := by
  cases moves_workerStep hmove with
  | take snippet ha hpc hqueue hdelivered hsnippet =>
      rw [ha, takenBy_take hw hpc hqueue]
      apply hs.of_worker hnumbered hids
      · exact fun entry hentry => List.mem_append_left _ hentry
      · simp [hqueue]
      · intro delivery hdelivery
        rw [hdelivered] at hdelivery
        obtain ⟨hadded, u, hu⟩ := hs.answered delivery hdelivery
        exact ⟨hadded, u, List.mem_append_left _ hu⟩
      · rw [hdelivered]
        exact hs.answeredOnce
      · intro _
        rw [hsnippet, hdelivered]
        refine ⟨List.mem_append_right _ (List.mem_singleton_self _), ?_⟩
        intro id hid
        exact hs.waiting_unanswered (by rw [hqueue]; exact List.mem_cons_self) hid
      · intro u v _ hv hholds
        rw [hdelivered]
        exact hs.unanswered u v hv hholds
  | deliver id delivery htake hholds hid hmap hqueue hdelivered hdone =>
      rw [takenBy_other hw hmove htake, List.append_nil]
      have hcompletion : delivery.completion = id := hs.ids.submissionMap id _ hmap
      have htaken : (t, w.snippetToRun) ∈ s.taken := hs.held t w hw hholds
      have hadded : (id, w.snippetToRun) ∈ s.added := hs.taken_added htaken hid
      have hsnippet : w.snippetToRun = ⟨some id⟩ := by rw [← hid]
      have hnew := hs.unanswered t w hw hholds id hid
      have hcompletions : p.delivered.map Delivery.completion =
          s.system.pool.delivered.map Delivery.completion ++ [id] := by
        rw [hdelivered, List.map_append, List.map_singleton, hcompletion]
      apply hs.of_worker hnumbered hids
      · exact fun entry hentry => hentry
      · rw [hqueue]
      · intro answer hanswer
        rw [hdelivered, List.mem_append, List.mem_singleton] at hanswer
        obtain hanswer | rfl := hanswer
        · exact hs.answered answer hanswer
        · rw [hcompletion, ← hsnippet]
          exact ⟨hadded, t, htaken⟩
      · rw [hcompletions, ← List.concat_eq_append]
        exact hs.answeredOnce.concat hnew
      · intro hholds'
        rw [hdone] at hholds'
        cases hholds'
      · intro u v hne hv hholds' other hother hmem
        rw [hcompletions, List.mem_append, List.mem_singleton] at hmem
        obtain hmem | rfl := hmem
        · exact hs.unanswered u v hv hholds' other hother hmem
        · exact hne (hs.taken_unique (hs.held u v hv hholds') htaken hother hid)
  | other htake hqueue hdelivered hholds =>
      rw [takenBy_other hw hmove htake, List.append_nil]
      apply hs.of_worker hnumbered hids
      · exact fun entry hentry => hentry
      · rw [hqueue]
      · rw [hdelivered]
        exact hs.answered
      · rw [hdelivered]
        exact hs.answeredOnce
      · intro hholds'
        obtain ⟨hheld, hsame⟩ := hholds hholds'
        rw [hsame, hdelivered]
        exact ⟨hs.held t w hw hheld, hs.unanswered t w hw hheld⟩
      · intro u v _ hv hholds'
        rw [hdelivered]
        exact hs.unanswered u v hv hholds'

/-- A step that no worker takes gives no worker a snippet, and takes none from it. -/
theorem holder_of_frame {s s' : PoolSystem} {a : PoolAction} (h : PoolSystem.Frame s a s')
    {t : ThreadId} {w' : Worker} (hw' : s'.workers t = some w')
    (hholds : w'.pc.holdsSnippet = true) :
    ∃ w, s.workers t = some w ∧ w.pc.holdsSnippet = true ∧ w'.snippetToRun = w.snippetToRun := by
  obtain ⟨w, hw, hpassive⟩ | ⟨-, -, index, data, rfl⟩ := h.workers.origin t w' hw'
  · obtain ⟨hheld, hsnippet⟩ := hpassive.snippet
    exact ⟨w, hw, hheld ▸ hholds, hsnippet⟩
  · cases hholds

/-- A call that has not returned has added nothing. -/
theorem Invariant.not_added (hs : Invariant s) {call : Nat} {submitter : Submitter}
    (hsubmitter : s.system.submitters call = some submitter) (hpc : submitter.pc ≠ .returned) :
    ∀ snippet, (call, snippet) ∉ s.added := by
  intro snippet hadded
  obtain ⟨other, hother, hreturned, -⟩ := (hs.added_iff call snippet).mp hadded
  rw [hsubmitter] at hother
  cases hother
  exact hpc hreturned

theorem Invariant.new_not_added (hs : Invariant s) :
    ∀ snippet, (s.system.calls, snippet) ∉ s.added := by
  intro snippet hadded
  obtain ⟨submitter, hsubmitter, -⟩ := (hs.added_iff _ snippet).mp hadded
  exact absurd (hs.numbered.calls _ submitter hsubmitter) (lt_irrefl _)

/-- The entries are those of the calls that have returned, after a call that had added nothing
has taken a step. -/
theorem Invariant.added_iff_update (hs : Invariant s) {next : PoolSystem} {call : Nat}
    {submitter' : Submitter} {entries : List (Nat × SnippetInfo)}
    (hnot : ∀ snippet, (call, snippet) ∉ s.added)
    (hsubmitters : next.submitters =
      Function.update s.system.submitters call (some submitter'))
    (hentries : ∀ k snippet, (k, snippet) ∈ entries ↔
      k = call ∧ submitter'.pc = .returned ∧ submitter'.snippetInfo = snippet) :
    ∀ k snippet, (k, snippet) ∈ s.added ++ entries ↔ ∃ found,
      next.submitters k = some found ∧ found.pc = .returned ∧ found.snippetInfo = snippet := by
  intro k snippet
  rw [List.mem_append, hentries, hsubmitters]
  by_cases hk : k = call
  · subst hk
    rw [Function.update_self]
    constructor
    · rintro (hadded | ⟨-, hreturned, hsnippet⟩)
      · exact absurd hadded (hnot snippet)
      · exact ⟨submitter', rfl, hreturned, hsnippet⟩
    · rintro ⟨found, hfound, hreturned, hsnippet⟩
      cases hfound
      exact Or.inr ⟨rfl, hreturned, hsnippet⟩
  · rw [Function.update_of_ne hk, ← hs.added_iff]
    simp [hk]

/-- The calls and what they have added, after a step that no worker takes. -/
theorem invariant_added (hs : Invariant s) {next : PoolSystem}
    (h : CallStep s.system a next) :
    (∀ call snippet, (call, snippet) ∈ s.added ++ addedBy s.system a ↔ ∃ submitter,
      next.submitters call = some submitter ∧ submitter.pc = .returned ∧
        submitter.snippetInfo = snippet) ∧
    ((s.added ++ addedBy s.system a).map Prod.fst).Nodup ∧
    next.pool.snippetsQueue =
      s.system.pool.snippetsQueue ++ (addedBy s.system a).map Prod.snd := by
  cases h with
  | none hadded hqueue hsubmitters =>
      rw [hadded, hsubmitters, hqueue]
      simpa using ⟨hs.added_iff, hs.addedOnce⟩
  | called id hid hadded hqueue hsubmitters =>
      rw [hadded]
      refine ⟨hs.added_iff_update hs.new_not_added hsubmitters ?_, ?_, ?_⟩
      · simp
      · rw [List.append_nil]
        exact hs.addedOnce
      · rw [hqueue, List.map_nil, List.append_nil]
  | moved call submitter pc hsubmitter hpc hadded hqueue hsubmitters =>
      rw [hadded]
      have hnot := hs.not_added hsubmitter hpc.1
      refine ⟨hs.added_iff_update hnot hsubmitters ?_, ?_, ?_⟩
      · simp [hpc.2]
      · rw [List.append_nil]
        exact hs.addedOnce
      · rw [hqueue, List.map_nil, List.append_nil]
  | added call submitter hsubmitter hpc hadded hqueue hsubmitters =>
      rw [hadded]
      have hnot := hs.not_added hsubmitter hpc
      refine ⟨hs.added_iff_update hnot hsubmitters ?_, ?_, hqueue⟩
      · intro k snippet
        simp [eq_comm]
      · have hnew : call ∉ s.added.map Prod.fst := by
          intro hmem
          obtain ⟨⟨k, snippet⟩, hadded', rfl⟩ := List.mem_map.mp hmem
          exact hnot snippet hadded'
        rw [List.map_append, List.map_singleton, ← List.concat_eq_append]
        exact hs.addedOnce.concat hnew

theorem invariant_other (hs : Invariant s) {next : PoolSystem}
    (h : PoolSystem.OtherStep s.system a next) (hnumbered : next.Numbered)
    (hids : OwnIds next) :
    Invariant ⟨next, s.added ++ addedBy s.system a, s.taken ++ takenBy s.system a⟩ := by
  obtain ⟨hadded_iff, honce, hqueue⟩ := invariant_added hs (otherStep_callStep h)
  have hdelivered := h.frame.delivered
  rw [otherStep_takenBy h, List.append_nil]
  refine ⟨⟨?_, hadded_iff, honce, ?_, ?_, ?_⟩, hnumbered, hids, ?_⟩
  · rw [hqueue, List.map_append, hs.order, List.append_assoc]
  · intro t w' hw' hholds
    obtain ⟨w, hw, hheld, hsnippet⟩ := holder_of_frame h.frame hw' hholds
    rw [hsnippet]
    exact hs.held t w hw hheld
  · intro delivery hdelivery
    rw [hdelivered] at hdelivery
    obtain ⟨hadded, htaken⟩ := hs.answered delivery hdelivery
    exact ⟨List.mem_append_left _ hadded, htaken⟩
  · rw [hdelivered]
    exact hs.answeredOnce
  · intro t w' hw' hholds
    obtain ⟨w, hw, hheld, hsnippet⟩ := holder_of_frame h.frame hw' hholds
    rw [hsnippet, hdelivered]
    exact hs.unanswered t w hw hheld

theorem invariant_step (hs : Invariant s) (h : s.step a = .ok next) : Invariant next := by
  obtain ⟨hstep, hadded, htaken⟩ := step_eq_ok h
  have hnumbered := PoolSystem.numbered_step hs.numbered hstep
  have hids := ownIds_step hs.ids hstep
  obtain ⟨system, added, taken⟩ := next
  subst hadded htaken
  obtain ⟨t, w, p, w', hw, hmove, rfl⟩ | hother := PoolSystem.step_ok hstep
  · rw [addedBy_worker hmove, List.append_nil]
    exact invariant_worker hs hw hmove hnumbered hids
  · exact invariant_other hs hother hnumbered hids

theorem invariant_initial (numberOfDomainsInPool : Nat) :
    Invariant (initial numberOfDomainsInPool) := by
  have hnobody : ∀ t w, (initial numberOfDomainsInPool).system.workers t = some w →
      w.pc.holdsSnippet = false := by
    intro t w hw
    obtain ⟨-, rfl⟩ := PoolSystem.initial_workers hw
    rfl
  refine ⟨⟨rfl, ?_, List.nodup_nil, ?_, ?_, List.nodup_nil⟩,
    PoolSystem.numbered_initial numberOfDomainsInPool, ⟨?_, ?_⟩, ?_⟩
  · intro call snippet
    simp [initial, PoolSystem.initial]
  · intro t w hw hholds
    rw [hnobody t w hw] at hholds
    cases hholds
  · intro delivery hdelivery
    cases hdelivery
  · intro call submitter hcall
    cases hcall
  · intro id completion hmap
    cases hmap
  · intro t w hw hholds
    rw [hnobody t w hw] at hholds
    cases hholds

/-- Whatever the threads of the pool do and whatever is thrown at them, snippets are taken in
the order in which the calls of `SubmitSnippet` added them, each by one worker, and each call
gets at most one result: its own. -/
theorem snippets_in_order (numberOfDomainsInPool : Nat) (actions : List PoolAction) :
    Always step ServedInOrder (initial numberOfDomainsInPool) actions := by
  have hinvariant : Always step Invariant (initial numberOfDomainsInPool) actions :=
    always_of_step (fun _ _ _ hs h => invariant_step hs h)
      (invariant_initial numberOfDomainsInPool) actions
  exact hinvariant.imp (fun _ hs => hs.toServedInOrder)

end QueueSystem

end HostedPumpkin
