import HostedPumpkin.Pool.Steps

/-!
Results. A worker that takes a snippet owes its client one result, and
`TrySetResult` is reached only when nothing is thrown between `Take` and it
except inside the inner try block. An exception or an abort anywhere else in
between ends in the outer catch block, which recycles the domain and forgets the
snippet.
-/

namespace HostedPumpkin

open Runs

/-- A snippet was taken and its result is not set yet. -/
def WorkerPc.holdsSnippet : WorkerPc → Bool
  | .taken | .incrementUsages | .recordStart | .writeStart | .running | .readEnd
  | .clearStart | .catchAbort _ | .catchException _ | .getThreadCount | .getMemoryUsage
  | .decide | .deliver => true
  | _ => false

namespace Worker

/-- A client waits for what this worker does next. -/
def AwaitsResult (w : Worker) : Prop := w.pc.holdsSnippet = true ∧ w.due ≠ none

instance (w : Worker) : Decidable w.AwaitsResult :=
  inferInstanceAs (Decidable (w.pc.holdsSnippet = true ∧ w.due ≠ none))

/-- While a worker holds a snippet no result is set, and the map still says which
completion the snippet has. Otherwise the one result due is the one set. -/
structure Delivers (p : DomainPool) (w : Worker) : Prop where
  pending : w.pc.holdsSnippet = true → w.resultsSet = [] ∧
    ∀ completion, w.due = some completion →
      completionOf p w.snippetToRun = some completion
  done : w.pc.holdsSnippet = false → ∀ completion, w.due = some completion →
    w.resultsSet = [completion]

variable {p p' : DomainPool} {w w' : Worker}

/-- A step that neither takes a snippet nor lets go of one. -/
theorem Delivers.of_same (h : Delivers p w) (hmap : p'.submissionMap = p.submissionMap)
    (hholds : w'.pc.holdsSnippet = w.pc.holdsSnippet)
    (hsnippet : w'.snippetToRun = w.snippetToRun ∧ w'.due = w.due ∧
      w'.resultsSet = w.resultsSet) : Delivers p' w' := by
  obtain ⟨hrun, hdue, hset⟩ := hsnippet
  constructor
  · intro hpc
    rw [hset, hdue, completionOf, hrun, hmap]
    exact h.pending (hholds ▸ hpc)
  · intro hpc
    rw [hset, hdue]
    exact h.done (hholds ▸ hpc)

/-- A step that forgets the snippet, if nobody waits for it. -/
theorem Delivers.of_lost (h : Delivers p w) (hnobody : ¬ w.AwaitsResult)
    (hpc : w'.pc.holdsSnippet = false) (hdue : w'.due = w.due)
    (hset : w'.resultsSet = w.resultsSet) : Delivers p' w' := by
  constructor
  · intro hholds
    rw [hpc] at hholds
    cases hholds
  · intro _ completion hcompletion
    rw [hdue] at hcompletion
    rw [hset]
    apply h.done _ completion hcompletion
    by_contra hholds
    apply hnobody
    exact ⟨Bool.eq_true_of_not_eq_false hholds, by simp [hcompletion]⟩

/-- The statements other than `Take` and the one with `TrySetResult` keep what
the worker holds. -/
theorem next_keepsSnippet (h : w.next p = .ok (p', w')) (htake : w.pc ≠ .take)
    (hdeliver : w.pc ≠ .deliver) :
    w'.pc.holdsSnippet = w.pc.holdsSnippet ∧ w'.snippetToRun = w.snippetToRun ∧
      w'.due = w.due ∧ w'.resultsSet = w.resultsSet := by
  cases hpc : w.pc with
  | take => exact absurd hpc htake
  | deliver => exact absurd hpc hdeliver
  | recycle caller stage =>
      simp only [next, hpc] at h
      obtain ⟨-, _, _, _, rfl, ⟨stage', rfl⟩ | rfl⟩ := recycleStep_ok h
      · exact ⟨rfl, rfl, rfl, rfl⟩
      · cases caller <;> exact ⟨rfl, rfl, rfl, rfl⟩
  | unstarted | createSandbox | running | ended =>
      simp only [next, hpc] at h
      cases h
  | loopHead | catchException message | decide | recycleCheck =>
      simp only [next, hpc] at h
      repeat' split at h
      all_goals cases h
      all_goals exact ⟨rfl, rfl, rfl, rfl⟩
  | _ =>
      simp only [next, hpc] at h
      cases h
      exact ⟨rfl, rfl, rfl, rfl⟩

theorem next_delivers (hw : Delivers p w) (h : w.next p = .ok (p', w')) :
    Delivers p' w' := by
  by_cases htake : w.pc = .take
  · simp only [next, htake] at h
    split at h
    next snippet rest hqueue =>
      cases h
      exact ⟨fun _ => ⟨rfl, fun _ hdue => hdue⟩, fun hholds => by cases hholds⟩
    next =>
      split at h
      all_goals cases h
      refine hw.of_same rfl ?_ ⟨rfl, rfl, rfl⟩
      rw [htake]
      rfl
  · by_cases hdeliver : w.pc = .deliver
    · have hholds : w.pc.holdsSnippet = true := by
        rw [hdeliver]
        rfl
      obtain ⟨hset, hcompletion⟩ := hw.pending hholds
      refine ⟨?_, ?_⟩
      · intro hholds'
        exfalso
        simp only [next, hdeliver] at h
        repeat' split at h
        all_goals cases h
        all_goals cases hholds'
      · intro _ completion hdue
        simp only [next, hdeliver] at h
        cases hid : w.snippetToRun.submissionId with
        | none =>
            simp only [hid] at h
            cases h
            simp [completionOf, hid] at hcompletion
            exact absurd hdue (hcompletion completion)
        | some id =>
            simp only [hid] at h
            split at h
            next hnone =>
              cases h
              simp [completionOf, hid, hnone] at hcompletion
              exact absurd hdue (hcompletion completion)
            next registered hregistered =>
              cases h
              have heq := hcompletion completion hdue
              simp only [completionOf, hid, Option.bind_some, hregistered] at heq
              cases heq
              simp [hset]
    · obtain ⟨hholds, hsnippet⟩ := next_keepsSnippet h htake hdeliver
      exact hw.of_same (next_frame h).submissionMap hholds hsnippet

/-- An exception or an abort of a worker is caught where the result is still
recorded, or finds nobody waiting. -/
def CaughtInTime (w : Worker) : Prop := w.AwaitsResult → w.pc.region = .innerTry

instance (w : Worker) : Decidable w.CaughtInTime :=
  inferInstanceAs (Decidable (w.AwaitsResult → w.pc.region = .innerTry))

theorem holdsSnippet_of_innerTry {pc : WorkerPc} (h : pc.region = .innerTry) :
    pc.holdsSnippet = true := by
  obtain rfl | rfl | rfl | rfl | rfl | rfl := WorkerPc.innerTry_cases h <;> rfl

/-- Whatever is thrown at a worker is caught outside the inner try block only
when nobody waits. -/
theorem enterOuterCatch_delivers (hw : Delivers p w) (hcaught : w.CaughtInTime)
    (hregion : w.pc.region ≠ .innerTry) : Delivers p w.enterOuterCatch := by
  refine hw.of_lost ?_ rfl rfl rfl
  intro hawaits
  exact hregion (hcaught hawaits)

theorem leaveTry_delivers (hw : Delivers p w) (hregion : w.pc.region = .innerTry)
    {pc : WorkerPc} (hpc : pc.holdsSnippet = true) :
    Delivers (w.leaveTry p pc).1 (w.leaveTry p pc).2 := by
  refine hw.of_same rfl ?_ ⟨rfl, rfl, rfl⟩
  rw [holdsSnippet_of_innerTry hregion]
  exact hpc

theorem step_delivers {input : WorkerInput} (hw : Delivers p w)
    (hcaught : (∃ message, input = .throws message ∨ input = .aborted message) →
      w.CaughtInTime) (h : w.step p input = .ok (p', w')) : Delivers p' w' := by
  cases input with
  | next => exact next_delivers hw h
  | sandbox appDomain | finished outcome =>
      simp only [step] at h
      split at h
      all_goals cases h
      next hpc =>
        refine hw.of_same rfl ?_ ⟨rfl, rfl, rfl⟩
        simp [hpc, WorkerPc.holdsSnippet]
  | throws message | aborted message =>
      have hcaught := hcaught ⟨message, by simp⟩
      cases step_thrown ⟨message, by simp⟩ h with
      | inner pc hregion hpc =>
          obtain ⟨message, rfl | rfl⟩ := hpc
          all_goals exact leaveTry_delivers hw hregion rfl
      | outer hregion =>
          refine enterOuterCatch_delivers hw hcaught ?_
          intro hinner
          simp [hinner] at hregion
      | dies hregion =>
          refine hw.of_lost ?_ rfl rfl rfl
          intro hawaits
          rw [hcaught hawaits] at hregion
          cases hregion

end Worker

namespace PoolSystem

/-- No exception and no abort is raised in a worker that holds a snippet somebody
waits for, except inside the inner try block; nor does that worker die rudely. -/
def CaughtInTime (s : PoolSystem) : PoolAction → Prop
  | .worker thread (.throws _) | .worker thread (.aborted _) =>
      ∀ w ∈ s.workers thread, w.CaughtInTime
  | .rudeAbort thread => ∀ w ∈ s.workers thread, ¬ w.AwaitsResult
  | _ => True

instance (s : PoolSystem) : (a : PoolAction) → Decidable (s.CaughtInTime a)
  | .worker thread (.throws _) | .worker thread (.aborted _) =>
      inferInstanceAs (Decidable (∀ w ∈ s.workers thread, w.CaughtInTime))
  | .rudeAbort thread =>
      inferInstanceAs (Decidable (∀ w ∈ s.workers thread, ¬ w.AwaitsResult))
  | .worker _ .next | .worker _ (.sandbox _) | .worker _ (.finished _) | .watchdog _
  | .submit _ | .submitter _ | .foreignAbort _ | .settle _ | .host _ | .tick _ =>
      isTrue trivial

/-- A worker about to take the next snippet, or out of its thread function, has
set the result of the last one exactly once. -/
def ResultsSetOnce (s : PoolSystem) : Prop :=
  ∀ t w, s.workers t = some w → w.pc = .take ∨ w.pc = .ended →
    ∀ completion, w.due = some completion → w.resultsSet = [completion]

/-- The id of a snippet stands for one completion for ever, and every worker
keeps its account. -/
structure DeliveryInvariant (s : PoolSystem) : Prop where
  registered : ∀ id completion, s.pool.submissionMap id = some completion →
    completion = id
  submitters : ∀ call submitter, s.submitters call = some submitter →
    submitter.completion = submitter.snippetInfo.submissionId
  workers : ∀ t w, s.workers t = some w → Worker.Delivers s.pool w

theorem Frame.registered {s s' : PoolSystem} {a : PoolAction} (h : Frame s a s')
    (hs : DeliveryInvariant s) (id : SubmissionId) (completion : Completion)
    (hid : s'.pool.submissionMap id = some completion) : completion = id := by
  obtain hmap | ⟨call, submitter, id', completion', hcall, hid', hcompletion', hmap⟩ :=
    h.submissionMap
  · rw [hmap] at hid
    exact hs.registered id completion hid
  · have heq := hs.submitters call submitter hcall
    rw [hid', hcompletion'] at heq
    rw [hmap] at hid
    by_cases hsame : id = id'
    · subst hsame
      rw [Function.update_self] at hid
      cases hid
      cases heq
      rfl
    · rw [Function.update_of_ne hsame] at hid
      exact hs.registered id completion hid

/-- What is registered stays registered. -/
theorem Frame.completionOf {s s' : PoolSystem} {a : PoolAction} (h : Frame s a s')
    (hs : DeliveryInvariant s) {snippet : SnippetInfo} {completion : Completion}
    (hcompletion : Worker.completionOf s.pool snippet = some completion) :
    Worker.completionOf s'.pool snippet = some completion := by
  unfold Worker.completionOf at hcompletion ⊢
  cases hid : snippet.submissionId with
  | none => simp [hid] at hcompletion
  | some id =>
      simp only [hid, Option.bind_some] at hcompletion ⊢
      obtain hmap | ⟨call, submitter, id', completion', hcall, hid', hcompletion', hmap⟩ :=
        h.submissionMap
      · rw [hmap]
        exact hcompletion
      · by_cases hsame : id = id'
        · have heq := hs.submitters call submitter hcall
          rw [hid', hcompletion'] at heq
          rw [hmap, hsame, Function.update_self, heq, ← hsame,
            hs.registered id completion hcompletion]
        · rw [hmap, Function.update_of_ne hsame]
          exact hcompletion

theorem delivers_passive {p p' : DomainPool} {w w' : Worker} {timeout : Prop}
    (hw : Worker.Delivers p w) (hpassive : Worker.Passive timeout w w')
    (hmap : ∀ completion, Worker.completionOf p w.snippetToRun = some completion →
      Worker.completionOf p' w.snippetToRun = some completion) :
    Worker.Delivers p' w' := by
  have hkept : Worker.Delivers p' w := by
    refine ⟨?_, hw.done⟩
    intro hholds
    obtain ⟨hset, hdue⟩ := hw.pending hholds
    exact ⟨hset, fun completion h => hmap completion (hdue completion h)⟩
  obtain ⟨request, rfl⟩ | ⟨hpc, rfl⟩ := hpassive.eq_cases
  · exact hkept.of_same rfl rfl ⟨rfl, rfl, rfl⟩
  · refine hkept.of_same rfl ?_ ⟨rfl, rfl, rfl⟩
    rw [hpc]
    rfl

theorem moves_delivers {s : PoolSystem} {a : PoolAction} {t : ThreadId} {p : DomainPool}
    {w w' : Worker} (hcond : s.CaughtInTime a) (hw : s.workers t = some w)
    (hmove : Worker.Moves t a s.pool p w w') (hdelivers : Worker.Delivers s.pool w) :
    Worker.Delivers p w' := by
  obtain ⟨input, rfl, h⟩ | ⟨rfl, h⟩ | ⟨rfl, h⟩ := hmove
  · refine Worker.step_delivers hdelivers ?_ h
    rintro ⟨message, rfl | rfl⟩
    · exact hcond w hw
    · exact hcond w hw
  · obtain ⟨-, rfl, rfl⟩ := Worker.dieRudely_ok h
    exact hdelivers.of_lost (hcond w hw) rfl rfl rfl
  · obtain ⟨-, rfl, rfl⟩ := Worker.settle_ok h
    exact hdelivers.of_same rfl rfl ⟨rfl, rfl, rfl⟩

theorem deliveryInvariant_step {s s' : PoolSystem} {a : PoolAction}
    (hs : DeliveryInvariant s) (hcond : s.CaughtInTime a) (h : s.step a = .ok s') :
    DeliveryInvariant s' := by
  refine ⟨?_, ?_, workers_step (P := fun p _ w => Worker.Delivers p w) h hs.workers ?_ ?_ ?_ ?_⟩
  · obtain ⟨t, w, p, w', -, hmove, rfl⟩ | hframe := step_cases h
    · intro id completion hid
      have hmap : p.submissionMap = s.pool.submissionMap := hmove.frame.submissionMap
      apply hs.registered
      rw [← hmap]
      exact hid
    · exact hframe.registered hs
  · obtain ⟨t, w, p, w', -, -, rfl⟩ | hframe := step_cases h
    · exact hs.submitters
    · intro call submitter' hcall
      obtain ⟨submitter, hsubmitter, hinfo, hcompletion⟩ | ⟨-, hfresh⟩ :=
        hframe.submitters call submitter' hcall
      · rw [hinfo, hcompletion]
        exact hs.submitters call submitter hsubmitter
      · exact hfresh
  · intro t w p w' hw hmove hdelivers
    exact moves_delivers hcond hw hmove hdelivers
  · intro t w u v p v' _ _ _ hmove hdelivers
    exact hdelivers.of_same hmove.frame.submissionMap rfl ⟨rfl, rfl, rfl⟩
  · intro hframe t w w' _ hpassive hdelivers
    exact delivers_passive hdelivers hpassive
      (fun _ hcompletion => hframe.completionOf hs hcompletion)
  · intro _ index data
    exact ⟨(fun hholds => by cases hholds), fun _ _ hdue => by cases hdue⟩

theorem deliveryInvariant_initial (numberOfDomainsInPool : Nat) :
    DeliveryInvariant (initial numberOfDomainsInPool) := by
  refine ⟨(fun _ _ h => by cases h), (fun _ _ h => by cases h), ?_⟩
  intro t w hw
  obtain ⟨-, rfl⟩ := initial_workers hw
  exact ⟨(fun hholds => by cases hholds), fun _ _ hdue => by cases hdue⟩

theorem DeliveryInvariant.resultsSetOnce {s : PoolSystem} (hs : DeliveryInvariant s) :
    s.ResultsSetOnce := by
  intro t w hw hpc
  apply (hs.workers t w hw).done
  obtain hpc | hpc := hpc
  · rw [hpc]
    rfl
  · rw [hpc]
    rfl

/-- In every run in which nothing is thrown at a worker that owes a result,
except inside the inner try block, every result owed is set exactly once. -/
theorem results_set_once (numberOfDomainsInPool : Nat) (actions : List PoolAction)
    (hcaught : Meets step CaughtInTime (initial numberOfDomainsInPool) actions) :
    Always step ResultsSetOnce (initial numberOfDomainsInPool) actions := by
  have hinvariant : Always step DeliveryInvariant (initial numberOfDomainsInPool) actions :=
    always_of_meets (fun _ _ _ hs hcond h => deliveryInvariant_step hs hcond h)
      (deliveryInvariant_initial numberOfDomainsInPool) hcaught
  exact hinvariant.imp (fun _ => DeliveryInvariant.resultsSetOnce)

/-- A snippet that throws in its AppDomain: the worker is back at `Take` with the
result set. -/
theorem results_set_once_exception :
    let actions := firstWorkerReady ++ submitted 0 ++ goesOn 0 5 ++
      [.worker 0 (.throws "unhandled")] ++ goesOn 0 10
    Always step ResultsSetOnce (initial 1) actions ∧
      ∃ s w, run step (initial 1) actions = .ok s ∧ s.workers 0 = some w ∧
        w.pc = .take ∧ w.due = some 0 ∧ w.resultsSet = [0] :=
  ⟨results_set_once 1 _ (by decide), _, _, rfl, rfl, rfl, rfl, rfl⟩

/-- The abort of another thread arrives right after `Take`: the worker recycles
its domain and ends, and the client of the snippet waits for ever. -/
theorem abort_after_take_loses_result :
    ¬ Always step ResultsSetOnce (initial 1)
      (firstWorkerReady ++ submitted 0 ++ goesOn 0 1 ++
        [.foreignAbort 0, .worker 0 (.aborted "Thread was being aborted.")] ++
        goesOn 0 4) := by
  intro h
  have hended := h.last rfl 0 _ rfl (Or.inr rfl) 0 rfl
  cases hended

end PoolSystem

end HostedPumpkin
