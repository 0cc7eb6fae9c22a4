import HostedPumpkin.Host.ThreadMoves
import HostedPumpkin.Host.ThreadRelationship

/-!
What the build with `TRACK_THREAD_RELATIONSHIP` has in common with the build without it,
over whole runs: it answers and fails as the other one does, and although a release may
forget parents, a parent that is recorded is the right one.
-/

namespace HostedPumpkin

open Runs

/-- `OnThreadRelease` answers whether the thread is known. -/
theorem DomainData.onThreadRelease_answer {c next : DomainData} {thread : DWORD}
    {exit : Option MainThreadExit} {answer : Bool}
    (h : c.onThreadRelease thread = .ok (next, exit, answer)) :
    answer = (c.threadAppDomain.lookup thread).isSome := by
  simp only [onThreadRelease] at h
  split at h
  next hthread =>
    cases h
    rw [hthread]
    rfl
  next domain hthread =>
    rw [hthread]
    split at h
    next =>
      cases h
      rfl
    next =>
      split at h
      next =>
        split at h
        next => cases h
        next =>
          cases h
          rfl
      next =>
        cases h
        rfl

namespace TrackedContext

variable {s next : TrackedContext}

theorem toHostContext_step {op : HostOp} (h : s.step op = .ok next) :
    s.toHostContext.step op = .ok next.toHostContext := by
  rw [← step_toHostContext, h]
  rfl

/-- Acquiring a thread records its parent, unless one is recorded. -/
theorem onThreadAcquire_relation {parent thread : DWORD}
    (h : s.step (.onThreadAcquire parent thread) = .ok next) :
    (s.threadAppDomain.lookup parent = none ∧ next = s) ∨
      ∃ domain, s.threadAppDomain.lookup parent = some domain ∧
        next.threadAppDomain = s.threadAppDomain.insertNew thread domain ∧
        next.childThreadToParent = s.childThreadToParent.insertNew thread parent := by
  obtain ⟨answer, hcall⟩ := HostContext.map_fst_ok h
  simp only [onThreadAcquire] at hcall
  split at hcall
  next c hacquire =>
    cases hcall
    obtain ⟨-, -, hfalse⟩ | ⟨domain, info, hparent, -, -, rfl⟩ :=
      DomainData.onThreadAcquire_ok hacquire
    · cases hfalse
    · exact Or.inr ⟨domain, hparent, rfl, rfl⟩
  next c hacquire =>
    cases hcall
    obtain ⟨hparent, rfl, -⟩ | ⟨domain, info, -, -, htrue, -⟩ :=
      DomainData.onThreadAcquire_ok hacquire
    · exact Or.inl ⟨hparent, rfl⟩
    · cases htrue
  next => cases hcall

/-- Releasing a thread takes it out of the relation, or it is not known. -/
theorem onThreadRelease_relation {thread : DWORD}
    (h : s.step (.onThreadRelease thread) = .ok next) :
    (s.threadAppDomain.lookup thread = none ∧ next = s) ∨
      next.childThreadToParent = Relationship.release s.childThreadToParent thread := by
  obtain ⟨⟨exit, answer⟩, hcall⟩ := HostContext.map_fst_ok h
  simp only [onThreadRelease] at hcall
  split at hcall
  next c exit hrelease =>
    cases hcall
    exact Or.inr rfl
  next c exit hrelease =>
    cases hcall
    have hanswer := DomainData.onThreadRelease_answer hrelease
    obtain ⟨hthread, rfl, -⟩ | ⟨domain, hthread, -⟩ := DomainData.onThreadRelease_ok hrelease
    · exact Or.inl ⟨hthread, rfl⟩
    · rw [hthread] at hanswer
      cases hanswer
  next => cases hcall

/-- The other calls leave the relation as it is. -/
theorem step_relation {op : HostOp} (h : s.step op = .ok next)
    (hacquire : ∀ parent thread, op ≠ .onThreadAcquire parent thread)
    (hrelease : ∀ thread, op ≠ .onThreadRelease thread) :
    next.childThreadToParent = s.childThreadToParent := by
  cases op with
  | onThreadAcquire parent thread => exact absurd rfl (hacquire parent thread)
  | onThreadRelease thread => exact absurd rfl (hrelease thread)
  | postHostMessage | rawGetLastMessage | onDomainUnload | onDomainRudeUnload | onDomainCreate
  | onThreadAcquiring | onMemoryAcquire | onMemoryRelease | rawResetCountersForAppDomain =>
      simp only [step] at h
      cases hcall : s.toHostContext.step _ with
      | error fault =>
          rw [hcall] at h
          cases h
      | ok c =>
          rw [hcall] at h
          cases h
          rfl

end TrackedContext

/-- A context with the threads that acquired each thread since it was last released. -/
structure CreationHistory where
  context : TrackedContext
  creators : DWORD → List DWORD

namespace CreationHistory

/-- An acquire counts when it returns true. -/
def creatorsAfter (s : CreationHistory) : HostOp → DWORD → List DWORD
  | .onThreadAcquire parent thread =>
      if s.context.threadAppDomain.lookup parent = none then s.creators
      else Function.update s.creators thread (parent :: s.creators thread)
  | .onThreadRelease thread => Function.update s.creators thread []
  | _ => s.creators

def step (s : CreationHistory) (op : HostOp) : Except HostFault CreationHistory :=
  (s.context.step op).map fun next => ⟨next, s.creatorsAfter op⟩

def initial : CreationHistory := ⟨TrackedContext.initial, fun _ => []⟩

/-- A parent that is recorded acquired the thread, which was not released since and has a
domain. -/
def Truthful (s : CreationHistory) : Prop :=
  ∀ child parent, s.context.childThreadToParent.lookup child = some parent →
    s.context.threadAppDomain.lookup child ≠ none ∧ parent ∈ s.creators child

variable {s next : CreationHistory} {op : HostOp}

theorem context_step (h : s.step op = .ok next) :
    s.context.step op = .ok next.context ∧ next.creators = s.creatorsAfter op := by
  rw [step] at h
  cases hcall : s.context.step op with
  | error fault =>
      rw [hcall] at h
      cases h
  | ok context =>
      rw [hcall] at h
      cases h
      exact ⟨rfl, rfl⟩

/-- Without the relation and the history a call is one of `HostContext`. -/
theorem toHostContext_step (s : CreationHistory) (op : HostOp) :
    (s.step op).map (fun s => s.context.toHostContext) = s.context.toHostContext.step op := by
  rw [← TrackedContext.step_toHostContext, step]
  cases s.context.step op <;> rfl

/-- A thread that is not released keeps having a domain. -/
theorem threadAppDomain_step (h : s.step op = .ok next) {thread : DWORD}
    (hrelease : op ≠ .onThreadRelease thread)
    (hthread : s.context.threadAppDomain.lookup thread ≠ none) :
    next.context.threadAppDomain.lookup thread ≠ none := by
  have hstep := TrackedContext.toHostContext_step (context_step h).1
  by_cases hmoves : HostContext.Moves thread op
  · cases op with
    | onDomainCreate domain moved manager uninitialised =>
        obtain ⟨c, hcall, hnext⟩ := HostContext.withDomainData_ok hstep
        have hthreads := DomainData.onDomainCreate_threads hcall
        have hdata : next.context.toDomainData = c := congrArg HostContext.toDomainData hnext
        rw [hdata, hthreads, StdMap.lookup_set]
        split
        · exact Option.some_ne_none domain
        · exact hthread
    | onThreadRelease released => exact absurd (congrArg HostOp.onThreadRelease hmoves) hrelease
    | postHostMessage | rawGetLastMessage | onDomainUnload | onDomainRudeUnload
    | onThreadAcquiring | onThreadAcquire | onMemoryAcquire | onMemoryRelease
    | rawResetCountersForAppDomain => exact absurd hmoves id
  · obtain ⟨domain, hdomain⟩ := Option.ne_none_iff_exists'.mp hthread
    have hkept := HostContext.step_threads hstep hdomain hmoves
    rw [hkept]
    exact Option.some_ne_none domain

theorem Truthful.acquire {creator thread : DWORD} (h : s.Truthful)
    (hstep : s.step (.onThreadAcquire creator thread) = .ok next) : next.Truthful := by
  obtain ⟨hcontext, hcreators⟩ := context_step hstep
  intro child parent hrecorded
  rcases TrackedContext.onThreadAcquire_relation hcontext with
    ⟨hunknown, hsame⟩ | ⟨domain, hknown, hthreads, hrelation⟩
  · rw [hsame] at hrecorded ⊢
    rw [hcreators, creatorsAfter, if_pos hunknown]
    exact h child parent hrecorded
  · have hparent : s.context.threadAppDomain.lookup creator ≠ none := by simp [hknown]
    rw [hcreators, creatorsAfter, if_neg hparent]
    rw [hrelation, StdMap.lookup_insertNew] at hrecorded
    split at hrecorded
    next hnew =>
      obtain ⟨rfl, -⟩ := hnew
      cases hrecorded
      constructor
      · rw [hthreads, StdMap.lookup_insertNew]
        split
        · exact Option.some_ne_none domain
        next hold => exact fun hnone => hold ⟨rfl, hnone⟩
      · rw [Function.update_self]
        exact List.mem_cons_self
    next =>
      obtain ⟨hlive, hcreator⟩ := h child parent hrecorded
      refine ⟨threadAppDomain_step hstep (by simp) hlive, ?_⟩
      by_cases hchild : child = thread
      · subst hchild
        rw [Function.update_self]
        exact List.mem_cons_of_mem creator hcreator
      · rw [Function.update_of_ne hchild]
        exact hcreator

theorem Truthful.release {thread : DWORD} (h : s.Truthful)
    (hstep : s.step (.onThreadRelease thread) = .ok next) : next.Truthful := by
  obtain ⟨hcontext, hcreators⟩ := context_step hstep
  intro child parent hrecorded
  have hbefore : child ≠ thread ∧ s.context.childThreadToParent.lookup child = some parent := by
    rcases TrackedContext.onThreadRelease_relation hcontext with ⟨hunknown, hsame⟩ | hrelation
    · rw [hsame] at hrecorded
      refine ⟨?_, hrecorded⟩
      rintro rfl
      exact (h child parent hrecorded).1 hunknown
    · rw [hrelation, Relationship.lookup_release] at hrecorded
      split at hrecorded
      next => cases hrecorded
      next hkept => exact ⟨fun heq => hkept (Or.inl heq), hrecorded⟩
  obtain ⟨hne, hbefore⟩ := hbefore
  obtain ⟨hlive, hcreator⟩ := h child parent hbefore
  refine ⟨threadAppDomain_step hstep ?_ hlive, ?_⟩
  · intro heq
    exact hne (HostOp.onThreadRelease.inj heq).symm
  · rw [hcreators, creatorsAfter, Function.update_of_ne hne]
    exact hcreator

theorem Truthful.step (h : s.Truthful) (hstep : s.step op = .ok next) : next.Truthful := by
  cases op with
  | onThreadAcquire creator thread => exact h.acquire hstep
  | onThreadRelease thread => exact h.release hstep
  | postHostMessage | rawGetLastMessage | onDomainUnload | onDomainRudeUnload | onDomainCreate
  | onThreadAcquiring | onMemoryAcquire | onMemoryRelease | rawResetCountersForAppDomain =>
      obtain ⟨hcontext, hcreators⟩ := context_step hstep
      intro child parent hrecorded
      rw [TrackedContext.step_relation hcontext (by simp) (by simp)] at hrecorded
      obtain ⟨hlive, hcreator⟩ := h child parent hrecorded
      refine ⟨threadAppDomain_step hstep (by simp) hlive, ?_⟩
      rw [hcreators]
      exact hcreator

/-- In every run with the relation, the calls do what they do without it, up to the fault
that ends the run, and a parent that is recorded is one that acquired the thread. -/
theorem recorded_parents_true (ops : List HostOp) :
    (run step initial ops).map (fun s => s.context.toHostContext) =
        run HostContext.step HostContext.initial ops ∧
      Always step Truthful initial ops := by
  constructor
  · exact run_map toHostContext_step initial ops
  · apply always_of_step
    · intro s op next h hstep
      exact h.step hstep
    · intro child parent hrecorded
      cases hrecorded

end CreationHistory

end HostedPumpkin
