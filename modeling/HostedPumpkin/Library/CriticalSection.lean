import HostedPumpkin.Library.Runs
import Mathlib.Data.List.TakeWhile

/-!
Threads that call operations on shared data. The data come in parts and every
part is guarded by a critical section of its own; an operation works on one part
and is a program of atomic accesses in which the section is entered and left
explicitly. Nothing here assumes that a program keeps its section while it works.

The main result says when that does no harm. Calls may overlap, and each comes
into the order with its first access. If every access can change places with the
accesses that the calls before it in the order still have to make, then all calls
return what they return in that order, one after the other.
-/

namespace HostedPumpkin.CriticalSection

open Runs

/-- The steps of one call on data of type `σ`. An access replaces the data and
chooses the next step by what it found. -/
inductive Program (σ ρ : Type) where
  | enter (next : Program σ ρ)
  | leave (next : Program σ ρ)
  | access (update : σ → σ) (next : σ → Program σ ρ)
  | done (reply : ρ)

namespace Program

variable {σ ρ α : Type}

def read (f : σ → α) (next : α → Program σ ρ) : Program σ ρ :=
  .access id (fun d => next (f d))

def write (f : σ → σ) (next : Program σ ρ) : Program σ ρ :=
  .access f (fun _ => next)

/-- A program that nobody interrupts. -/
def exec : Program σ ρ → σ → σ × ρ
  | .enter next, d => next.exec d
  | .leave next, d => next.exec d
  | .access update next, d => (next d).exec (update d)
  | .done reply, d => (d, reply)

@[simp] theorem exec_enter (next : Program σ ρ) (d : σ) :
    (Program.enter next).exec d = next.exec d := rfl

@[simp] theorem exec_leave (next : Program σ ρ) (d : σ) :
    (Program.leave next).exec d = next.exec d := rfl

@[simp] theorem exec_read (f : σ → α) (next : α → Program σ ρ) (d : σ) :
    (read f next).exec d = (next (f d)).exec d := rfl

@[simp] theorem exec_write (f : σ → σ) (next : Program σ ρ) (d : σ) :
    (write f next).exec d = next.exec (f d) := rfl

@[simp] theorem exec_done (reply : ρ) (d : σ) :
    (Program.done reply : Program σ ρ).exec d = (d, reply) := rfl

/-- The same program where its data are one part of several. -/
def within {G : Type} [DecidableEq G] {D : G → Type} (g : G) :
    Program (D g) ρ → Program ((g : G) → D g) ρ
  | .enter next => .enter (next.within g)
  | .leave next => .leave (next.within g)
  | .access update next =>
      .access (fun d => Function.update d g (update (d g))) (fun d => (next (d g)).within g)
  | .done reply => .done reply

/-- Programs one after the other. -/
def execAll : List (Program σ ρ) → σ → σ × List ρ
  | [], d => (d, [])
  | p :: rest, d =>
      let result := p.exec d
      let final := execAll rest result.1
      (final.1, result.2 :: final.2)

/-- An access that looks at the data and updates them can change places with every
access the program makes from here: both find the same and leave the same in either
order. -/
def Commutes (update : σ → σ) (look : σ → α) : Program σ ρ → σ → Prop
  | .enter next, d => next.Commutes update look d
  | .leave next, d => next.Commutes update look d
  | .access update' next, d =>
      update (update' d) = update' (update d) ∧ next (update d) = next d ∧
        look (update' d) = look d ∧ (next d).Commutes update look (update' d)
  | .done _, _ => True

/-- The same for programs that go on one after the other. -/
def CommutesAll (update : σ → σ) (look : σ → α) : List (Program σ ρ) → σ → Prop
  | [], _ => True
  | p :: rest, d => p.Commutes update look d ∧ CommutesAll update look rest (p.exec d).1

theorem exec_within {G : Type} [DecidableEq G] {D : G → Type} {g : G} (p : Program (D g) ρ)
    (d : (g : G) → D g) :
    (p.within g).exec d = (Function.update d g (p.exec (d g)).1, (p.exec (d g)).2) := by
  induction p generalizing d with
  | enter next ih => exact ih d
  | leave next ih => exact ih d
  | access update next ih =>
      simp only [within, exec, ih, Function.update_self, Function.update_idem]
  | done reply => simp [within, exec]

theorem execAll_append (first second : List (Program σ ρ)) (d : σ) :
    execAll (first ++ second) d =
      ((execAll second (execAll first d).1).1,
        (execAll first d).2 ++ (execAll second (execAll first d).1).2) := by
  induction first generalizing d with
  | nil => rfl
  | cons p rest ih => simp only [List.cons_append, execAll, ih]

theorem Commutes.exec {update : σ → σ} {look : σ → α} {p : Program σ ρ} {d : σ}
    (h : p.Commutes update look d) :
    p.exec (update d) = (update (p.exec d).1, (p.exec d).2) ∧ look (p.exec d).1 = look d := by
  induction p generalizing d with
  | enter next ih => exact ih h
  | leave next ih => exact ih h
  | access update' next ih =>
      obtain ⟨hupdate, hnext, hlook, hrest⟩ := h
      obtain ⟨hexec, hlook'⟩ := ih d hrest
      refine ⟨?_, hlook'.trans hlook⟩
      simp only [Program.exec]
      rw [hnext, ← hupdate]
      exact hexec
  | done reply => exact ⟨rfl, rfl⟩

theorem CommutesAll.exec {update : σ → σ} {look : σ → α} {programs : List (Program σ ρ)} {d : σ}
    (h : CommutesAll update look programs d) :
    execAll programs (update d) = (update (execAll programs d).1, (execAll programs d).2) ∧
      look (execAll programs d).1 = look d := by
  induction programs generalizing d with
  | nil => exact ⟨rfl, rfl⟩
  | cons p rest ih =>
      obtain ⟨hexec, hlook⟩ := h.1.exec
      obtain ⟨hrest, hlook'⟩ := ih h.2
      refine ⟨?_, hlook'.trans hlook⟩
      simp only [execAll, hexec, hrest]

/-- An access that can change places with what comes before it may come first. -/
theorem execAll_access {update : σ → σ} {look : σ → α} {before : List (Program σ ρ)} {d : σ}
    (h : CommutesAll update look before d) (next : α → Program σ ρ)
    (after : List (Program σ ρ)) :
    execAll (before ++ next (look d) :: after) (update d) =
      execAll (before ++ .access update (fun d => next (look d)) :: after) d := by
  obtain ⟨hexec, hlook⟩ := h.exec
  simp only [execAll_append, hexec, execAll, Program.exec, hlook]

/-- Accesses to different parts of the data change places. -/
theorem commutes_within_of_ne {G : Type} [DecidableEq G] {D : G → Type} {g g' : G}
    (hne : g' ≠ g) (update : D g → D g) (look : D g → α) (p : Program (D g') ρ)
    (d : (g : G) → D g) :
    (p.within g').Commutes (fun d => Function.update d g (update (d g)))
      (fun d => look (d g)) d := by
  induction p generalizing d with
  | enter next ih => exact ih d
  | leave next ih => exact ih d
  | access update' next ih =>
      refine ⟨?_, ?_, ?_, ih _ _⟩
      · simp only [Function.update_of_ne hne, Function.update_of_ne hne.symm]
        exact Function.update_comm hne _ _ _
      · simp only [Function.update_of_ne hne]
      · simp only [Function.update_of_ne hne.symm]
  | done reply => trivial

end Program

/-- The operations and the critical sections they work under. -/
structure System where
  Guard : Type
  Data : Guard → Type
  Op : Type
  Reply : Type
  guard : Op → Guard
  program : (op : Op) → Program (Data (guard op)) Reply
  decGuard : DecidableEq Guard

attribute [instance] System.decGuard

namespace System

variable (S : System) (Tid : Type)

/-- All data together. -/
abbrev Whole : Type := (g : S.Guard) → S.Data g

/-- A call in progress; `entered` once it has entered its section. -/
structure Running where
  op : S.Op
  entered : Bool
  rest : Program (S.Data (S.guard op)) S.Reply

/-- The owner of a section comes with the number of times it entered. `returned`
lists the calls that are over, with their replies, and `begun` the threads whose call
in progress has made an access, in the order of their first ones. -/
structure Config where
  data : S.Whole
  owner : S.Guard → Option (Tid × Nat)
  running : Tid → Option S.Running
  begun : List Tid
  returned : List (S.Op × S.Reply)

inductive Action where
  | call (thread : Tid) (op : S.Op)
  | advance (thread : Tid)

inductive Blocked where
  | blocked
deriving DecidableEq

variable {S Tid} [DecidableEq Tid]

def Running.whole (call : S.Running) : Program S.Whole S.Reply :=
  call.rest.within (S.guard call.op)

/-- A free section can be entered by anyone, one that is taken by its owner. -/
def enterSection (thread : Tid) : Option (Tid × Nat) → Option (Tid × Nat)
  | none => some (thread, 1)
  | some (owner, count) => if owner = thread then some (owner, count + 1) else none

def leaveSection (thread : Tid) : Option (Tid × Nat) → Option (Option (Tid × Nat))
  | some (owner, count + 1) =>
      if owner = thread then some (if count = 0 then none else some (owner, count)) else none
  | _ => none

/-- Replace what one thread is doing. -/
def Config.proceed (s : Config S Tid) (thread : Tid) (call : Option S.Running) :
    Config S Tid :=
  { s with running := Function.update s.running thread call }

/-- The order of first accesses when the thread makes one. -/
def Config.begunWith (s : Config S Tid) (thread : Tid) : List Tid :=
  if thread ∈ s.begun then s.begun else s.begun ++ [thread]

def advance (s : Config S Tid) (thread : Tid) :
    S.Running → Except Blocked (Config S Tid)
  | ⟨op, _, .enter next⟩ =>
      match enterSection thread (s.owner (S.guard op)) with
      | some owner =>
          .ok { s.proceed thread (some ⟨op, true, next⟩) with
            owner := Function.update s.owner (S.guard op) (some owner) }
      | none => .error .blocked
  | ⟨op, entered, .leave next⟩ =>
      match leaveSection thread (s.owner (S.guard op)) with
      | some owner =>
          .ok { s.proceed thread (some ⟨op, entered, next⟩) with
            owner := Function.update s.owner (S.guard op) owner }
      | none => .error .blocked
  | ⟨op, entered, .access update next⟩ =>
      let d := s.data (S.guard op)
      .ok { s.proceed thread (some ⟨op, entered, next d⟩) with
        data := Function.update s.data (S.guard op) (update d)
        begun := s.begunWith thread }
  | ⟨op, _, .done reply⟩ =>
      .ok { s.proceed thread none with
        begun := s.begun.erase thread
        returned := s.returned ++ [(op, reply)] }

/-- One step of one thread. A thread has at most one call in progress. -/
def step (s : Config S Tid) : Action S Tid → Except Blocked (Config S Tid)
  | .call thread op =>
      match s.running thread with
      | some _ => .error .blocked
      | none => .ok (s.proceed thread (some ⟨op, false, S.program op⟩))
  | .advance thread =>
      match s.running thread with
      | some call => advance s thread call
      | none => .error .blocked

/-- Nobody has called anything yet. -/
def start (data : S.Whole) : Config S Tid where
  data := data
  owner := fun _ => none
  running := fun _ => none
  begun := []
  returned := []

/-- No two calls are past the entry of the same section. -/
def MutuallyExclusive (s : Config S Tid) : Prop :=
  ∀ t u call other, s.running t = some call → s.running u = some other →
    call.entered = true → other.entered = true →
    S.guard call.op = S.guard other.op → t = u

/-- Run operations one after the other, each without interruption. -/
def replay (data : S.Whole) : List S.Op → S.Whole × List S.Reply
  | [] => (data, [])
  | op :: rest =>
      let result := (S.program op).exec (data (S.guard op))
      let final := replay (Function.update data (S.guard op) result.1) rest
      (final.1, result.2 :: final.2)

/-- The calls whose first access came before one of this thread. -/
def Config.earlier (s : Config S Tid) (thread : Tid) : List (Program S.Whole S.Reply) :=
  ((s.begun.takeWhile (· ≠ thread)).filterMap s.running).map Running.whole

/-- An access can change places with those that the calls begun earlier would go on
to make. -/
def Undisturbed (s : Config S Tid) : Action S Tid → Prop
  | .call _ _ => True
  | .advance thread =>
      match s.running thread with
      | some ⟨op, _, .access update next⟩ =>
          Program.CommutesAll
            (fun d => Function.update d (S.guard op) (update (d (S.guard op))))
            (fun d => next (d (S.guard op))) (s.earlier thread) s.data
      | _ => True

omit [DecidableEq Tid] in
/-- An access under one section is not disturbed by a call under another one. -/
theorem Running.commutes_of_guard_ne {α : Type} {call : S.Running} {op : S.Op}
    (hne : S.guard call.op ≠ S.guard op) (update : S.Data (S.guard op) → S.Data (S.guard op))
    (look : S.Data (S.guard op) → α) (d : S.Whole) :
    call.whole.Commutes (fun d => Function.update d (S.guard op) (update (d (S.guard op))))
      (fun d => look (d (S.guard op))) d :=
  Program.commutes_within_of_ne hne update look call.rest d

/-- Mutual exclusion is a special case of the condition. -/
theorem undisturbed_of_guard_ne {s : Config S Tid} {thread : Tid} {call : S.Running}
    (hthread : s.running thread = some call)
    (hothers : ∀ u other, u ≠ thread → s.running u = some other →
      S.guard other.op ≠ S.guard call.op) : Undisturbed s (.advance thread) := by
  have hearlier : ∀ t ∈ s.begun.takeWhile (· ≠ thread), t ≠ thread := by
    intro t ht
    simpa using List.mem_takeWhile_imp ht
  obtain ⟨op, entered, rest⟩ := call
  cases rest with
  | enter _ | leave _ | done _ =>
      simp only [Undisturbed, hthread]
  | access update next =>
      simp only [Undisturbed, hthread, Config.earlier]
      generalize s.data = d
      generalize s.begun.takeWhile (· ≠ thread) = threads at hearlier ⊢
      induction threads generalizing d with
      | nil => trivial
      | cons t rest ih =>
          have hrest := fun d => ih d (fun u hu => hearlier u (List.mem_cons_of_mem t hu))
          cases ht : s.running t with
          | none =>
              rw [List.filterMap_cons_none ht]
              exact hrest d
          | some other =>
              rw [List.filterMap_cons_some ht]
              have hne := hothers t other (hearlier t List.mem_cons_self) ht
              exact ⟨Running.commutes_of_guard_ne hne update next d, hrest _⟩

/-! Sequential orders. -/

theorem replay_append (data : S.Whole) (first second : List S.Op) :
    replay data (first ++ second) =
      ((replay (replay data first).1 second).1,
        (replay data first).2 ++ (replay (replay data first).1 second).2) := by
  induction first generalizing data with
  | nil => simp [replay]
  | cons op rest ih => simp [replay, ih]

theorem replay_snoc (data : S.Whole) (ops : List S.Op) (op : S.Op) :
    replay data (ops ++ [op]) =
      (Function.update (replay data ops).1 (S.guard op)
          ((S.program op).exec ((replay data ops).1 (S.guard op))).1,
        (replay data ops).2 ++ [((S.program op).exec ((replay data ops).1 (S.guard op))).2]) := by
  rw [replay_append]
  simp [replay]

/-- A call that has made its first access. -/
inductive Begun (S : System) (Tid : Type) where
  | running (thread : Tid) (call : S.Running)
  | returned (op : S.Op) (reply : S.Reply)

namespace Begun

def thread : Begun S Tid → Option Tid
  | .running thread _ => some thread
  | .returned _ _ => none

def op : Begun S Tid → S.Op
  | .running _ call => call.op
  | .returned op _ => op

def reply : Begun S Tid → Option (S.Op × S.Reply)
  | .running _ _ => none
  | .returned op reply => some (op, reply)

/-- What is left of it. -/
def whole : Begun S Tid → Program S.Whole S.Reply
  | .running _ call => call.whole
  | .returned _ reply => .done reply

variable {t : Tid} {call : S.Running} {op : S.Op} {reply : S.Reply} {rest : List (Begun S Tid)}

omit [DecidableEq Tid]

@[simp] theorem filterMap_thread_running :
    (Begun.running t call :: rest).filterMap thread = t :: rest.filterMap thread := rfl

@[simp] theorem filterMap_thread_returned :
    (Begun.returned op reply :: rest).filterMap thread = rest.filterMap thread := rfl

@[simp] theorem filterMap_reply_running :
    (Begun.running t call :: rest).filterMap Begun.reply = rest.filterMap Begun.reply := rfl

@[simp] theorem filterMap_reply_returned :
    (Begun.returned op reply :: rest).filterMap Begun.reply =
      (op, reply) :: rest.filterMap Begun.reply := rfl

theorem eq_running {begun : Begun S Tid} (h : begun.thread = some t) :
    ∃ call, begun = .running t call := by
  cases begun with
  | running t' call =>
      cases h
      exact ⟨call, rfl⟩
  | returned op reply => cases h

end Begun

/-- The sequential order behind a state: the calls in the order of their first
accesses. To go on with what is left of each, one after the other, amounts to the
calls themselves one after the other. -/
structure Serial (init : S.Whole) (s : Config S Tid) (begun : List Tid)
    (calls : List (Begun S Tid)) : Prop where
  threads : calls.filterMap Begun.thread = begun
  distinct : begun.Nodup
  inProgress : ∀ t call, .running t call ∈ calls → s.running t = some call
  returned : (calls.filterMap Begun.reply).Perm s.returned
  unbegun : ∀ t call, s.running t = some call → t ∉ begun →
    ∀ d, call.rest.exec d = (S.program call.op).exec d
  outcome : Program.execAll (calls.map Begun.whole) s.data = replay init (calls.map Begun.op)

variable {init : S.Whole} {s next : Config S Tid} {begun : List Tid} {calls : List (Begun S Tid)}

/-- What a thread does after its own step or that of another thread. -/
theorem running_proceed {thread t : Tid} {new : Option S.Running} {call : S.Running}
    (h : (Function.update s.running thread new) t = some call) :
    (t = thread ∧ new = some call) ∨ (t ≠ thread ∧ s.running t = some call) := by
  by_cases ht : t = thread
  · subst ht
    rw [Function.update_self] at h
    exact Or.inl ⟨rfl, h⟩
  · rw [Function.update_of_ne ht] at h
    exact Or.inr ⟨ht, h⟩

omit [DecidableEq Tid] in
theorem Serial.mem_begun (hs : Serial init s begun calls) {t : Tid} {call : S.Running}
    (h : .running t call ∈ calls) : t ∈ begun := by
  rw [← hs.threads]
  exact List.mem_filterMap.mpr ⟨_, h, rfl⟩

/-- A thread is or stays before its first access. -/
theorem Serial.wait (hs : Serial init s begun calls) {thread : Tid} (new : S.Running)
    (hnot : thread ∉ begun) (hnew : ∀ d, new.rest.exec d = (S.program new.op).exec d)
    (hrunning : next.running = Function.update s.running thread (some new))
    (hdata : next.data = s.data) (hreturned : next.returned = s.returned) :
    Serial init next begun calls := by
  refine ⟨hs.threads, hs.distinct, ?_, ?_, ?_, ?_⟩
  · intro t call hmem
    have hne : t ≠ thread := by
      rintro rfl
      exact hnot (hs.mem_begun hmem)
    rw [hrunning, Function.update_of_ne hne]
    exact hs.inProgress t call hmem
  · rw [hreturned]
    exact hs.returned
  · intro t call ht
    rw [hrunning] at ht
    obtain ⟨-, heq⟩ | ⟨-, ht⟩ := running_proceed ht
    · cases heq
      intro _
      exact hnew
    · exact hs.unbegun t call ht
  · rw [hdata]
    exact hs.outcome

omit [DecidableEq Tid] in
/-- A call that is about to make its first access comes last. -/
theorem Serial.joins (hs : Serial init s begun calls) {thread : Tid} {call : S.Running}
    (hthread : s.running thread = some call) (hnot : thread ∉ begun) :
    Serial init s (begun ++ [thread]) (calls ++ [.running thread call]) := by
  refine ⟨?_, ?_, ?_, ?_, ?_, ?_⟩
  · rw [List.filterMap_append, hs.threads]
    rfl
  · rw [List.nodup_append]
    refine ⟨hs.distinct, List.nodup_singleton _, ?_⟩
    intro t ht u hu
    rw [List.mem_singleton.mp hu]
    rintro rfl
    exact hnot ht
  · intro t call' hmem
    rcases List.mem_append.mp hmem with hmem | hmem
    · exact hs.inProgress t call' hmem
    · cases List.mem_singleton.mp hmem
      exact hthread
  · rw [List.filterMap_append, Begun.filterMap_reply_running, List.filterMap_nil, List.append_nil]
    exact hs.returned
  · intro t call' ht hmem
    exact hs.unbegun t call' ht (fun h => hmem (List.mem_append_left _ h))
  · rw [List.map_append, List.map_append, Program.execAll_append, hs.outcome, List.map_singleton,
      List.map_singleton, replay_snoc]
    simp only [Program.execAll, Begun.whole, Begun.op, Running.whole, Program.exec_within,
      hs.unbegun thread call hthread hnot]

omit [DecidableEq Tid] in
/-- The place of a call in the order. -/
theorem Serial.split (hs : Serial init s begun calls) {thread : Tid} {call : S.Running}
    (hthread : s.running thread = some call) (hmem : thread ∈ begun) :
    ∃ before after, calls = before ++ .running thread call :: after := by
  rw [← hs.threads] at hmem
  obtain ⟨entry, hentry, hof⟩ := List.mem_filterMap.mp hmem
  obtain ⟨call', rfl⟩ := Begun.eq_running hof
  have hsame := hs.inProgress thread call' hentry
  rw [hthread] at hsame
  cases hsame
  exact List.append_of_mem hentry

omit [DecidableEq Tid] in
/-- No other place belongs to its thread. -/
theorem Serial.other {before after : List (Begun S Tid)} {thread t : Tid} {call other : S.Running}
    (hs : Serial init s begun (before ++ .running thread call :: after))
    (hmem : .running t other ∈ before ∨ .running t other ∈ after) : t ≠ thread := by
  have hdistinct := hs.distinct
  rw [← hs.threads, List.filterMap_append, Begun.filterMap_thread_running,
    List.nodup_middle] at hdistinct
  rintro rfl
  apply (List.nodup_cons.mp hdistinct).1
  rcases hmem with hmem | hmem
  · exact List.mem_append_left _ (List.mem_filterMap.mpr ⟨_, hmem, rfl⟩)
  · exact List.mem_append_right _ (List.mem_filterMap.mpr ⟨_, hmem, rfl⟩)

/-- A call goes on in its place. -/
theorem Serial.work {before after : List (Begun S Tid)} {thread : Tid} {call : S.Running}
    (hs : Serial init s begun (before ++ .running thread call :: after)) (new : S.Running)
    (hop : new.op = call.op)
    (hrunning : next.running = Function.update s.running thread (some new))
    (hreturned : next.returned = s.returned)
    (houtcome : Program.execAll (before.map Begun.whole ++ new.whole :: after.map Begun.whole)
        next.data =
      Program.execAll (before.map Begun.whole ++ call.whole :: after.map Begun.whole) s.data) :
    Serial init next begun (before ++ .running thread new :: after) := by
  have hmem : thread ∈ begun := hs.mem_begun (List.mem_append_right _ List.mem_cons_self)
  refine ⟨?_, hs.distinct, ?_, ?_, ?_, ?_⟩
  · rw [← hs.threads]
    simp
  · intro t other hother
    rw [hrunning]
    rcases List.mem_append.mp hother with hbefore | hrest
    · rw [Function.update_of_ne (hs.other (Or.inl hbefore))]
      exact hs.inProgress t other (List.mem_append_left _ hbefore)
    · rcases List.mem_cons.mp hrest with heq | hafter
      · cases heq
        exact Function.update_self ..
      · rw [Function.update_of_ne (hs.other (Or.inr hafter))]
        exact hs.inProgress t other (List.mem_append_right _ (List.mem_cons_of_mem _ hafter))
  · rw [hreturned]
    simpa using hs.returned
  · intro t other ht hnot
    rw [hrunning] at ht
    obtain ⟨rfl, -⟩ | ⟨-, ht⟩ := running_proceed ht
    · exact absurd hmem hnot
    · exact hs.unbegun t other ht hnot
  · have hbefore := hs.outcome
    simp only [List.map_append, List.map_cons, Begun.whole, Begun.op] at hbefore ⊢
    rw [houtcome, hbefore, hop]

/-- A step that makes no access leaves the order as it is. -/
theorem Serial.quiet (hs : Serial init s s.begun calls) {thread : Tid} {op : S.Op}
    {entered entered' : Bool} {rest : Program (S.Data (S.guard op)) S.Reply}
    (rest' : Program (S.Data (S.guard op)) S.Reply)
    (hthread : s.running thread = some ⟨op, entered, rest⟩)
    (hrest : ∀ d, rest'.exec d = rest.exec d)
    (hrunning : next.running = Function.update s.running thread (some ⟨op, entered', rest'⟩))
    (hdata : next.data = s.data) (hbegun : next.begun = s.begun)
    (hreturned : next.returned = s.returned) : ∃ calls, Serial init next next.begun calls := by
  rw [hbegun]
  by_cases hmem : thread ∈ s.begun
  · obtain ⟨before, after, rfl⟩ := hs.split hthread hmem
    refine ⟨_, hs.work ⟨op, entered', rest'⟩ rfl hrunning hreturned ?_⟩
    simp only [Program.execAll_append, Program.execAll, hdata, Running.whole,
      Program.exec_within, hrest]
  · refine ⟨calls, hs.wait ⟨op, entered', rest'⟩ hmem ?_ hrunning hdata hreturned⟩
    intro d
    rw [hrest]
    exact hs.unbegun thread _ hthread hmem d

/-- A call returns in its place. -/
theorem Serial.finish {before after : List (Begun S Tid)} {thread : Tid} {op : S.Op}
    {entered : Bool} {reply : S.Reply}
    (hs : Serial init s begun (before ++ .running thread ⟨op, entered, .done reply⟩ :: after))
    (hrunning : next.running = Function.update s.running thread none)
    (hdata : next.data = s.data) (hreturned : next.returned = s.returned ++ [(op, reply)]) :
    Serial init next (begun.erase thread) (before ++ .returned op reply :: after) := by
  refine ⟨?_, hs.distinct.erase _, ?_, ?_, ?_, ?_⟩
  · rw [← hs.threads, List.filterMap_append, List.filterMap_append,
      Begun.filterMap_thread_returned, Begun.filterMap_thread_running, List.erase_append_right]
    · rw [List.erase_cons_head]
    · intro hmem
      obtain ⟨entry, hentry, hof⟩ := List.mem_filterMap.mp hmem
      obtain ⟨call, rfl⟩ := Begun.eq_running hof
      exact hs.other (Or.inl hentry) rfl
  · intro t other hother
    have hmem : Begun.running t other ∈ before ∨ Begun.running t other ∈ after := by
      rcases List.mem_append.mp hother with hbefore | hrest
      · exact Or.inl hbefore
      · rcases List.mem_cons.mp hrest with heq | hafter
        · cases heq
        · exact Or.inr hafter
    rw [hrunning, Function.update_of_ne (hs.other hmem)]
    refine hs.inProgress t other ?_
    rcases hmem with hbefore | hafter
    · exact List.mem_append_left _ hbefore
    · exact List.mem_append_right _ (List.mem_cons_of_mem _ hafter)
  · rw [hreturned, List.filterMap_append, Begun.filterMap_reply_returned]
    have hperm := hs.returned
    rw [List.filterMap_append, Begun.filterMap_reply_running] at hperm
    exact List.perm_middle.trans ((hperm.cons _).trans (List.perm_append_singleton _ _).symm)
  · intro t other ht hnot
    rw [hrunning] at ht
    obtain ⟨-, heq⟩ | ⟨hne, ht⟩ := running_proceed ht
    · cases heq
    · exact hs.unbegun t other ht (fun hmem => hnot ((List.mem_erase_of_ne hne).mpr hmem))
  · rw [hdata]
    have hbefore := hs.outcome
    simpa [Begun.whole, Begun.op, Running.whole, Program.within] using hbefore

omit [DecidableEq Tid] in
/-- Calls that have returned have no more accesses to make. -/
theorem commutesAll_whole {α : Type} {update : S.Whole → S.Whole} {look : S.Whole → α}
    {d : S.Whole} {before : List (Begun S Tid)}
    (hrunning : ∀ t call, .running t call ∈ before → s.running t = some call)
    (h : Program.CommutesAll update look
      (((before.filterMap Begun.thread).filterMap s.running).map Running.whole) d) :
    Program.CommutesAll update look (before.map Begun.whole) d := by
  induction before generalizing d with
  | nil => trivial
  | cons entry rest ih =>
      have hrest : ∀ t call, .running t call ∈ rest → s.running t = some call :=
        fun t call hmem => hrunning t call (List.mem_cons_of_mem _ hmem)
      cases entry with
      | returned op reply => exact ⟨trivial, ih hrest h⟩
      | running t call =>
          rw [Begun.filterMap_thread_running,
            List.filterMap_cons_some (hrunning t call List.mem_cons_self), List.map_cons] at h
          exact ⟨h.1, ih hrest h.2⟩

/-- The place of a call that makes an access, and the calls before it. -/
theorem Serial.place (hs : Serial init s s.begun calls) {thread : Tid} {call : S.Running}
    (hthread : s.running thread = some call) :
    ∃ before after, Serial init s (s.begunWith thread) (before ++ .running thread call :: after) ∧
      s.begun.takeWhile (· ≠ thread) = before.filterMap Begun.thread := by
  by_cases hmem : thread ∈ s.begun
  · obtain ⟨before, after, rfl⟩ := hs.split hthread hmem
    refine ⟨before, after, by rw [Config.begunWith, if_pos hmem]; exact hs, ?_⟩
    rw [← hs.threads, List.filterMap_append, Begun.filterMap_thread_running,
      List.takeWhile_append_of_pos, List.takeWhile_cons_of_neg, List.append_nil]
    · simp
    · intro t ht
      obtain ⟨entry, hentry, hof⟩ := List.mem_filterMap.mp ht
      obtain ⟨other, rfl⟩ := Begun.eq_running hof
      exact decide_eq_true (hs.other (Or.inl hentry))
  · refine ⟨calls, [], by rw [Config.begunWith, if_neg hmem]; exact hs.joins hthread hmem, ?_⟩
    rw [hs.threads, List.takeWhile_eq_self_iff]
    intro t ht
    apply decide_eq_true
    rintro rfl
    exact hmem ht

/-- One undisturbed step keeps the order. -/
theorem step_serial {a : Action S Tid} (hs : ∃ calls, Serial init s s.begun calls)
    (hcond : Undisturbed s a) (h : step s a = .ok next) :
    ∃ calls, Serial init next next.begun calls := by
  obtain ⟨calls, hs⟩ := hs
  cases a with
  | call thread op =>
      simp only [step] at h
      split at h
      next => cases h
      next hfree =>
        cases h
        refine ⟨calls, hs.wait ⟨op, false, S.program op⟩ ?_ (fun _ => rfl) rfl rfl rfl⟩
        intro hmem
        rw [← hs.threads] at hmem
        obtain ⟨entry, hentry, hof⟩ := List.mem_filterMap.mp hmem
        obtain ⟨call, rfl⟩ := Begun.eq_running hof
        rw [hs.inProgress thread call hentry] at hfree
        cases hfree
  | advance thread =>
      simp only [step] at h
      split at h
      next call hthread =>
        obtain ⟨op, entered, rest⟩ := call
        cases rest with
        | enter rest =>
            simp only [advance] at h
            split at h
            next owner howner =>
              cases h
              exact hs.quiet rest hthread (fun _ => rfl) rfl rfl rfl rfl
            next => cases h
        | leave rest =>
            simp only [advance] at h
            split at h
            next owner howner =>
              cases h
              exact hs.quiet rest hthread (fun _ => rfl) rfl rfl rfl rfl
            next => cases h
        | access update rest =>
            simp only [advance, Except.ok.injEq] at h
            subst h
            obtain ⟨before, after, hplaced, hbefore⟩ := hs.place hthread
            simp only [Undisturbed, hthread, Config.earlier, hbefore] at hcond
            have hcommutes := commutesAll_whole
              (fun t call hmem => hplaced.inProgress t call (List.mem_append_left _ hmem)) hcond
            exact ⟨_, hplaced.work ⟨op, entered, rest (s.data (S.guard op))⟩ rfl rfl rfl
              (Program.execAll_access hcommutes (Program.within (S.guard op))
                (after.map Begun.whole))⟩
        | done reply =>
            simp only [advance, Except.ok.injEq] at h
            subst h
            by_cases hmem : thread ∈ s.begun
            · obtain ⟨before, after, rfl⟩ := hs.split hthread hmem
              exact ⟨_, hs.finish rfl rfl rfl⟩
            · have herase : s.begun.erase thread = (s.begun ++ [thread]).erase thread := by
                rw [List.erase_append_right _ hmem, List.erase_cons_head, List.append_nil,
                  List.erase_of_not_mem hmem]
              refine ⟨calls ++ [.returned op reply], ?_⟩
              change Serial init _ (s.begun.erase thread) _
              rw [herase]
              exact (hs.joins hthread hmem).finish rfl rfl rfl
      next => cases h

/-- Once all calls have returned, data and replies are those of a sequential
order of them. -/
def Serializable (init : S.Whole) (s : Config S Tid) : Prop :=
  (∀ t, s.running t = none) →
    ∃ order : List (S.Op × S.Reply), order.Perm s.returned ∧
      replay init (order.map Prod.fst) = (s.data, order.map Prod.snd)

omit [DecidableEq Tid] in
/-- Where nothing is left to do, nothing changes any more. -/
theorem execAll_returned {calls : List (Begun S Tid)} (hover : ∀ t call, .running t call ∉ calls)
    (d : S.Whole) :
    Program.execAll (calls.map Begun.whole) d =
        (d, (calls.filterMap Begun.reply).map Prod.snd) ∧
      calls.map Begun.op = (calls.filterMap Begun.reply).map Prod.fst := by
  induction calls with
  | nil => exact ⟨rfl, rfl⟩
  | cons entry rest ih =>
      obtain ⟨hexec, hops⟩ := ih (fun t call hmem => hover t call (List.mem_cons_of_mem _ hmem))
      cases entry with
      | running t call => exact absurd List.mem_cons_self (hover t call)
      | returned op reply =>
          simp only [List.map_cons, Begun.filterMap_reply_returned, hops]
          simp only [Program.execAll, Begun.whole, Program.exec_done, hexec, Begun.op, and_self]

omit [DecidableEq Tid] in
theorem Serial.serializable (hs : Serial init s begun calls) : Serializable init s := by
  intro hquiet
  have hover : ∀ t call, .running t call ∉ calls := by
    intro t call hmem
    have hthread := hs.inProgress t call hmem
    rw [hquiet t] at hthread
    cases hthread
  obtain ⟨hexec, hops⟩ := execAll_returned hover s.data
  refine ⟨calls.filterMap Begun.reply, hs.returned, ?_⟩
  rw [← hops, ← hs.outcome, hexec]

/-- If no access is disturbed, calls are serializable in every state the run reaches,
in the order of their first accesses. -/
theorem serializable_of_undisturbed {actions : List (Action S Tid)}
    (hmeets : Meets step Undisturbed (start init) actions) :
    Always step (Serializable init) (start init : Config S Tid) actions := by
  have hstart : ∃ calls, Serial init (start init : Config S Tid) [] calls :=
    ⟨[], rfl, .nil, nofun, .nil, nofun, rfl⟩
  have halways : Always step (fun s : Config S Tid => ∃ calls, Serial init s s.begun calls)
      (start init) actions :=
    always_of_meets (fun s a next hs hcond h => step_serial hs hcond h) hstart hmeets
  refine halways.imp ?_
  rintro s ⟨calls, hs⟩
  exact hs.serializable

theorem step_leave {t : Tid} {op : S.Op} {entered : Bool}
    {rest : Program (S.Data (S.guard op)) S.Reply}
    (ht : s.running t = some ⟨op, entered, .leave rest⟩)
    (howner : s.owner (S.guard op) = some (t, 1)) :
    step s (.advance t) =
      .ok { s.proceed t (some ⟨op, entered, rest⟩) with
        owner := Function.update s.owner (S.guard op) none } := by
  simp [step, ht, advance, howner, leaveSection]

/-- A thread gets past a free section that its program enters and leaves in one go. -/
theorem passes_section {t : Tid} {op : S.Op} {entered : Bool}
    {rest : Program (S.Data (S.guard op)) S.Reply}
    (ht : s.running t = some ⟨op, entered, .enter (.leave rest)⟩)
    (hfree : s.owner (S.guard op) = none) :
    ∃ next, run step s [.advance t, .advance t] = .ok next ∧
      next.running = Function.update s.running t (some ⟨op, true, rest⟩) ∧
      next.owner (S.guard op) = none := by
  have henter : step s (.advance t) =
      .ok { s.proceed t (some ⟨op, true, .leave rest⟩) with
        owner := Function.update s.owner (S.guard op) (some (t, 1)) } := by
    simp [step, ht, advance, hfree, enterSection]
  have hleave := step_leave
    (s := { s.proceed t (some ⟨op, true, .leave rest⟩) with
      owner := Function.update s.owner (S.guard op) (some (t, 1)) })
    (Function.update_self ..) (Function.update_self ..)
  refine ⟨_, run_cons_iff.mpr ⟨_, henter, run_cons_iff.mpr ⟨_, hleave, rfl⟩⟩, ?_, ?_⟩
  · exact Function.update_idem ..
  · exact Function.update_self ..

/-- Such a section keeps nobody out: two threads get past it one after the other. -/
theorem enter_leave_excludes_nobody {t u : Tid} (hne : t ≠ u) {op op' : S.Op}
    {entered entered' : Bool} {rest : Program (S.Data (S.guard op)) S.Reply}
    {rest' : Program (S.Data (S.guard op')) S.Reply} (hguard : S.guard op = S.guard op')
    (ht : s.running t = some ⟨op, entered, .enter (.leave rest)⟩)
    (hu : s.running u = some ⟨op', entered', .enter (.leave rest')⟩)
    (hfree : s.owner (S.guard op) = none) :
    Reaches step (fun s => ¬ MutuallyExclusive s) s
      [.advance t, .advance t, .advance u, .advance u] := by
  obtain ⟨middle, hfirst, hrunning, howner⟩ := passes_section ht hfree
  have hother : middle.running u = some ⟨op', entered', .enter (.leave rest')⟩ := by
    rw [hrunning, Function.update_of_ne hne.symm, hu]
  rw [hguard] at howner
  obtain ⟨final, hsecond, hrunning', -⟩ := passes_section hother howner
  refine reaches_iff.mpr ⟨final, run_append_iff.mpr ⟨middle, hfirst, hsecond⟩, ?_⟩
  intro hexclusive
  refine hne (hexclusive t u ⟨op, true, rest⟩ ⟨op', true, rest'⟩ ?_ ?_ rfl rfl hguard)
  · rw [hrunning', Function.update_of_ne hne, hrunning, Function.update_self]
  · rw [hrunning', Function.update_self]

end System

end HostedPumpkin.CriticalSection
