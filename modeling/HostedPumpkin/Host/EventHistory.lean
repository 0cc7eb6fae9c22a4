import Mathlib.Data.List.DropRight
import HostedPumpkin.Host.MessageQueue

/-!
Host events over whole histories. A history records what was posted, what was
delivered and which domains were unloaded. An event is in the queue exactly
when it was posted after the last moment it was delivered or its domain was
unloaded, once, with the thread of the first of these posts.
-/

namespace HostedPumpkin

open Runs

/-- The loop of `OnDomainUnload` over the list before its iterator and the list
from it on: `erase` steps over an event of the domain, `++it` keeps the others. -/
def eraseLoop (domainId : DWORD) : List HostEvent → List HostEvent → List HostEvent
  | before, [] => before
  | before, event :: rest =>
      if event.appDomainId.toUInt32 = domainId then eraseLoop domainId before rest
      else eraseLoop domainId (before ++ [event]) rest

theorem eraseLoop_eq_filter (domainId : DWORD) (before rest : List HostEvent) :
    eraseLoop domainId before rest =
      before ++ rest.filter (fun event => event.appDomainId.toUInt32 != domainId) := by
  induction rest generalizing before with
  | nil => simp [eraseLoop]
  | cons event rest ih =>
      by_cases h : event.appDomainId.toUInt32 = domainId
      · simp [eraseLoop, ih, h]
      · simp [eraseLoop, ih, h]

theorem MessageData.purgeDomain_eq_eraseLoop (domainId : DWORD) (m : MessageData) :
    (m.purgeDomain domainId).messageQueue = eraseLoop domainId [] m.messageQueue := by
  rw [eraseLoop_eq_filter, List.nil_append]
  rfl

theorem MessageData.sameEvent_iff {eventType appDomainId : Int32} {event : HostEvent} :
    sameEvent eventType appDomainId event = true ↔
      event.appDomainId = appDomainId ∧ event.eventType = eventType := by
  simp [sameEvent]

inductive LogEntry where
  | posted (event : HostEvent)
  | delivered (event : HostEvent)
  | unloaded (domainId : DWORD)
deriving DecidableEq

namespace LogEntry

/-- Whether events of this kind are delivered or purged here. -/
def ends (eventType appDomainId : Int32) : LogEntry → Bool
  | .posted _ => false
  | .delivered event => MessageData.sameEvent eventType appDomainId event
  | .unloaded domainId => appDomainId.toUInt32 == domainId

/-- The thread of a post of this kind. -/
def posts (eventType appDomainId : Int32) : LogEntry → Option Int32
  | .posted event =>
      if MessageData.sameEvent eventType appDomainId event then some event.managedThreadId
      else none
  | _ => none

@[simp] theorem posts_delivered (eventType appDomainId : Int32) (event : HostEvent) :
    posts eventType appDomainId (.delivered event) = none := rfl

@[simp] theorem posts_unloaded (eventType appDomainId : Int32) (domainId : DWORD) :
    posts eventType appDomainId (.unloaded domainId) = none := rfl

/-- What happened since events of this kind were last delivered or purged. -/
def sinceLast (log : List LogEntry) (eventType appDomainId : Int32) : List LogEntry :=
  log.rtakeWhile (fun entry => !entry.ends eventType appDomainId)

/-- The thread of the first post since then. -/
def firstPost (log : List LogEntry) (eventType appDomainId : Int32) : Option Int32 :=
  (sinceLast log eventType appDomainId).findSome? (posts eventType appDomainId)

theorem firstPost_concat (log : List LogEntry) (entry : LogEntry)
    (eventType appDomainId : Int32) :
    firstPost (log ++ [entry]) eventType appDomainId =
      if entry.ends eventType appDomainId then none
      else (firstPost log eventType appDomainId).or (entry.posts eventType appDomainId) := by
  simp only [firstPost, sinceLast, List.rtakeWhile_concat]
  cases hends : entry.ends eventType appDomainId with
  | true => simp
  | false => simp [List.findSome?_append]

/-- The first post is one of the posts in the log. -/
theorem posted_of_firstPost {log : List LogEntry} {eventType appDomainId thread : Int32}
    (h : firstPost log eventType appDomainId = some thread) :
    .posted ⟨eventType, appDomainId, thread⟩ ∈ log := by
  obtain ⟨entry, hentry, hposts⟩ := List.exists_of_findSome?_eq_some h
  have hmem : entry ∈ log := (List.rtakeWhile_suffix _ log).subset hentry
  cases entry with
  | delivered | unloaded => cases hposts
  | posted event =>
      simp only [posts, Option.ite_none_right_eq_some, Option.some.injEq] at hposts
      obtain ⟨hsame, rfl⟩ := hposts
      obtain ⟨rfl, rfl⟩ := MessageData.sameEvent_iff.mp hsame
      exact hmem

end LogEntry

/-- The host together with the history of its message queue. -/
structure EventHistory where
  host : HostContext
  log : List LogEntry

inductive EventCall where
  | postHostMessage (eventType appDomainId managedThreadId : Int32)
  | onDomainUnload (domainId : DWORD)
  | rawGetLastMessage
deriving DecidableEq

namespace EventHistory

open LogEntry MessageData

def initial : EventHistory := ⟨HostContext.initial, []⟩

def step (s : EventHistory) : EventCall → Except HostFault EventHistory
  | .postHostMessage eventType appDomainId managedThreadId =>
      .ok ⟨s.host.postHostMessage eventType appDomainId managedThreadId,
        s.log ++ [.posted ⟨eventType, appDomainId, managedThreadId⟩]⟩
  | .onDomainUnload domainId =>
      .ok ⟨s.host.onDomainUnload domainId, s.log ++ [.unloaded domainId]⟩
  | .rawGetLastMessage =>
      match s.host.rawGetLastMessage with
      | .ok (host, some hostEvent) => .ok ⟨host, s.log ++ [.delivered hostEvent]⟩
      | .ok (host, none) => .ok ⟨host, s.log⟩
      | .error fault => .error fault

/-- The queue is only read when there is something to read. -/
def ReadsNonEmpty (s : EventHistory) : EventCall → Prop
  | .rawGetLastMessage => s.host.messageQueue ≠ []
  | _ => True

instance (s : EventHistory) (call : EventCall) : Decidable (s.ReadsNonEmpty call) := by
  cases call <;> unfold ReadsNonEmpty <;> infer_instance

/-- No event is lost and none is duplicated. A read of a queue that is not empty delivers one
of its events. -/
structure ExactlyOnce (s : EventHistory) : Prop where
  unique : ∀ eventType appDomainId,
    s.host.messageQueue.countP (sameEvent eventType appDomainId) ≤ 1
  queued : ∀ eventType appDomainId thread,
    ⟨eventType, appDomainId, thread⟩ ∈ s.host.messageQueue ↔
      firstPost s.log eventType appDomainId = some thread
  delivered : ∀ before event rest, s.log = before ++ .delivered event :: rest →
    firstPost before event.eventType event.appDomainId = some event.managedThreadId ∧
      .posted event ∈ before
  purged : ∀ domainId,
    (s.host.onDomainUnload domainId).messageQueue.Sublist s.host.messageQueue ∧
      ∀ event, event ∈ (s.host.onDomainUnload domainId).messageQueue ↔
        event ∈ s.host.messageQueue ∧ event.appDomainId.toUInt32 ≠ domainId
  read : s.host.messageQueue ≠ [] → ∃ host event,
    s.host.rawGetLastMessage = .ok (host, some event) ∧ event ∈ s.host.messageQueue

/-- Queue and history agree, what was delivered was pending, and a queue that is
not empty is signalled. -/
structure Faithful (s : EventHistory) : Prop where
  unique : ∀ eventType appDomainId,
    s.host.messageQueue.countP (sameEvent eventType appDomainId) ≤ 1
  queued : ∀ eventType appDomainId thread,
    ⟨eventType, appDomainId, thread⟩ ∈ s.host.messageQueue ↔
      firstPost s.log eventType appDomainId = some thread
  delivered : ∀ before event rest, s.log = before ++ .delivered event :: rest →
    firstPost before event.eventType event.appDomainId = some event.managedThreadId
  signalled : s.host.messageQueue ≠ [] → s.host.hMessageEvent = true

/-- A read delivers the youngest event. -/
theorem Faithful.delivers {s : EventHistory} (hs : s.Faithful) (hne : s.host.messageQueue ≠ []) :
    ∃ host event, s.host.rawGetLastMessage = .ok (host, some event) ∧
      s.host.messageQueue.getLast? = some event := by
  cases hread : s.host.rawGetLastMessage with
  | error fault =>
      obtain ⟨-, -, hnil⟩ := rawGetLastMessage_error (HostContext.rawGetLastMessage_error hread)
      exact absurd hnil hne
  | ok result =>
      obtain ⟨host, hostEvent⟩ := result
      rcases rawGetLastMessage_ok (HostContext.rawGetLastMessage_ok hread).1 with
        ⟨hsignal, -, -⟩ | ⟨event, rfl, -, htake⟩
      · rw [hs.signalled hne] at hsignal
        cases hsignal
      · exact ⟨host, event, rfl, (takeLastMessage_ok htake).1⟩

theorem Faithful.exactlyOnce {s : EventHistory} (hs : s.Faithful) : s.ExactlyOnce := by
  refine ⟨hs.unique, hs.queued, ?_, ?_, ?_⟩
  · intro before event rest hlog
    have hfirst := hs.delivered before event rest hlog
    exact ⟨hfirst, posted_of_firstPost hfirst⟩
  · intro domainId
    refine ⟨List.filter_sublist, ?_⟩
    intro event
    simp [HostContext.onDomainUnload, purgeDomain, List.mem_filter]
  · intro hne
    obtain ⟨host, event, hread, hlast⟩ := hs.delivers hne
    exact ⟨host, event, hread, List.mem_of_getLast? hlast⟩

theorem faithful_initial : initial.Faithful := by
  refine ⟨?_, ?_, ?_, ?_⟩
  · intro eventType appDomainId
    exact Nat.zero_le 1
  · intro eventType appDomainId thread
    simp [initial, HostContext.initial, firstPost, sinceLast]
  · intro before event rest hlog
    simp [initial] at hlog
  · intro hne
    exact absurd rfl hne

/-- Deliveries recorded earlier stay what they were. -/
theorem delivered_concat {log : List LogEntry} {entry : LogEntry}
    (hlog : ∀ before event rest, log = before ++ .delivered event :: rest →
      firstPost before event.eventType event.appDomainId = some event.managedThreadId)
    (hentry : ∀ event, entry = .delivered event →
      firstPost log event.eventType event.appDomainId = some event.managedThreadId) :
    ∀ before event rest, log ++ [entry] = before ++ .delivered event :: rest →
      firstPost before event.eventType event.appDomainId = some event.managedThreadId := by
  intro before event rest heq
  rcases List.eq_nil_or_concat rest with rfl | ⟨front, last, rfl⟩
  · obtain ⟨hbefore, hlast⟩ := List.append_inj' heq rfl
    rw [← hbefore]
    exact hentry event (List.cons.inj hlast).1
  · have heq' : log ++ [entry] = (before ++ .delivered event :: front) ++ [last] := by
      simpa using heq
    exact hlog before event front (List.append_inj' heq' rfl).1

/-- A post joins the queue unless an event of its kind is there. -/
theorem Faithful.post {s : EventHistory} (hs : s.Faithful)
    (eventType appDomainId managedThreadId : Int32) :
    Faithful ⟨s.host.postHostMessage eventType appDomainId managedThreadId,
      s.log ++ [.posted ⟨eventType, appDomainId, managedThreadId⟩]⟩ := by
  have hother : ∀ e d, ¬ (appDomainId = d ∧ eventType = e) →
      sameEvent e d ⟨eventType, appDomainId, managedThreadId⟩ = false := by
    intro e d hne
    rw [← Bool.not_eq_true, sameEvent_iff]
    exact hne
  let entry : LogEntry := .posted ⟨eventType, appDomainId, managedThreadId⟩
  have hdelivered : ∀ before event rest, s.log ++ [entry] = before ++ .delivered event :: rest →
      firstPost before event.eventType event.appDomainId = some event.managedThreadId :=
    delivered_concat hs.delivered (fun event h => by simp [entry] at h)
  cases hany : s.host.messageQueue.reverse.any (sameEvent eventType appDomainId) with
  | true =>
      have hqueue : (s.host.postHostMessage eventType appDomainId managedThreadId).messageQueue =
          s.host.messageQueue := by
        simp only [HostContext.postHostMessage, postHostMessage, hany, if_true]
      obtain ⟨event, hmem, hsame⟩ := List.any_eq_true.mp hany
      obtain ⟨rfl, rfl⟩ := sameEvent_iff.mp hsame
      have hfirst := (hs.queued _ _ _).mp (List.mem_reverse.mp hmem)
      refine ⟨?_, ?_, hdelivered, fun _ => rfl⟩
      · rw [hqueue]
        exact hs.unique
      · intro e d thread
        rw [hqueue, hs.queued, firstPost_concat, ends, if_neg Bool.false_ne_true]
        by_cases hkey : event.appDomainId = d ∧ event.eventType = e
        · rw [← hkey.1, ← hkey.2, hfirst, Option.some_or]
        · simp [posts, hother e d hkey]
  | false =>
      have hqueue : (s.host.postHostMessage eventType appDomainId managedThreadId).messageQueue =
          s.host.messageQueue ++ [⟨eventType, appDomainId, managedThreadId⟩] := by
        simp [HostContext.postHostMessage, postHostMessage, hany]
      have hnone : ∀ event ∈ s.host.messageQueue,
          ¬ (event.appDomainId = appDomainId ∧ event.eventType = eventType) := by
        intro event hmem hkey
        have hfalse := List.any_eq_false.mp hany event (List.mem_reverse.mpr hmem)
        exact hfalse (sameEvent_iff.mpr hkey)
      have hfirst : firstPost s.log eventType appDomainId = none := by
        rw [Option.eq_none_iff_forall_ne_some]
        intro thread hthread
        exact hnone _ ((hs.queued _ _ _).mpr hthread) ⟨rfl, rfl⟩
      refine ⟨?_, ?_, hdelivered, fun _ => rfl⟩
      · intro e d
        rw [hqueue, List.countP_append, List.countP_singleton]
        by_cases hkey : appDomainId = d ∧ eventType = e
        · have hzero : s.host.messageQueue.countP (sameEvent e d) = 0 := by
            rw [List.countP_eq_zero]
            intro event hmem hsame
            obtain ⟨rfl, rfl⟩ := hkey
            exact hnone event hmem (sameEvent_iff.mp hsame)
          rw [hzero]
          split <;> omega
        · rw [hother e d hkey, if_neg Bool.false_ne_true]
          exact hs.unique e d
      · intro e d thread
        rw [hqueue, List.mem_append, hs.queued, List.mem_singleton, firstPost_concat, ends,
          if_neg Bool.false_ne_true]
        by_cases hkey : appDomainId = d ∧ eventType = e
        · obtain ⟨rfl, rfl⟩ := hkey
          simp [hfirst, posts, sameEvent, eq_comm]
        · simp only [posts, hother e d hkey, Bool.false_eq_true, if_false, Option.or_none]
          simp only [HostEvent.mk.injEq, or_iff_left_iff_imp]
          rintro ⟨rfl, rfl, -⟩
          exact absurd ⟨rfl, rfl⟩ hkey

/-- An unload ends the events of its domain and keeps the others. -/
theorem Faithful.unload {s : EventHistory} (hs : s.Faithful) (domainId : DWORD) :
    Faithful ⟨s.host.onDomainUnload domainId, s.log ++ [.unloaded domainId]⟩ := by
  have hqueue : (s.host.onDomainUnload domainId).messageQueue =
      s.host.messageQueue.filter (fun event => event.appDomainId.toUInt32 != domainId) := rfl
  refine ⟨?_, ?_, ?_, ?_⟩
  · intro e d
    rw [hqueue]
    exact le_trans List.filter_sublist.countP_le (hs.unique e d)
  · intro e d thread
    rw [hqueue, List.mem_filter, hs.queued, firstPost_concat, ends, posts_unloaded,
      Option.or_none]
    by_cases hd : d.toUInt32 = domainId <;> simp [hd]
  · exact delivered_concat hs.delivered (fun event h => by cases h)
  · intro hne
    refine hs.signalled ?_
    intro hnil
    exact hne (by rw [hqueue, hnil, List.filter_nil])

/-- A read takes the youngest event off the queue and into the history. -/
theorem Faithful.read {s : EventHistory} (hs : s.Faithful) {host : HostContext}
    {hostEvent : Option HostEvent} (hne : s.host.messageQueue ≠ [])
    (h : s.host.rawGetLastMessage = .ok (host, hostEvent)) :
    ∃ event, hostEvent = some event ∧ Faithful ⟨host, s.log ++ [.delivered event]⟩ := by
  have hread := (HostContext.rawGetLastMessage_ok h).1
  rcases rawGetLastMessage_ok hread with ⟨hsignal, -, -⟩ | ⟨event, rfl, hsignal, htake⟩
  · rw [hs.signalled hne] at hsignal
    cases hsignal
  · obtain ⟨hlast, hqueue, hevent⟩ := takeLastMessage_ok htake
    have hsplit := List.dropLast_append_getLast? event hlast
    have hmem : event ∈ s.host.messageQueue := List.mem_of_getLast? hlast
    have hfirst := (hs.queued event.eventType event.appDomainId event.managedThreadId).mp hmem
    refine ⟨event, rfl, ?_, ?_, ?_, ?_⟩
    · intro e d
      rw [hqueue]
      exact le_trans (List.dropLast_sublist _).countP_le (hs.unique e d)
    · intro e d thread
      rw [hqueue, firstPost_concat, ends, posts_delivered, Option.or_none]
      have hcount := hs.unique e d
      rw [← hsplit, List.countP_append, List.countP_singleton] at hcount
      by_cases hkey : sameEvent e d event = true
      · -- the event that was taken was the only one of its kind
        rw [if_pos hkey]
        rw [if_pos hkey] at hcount
        have hzero : s.host.messageQueue.dropLast.countP (sameEvent e d) = 0 := by omega
        rw [List.countP_eq_zero] at hzero
        simp only [reduceCtorEq, iff_false]
        intro hin
        exact hzero _ hin (sameEvent_iff.mpr ⟨rfl, rfl⟩)
      · rw [if_neg hkey, ← hs.queued]
        nth_rewrite 2 [← hsplit]
        rw [List.mem_append, List.mem_singleton, or_iff_left]
        rintro rfl
        exact hkey (sameEvent_iff.mpr ⟨rfl, rfl⟩)
    · refine delivered_concat hs.delivered ?_
      rintro taken heq
      cases heq
      exact hfirst
    · intro hrest
      rw [hqueue] at hrest
      rw [hevent, hsignal]
      simp [hrest]

theorem step_faithful (s : EventHistory) (call : EventCall) (next : EventHistory)
    (hs : s.Faithful) (hcond : s.ReadsNonEmpty call) (h : s.step call = .ok next) :
    next.Faithful := by
  cases call with
  | postHostMessage eventType appDomainId managedThreadId =>
      cases h
      exact hs.post eventType appDomainId managedThreadId
  | onDomainUnload domainId =>
      cases h
      exact hs.unload domainId
  | rawGetLastMessage =>
      simp only [step] at h
      split at h
      next host hostEvent hread =>
        cases h
        obtain ⟨event, heq, hnext⟩ := hs.read hcond hread
        cases heq
        exact hnext
      next host hread =>
        obtain ⟨event, heq, -⟩ := hs.read hcond hread
        cases heq
      next => cases h

/-- No read of a queue that is not empty fails. -/
theorem step_ne_error {s : EventHistory} {call : EventCall} (hcond : s.ReadsNonEmpty call)
    (fault : HostFault) : s.step call ≠ .error fault := by
  cases call with
  | postHostMessage | onDomainUnload => intro h; cases h
  | rawGetLastMessage =>
      intro h
      simp only [step] at h
      split at h
      next => cases h
      next => cases h
      next fault' hread =>
        obtain ⟨-, -, hnil⟩ :=
          rawGetLastMessage_error (HostContext.rawGetLastMessage_error hread)
        exact hcond hnil

/-- In every run in which the queue is only read when it is not empty, no event
is lost and none is duplicated, and every read delivers an event. -/
theorem events_exactly_once {calls : List EventCall}
    (hreads : Meets step ReadsNonEmpty initial calls) :
    Always step ExactlyOnce initial calls ∧
      ∀ fault, run step initial calls ≠ .error fault := by
  have halways : Always step Faithful initial calls :=
    always_of_meets step_faithful faithful_initial hreads
  refine ⟨halways.imp (fun s hs => hs.exactlyOnce), ?_⟩
  intro fault
  exact hreads.run_ne_error (fun s call hcond => step_ne_error hcond fault)

/-- Two posts of one kind are merged, one is purged and one is delivered. -/
theorem events_exactly_once_merged :
    Always step ExactlyOnce initial [.postHostMessage 1 2 7, .postHostMessage 1 2 8,
        .postHostMessage 1 3 9, .onDomainUnload 2, .rawGetLastMessage,
        .postHostMessage 1 2 8] ∧
      ∀ fault, run step initial [.postHostMessage 1 2 7, .postHostMessage 1 2 8,
        .postHostMessage 1 3 9, .onDomainUnload 2, .rawGetLastMessage,
        .postHostMessage 1 2 8] ≠ .error fault :=
  events_exactly_once (by decide)

end EventHistory

end HostedPumpkin
