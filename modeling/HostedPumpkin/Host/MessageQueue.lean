import HostedPumpkin.Host.Operations

/-!
The message queue and its manual-reset event. The event is meant to say that
the list is not empty: `PostHostMessage` sets it and `raw_GetLastMessage`
resets it when it takes the last event. `OnDomainUnload` removes events too and
leaves the event alone, so the two agree in exactly the runs in which no unload
removes the last queued event.
-/

namespace HostedPumpkin

open Runs

namespace MessageData

/-- `hMessageEvent` is signalled if and only if there is something to read. -/
def SignalMatches (m : MessageData) : Prop :=
  m.hMessageEvent = true ↔ m.messageQueue ≠ []

/-- Purging a domain leaves something to read if there was something. -/
def PurgeKeepsEvent (domainId : DWORD) (m : MessageData) : Prop :=
  m.messageQueue = [] ∨ ∃ event ∈ m.messageQueue, event.appDomainId.toUInt32 ≠ domainId

theorem postHostMessage_queue_ne_nil (eventType appDomainId managedThreadId : Int32)
    (m : MessageData) :
    (m.postHostMessage eventType appDomainId managedThreadId).messageQueue ≠ [] := by
  simp only [postHostMessage]
  split
  next h =>
    intro hnil
    simp [hnil] at h
  next => simp

theorem postHostMessage_signalMatches (eventType appDomainId managedThreadId : Int32)
    (m : MessageData) :
    (m.postHostMessage eventType appDomainId managedThreadId).SignalMatches :=
  iff_of_true rfl (postHostMessage_queue_ne_nil eventType appDomainId managedThreadId m)

theorem rawGetLastMessage_signalMatches {m next : MessageData}
    {hostEvent : Option HostEvent} (hm : m.SignalMatches)
    (h : m.rawGetLastMessage = .ok (next, hostEvent)) : next.SignalMatches := by
  rcases rawGetLastMessage_ok h with ⟨-, rfl, -⟩ | ⟨event, -, hsignal, htake⟩
  · exact hm
  · obtain ⟨-, hqueue, hevent⟩ := takeLastMessage_ok htake
    simp only [SignalMatches, hqueue, hevent, hsignal]
    by_cases hempty : m.messageQueue.dropLast = []
    · simp [hempty]
    · simp [hempty]

theorem purgeDomain_queue_ne_nil {m : MessageData} {domainId : DWORD} :
    (m.purgeDomain domainId).messageQueue ≠ [] ↔
      ∃ event ∈ m.messageQueue, event.appDomainId.toUInt32 ≠ domainId := by
  simp [purgeDomain, List.filter_eq_nil_iff]

/-- An unload keeps signal and list in step exactly when it does not remove the
last event. -/
theorem purgeDomain_signalMatches_iff {m : MessageData} {domainId : DWORD}
    (hm : m.SignalMatches) :
    (m.purgeDomain domainId).SignalMatches ↔ m.PurgeKeepsEvent domainId := by
  have hsame : (m.purgeDomain domainId).hMessageEvent = m.hMessageEvent := rfl
  rw [SignalMatches, hsame, purgeDomain_queue_ne_nil, PurgeKeepsEvent]
  rw [SignalMatches] at hm
  rw [hm]
  constructor
  · intro h
    by_cases hnil : m.messageQueue = []
    · exact Or.inl hnil
    · exact Or.inr (h.mp hnil)
  · rintro (hnil | hevent)
    · simp [hnil]
    · refine iff_of_true ?_ hevent
      obtain ⟨event, hmem, -⟩ := hevent
      exact List.ne_nil_of_mem hmem

end MessageData

namespace HostContext

/-- Every effect a call can have on the message queue. -/
theorem step_messages {s next : HostContext} {op : HostOp} (h : s.step op = .ok next) :
    next.toMessageData = s.toMessageData ∨
      (∃ eventType appDomainId managedThreadId, next.toMessageData =
        s.toMessageData.postHostMessage eventType appDomainId managedThreadId) ∨
      (op = .rawGetLastMessage ∧ ∃ hostEvent,
        s.toMessageData.rawGetLastMessage = .ok (next.toMessageData, hostEvent)) ∨
      (∃ domainId, op = .onDomainUnload domainId ∧
        next.toMessageData = s.toMessageData.purgeDomain domainId) := by
  cases op with
  | postHostMessage eventType appDomainId managedThreadId =>
      cases h
      exact Or.inr (Or.inl ⟨eventType, appDomainId, managedThreadId, rfl⟩)
  | rawGetLastMessage =>
      obtain ⟨hostEvent, hread⟩ := map_fst_ok h
      exact Or.inr (Or.inr (Or.inl ⟨rfl, hostEvent, (rawGetLastMessage_ok hread).1⟩))
  | onDomainUnload domainId =>
      cases h
      exact Or.inr (Or.inr (Or.inr ⟨domainId, rfl, rfl⟩))
  | onThreadAcquiring parent =>
      obtain ⟨answer, hcall⟩ := map_fst_ok h
      rcases onThreadAcquiring_ok hcall with rfl | ⟨domain, -, rfl⟩
      · exact Or.inl rfl
      · exact Or.inr (Or.inl ⟨_, _, _, rfl⟩)
  | onDomainCreate | onThreadAcquire | onThreadRelease =>
      obtain ⟨c, -, rfl⟩ := withDomainData_ok h
      exact Or.inl rfl
  | onDomainRudeUnload | onMemoryAcquire | onMemoryRelease
  | rawResetCountersForAppDomain =>
      cases h
      exact Or.inl rfl

/-- The condition an unload needs; every other call is free. -/
def UnloadKeepsEvent (s : HostContext) : HostOp → Prop
  | .onDomainUnload domainId => s.toMessageData.PurgeKeepsEvent domainId
  | _ => True

/-- One call keeps signal and list in step exactly under the condition. -/
theorem step_signalMatches_iff (s : HostContext) (op : HostOp)
    (hs : s.toMessageData.SignalMatches) :
    s.UnloadKeepsEvent op ↔
      ∀ next, s.step op = .ok next → next.toMessageData.SignalMatches := by
  constructor
  · intro hcond next h
    rcases step_messages h with hsame | ⟨_, _, _, hpost⟩ | ⟨-, _, hread⟩ | ⟨d, rfl, hpurge⟩
    · rw [hsame]
      exact hs
    · rw [hpost]
      exact MessageData.postHostMessage_signalMatches _ _ _ _
    · exact MessageData.rawGetLastMessage_signalMatches hs hread
    · rw [hpurge]
      exact (MessageData.purgeDomain_signalMatches_iff hs).mpr hcond
  · intro hnext
    cases op with
    | onDomainUnload domainId =>
        exact (MessageData.purgeDomain_signalMatches_iff hs).mp
          (hnext (s.onDomainUnload domainId) rfl)
    | _ => trivial

/-- Signal and list agree throughout a run, and no read meets an empty list, if
and only if no unload of the run removes the last queued event. -/
theorem signal_matches_queue_iff (ops : List HostOp) :
    (Always step (fun s => s.toMessageData.SignalMatches) initial ops ∧
        run step initial ops ≠ .error .emptyList) ↔
      Meets step UnloadKeepsEvent initial ops := by
  have hinitial : initial.toMessageData.SignalMatches := by
    simp [MessageData.SignalMatches, initial]
  apply always_and_run_ne_error_iff step_signalMatches_iff hinitial
  intro s op hs hfault
  obtain ⟨-, hsignal, hnil⟩ := MessageData.rawGetLastMessage_error (step_emptyList hfault)
  exact hs.mp hsignal hnil

/-- One post, then the unload of the domain it is about: the event stays
signalled over an empty list and the next read calls `back()` on it. -/
theorem unload_leaves_event_signalled :
    ¬ ∀ ops : List HostOp,
      Always step (fun s => s.toMessageData.SignalMatches) initial ops ∧
        run step initial ops ≠ .error .emptyList := by
  intro hall
  have hfault : run step initial [.postHostMessage 1 2 0, .onDomainUnload 2,
      .rawGetLastMessage] = .error .emptyList := by decide
  exact (hall _).2 hfault

end HostContext

end HostedPumpkin
