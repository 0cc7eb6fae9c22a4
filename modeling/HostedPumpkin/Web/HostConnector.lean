import HostedPumpkin.Data.MessageStream
import HostedPumpkin.Library.Runs
import HostedPumpkin.Pool.State

/-!
The web server and the host on one socket. `HostSocketConnector` is registered as
one instance, so all calls of `RunSnippetAsync` share its socket: each sends its
snippet id and takes the next string that arrives for the result. The host reads
one string at a time and replies when the snippet has run. A reply does not say
which request it belongs to.

A run starts with the connection made, and the connection does not fail. Which of
the receives that are posted gets the next bytes, and how many, is up to the run.
The pool stands behind `DoStuffAndReturnWhenIdFinished`: it comes back with a
result or an exception. Four fields are history.
-/

namespace HostedPumpkin

open Utf16 Runs

abbrev Guid := BitVec 128

inductive SnippetHealth where
  | unknown
  | good
  | error
  | fatal
deriving DecidableEq, Repr

def SnippetStatus.toHealth : SnippetStatus → SnippetHealth
  | .success => .good
  | .timeout | .executionError | .resourceError => .error
  | .criticalError => .fatal
  | .initializationError => .unknown

/-- `SnippetResult` with the fields the pool does not look at. -/
structure ReportedResult extends SnippetResult where
  totalTime : Int := 0
  output : List String := []
deriving DecidableEq, Repr

/-- The library calls on strings: `command.IndexOf("<EOF>") != -1`, `Guid.Parse`,
`JsonConvert.SerializeObject` and `JsonConvert.DeserializeObject`. An exception is
`none`. -/
structure Formats where
  hasEof : List CodeUnit → Bool
  parseGuid : List CodeUnit → Option Guid
  serializeObject : ReportedResult → List CodeUnit
  deserializeObject : List CodeUnit → Option ReportedResult

/-- Where a call of `RunSnippetAsync` is. -/
inductive CallPc where
  | send
  | receive
  | receiving (status : SocketStatus)
  | returned (result : ReportedResult)
  | failed

structure Call where
  snippetId : List CodeUnit
  pc : CallPc

/-- Where `HandleConnection` is. -/
inductive ServerPc where
  | receiving (status : SocketStatus)
  | awaitResult (snippetId : Guid)
  | closed

/-- A request on its way to the host: the call that sent it, and the id. -/
structure SnippetRequest where
  call : Nat
  snippetId : List CodeUnit
deriving DecidableEq, Repr

/-- A reply on its way back, with the request it was made for. -/
structure SnippetReply where
  request : SnippetRequest
  result : ReportedResult
deriving DecidableEq, Repr

structure HostConnection where
  calls : Nat → Option Call
  requests : List UInt8
  replies : List UInt8
  server : ServerPc
  /-- The snippet ids in the order of their sends. -/
  sent : List (List CodeUnit)
  /-- The strings `HandleConnection` has read, and the results it got. -/
  commands : List (List CodeUnit)
  produced : List (Guid × ReportedResult)
  /-- The requests the host is not done with, and the replies that no call has
  read to the end. -/
  pending : List SnippetRequest
  answered : List SnippetReply

inductive ConnectorAction where
  | runSnippetAsync (call : Nat) (snippetId : List CodeUnit)
  | send (call : Nat)
  | beginReceive (call : Nat)
  | endReceive (call : Nat) (count : Nat)
  | serverEndReceive (count : Nat)
  | resultReady (result : ReportedResult) (statusUpdated : Bool)
  | resultFails
deriving DecidableEq, Repr

inductive ConnectorFault where
  | notEnabled
deriving DecidableEq, Repr

/-- A receive completes with a front of the bytes on the stream, or with none when
the other side has closed and all of them are read. -/
def Readable (bytes : List UInt8) (closed : Bool) (count : Nat) : Prop :=
  (0 < count ∧ count ≤ SocketStatus.bufferSize ∧ count ≤ bytes.length) ∨
    (count = 0 ∧ closed = true ∧ bytes = [])

instance (bytes : List UInt8) (closed : Bool) (count : Nat) :
    Decidable (Readable bytes closed count) :=
  inferInstanceAs (Decidable (_ ∨ _))

/-- The rest of `RunSnippetAsync` after its `ReceiveAsync`. -/
def Formats.afterReceive (f : Formats) : TaskCompletion → CallPc
  | .exception _ => .failed
  | .result s =>
      match f.deserializeObject s with
      | some result => .returned result
      | none => .failed

/-- What a receive in progress has read. -/
def Call.read (call : Call) : List CodeUnit :=
  match call.pc with
  | .receiving status => status.sb
  | .send | .receive | .returned _ | .failed => []

def Call.result (call : Call) : Option ReportedResult :=
  match call.pc with
  | .returned result => some result
  | .send | .receive | .receiving _ | .failed => none

theorem Call.pc_of_result {call : Call} {result : ReportedResult}
    (h : call.result = some result) : call.pc = .returned result := by
  simp only [Call.result] at h
  split at h
  next hpc =>
      cases h
      exact hpc
  all_goals cases h

def ServerPc.read : ServerPc → List CodeUnit
  | .receiving status => status.sb
  | .awaitResult _ | .closed => []

@[simp] theorem ServerPc.read_receiving_initial :
    (ServerPc.receiving SocketStatus.initial).read = [] := rfl

@[simp] theorem ServerPc.read_awaitResult (snippetId : Guid) :
    (ServerPc.awaitResult snippetId).read = [] := rfl

def ServerPc.isClosed : ServerPc → Bool
  | .closed => true
  | .receiving _ | .awaitResult _ => false

namespace HostConnection

def initial : HostConnection where
  calls := fun _ => none
  requests := []
  replies := []
  server := .receiving SocketStatus.initial
  sent := []
  commands := []
  produced := []
  pending := []
  answered := []

def setCall (c : HostConnection) (k : Nat) (call : Call) : HostConnection :=
  { c with calls := Function.update c.calls k (some call) }

def sendRequest (c : HostConnection) (request : SnippetRequest) : HostConnection :=
  { c with
    requests := c.requests ++ sendAsync request.snippetId true
    sent := c.sent ++ [request.snippetId]
    pending := c.pending ++ [request] }

/-- An exception in the loop of `HandleConnection` is logged, and the loop goes on
with the next command. The request gets no reply. -/
def giveUp (c : HostConnection) : HostConnection :=
  { c with server := .receiving SocketStatus.initial, pending := c.pending.tail }

/-- `HandleConnection` sends the result and goes on with the next command. -/
def reply (f : Formats) (c : HostConnection) (result : ReportedResult) : HostConnection :=
  { c with
    server := .receiving SocketStatus.initial
    replies := c.replies ++ sendAsync (f.serializeObject result) true
    pending := c.pending.tail
    answered := c.answered ++ (c.pending.head?.map (fun request => ⟨request, result⟩)).toList }

/-- `HandleConnection` after its `ReceiveAsync`. -/
def handleCommand (f : Formats) (c : HostConnection) : TaskCompletion → HostConnection
  | .exception _ => { c with server := .receiving SocketStatus.initial }
  | .result command =>
      let c := { c with commands := c.commands ++ [command] }
      if f.hasEof command then { c with server := .closed }
      else
        match f.parseGuid command with
        | some snippetId => { c with server := .awaitResult snippetId }
        | none => c.giveUp

def step (f : Formats) (c : HostConnection) :
    ConnectorAction → Except ConnectorFault HostConnection
  | .runSnippetAsync k snippetId =>
      match c.calls k with
      | some _ => .error .notEnabled
      | none => .ok (c.setCall k ⟨snippetId, .send⟩)
  | .send k =>
      match c.calls k with
      | some ⟨snippetId, .send⟩ =>
          .ok ((c.setCall k ⟨snippetId, .receive⟩).sendRequest ⟨k, snippetId⟩)
      | _ => .error .notEnabled
  | .beginReceive k =>
      match c.calls k with
      | some ⟨snippetId, .receive⟩ =>
          .ok (c.setCall k ⟨snippetId, .receiving SocketStatus.initial⟩)
      | _ => .error .notEnabled
  | .endReceive k count =>
      match c.calls k with
      | some ⟨snippetId, .receiving status⟩ =>
          if Readable c.replies c.server.isClosed count then
            let c' := { c with replies := c.replies.drop count }
            match receiveCallback status (.data (c.replies.take count)) with
            | .inl next => .ok (c'.setCall k ⟨snippetId, .receiving next⟩)
            | .inr completion =>
                .ok { c'.setCall k ⟨snippetId, f.afterReceive completion⟩ with
                  answered := c.answered.tail }
          else .error .notEnabled
      | _ => .error .notEnabled
  | .serverEndReceive count =>
      match c.server with
      | .receiving status =>
          if Readable c.requests false count then
            let c' := { c with requests := c.requests.drop count }
            match receiveCallback status (.data (c.requests.take count)) with
            | .inl next => .ok { c' with server := .receiving next }
            | .inr completion => .ok (c'.handleCommand f completion)
          else .error .notEnabled
      | _ => .error .notEnabled
  | .resultReady result statusUpdated =>
      match c.server with
      | .awaitResult snippetId =>
          let c := { c with produced := c.produced ++ [(snippetId, result)] }
          -- `UpdateStatus` is called for some statuses only, and may throw
          if result.status.toHealth ≠ .unknown ∧ statusUpdated = false then .ok c.giveUp
          else .ok (c.reply f result)
      | _ => .error .notEnabled
  | .resultFails =>
      match c.server with
      | .awaitResult _ => .ok c.giveUp
      | _ => .error .notEnabled

/-- The result is one the host got for this id. -/
def ProducedFor (f : Formats) (c : HostConnection) (id : List CodeUnit)
    (result : ReportedResult) : Prop :=
  ∃ snippetId, f.parseGuid id = some snippetId ∧ (snippetId, result) ∈ c.produced

/-- Every call that has returned has a result of the snippet it asked for, and
what the host has read is the requests, one by one as they were sent. -/
structure AnswersKept (f : Formats) (c : HostConnection) : Prop where
  returned : ∀ k call result, c.calls k = some call → call.pc = .returned result →
    c.ProducedFor f call.snippetId result
  requests : c.commands <+: c.sent

/-- The requests whose calls still wait, in the order of their sends: those with
a reply, and those the host is not done with. -/
def outstanding (c : HostConnection) : List SnippetRequest :=
  c.answered.map SnippetReply.request ++ c.pending

/-- The call that has waited longest. -/
def turn (c : HostConnection) : Option Nat := c.outstanding.head?.map SnippetRequest.call

/-- The string comes out of JSON as it went in, and out of the socket. -/
def Transmits (f : Formats) (result : ReportedResult) : Prop :=
  WellFormed (f.serializeObject result) ∧ 0 ∉ f.serializeObject result ∧
    f.deserializeObject (f.serializeObject result) = some result

/-- The condition on a step: ids and results can be sent, no receive gets bytes
beyond a terminator or a part of a character, and the replies are received by the
calls in the order of their sends. -/
def InTurn (f : Formats) (c : HostConnection) : ConnectorAction → Prop
  | .send k => ∀ call ∈ c.calls k,
      WellFormed call.snippetId ∧ 0 ∉ call.snippetId ∧ f.hasEof call.snippetId = false
  | .endReceive k count => c.turn = some k ∧ WithinMessage (c.replies.take count)
  | .serverEndReceive count => WithinMessage (c.requests.take count)
  | .resultReady result _ => Transmits f result
  | .runSnippetAsync _ _ | .beginReceive _ | .resultFails => True

instance (f : Formats) (c : HostConnection) (a : ConnectorAction) :
    Decidable (c.InTurn f a) := by
  cases a <;> unfold InTurn <;> try unfold Transmits
  all_goals infer_instance

/-! The invariant: what is on the two streams. -/

/-- The requests the host has not read to the end. -/
def unread (c : HostConnection) : List SnippetRequest :=
  match c.server with
  | .receiving _ => c.pending
  | .awaitResult _ | .closed => c.pending.tail

/-- What a call has read of the first string on its stream. -/
def readBy (c : HostConnection) (k : Nat) : List CodeUnit :=
  ((c.calls k).map Call.read).getD []

/-- The host's side: the requests it has not read are what its stream carries. -/
structure HostReads (f : Formats) (c : HostConnection) : Prop where
  running : c.server.isClosed = false
  requests : MessageStream c.server.read c.requests (c.unread.map SnippetRequest.snippetId)
  sent : c.sent = c.commands ++ c.unread.map SnippetRequest.snippetId
  noEof : ∀ request ∈ c.pending, f.hasEof request.snippetId = false
  awaits : ∀ snippetId, c.server = .awaitResult snippetId →
    ∃ request rest, c.pending = request :: rest ∧
      f.parseGuid request.snippetId = some snippetId

/-- The calls' side: the replies that are not read are what their stream carries,
and only the call whose turn it is has read anything. -/
structure CallsRead (f : Formats) (c : HostConnection) : Prop where
  known : ∀ request ∈ c.outstanding,
    (c.calls request.call).map Call.snippetId = some request.snippetId
  replies : ∃ read,
    MessageStream read c.replies
      (c.answered.map (fun reply => f.serializeObject reply.result)) ∧
    ∀ k, c.readBy k = if c.turn = some k then read else []
  answered : ∀ reply ∈ c.answered,
    f.deserializeObject (f.serializeObject reply.result) = some reply.result ∧
      c.ProducedFor f reply.request.snippetId reply.result
  returned : ∀ k call result, c.calls k = some call → call.pc = .returned result →
    c.ProducedFor f call.snippetId result

variable {f : Formats} {c c' : HostConnection}

theorem readBy_setCall (c : HostConnection) (k : Nat) (call : Call) (j : Nat) :
    (c.setCall k call).readBy j = if j = k then call.read else c.readBy j := by
  by_cases hj : j = k
  · subst hj
    simp [readBy, setCall]
  · simp [readBy, setCall, hj]

theorem snippetId_setCall {k : Nat} {call : Call} {request : SnippetRequest}
    (hid : ∀ old, c.calls k = some old → old.snippetId = call.snippetId)
    (hknown : (c.calls request.call).map Call.snippetId = some request.snippetId) :
    ((c.setCall k call).calls request.call).map Call.snippetId = some request.snippetId := by
  by_cases hk : request.call = k
  · obtain ⟨old, hold, hsnippet⟩ := Option.map_eq_some_iff.mp hknown
    rw [hk] at hold
    simp [setCall, hk, ← hsnippet, hid old hold]
  · simpa [setCall, hk] using hknown

theorem returned_setCall {k : Nat} {call : Call}
    (hreturned : ∀ k call result, c.calls k = some call → call.pc = .returned result →
      c.ProducedFor f call.snippetId result)
    (hcall : ∀ result, call.pc = .returned result → c.ProducedFor f call.snippetId result) :
    ∀ j other result, (c.setCall k call).calls j = some other → other.pc = .returned result →
      c.ProducedFor f other.snippetId result := by
  intro j other result hother hpc
  by_cases hj : j = k
  · have heq : call = other := by simpa [setCall, hj] using hother
    subst heq
    exact hcall result hpc
  · have hbefore : c.calls j = some other := by simpa [setCall, hj] using hother
    exact hreturned j other result hbefore hpc

/-- Nothing is read of a reply that has not been sent. -/
theorem CallsRead.nothing_read (h : CallsRead f c) (hanswered : c.answered = []) :
    c.replies = [] ∧ ∀ k, c.readBy k = [] := by
  obtain ⟨read, hstream, hread⟩ := h.replies
  rw [hanswered, List.map_nil] at hstream
  obtain ⟨hnil, hbytes⟩ := hstream.eq_nil
  refine ⟨hbytes, ?_⟩
  intro k
  rw [hread k, hnil, ite_self]

/-- The other calls have read nothing. -/
theorem CallsRead.others_read (h : CallsRead f c) {j k : Nat} (hturn : c.turn = some k)
    (hj : j ≠ k) : c.readBy j = [] := by
  obtain ⟨read, -, hreads⟩ := h.replies
  rw [hreads j, if_neg]
  intro heq
  exact hj (Option.some.inj (heq.symm.trans hturn))

/-- A call takes a step that reads nothing. -/
theorem CallsRead.setCall (h : CallsRead f c) {k : Nat} {call : Call}
    (hid : ∀ old, c.calls k = some old → old.snippetId = call.snippetId)
    (hread : call.read = c.readBy k) (hpc : ∀ result, call.pc ≠ .returned result) :
    CallsRead f (c.setCall k call) := by
  refine ⟨?_, ?_, h.answered, ?_⟩
  · intro request hrequest
    exact snippetId_setCall hid (h.known request hrequest)
  · obtain ⟨read, hstream, hreads⟩ := h.replies
    refine ⟨read, hstream, ?_⟩
    intro j
    rw [readBy_setCall]
    split
    next hj => rw [hread, ← hj, hreads j]; rfl
    next => exact hreads j
  · apply returned_setCall h.returned
    intro result hresult
    exact absurd hresult (hpc result)

/-- The host takes requests or is done with them; it has replied to nothing new. -/
theorem CallsRead.withPending (h : CallsRead f c) (hcalls : c'.calls = c.calls)
    (hreplies : c'.replies = c.replies) (hanswered : c'.answered = c.answered)
    (hproduced : c.produced ⊆ c'.produced)
    (hknown : ∀ request ∈ c'.pending,
      (c.calls request.call).map Call.snippetId = some request.snippetId) :
    CallsRead f c' := by
  have hmono : ∀ {id result}, c.ProducedFor f id result → c'.ProducedFor f id result := by
    rintro id result ⟨snippetId, hparse, hmem⟩
    exact ⟨snippetId, hparse, hproduced hmem⟩
  have hreadBy : ∀ k, c'.readBy k = c.readBy k := by
    intro k
    rw [readBy, readBy, hcalls]
  refine ⟨?_, ?_, ?_, ?_⟩
  · intro request hrequest
    rw [outstanding, hanswered, List.mem_append] at hrequest
    rw [hcalls]
    rcases hrequest with hrequest | hrequest
    · exact h.known request (List.mem_append_left _ hrequest)
    · exact hknown request hrequest
  · obtain ⟨read, hstream, hreads⟩ := h.replies
    rw [hreplies, hanswered]
    refine ⟨read, hstream, ?_⟩
    intro k
    rw [hreadBy k]
    cases hcases : c.answered with
    | nil =>
        rw [hcases, List.map_nil] at hstream
        rw [(h.nothing_read hcases).2 k, hstream.eq_nil.1, ite_self]
    | cons reply others =>
        have hturn : c'.turn = c.turn := by
          simp [turn, outstanding, hanswered, hcases]
        rw [hturn, hreads k]
  · intro reply hreply
    rw [hanswered] at hreply
    obtain ⟨hjson, hfor⟩ := h.answered reply hreply
    exact ⟨hjson, hmono hfor⟩
  · intro k call result hcall hpc
    rw [hcalls] at hcall
    exact hmono (h.returned k call result hcall hpc)

theorem CallsRead.pending_known (h : CallsRead f c) : ∀ request ∈ c.pending,
    (c.calls request.call).map Call.snippetId = some request.snippetId := by
  intro request hrequest
  exact h.known request (List.mem_append_right _ hrequest)

theorem CallsRead.giveUp (h : CallsRead f c) : CallsRead f c.giveUp := by
  refine h.withPending rfl rfl rfl (List.Subset.refl _) ?_
  intro request hrequest
  exact h.pending_known request (List.mem_of_mem_tail hrequest)

/-- What the host does with a command is not seen by the calls. -/
theorem CallsRead.handleCommand (h : CallsRead f c) (command : List CodeUnit) :
    CallsRead f (c.handleCommand f (.result command)) := by
  simp only [HostConnection.handleCommand]
  have hcommand : CallsRead f { c with commands := c.commands ++ [command] } :=
    h.withPending rfl rfl rfl (List.Subset.refl _) h.pending_known
  split
  next => exact h.withPending rfl rfl rfl (List.Subset.refl _) h.pending_known
  next =>
      split
      next => exact h.withPending rfl rfl rfl (List.Subset.refl _) h.pending_known
      next => exact hcommand.giveUp

/-- The host replies to the request it has taken. -/
theorem CallsRead.reply (h : CallsRead f c) {request : SnippetRequest} {rest : List SnippetRequest}
    {result : ReportedResult} (hpending : c.pending = request :: rest)
    (htransmits : Transmits f result)
    (hfor : c.ProducedFor f request.snippetId result) : CallsRead f (c.reply f result) := by
  have hanswered : (c.reply f result).answered = c.answered ++ [⟨request, result⟩] := by
    simp [HostConnection.reply, hpending]
  have houtstanding : (c.reply f result).outstanding = c.outstanding := by
    rw [outstanding, outstanding, hanswered]
    simp [HostConnection.reply, hpending]
  refine ⟨?_, ?_, ?_, h.returned⟩
  · rw [houtstanding]
    exact h.known
  · obtain ⟨read, hstream, hreads⟩ := h.replies
    refine ⟨read, ?_, ?_⟩
    · rw [hanswered, List.map_append]
      exact hstream.send htransmits.1 htransmits.2.1
    · intro k
      rw [turn, houtstanding]
      exact hreads k
  · intro reply hreply
    rw [hanswered, List.mem_append, List.mem_singleton] at hreply
    obtain hreply | rfl := hreply
    · exact h.answered reply hreply
    · exact ⟨htransmits.2.2, hfor⟩

/-- The call whose turn it is gets a part of its reply. -/
theorem CallsRead.advance (h : CallsRead f c) {k count : Nat} {id : List CodeUnit}
    {status next : SocketStatus} (hcall : c.calls k = some ⟨id, .receiving status⟩)
    (hturn : c.turn = some k)
    (hstream : MessageStream next.sb (c.replies.drop count)
      (c.answered.map (fun reply => f.serializeObject reply.result))) :
    CallsRead f
      ({ c with replies := c.replies.drop count }.setCall k ⟨id, .receiving next⟩) := by
  refine ⟨?_, ⟨next.sb, hstream, ?_⟩, h.answered, ?_⟩
  · intro request hrequest
    refine snippetId_setCall ?_ (h.known request hrequest)
    intro old hold
    rw [Option.some.inj (hold.symm.trans hcall)]
  · intro j
    rw [readBy_setCall]
    by_cases hj : j = k
    · rw [if_pos hj, if_pos (by rw [hj]; exact hturn)]
      rfl
    · have hother : ¬ c.turn = some j := by
        intro heq
        exact hj (Option.some.inj (heq.symm.trans hturn))
      rw [if_neg hj]
      exact (h.others_read hturn hj).trans (if_neg hother).symm
  · apply returned_setCall h.returned
    intro result hresult
    cases hresult

/-- The call whose turn it is gets the rest of its reply. -/
theorem CallsRead.complete (h : CallsRead f c) {k count : Nat} {id message : List CodeUnit}
    {more : List (List CodeUnit)} {status : SocketStatus}
    (hcall : c.calls k = some ⟨id, .receiving status⟩) (hturn : c.turn = some k)
    (hmessages : c.answered.map (fun reply => f.serializeObject reply.result) =
      message :: more)
    (hstream : MessageStream [] (c.replies.drop count) more) :
    CallsRead f
      { { c with replies := c.replies.drop count }.setCall k
          ⟨id, f.afterReceive (.result message)⟩ with answered := c.answered.tail } := by
  obtain ⟨reply, others, hanswered, rfl, rfl⟩ := List.map_eq_cons_iff.mp hmessages
  obtain ⟨hjson, hfor⟩ := h.answered reply (by simp [hanswered])
  have hk : reply.request.call = k := by
    simpa [turn, outstanding, hanswered] using hturn
  have hid : reply.request.snippetId = id := by
    have hknown := h.known reply.request (by simp [outstanding, hanswered])
    simpa [hk, hcall] using hknown.symm
  have hafter : f.afterReceive (.result (f.serializeObject reply.result)) =
      .returned reply.result := by
    simp only [Formats.afterReceive, hjson]
  rw [hafter]
  have hold : ∀ old, c.calls k = some old →
      old.snippetId = (⟨id, .returned reply.result⟩ : Call).snippetId := by
    intro old hold
    rw [Option.some.inj (hold.symm.trans hcall)]
  refine ⟨?_, ⟨[], ?_, ?_⟩, ?_, ?_⟩
  · intro request hrequest
    refine snippetId_setCall hold (h.known request ?_)
    rw [outstanding, hanswered]
    simp only [outstanding, hanswered, List.tail_cons] at hrequest
    exact List.mem_cons_of_mem _ hrequest
  · rw [hanswered]
    exact hstream
  · intro j
    rw [ite_self]
    refine (readBy_setCall _ k _ j).trans ?_
    by_cases hj : j = k
    · rw [if_pos hj]
      rfl
    · rw [if_neg hj]
      exact h.others_read hturn hj
  · intro other hother
    exact h.answered other (List.mem_of_mem_tail hother)
  · apply returned_setCall h.returned
    intro result hresult
    cases hresult
    rw [← hid]
    exact hfor

/-- A receive takes at least one byte of a connection that is not closed. -/
theorem take_ne_nil {bytes : List UInt8} {closed : Bool} {count : Nat}
    (h : Readable bytes closed count) (hopen : closed = false) : bytes.take count ≠ [] := by
  obtain ⟨hpos, -, hlength⟩ | ⟨-, hclosed, -⟩ := h
  · intro hnil
    rw [List.take_eq_nil_iff] at hnil
    rcases hnil with hzero | hbytes
    · omega
    · rw [hbytes, List.length_nil] at hlength
      omega
  · rw [hopen] at hclosed
    cases hclosed

theorem HostReads.send (h : HostReads f c) {request : SnippetRequest}
    (hid : WellFormed request.snippetId) (hzero : 0 ∉ request.snippetId)
    (hEof : f.hasEof request.snippetId = false) : HostReads f (c.sendRequest request) := by
  have hunread : (c.sendRequest request).unread = c.unread ++ [request] := by
    cases hserver : c.server with
    | receiving status => simp [unread, sendRequest, hserver]
    | awaitResult snippetId =>
        obtain ⟨first, rest, hpending, -⟩ := h.awaits snippetId hserver
        simp [unread, sendRequest, hserver, hpending]
    | closed =>
        have hrunning := h.running
        rw [hserver] at hrunning
        cases hrunning
  refine ⟨h.running, ?_, ?_, ?_, ?_⟩
  · rw [hunread, List.map_append]
    exact h.requests.send hid hzero
  · rw [hunread, List.map_append, ← List.append_assoc]
    exact congrArg (· ++ [request.snippetId]) h.sent
  · intro other hother
    rcases List.mem_append.mp hother with hother | hother
    · exact h.noEof other hother
    · rw [List.mem_singleton.mp hother]
      exact hEof
  · intro snippetId hserver
    obtain ⟨first, rest, hpending, hparse⟩ := h.awaits snippetId hserver
    refine ⟨first, rest ++ [request], ?_, hparse⟩
    simp [sendRequest, hpending]

/-- The host is done with a request, whether it replied or not. -/
theorem HostReads.done (h : HostReads f c) {snippetId : Guid}
    (hserver : c.server = .awaitResult snippetId)
    (hnext : c'.server = .receiving SocketStatus.initial) (hrequests : c'.requests = c.requests)
    (hsent : c'.sent = c.sent) (hcommands : c'.commands = c.commands)
    (hpending : c'.pending = c.pending.tail) : HostReads f c' := by
  have hread : c'.server.read = c.server.read := by
    rw [hnext, hserver]
    rfl
  have hunread : c'.unread = c.unread := by
    simp only [unread, hnext, hserver, hpending]
  refine ⟨by rw [hnext]; rfl, ?_, ?_, ?_, ?_⟩
  · rw [hread, hunread, hrequests]
    exact h.requests
  · rw [hunread, hsent, hcommands]
    exact h.sent
  · intro request hrequest
    rw [hpending] at hrequest
    exact h.noEof request (List.mem_of_mem_tail hrequest)
  · intro id hid
    rw [hnext] at hid
    cases hid

/-- The host gets a part of a request. -/
theorem HostReads.advance (h : HostReads f c) {count : Nat} {status next : SocketStatus}
    (hserver : c.server = .receiving status)
    (hstream : MessageStream next.sb (c.requests.drop count)
      (c.pending.map SnippetRequest.snippetId)) :
    HostReads f { c with requests := c.requests.drop count, server := .receiving next } := by
  refine ⟨rfl, hstream, ?_, h.noEof, ?_⟩
  · have hsent := h.sent
    simp only [unread, hserver] at hsent
    exact hsent
  · intro snippetId hawaits
    cases hawaits

/-- The host gets the rest of a request and takes it, or gives it up. -/
theorem HostReads.complete (h : HostReads f c) {count : Nat} {command : List CodeUnit}
    {more : List (List CodeUnit)} {status : SocketStatus}
    (hserver : c.server = .receiving status)
    (hmessages : c.pending.map SnippetRequest.snippetId = command :: more)
    (hstream : MessageStream [] (c.requests.drop count) more) :
    HostReads f
      ({ c with requests := c.requests.drop count }.handleCommand f (.result command)) := by
  obtain ⟨request, rest, hpending, rfl, rfl⟩ := List.map_eq_cons_iff.mp hmessages
  have hEof : ¬ f.hasEof request.snippetId = true := by
    rw [h.noEof request (by simp [hpending])]
    exact Bool.false_ne_true
  have hsent : c.sent =
      (c.commands ++ [request.snippetId]) ++ rest.map SnippetRequest.snippetId := by
    have hsent := h.sent
    simp only [unread, hserver, hpending, List.map_cons] at hsent
    rw [hsent, List.append_assoc, List.singleton_append]
  have hrest : ∀ other ∈ rest, f.hasEof other.snippetId = false := by
    intro other hother
    exact h.noEof other (by simp [hpending, hother])
  simp only [handleCommand, if_neg hEof]
  cases hparse : f.parseGuid request.snippetId with
  | some snippetId =>
      refine ⟨rfl, ?_, ?_, h.noEof, ?_⟩
      · simpa [unread, hpending] using hstream
      · simpa [unread, hpending] using hsent
      · intro id hid
        cases hid
        exact ⟨request, rest, hpending, hparse⟩
  | none =>
      refine ⟨rfl, ?_, ?_, ?_, ?_⟩
      · simpa [giveUp, unread, hpending] using hstream
      · simpa [giveUp, unread, hpending] using hsent
      · simpa [giveUp, hpending] using hrest
      · intro id hid
        cases hid

/-- Both streams carry what is not read of them. -/
structure Ordered (f : Formats) (c : HostConnection) : Prop where
  host : HostReads f c
  calls : CallsRead f c

theorem ordered_initial : Ordered f initial := by
  refine ⟨⟨rfl, MessageStream.nil, rfl, ?_, ?_⟩, ⟨?_, ⟨[], MessageStream.nil, ?_⟩, ?_, ?_⟩⟩
  · intro request hrequest
    cases hrequest
  · intro snippetId hserver
    cases hserver
  · intro request hrequest
    cases hrequest
  · intro k
    rw [ite_self]
    rfl
  · intro reply hreply
    cases hreply
  · intro k call result hcall
    cases hcall

theorem Ordered.setCall (hs : Ordered f c) {k : Nat} {call : Call}
    (hid : ∀ old, c.calls k = some old → old.snippetId = call.snippetId)
    (hread : call.read = c.readBy k) (hpc : ∀ result, call.pc ≠ .returned result) :
    Ordered f (c.setCall k call) :=
  ⟨⟨hs.host.running, hs.host.requests, hs.host.sent, hs.host.noEof, hs.host.awaits⟩,
    hs.calls.setCall hid hread hpc⟩

theorem ordered_runSnippetAsync (hs : Ordered f c) {k : Nat} {id : List CodeUnit}
    (h : c.step f (.runSnippetAsync k id) = .ok c') : Ordered f c' := by
  simp only [step] at h
  split at h
  next => cases h
  next hnone =>
      cases h
      refine hs.setCall ?_ ?_ ?_
      · intro old hold
        rw [hnone] at hold
        cases hold
      · simp [readBy, hnone, Call.read]
      · intro result hresult
        cases hresult

theorem ordered_send (hs : Ordered f c) {k : Nat} (hturn : c.InTurn f (.send k))
    (h : c.step f (.send k) = .ok c') : Ordered f c' := by
  simp only [step] at h
  split at h
  next id hcall =>
      cases h
      obtain ⟨hid, hzero, hEof⟩ := hturn _ hcall
      have hset : Ordered f (c.setCall k ⟨id, .receive⟩) := by
        refine hs.setCall ?_ ?_ ?_
        · intro old hold
          rw [Option.some.inj (hold.symm.trans hcall)]
        · simp [readBy, hcall, Call.read]
        · intro result hresult
          cases hresult
      refine ⟨hset.host.send hid hzero hEof,
        hset.calls.withPending rfl rfl rfl (List.Subset.refl _) ?_⟩
      intro request hrequest
      rcases List.mem_append.mp hrequest with hrequest | hrequest
      · exact hset.calls.known request (List.mem_append_right _ hrequest)
      · rw [List.mem_singleton.mp hrequest]
        simp [HostConnection.setCall]
  next => cases h

theorem ordered_beginReceive (hs : Ordered f c) {k : Nat}
    (h : c.step f (.beginReceive k) = .ok c') : Ordered f c' := by
  simp only [step] at h
  split at h
  next id hcall =>
      cases h
      refine hs.setCall ?_ ?_ ?_
      · intro old hold
        rw [Option.some.inj (hold.symm.trans hcall)]
      · simp [readBy, hcall, Call.read, SocketStatus.initial]
      · intro result hresult
        cases hresult
  next => cases h

theorem ordered_endReceive (hs : Ordered f c) {k count : Nat}
    (hturn : c.InTurn f (.endReceive k count))
    (h : c.step f (.endReceive k count) = .ok c') : Ordered f c' := by
  obtain ⟨hturn, hchunk⟩ := hturn
  simp only [step] at h
  split at h
  next id status hcall =>
      split_ifs at h with hreadable
      obtain ⟨read, hstream, hreads⟩ := hs.calls.replies
      have hread : status.sb = read := by
        have hk := hreads k
        rw [if_pos hturn] at hk
        simpa [readBy, hcall, Call.read] using hk
      rw [← hread] at hstream
      have hhost := hs.host
      obtain ⟨next, hcallback, hnext⟩ | ⟨message, more, hmessages, hcallback, hmore⟩ :=
        hstream.receive (take_ne_nil hreadable hhost.running) hchunk
      · simp only [hcallback] at h
        cases h
        exact ⟨⟨hhost.running, hhost.requests, hhost.sent, hhost.noEof, hhost.awaits⟩,
          hs.calls.advance hcall hturn hnext⟩
      · simp only [hcallback] at h
        cases h
        exact ⟨⟨hhost.running, hhost.requests, hhost.sent, hhost.noEof, hhost.awaits⟩,
          hs.calls.complete hcall hturn hmessages hmore⟩
  next => cases h

theorem ordered_serverEndReceive (hs : Ordered f c) {count : Nat}
    (hturn : c.InTurn f (.serverEndReceive count))
    (h : c.step f (.serverEndReceive count) = .ok c') : Ordered f c' := by
  simp only [step] at h
  split at h
  next status hserver =>
      split_ifs at h with hreadable
      have hstream : MessageStream status.sb c.requests
          (c.pending.map SnippetRequest.snippetId) := by
        have hrequests := hs.host.requests
        simp only [hserver, unread] at hrequests
        exact hrequests
      have hcalls : CallsRead f { c with requests := c.requests.drop count } :=
        hs.calls.withPending rfl rfl rfl (List.Subset.refl _) hs.calls.pending_known
      obtain ⟨next, hcallback, hnext⟩ | ⟨command, more, hmessages, hcallback, hmore⟩ :=
        hstream.receive (take_ne_nil hreadable rfl) hturn
      · simp only [hcallback] at h
        cases h
        exact ⟨hs.host.advance hserver hnext,
          hcalls.withPending rfl rfl rfl (List.Subset.refl _) hcalls.pending_known⟩
      · simp only [hcallback] at h
        cases h
        exact ⟨hs.host.complete hserver hmessages hmore, hcalls.handleCommand command⟩
  next => cases h

theorem ordered_resultReady (hs : Ordered f c) {result : ReportedResult} {statusUpdated : Bool}
    (hturn : c.InTurn f (.resultReady result statusUpdated))
    (h : c.step f (.resultReady result statusUpdated) = .ok c') : Ordered f c' := by
  simp only [step] at h
  split at h
  next snippetId hserver =>
      obtain ⟨request, rest, hpending, hparse⟩ := hs.host.awaits snippetId hserver
      have hproduced : CallsRead f { c with produced := c.produced ++ [(snippetId, result)] } :=
        hs.calls.withPending rfl rfl rfl (List.subset_append_left _ _) hs.calls.pending_known
      split at h
      next =>
          cases h
          exact ⟨hs.host.done hserver rfl rfl rfl rfl rfl, hproduced.giveUp⟩
      next =>
          cases h
          exact ⟨hs.host.done hserver rfl rfl rfl rfl rfl,
            hproduced.reply hpending hturn ⟨snippetId, hparse, by simp⟩⟩
  next => cases h

theorem ordered_resultFails (hs : Ordered f c) (h : c.step f .resultFails = .ok c') :
    Ordered f c' := by
  simp only [step] at h
  split at h
  next snippetId hserver =>
      cases h
      exact ⟨hs.host.done hserver rfl rfl rfl rfl rfl, hs.calls.giveUp⟩
  next => cases h

theorem ordered_step {a : ConnectorAction} (hs : Ordered f c) (hturn : c.InTurn f a)
    (h : c.step f a = .ok c') : Ordered f c' := by
  cases a with
  | runSnippetAsync k id => exact ordered_runSnippetAsync hs h
  | send k => exact ordered_send hs hturn h
  | beginReceive k => exact ordered_beginReceive hs h
  | endReceive k count => exact ordered_endReceive hs hturn h
  | serverEndReceive count => exact ordered_serverEndReceive hs hturn h
  | resultReady result statusUpdated => exact ordered_resultReady hs hturn h
  | resultFails => exact ordered_resultFails hs h

theorem Ordered.kept (hs : Ordered f c) : AnswersKept f c := by
  refine ⟨hs.calls.returned, ?_⟩
  rw [hs.host.sent]
  exact List.prefix_append _ _

/-- In every run in which each receive gets bytes of one string only and the
replies are received in the order of the requests, every call that returns has
the result of its own snippet, and the host reads every request by itself. -/
theorem answers_kept (f : Formats) (actions : List ConnectorAction)
    (hturn : Meets (step f) (InTurn f) initial actions) :
    Always (step f) (AnswersKept f) initial actions := by
  have hordered : Always (step f) (Ordered f) initial actions :=
    always_of_meets (fun _ _ _ hs hcond h => ordered_step hs hcond h) ordered_initial hturn
  exact hordered.imp (fun _ hs => hs.kept)

/-! Two calls at once, on ids as `Guid.ToString` writes them. -/

/-- The code units of an ASCII text. -/
def unitsOf (text : String) : List CodeUnit :=
  text.toList.map (fun character => UInt16.ofNat character.toNat)

def hexDigit (u : CodeUnit) : Option Nat :=
  if 48 ≤ u ∧ u ≤ 57 then some (u.toNat - 48)
  else if 97 ≤ u ∧ u ≤ 102 then some (u.toNat - 87)
  else none

/-- Five groups of digits with hyphens between them. -/
def parseGroups (s : List CodeUnit) : Option Guid :=
  if s.length = 36 ∧ ∀ i ∈ [8, 13, 18, 23], s[i]? = some 45 then
    ((s.filter (· ≠ 45)).mapM hexDigit).map
      (fun digits => BitVec.ofNat 128 (digits.foldl (fun n digit => 16 * n + digit) 0))
  else none

/-- The JSON text of a snippet that succeeded and wrote nothing. -/
def jsonOf (result : ReportedResult) : List CodeUnit :=
  unitsOf "\x7b\"status\":0,\"exception\":null,\"executionTime\":" ++
    unitsOf (toString result.executionTime) ++ unitsOf ",\"totalTime\":0,\"output\":[]\x7d"

def quickResult : ReportedResult := { executionTime := 5 }

def slowResult : ReportedResult := { executionTime := 70 }

def plainFormats : Formats where
  hasEof command := decide (unitsOf "<EOF>" <:+: command)
  parseGuid := parseGroups
  serializeObject := jsonOf
  deserializeObject s := [quickResult, slowResult].find? (fun result => jsonOf result = s)

def quickId : List CodeUnit := unitsOf "3f2504e0-4f89-11d3-9a0c-0305e82c3301"

def quickGuid : Guid := 0x3f2504e04f8911d39a0c0305e82c3301

def slowId : List CodeUnit := unitsOf "9b2b1f6a-52c7-4d0e-8a55-0c4d7f1e6b02"

/-- Both calls send before the host reads. -/
def bothSend : List ConnectorAction :=
  [.runSnippetAsync 0 quickId, .runSnippetAsync 1 slowId, .send 0, .send 1]

/-- The host gets one request at a time, and the calls receive in turn. -/
def inTurnRun : List ConnectorAction :=
  bothSend ++ [.beginReceive 0, .beginReceive 1, .serverEndReceive 74,
    .resultReady quickResult true, .endReceive 0 148, .serverEndReceive 74,
    .resultReady slowResult true, .endReceive 1 150]

theorem answers_kept_two_calls :
    Always (step plainFormats) (AnswersKept plainFormats) initial inTurnRun ∧
      Reaches (step plainFormats) (fun c =>
          (c.calls 0).bind Call.result = some quickResult ∧
          (c.calls 1).bind Call.result = some slowResult) initial inTurnRun :=
  ⟨answers_kept plainFormats inTurnRun (by decide +kernel), by decide +kernel⟩

/-- The two requests arrive in one chunk, which is one command for the host. -/
def mergedRun : List ConnectorAction := bothSend ++ [.serverEndReceive 148]

/-- The second call has begun its receive, and the first reply arrives. -/
def crossedRun : List ConnectorAction :=
  bothSend ++ [.beginReceive 1, .beginReceive 0, .serverEndReceive 74,
    .resultReady quickResult true, .endReceive 1 148]


/-- Requests that are merged get no reply, and a call may return the result of
another one. -/
theorem shared_socket_mixes_calls :
    ¬ Always (step plainFormats) (AnswersKept plainFormats) initial mergedRun ∧
      ¬ Always (step plainFormats) (AnswersKept plainFormats) initial crossedRun := by
  constructor
  · intro h
    have hmerged : Reaches (step plainFormats) (fun c => ¬ c.commands <+: c.sent) initial
        mergedRun := by decide +kernel
    obtain ⟨c, hrun, hcommands⟩ := reaches_iff.mp hmerged
    exact hcommands (h.last hrun).requests
  · intro h
    have hcrossed : Reaches (step plainFormats) (fun c =>
        (c.calls 1).bind Call.result = some quickResult ∧
          (c.calls 1).map Call.snippetId = some slowId ∧
          c.produced = [(quickGuid, quickResult)]) initial crossedRun := by decide +kernel
    obtain ⟨c, hrun, hresult, hid, hproduced⟩ := reaches_iff.mp hcrossed
    obtain ⟨call, hcall, hresult⟩ := Option.bind_eq_some_iff.mp hresult
    have hslow : call.snippetId = slowId := by simpa [hcall] using hid
    obtain ⟨snippetId, hparse, hmem⟩ :=
      (h.last hrun).returned 1 call quickResult hcall (Call.pc_of_result hresult)
    have hquick : snippetId = quickGuid := by simpa [hproduced] using hmem
    rw [hslow, hquick] at hparse
    exact absurd hparse (by decide +kernel)

end HostConnection

end HostedPumpkin
