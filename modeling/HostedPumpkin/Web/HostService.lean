import HostedPumpkin.Pool.QueueOrder
import HostedPumpkin.Web.HostServer

/-!
The server over its pool: any number of connections, each with its own `HandleConnection`,
and the one `DomainPool` behind them. A command that names a snippet of the repository becomes
a call of `SubmitSnippet`, and the connection goes on when the task of that call has ended. In
between the other connections and every thread of the pool take their steps.

A reply is the answer to the command it is sent for, whatever the interleaving, and a
connection never has two snippets in the pool. So the queue, which has no bound of its own, is
never longer than there are connections.
-/

namespace HostedPumpkin

open Utf16 Runs

/-- Where `HandleConnection` is: before its `ReceiveAsync`, inside `SubmitSnippet`, behind the
`await` of the task, or past its loop. -/
inductive HandlerPc where
  | receiving
  | submitting (snippetId : Guid) (call : Nat)
  | awaiting (snippetId : Guid) (call : Nat)
  | closed
deriving DecidableEq

/-- A reply, with the number of the command it is sent for and the call its result is of. -/
structure HandlerReply where
  command : Nat
  call : Nat
  result : ReportedResult
deriving DecidableEq

/-- A run of `HandleConnection`, with the commands it has received and the replies it has sent. -/
structure Handler where
  pc : HandlerPc := .receiving
  commands : List (List CodeUnit) := []
  replies : List HandlerReply := []

/-- What a call of `SubmitSnippet` is made for: a command of a connection, the snippet it names
and what the repository has of it. -/
structure HostRequest where
  connection : Nat
  command : Nat
  snippetId : Guid
  snippetData : SnippetData

structure HostService where
  queue : QueueSystem
  handlers : Nat → Option Handler
  connections : Nat
  /-- History: the calls of `SubmitSnippet`. -/
  requests : Nat → Option HostRequest

/-- A connection is accepted, receives a command, comes back from `SubmitSnippet`, goes on with
the result of its task or finds its socket closed; or the pool takes a step. The repository
and the socket are parameters: what `Get` returns or that it throws, whether `UpdateStatus`
returns and whether the reply can be sent. -/
inductive ServiceAction where
  | accept
  | command (connection : Nat) (text : List CodeUnit) (get : Guid → Option (Option SnippetData))
  | submitted (connection : Nat)
  | resume (connection : Nat) (result : ReportedResult) (statusUpdated sent : Bool)
  | disconnect (connection : Nat)
  | pool (a : PoolAction)

/-- The result in the task of a call: the first that was set. -/
def DomainPool.resultOf (p : DomainPool) (completion : Completion) : Option Delivery :=
  p.delivered.find? (fun delivery => delivery.completion = completion)

/-- The call of `SubmitSnippet` a connection is busy with. -/
def HandlerPc.call : HandlerPc → Option Nat
  | .submitting _ call | .awaiting _ call => some call
  | .receiving | .closed => none

/-- The commands that were dealt with: all but the one the connection is busy with. -/
def Handler.settled (handler : Handler) : Nat :=
  if handler.pc.call.isSome then handler.commands.length - 1 else handler.commands.length

theorem Handler.settled_of_idle {handler : Handler} (h : handler.pc.call = none) :
    handler.settled = handler.commands.length := by
  simp [settled, h]

theorem Handler.settled_of_busy {handler : Handler} {call : Nat}
    (h : handler.pc.call = some call) : handler.settled = handler.commands.length - 1 := by
  simp [settled, h]

namespace HostService

def initial (numberOfDomainsInPool : Nat) : HostService :=
  ⟨QueueSystem.initial numberOfDomainsInPool, fun _ => none, 0, fun _ => none⟩

def setHandler (s : HostService) (connection : Nat) (handler : Handler) : HostService :=
  { s with handlers := Function.update s.handlers connection (some handler) }

theorem setHandler_handlers (s : HostService) (connection : Nat) (handler : Handler) :
    (s.setHandler connection handler).handlers =
      Function.update s.handlers connection (some handler) := rfl

/-- `DoStuffAndReturnWhenIdFinished` up to the call of `SubmitSnippet`. -/
def submitSnippet (s : HostService) (connection : Nat) (handler : Handler) (snippetId : Guid)
    (snippetData : SnippetData) : Except PoolFault HostService :=
  let call := s.queue.system.calls
  match s.queue.step (.submit true) with
  | .error fault => .error fault
  | .ok queue =>
      .ok { s.setHandler connection { handler with pc := .submitting snippetId call } with
        queue
        requests := Function.update s.requests call
          (some ⟨connection, handler.commands.length - 1, snippetId, snippetData⟩) }

/-- `HandleConnection` after its `ReceiveAsync`. -/
def receive (f : Formats) (s : HostService) (connection : Nat) (handler : Handler)
    (text : List CodeUnit) (get : Guid → Option (Option SnippetData)) :
    Except PoolFault HostService :=
  let handler := { handler with commands := handler.commands ++ [text] }
  if f.hasEof text then .ok (s.setHandler connection { handler with pc := .closed })
  else
    match f.parseGuid text with
    | none => .ok (s.setHandler connection handler)
    | some snippetId =>
        match get snippetId with
        | some (some snippetData) => s.submitSnippet connection handler snippetId snippetData
        -- the task gets the exception, and the `await` throws it
        | some none | none => .ok (s.setHandler connection handler)

/-- `SubmitSnippet` has returned, or has thrown into the task. -/
def submitted (s : HostService) (connection : Nat) (handler : Handler) :
    Except PoolFault HostService :=
  match handler.pc with
  | .submitting snippetId call =>
      match (s.queue.system.submitters call).map Submitter.pc with
      | some .returned =>
          .ok (s.setHandler connection { handler with pc := .awaiting snippetId call })
      | some .threw =>
          -- `TrySetException`, which is too late for a task that has its result
          if (s.queue.system.pool.resultOf call).isSome then
            .ok (s.setHandler connection { handler with pc := .awaiting snippetId call })
          else .ok (s.setHandler connection { handler with pc := .receiving })
      | _ => .error .notEnabled
  | _ => .error .notEnabled

/-- `HandleConnection` behind the `await`. Of the result the pool keeps the status. -/
def resume (s : HostService) (connection : Nat) (handler : Handler) (result : ReportedResult)
    (statusUpdated sent : Bool) : Except PoolFault HostService :=
  match handler.pc with
  | .awaiting _ call =>
      match s.queue.system.pool.resultOf call with
      | some delivery =>
          if delivery.status = result.status then
            let handler := { handler with pc := .receiving }
            -- an exception of `UpdateStatus` or of `SendAsync` is caught in the loop
            if (result.status.toHealth ≠ .unknown ∧ statusUpdated = false) ∨ sent = false then
              .ok (s.setHandler connection handler)
            else
              .ok (s.setHandler connection { handler with
                replies := handler.replies ++ [⟨handler.commands.length - 1, call, result⟩] })
          else .error .notEnabled
      | none => .error .notEnabled
  | _ => .error .notEnabled

/-- Every call of `SubmitSnippet` is one of the server. -/
def isSubmit : PoolAction → Bool
  | .submit _ => true
  | _ => false

def step (f : Formats) (s : HostService) : ServiceAction → Except PoolFault HostService
  | .accept =>
      .ok { s.setHandler s.connections {} with connections := s.connections + 1 }
  | .command connection text get =>
      match s.handlers connection with
      | some handler =>
          if handler.pc = .receiving then s.receive f connection handler text get
          else .error .notEnabled
      | none => .error .notEnabled
  | .submitted connection =>
      match s.handlers connection with
      | some handler => s.submitted connection handler
      | none => .error .notEnabled
  | .resume connection result statusUpdated sent =>
      match s.handlers connection with
      | some handler => s.resume connection handler result statusUpdated sent
      | none => .error .notEnabled
  -- a connection that waits for a result does not look at its socket
  | .disconnect connection =>
      match s.handlers connection with
      | some handler =>
          if handler.pc = .receiving then
            .ok (s.setHandler connection { handler with pc := .closed })
          else .error .notEnabled
      | none => .error .notEnabled
  | .pool a =>
      if isSubmit a then .error .notEnabled
      else
        match s.queue.step a with
        | .error fault => .error fault
        | .ok queue => .ok { s with queue }

/-- The reply answers its command: the snippet the command names went into the queue, was taken
by a worker, and the result is the one that was set for it. -/
def Answers (f : Formats) (s : HostService) (connection : Nat) (handler : Handler)
    (reply : HandlerReply) : Prop :=
  ∃ request text, s.requests reply.call = some request ∧ request.connection = connection ∧
    request.command = reply.command ∧ handler.commands[reply.command]? = some text ∧
    f.hasEof text = false ∧ f.parseGuid text = some request.snippetId ∧
    (reply.call, ⟨some reply.call⟩) ∈ s.queue.added ∧
    (∃ t, (t, ⟨some reply.call⟩) ∈ s.queue.taken) ∧
    ∃ delivery ∈ s.queue.system.pool.delivered,
      delivery.completion = reply.call ∧ delivery.status = reply.result.status

/-- The snippet of a call waits in the queue or is in the hands of a worker. -/
def InPool (s : HostService) (call : Nat) : Prop :=
  (∃ snippet ∈ s.queue.system.pool.snippetsQueue, snippet.submissionId = some call) ∨
    ∃ t w, s.queue.system.workers t = some w ∧ w.pc.holdsSnippet = true ∧
      w.snippetToRun.submissionId = some call

/-- Every reply of a connection answers a command of that connection, each command gets at most
one, in their order, and no result is sent twice. A connection has at most one snippet in the
pool, so the queue is never longer than there are connections. -/
structure AnswersOwn (f : Formats) (s : HostService) : Prop where
  answers : ∀ connection handler, s.handlers connection = some handler →
    ∀ reply ∈ handler.replies, s.Answers f connection handler reply
  inOrder : ∀ connection handler, s.handlers connection = some handler →
    (handler.replies.map HandlerReply.command).Pairwise (· < ·)
  sentOnce : ∀ connection handler other otherHandler, s.handlers connection = some handler →
    s.handlers other = some otherHandler → ∀ reply ∈ handler.replies,
      ∀ otherReply ∈ otherHandler.replies, reply.call = otherReply.call →
        connection = other ∧ reply = otherReply
  requested : ∀ call, s.InPool call → ∃ request, s.requests call = some request
  oneInPool : ∀ call call' request request', s.requests call = some request →
    s.requests call' = some request' → request.connection = request'.connection →
      s.InPool call → s.InPool call' → call = call'
  bounded : s.queue.system.pool.snippetsQueue.length ≤ s.connections

/-! ### The calls of `SubmitSnippet` under the steps of the pool -/

/-- A call keeps its snippet, and one that threw is over. -/
def SameCall (submitter submitter' : Submitter) : Prop :=
  submitter'.snippetInfo = submitter.snippetInfo ∧
    (submitter.pc = .threw → submitter'.pc = .threw)

theorem sameCall_rfl (call : Option Submitter) : Option.Rel SameCall call call := by
  cases call with
  | none => exact .none
  | some submitter => exact .some ⟨rfl, id⟩

/-- A step of the pool makes no call, and ends none that is not there. -/
theorem calls_step {p p' : PoolSystem} {a : PoolAction} (h : p.step a = .ok p')
    (hnot : isSubmit a = false) (call : Nat) :
    Option.Rel SameCall (p.submitters call) (p'.submitters call) := by
  obtain ⟨t, w, pool, w', -, -, rfl⟩ | hother := PoolSystem.step_ok h
  · exact sameCall_rfl _
  · cases hother with
    | submit withCompletion id hid => cases hnot
    | submitter moving submitter _ hsubmitter hnext =>
        obtain ⟨pc, hsubmitters, -⟩ := PoolSystem.submitterNext_submission hnext
        rw [hsubmitters]
        by_cases hmoves : call = moving
        · rw [hmoves, Function.update_self, hsubmitter]
          refine .some ⟨rfl, ?_⟩
          intro hthrew
          simp only [PoolSystem.submitterNext, hthrew] at hnext
          cases hnext
        · rw [Function.update_of_ne hmoves]
          exact sameCall_rfl _
    | watchdog _ hnext =>
        rw [(PoolSystem.watchdogNext_samePool hnext).2.submitters]
        exact sameCall_rfl _
    | interrupted | foreignAbort | host | tick => exact sameCall_rfl _

theorem delivered_step {p p' : PoolSystem} {a : PoolAction} (h : p.step a = .ok p') :
    p.pool.delivered ⊆ p'.pool.delivered := by
  obtain ⟨t, w, pool, w', -, hmove, rfl⟩ | hother := PoolSystem.step_ok h
  · change p.pool.delivered ⊆ pool.delivered
    cases QueueSystem.moves_workerStep hmove with
    | take _ _ _ _ hdelivered | other _ _ hdelivered =>
        rw [hdelivered]
        exact List.Subset.refl _
    | deliver _ _ _ _ _ _ _ hdelivered =>
        rw [hdelivered]
        exact List.subset_append_left _ _
  · rw [hother.frame.delivered]
    exact List.Subset.refl _

section Steps

variable {f : Formats} {s next : HostService}

/-- The call has ended without a snippet in the pool: it has its result, or it threw. -/
def Settled (s : HostService) (call : Nat) : Prop :=
  call ∈ s.queue.system.pool.delivered.map Delivery.completion ∨
    ∃ submitter, s.queue.system.submitters call = some submitter ∧ submitter.pc = .threw

/-- A request is a command of its connection, which is busy with it until the call has settled. -/
def Traced (f : Formats) (s : HostService) (call : Nat) (request : HostRequest) : Prop :=
  (∃ submitter, s.queue.system.submitters call = some submitter) ∧
    ∃ handler text, s.handlers request.connection = some handler ∧
      handler.commands[request.command]? = some text ∧ f.hasEof text = false ∧
      f.parseGuid text = some request.snippetId ∧ (handler.pc.call = some call ∨ s.Settled call)

/-- The replies of a connection, and the call it is busy with. -/
structure Kept (f : Formats) (s : HostService) (connection : Nat) (handler : Handler) : Prop where
  below : connection < s.connections
  replies : ∀ reply ∈ handler.replies,
    s.Answers f connection handler reply ∧ reply.command < handler.settled
  inOrder : (handler.replies.map HandlerReply.command).Pairwise (· < ·)
  busy : ∀ call, handler.pc.call = some call → ∃ request, s.requests call = some request ∧
    request.connection = connection ∧ request.command + 1 = handler.commands.length

structure Invariant (f : Formats) (s : HostService) : Prop where
  queue : s.queue.Invariant
  known : ∀ call submitter, s.queue.system.submitters call = some submitter →
    submitter.snippetInfo.submissionId = some call ∧ ∃ request, s.requests call = some request
  traced : ∀ call request, s.requests call = some request → s.Traced f call request
  kept : ∀ connection handler, s.handlers connection = some handler →
    s.Kept f connection handler

/-- What is never taken back, and the calls. -/
structure Extends (s s' : HostService) : Prop where
  added : s.queue.added ⊆ s'.queue.added
  taken : s.queue.taken ⊆ s'.queue.taken
  delivered : s.queue.system.pool.delivered ⊆ s'.queue.system.pool.delivered
  calls : ∀ call submitter, s.queue.system.submitters call = some submitter → ∃ submitter',
    s'.queue.system.submitters call = some submitter' ∧ SameCall submitter submitter'
  requests : ∀ call request, s.requests call = some request → s'.requests call = some request
  connections : s.connections ≤ s'.connections

theorem extends_refl (s : HostService) : Extends s s :=
  ⟨List.Subset.refl _, List.Subset.refl _, List.Subset.refl _,
    fun _ submitter h => ⟨submitter, h, rfl, id⟩, fun _ _ h => h, le_rfl⟩

theorem Settled.extends {call : Nat} (h : s.Settled call) (hext : Extends s next) :
    next.Settled call := by
  obtain hdelivered | ⟨submitter, hsubmitter, hthrew⟩ := h
  · exact Or.inl (List.map_subset _ hext.delivered hdelivered)
  · obtain ⟨submitter', hsubmitter', -, hstays⟩ := hext.calls call submitter hsubmitter
    exact Or.inr ⟨submitter', hsubmitter', hstays hthrew⟩

theorem getElem?_of_prefix {α : Type} {l l' : List α} (h : l <+: l') {k : Nat} {a : α}
    (hget : l[k]? = some a) : l'[k]? = some a := by
  obtain ⟨hlt, rfl⟩ := List.getElem?_eq_some_iff.mp hget
  exact List.prefix_iff_getElem?.mp h k hlt

theorem Answers.extends {connection : Nat} {handler handler' : Handler} {reply : HandlerReply}
    (h : s.Answers f connection handler reply) (hext : Extends s next)
    (hcommands : handler.commands <+: handler'.commands) :
    next.Answers f connection handler' reply := by
  obtain ⟨request, text, hrequest, hconnection, hcommand, htext, hEof, hparse, hadded,
    ⟨t, ht⟩, delivery, hdelivery, hfields⟩ := h
  exact ⟨request, text, hext.requests _ _ hrequest, hconnection, hcommand,
    getElem?_of_prefix hcommands htext, hEof, hparse, hext.added hadded, ⟨t, hext.taken ht⟩,
    delivery, hext.delivered hdelivery, hfields⟩

/-- A connection that sends nothing may take a command and begin or end a call. -/
theorem Kept.goOn {connection : Nat} {handler handler' : Handler}
    (h : s.Kept f connection handler) (hext : Extends s next)
    (hcommands : handler.commands <+: handler'.commands)
    (hreplies : handler'.replies = handler.replies) (hsettled : handler.settled ≤ handler'.settled)
    (hbusy : ∀ call, handler'.pc.call = some call → ∃ request, next.requests call = some request ∧
      request.connection = connection ∧ request.command + 1 = handler'.commands.length) :
    next.Kept f connection handler' where
  below := h.below.trans_le hext.connections
  replies := by
    intro reply hreply
    rw [hreplies] at hreply
    obtain ⟨hanswers, hbelow⟩ := h.replies reply hreply
    exact ⟨hanswers.extends hext hcommands, hbelow.trans_le hsettled⟩
  inOrder := by
    rw [hreplies]
    exact h.inOrder
  busy := hbusy

theorem Kept.extends {connection : Nat} {handler : Handler} (h : s.Kept f connection handler)
    (hext : Extends s next) : next.Kept f connection handler := by
  apply h.goOn hext (List.prefix_refl _) rfl le_rfl
  intro call hcall
  obtain ⟨request, hrequest, hfields⟩ := h.busy call hcall
  exact ⟨request, hext.requests call request hrequest, hfields⟩

/-- What a step leaves to show once it takes nothing back. -/
theorem Invariant.of_extends (hs : Invariant f s) (hext : Extends s next)
    (hqueue : next.queue.Invariant)
    (hknown : ∀ call submitter, next.queue.system.submitters call = some submitter →
      submitter.snippetInfo.submissionId = some call ∧
        ∃ request, next.requests call = some request)
    (hhandlers : ∀ connection handler, s.handlers connection = some handler → ∃ handler',
      next.handlers connection = some handler' ∧ handler.commands <+: handler'.commands ∧
        ∀ call, handler.pc.call = some call → handler'.pc.call = some call ∨ next.Settled call)
    (hrequests : ∀ call request, next.requests call = some request →
      s.requests call = some request ∨ next.Traced f call request)
    (hkept : ∀ connection handler, next.handlers connection = some handler →
      next.Kept f connection handler) : Invariant f next := by
  refine ⟨hqueue, hknown, ?_, hkept⟩
  intro call request hrequest
  obtain hold | htraced := hrequests call request hrequest
  · obtain ⟨⟨submitter, hsubmitter⟩, handler, text, hhandler, htext, hEof, hparse, hbusy⟩ :=
      hs.traced call request hold
    obtain ⟨submitter', hsubmitter', -⟩ := hext.calls call submitter hsubmitter
    obtain ⟨handler', hhandler', hcommands, hends⟩ := hhandlers _ handler hhandler
    refine ⟨⟨submitter', hsubmitter'⟩, handler', text, hhandler',
      getElem?_of_prefix hcommands htext, hEof, hparse, ?_⟩
    obtain hcall | hsettled := hbusy
    · exact hends call hcall
    · exact Or.inr (hsettled.extends hext)
  · exact htraced

theorem handlers_setHandler {connection other : Nat} {handler found : Handler}
    (h : (s.setHandler connection handler).handlers other = some found) :
    (other = connection ∧ found = handler) ∨
      (other ≠ connection ∧ s.handlers other = some found) := by
  by_cases hsame : other = connection
  · rw [setHandler_handlers, hsame, Function.update_self] at h
    cases h
    exact Or.inl ⟨hsame, rfl⟩
  · rw [setHandler_handlers, Function.update_of_ne hsame] at h
    exact Or.inr ⟨hsame, h⟩

theorem extends_setHandler (s : HostService) (connection : Nat) (handler : Handler) :
    Extends s (s.setHandler connection handler) :=
  ⟨List.Subset.refl _, List.Subset.refl _, List.Subset.refl _, (extends_refl s).calls,
    fun _ _ h => h, le_rfl⟩

/-- A step of one connection by itself. -/
theorem Invariant.setHandler (hs : Invariant f s) {connection : Nat} {handler handler' : Handler}
    (hhandler : s.handlers connection = some handler)
    (hcommands : handler.commands <+: handler'.commands)
    (hends : ∀ call, handler.pc.call = some call →
      handler'.pc.call = some call ∨ s.Settled call)
    (hkept : s.Kept f connection handler') : Invariant f (s.setHandler connection handler') := by
  have hext := extends_setHandler s connection handler'
  apply hs.of_extends hext hs.queue hs.known
  · intro other found hfound
    by_cases hsame : other = connection
    · rw [hsame, hhandler] at hfound
      cases hfound
      rw [hsame]
      exact ⟨handler', Function.update_self _ _ _, hcommands, hends⟩
    · exact ⟨found, (Function.update_of_ne hsame _ _).trans hfound, List.prefix_refl _,
        fun call hcall => Or.inl hcall⟩
  · exact fun call request hrequest => Or.inl hrequest
  · intro other found hfound
    obtain ⟨rfl, rfl⟩ | ⟨-, hold⟩ := handlers_setHandler hfound
    · exact hkept.extends hext
    · exact (hs.kept other found hold).extends hext

/-- A connection that is not busy stays so, with what it has received. -/
theorem Invariant.idle (hs : Invariant f s) {connection : Nat} {handler handler' : Handler}
    (hhandler : s.handlers connection = some handler) (hidle : handler.pc.call = none)
    (hidle' : handler'.pc.call = none) (hcommands : handler.commands <+: handler'.commands)
    (hreplies : handler'.replies = handler.replies) :
    Invariant f (s.setHandler connection handler') := by
  apply hs.setHandler hhandler hcommands
  · intro call hcall
    rw [hidle] at hcall
    cases hcall
  · apply (hs.kept connection handler hhandler).goOn (extends_refl s) hcommands hreplies
    · rw [Handler.settled_of_idle hidle, Handler.settled_of_idle hidle']
      exact hcommands.length_le
    · intro call hcall
      rw [hidle'] at hcall
      cases hcall

/-- A call ends, and its connection takes the next command. -/
theorem Invariant.settle (hs : Invariant f s) {connection call : Nat} {handler : Handler}
    (hhandler : s.handlers connection = some handler) (hcall : handler.pc.call = some call)
    (hsettled : s.Settled call) {replies : List HandlerReply}
    (hreplies : replies = handler.replies ∨ ∃ reply, replies = handler.replies ++ [reply] ∧
      reply.command = handler.commands.length - 1 ∧ s.Answers f connection handler reply) :
    Invariant f (s.setHandler connection { handler with pc := .receiving, replies }) := by
  have hkept := hs.kept connection handler hhandler
  obtain ⟨request, -, -, hlength⟩ := hkept.busy call hcall
  have hbefore := Handler.settled_of_busy hcall
  have hafter : ({ handler with pc := .receiving, replies } : Handler).settled =
      handler.commands.length := rfl
  refine hs.setHandler hhandler ?_ ?_ ?_
  · exact List.prefix_refl _
  · intro other hother
    rw [hcall] at hother
    cases hother
    exact Or.inr hsettled
  · refine ⟨hkept.below, ?_, ?_, nofun⟩
    · intro reply hreply
      rw [hafter]
      have hold : ∀ reply ∈ handler.replies, s.Answers f connection handler reply ∧
          reply.command < handler.commands.length := by
        intro reply hreply
        obtain ⟨hanswers, hbelow⟩ := hkept.replies reply hreply
        exact ⟨hanswers, by omega⟩
      obtain rfl | ⟨new, rfl, hcommand, hanswers⟩ := hreplies
      · exact hold reply hreply
      · obtain hreply | hreply := List.mem_append.mp hreply
        · exact hold reply hreply
        · rw [List.mem_singleton.mp hreply]
          exact ⟨hanswers, by omega⟩
    · obtain rfl | ⟨new, rfl, hcommand, -⟩ := hreplies
      · exact hkept.inOrder
      · rw [List.map_append, List.pairwise_append]
        refine ⟨hkept.inOrder, List.pairwise_singleton _ _, ?_⟩
        intro earlier hearlier later hlater
        obtain ⟨reply, hreply, rfl⟩ := List.mem_map.mp hearlier
        rw [List.map_singleton, List.mem_singleton] at hlater
        have hbelow := (hkept.replies reply hreply).2
        omega

/-- A call begins, and its connection is busy with it. -/
theorem submitSnippet_ok {connection : Nat} {handler : Handler} {snippetId : Guid}
    {snippetData : SnippetData}
    (h : s.submitSnippet connection handler snippetId snippetData = .ok next) :
    s.queue.step (.submit true) = .ok next.queue ∧
      next.handlers = Function.update s.handlers connection
        (some { handler with pc := .submitting snippetId s.queue.system.calls }) ∧
      next.requests = Function.update s.requests s.queue.system.calls
        (some ⟨connection, handler.commands.length - 1, snippetId, snippetData⟩) ∧
      next.connections = s.connections := by
  simp only [submitSnippet] at h
  split at h
  next => cases h
  next queue hstep =>
    cases h
    exact ⟨hstep, rfl, rfl, rfl⟩

/-- The call gets its number for its id. -/
theorem submit_ok {queue queue' : QueueSystem} (h : queue.step (.submit true) = .ok queue') :
    queue'.added = queue.added ∧ queue'.taken = queue.taken ∧
      queue'.system.pool = queue.system.pool ∧
      queue'.system.submitters = Function.update queue.system.submitters queue.system.calls
        (some ⟨.readCount, ⟨some queue.system.calls⟩, some queue.system.calls⟩) := by
  cases h
  exact ⟨List.append_nil _, List.append_nil _, rfl, rfl⟩

/-- A command that names a snippet of the repository makes a call of `SubmitSnippet`. -/
theorem Invariant.submitSnippet (hs : Invariant f s) {connection : Nat} {handler : Handler}
    (hhandler : s.handlers connection = some handler) (hidle : handler.pc.call = none)
    {text : List CodeUnit} {snippetId : Guid} {snippetData : SnippetData}
    (hEof : f.hasEof text = false) (hparse : f.parseGuid text = some snippetId)
    (h : s.submitSnippet connection { handler with commands := handler.commands ++ [text] }
      snippetId snippetData = .ok next) : Invariant f next := by
  obtain ⟨hstep, hhandlers, hrequests, hconnections⟩ := submitSnippet_ok h
  obtain ⟨hadded, htaken, hpool, hsubmitters⟩ := submit_ok hstep
  have hcalls := hs.queue.numbered.calls
  have hlength : (handler.commands ++ [text]).length - 1 = handler.commands.length := by
    rw [List.length_append, List.length_singleton, Nat.add_sub_cancel]
  simp only [hlength] at hrequests
  have hext : Extends s next := by
    refine ⟨?_, ?_, ?_, ?_, ?_, hconnections.ge⟩
    · rw [hadded]
      exact List.Subset.refl _
    · rw [htaken]
      exact List.Subset.refl _
    · rw [hpool]
      exact List.Subset.refl _
    · intro call submitter hsubmitter
      rw [hsubmitters, Function.update_of_ne (hcalls call submitter hsubmitter).ne]
      exact ⟨submitter, hsubmitter, rfl, id⟩
    · intro call request hrequest
      obtain ⟨⟨submitter, hsubmitter⟩, -⟩ := hs.traced call request hrequest
      rw [hrequests, Function.update_of_ne (hcalls call submitter hsubmitter).ne]
      exact hrequest
  apply hs.of_extends hext (QueueSystem.invariant_step hs.queue hstep)
  · intro call submitter hsubmitter
    rw [hsubmitters] at hsubmitter
    by_cases hnew : call = s.queue.system.calls
    · rw [hnew, Function.update_self] at hsubmitter
      cases hsubmitter
      rw [hnew, hrequests, Function.update_self]
      exact ⟨rfl, _, rfl⟩
    · rw [Function.update_of_ne hnew] at hsubmitter
      obtain ⟨hid, request, hrequest⟩ := hs.known call submitter hsubmitter
      exact ⟨hid, request, hext.requests call request hrequest⟩
  · intro other found hfound
    rw [hhandlers]
    by_cases hsame : other = connection
    · rw [hsame, hhandler] at hfound
      cases hfound
      rw [hsame, Function.update_self]
      refine ⟨_, rfl, List.prefix_append _ _, ?_⟩
      intro call hcall
      rw [hidle] at hcall
      cases hcall
    · rw [Function.update_of_ne hsame]
      exact ⟨found, hfound, List.prefix_refl _, fun call hcall => Or.inl hcall⟩
  · intro call request hrequest
    by_cases hnew : call = s.queue.system.calls
    · rw [hrequests, hnew, Function.update_self] at hrequest
      cases hrequest
      right
      rw [hnew, Traced, hsubmitters, hhandlers, Function.update_self, Function.update_self]
      refine ⟨⟨_, rfl⟩, _, text, rfl, ?_, hEof, hparse, Or.inl rfl⟩
      rw [List.getElem?_append_right le_rfl, Nat.sub_self]
      rfl
    · rw [hrequests, Function.update_of_ne hnew] at hrequest
      exact Or.inl hrequest
  · intro other found hfound
    rw [hhandlers] at hfound
    by_cases hsame : other = connection
    · rw [hsame, Function.update_self] at hfound
      cases hfound
      rw [hsame]
      refine (hs.kept connection handler hhandler).goOn hext ?_ rfl ?_ ?_
      · exact List.prefix_append _ _
      · rw [Handler.settled_of_idle hidle]
        exact hlength.ge
      · intro call hcall
        cases hcall
        rw [hrequests, Function.update_self]
        exact ⟨_, rfl, rfl, by simp⟩
    · rw [Function.update_of_ne hsame] at hfound
      exact (hs.kept other found hfound).extends hext

theorem Invariant.pool (hs : Invariant f s) {a : PoolAction} {queue : QueueSystem}
    (hnot : isSubmit a = false) (h : s.queue.step a = .ok queue) :
    Invariant f { s with queue } := by
  obtain ⟨hstep, hadded, htaken⟩ := QueueSystem.step_eq_ok h
  have hcalls := calls_step hstep hnot
  have hext : Extends s { s with queue } := by
    refine ⟨?_, ?_, delivered_step hstep, ?_, fun _ _ h => h, le_rfl⟩
    · rw [hadded]
      exact List.subset_append_left _ _
    · rw [htaken]
      exact List.subset_append_left _ _
    · intro call submitter hsubmitter
      have hrel := hcalls call
      rw [hsubmitter] at hrel
      cases hsubmitter' : queue.system.submitters call with
      | none =>
          rw [hsubmitter'] at hrel
          cases hrel
      | some submitter' =>
          rw [hsubmitter'] at hrel
          cases hrel with
          | some hsame => exact ⟨submitter', rfl, hsame⟩
  apply hs.of_extends hext (QueueSystem.invariant_step hs.queue h)
  · intro call submitter' hsubmitter'
    have hrel := hcalls call
    rw [hsubmitter'] at hrel
    cases hsubmitter : s.queue.system.submitters call with
    | none =>
        rw [hsubmitter] at hrel
        cases hrel
    | some submitter =>
        rw [hsubmitter] at hrel
        cases hrel with
        | some hsame =>
            obtain ⟨hid, hrequest⟩ := hs.known call submitter hsubmitter
            exact ⟨hsame.1 ▸ hid, hrequest⟩
  · exact fun connection handler hhandler =>
      ⟨handler, hhandler, List.prefix_refl _, fun call hcall => Or.inl hcall⟩
  · exact fun call request hrequest => Or.inl hrequest
  · exact fun connection handler hhandler =>
      (hs.kept connection handler hhandler).extends hext

theorem resultOf_eq_some {p : DomainPool} {completion : Completion} {delivery : Delivery}
    (h : p.resultOf completion = some delivery) :
    delivery ∈ p.delivered ∧ delivery.completion = completion :=
  ⟨List.mem_of_find?_eq_some h, by simpa using List.find?_some h⟩

/-- The result of the task answers the command the connection is busy with. -/
theorem Invariant.answers (hs : Invariant f s) {connection call : Nat} {handler : Handler}
    (hhandler : s.handlers connection = some handler) (hcall : handler.pc.call = some call)
    {delivery : Delivery} (hresult : s.queue.system.pool.resultOf call = some delivery)
    {result : ReportedResult} (hstatus : delivery.status = result.status) :
    s.Answers f connection handler ⟨handler.commands.length - 1, call, result⟩ := by
  obtain ⟨hdelivery, hcompletion⟩ := resultOf_eq_some hresult
  obtain ⟨request, hrequest, hconnection, hlength⟩ :=
    (hs.kept connection handler hhandler).busy call hcall
  obtain ⟨-, found, text, hfound, htext, hEof, hparse, -⟩ := hs.traced call request hrequest
  rw [hconnection, hhandler] at hfound
  cases hfound
  obtain ⟨hadded, htaken⟩ := hs.queue.answered delivery hdelivery
  rw [hcompletion] at hadded htaken
  have hcommand : request.command = handler.commands.length - 1 := by omega
  exact ⟨request, text, hrequest, hconnection, hcommand, hcommand ▸ htext, hEof, hparse, hadded,
    htaken, delivery, hdelivery, hcompletion, hstatus⟩

theorem invariant_receive (hs : Invariant f s) {connection : Nat} {handler : Handler}
    (hhandler : s.handlers connection = some handler) (hidle : handler.pc.call = none)
    {text : List CodeUnit} {get : Guid → Option (Option SnippetData)}
    (h : s.receive f connection handler text get = .ok next) : Invariant f next := by
  have hgoes : Invariant f (s.setHandler connection
      { handler with commands := handler.commands ++ [text] }) :=
    hs.idle hhandler hidle hidle (List.prefix_append _ _) rfl
  simp only [receive] at h
  split at h
  next =>
    cases h
    exact hs.idle hhandler hidle rfl (List.prefix_append _ _) rfl
  next hEof =>
    split at h
    next =>
      cases h
      exact hgoes
    next snippetId hparse =>
      split at h
      next snippetData hget =>
        exact hs.submitSnippet hhandler hidle (Bool.eq_false_iff.mpr hEof) hparse h
      all_goals
        cases h
        exact hgoes

/-- `SubmitSnippet` comes back. -/
theorem invariant_submitted (hs : Invariant f s) {connection : Nat} {handler : Handler}
    (hhandler : s.handlers connection = some handler)
    (h : s.submitted connection handler = .ok next) : Invariant f next := by
  unfold submitted at h
  split at h
  next snippetId call hpc =>
    have hcall : handler.pc.call = some call := by
      rw [hpc]
      rfl
    have hawaits : Invariant f (s.setHandler connection
        { handler with pc := .awaiting snippetId call }) := by
      refine hs.setHandler hhandler (List.prefix_refl _) ?_ ?_
      · intro other hother
        rw [hcall] at hother
        exact Or.inl hother
      · refine (hs.kept connection handler hhandler).goOn (extends_refl s) (List.prefix_refl _) rfl
          ?_ ?_
        · rw [Handler.settled_of_busy hcall]
          exact le_rfl
        · intro other hother
          exact (hs.kept connection handler hhandler).busy other (hcall.trans hother)
    split at h
    next =>
      cases h
      exact hawaits
    next hthrew =>
      split at h
      next =>
        cases h
        exact hawaits
      next =>
        cases h
        obtain ⟨submitter, hsubmitter, hpc'⟩ := Option.map_eq_some_iff.mp hthrew
        exact hs.settle hhandler hcall (Or.inr ⟨submitter, hsubmitter, hpc'⟩) (Or.inl rfl)
    next => cases h
  next => cases h

/-- The connection goes on with the result. -/
theorem invariant_resume (hs : Invariant f s) {connection : Nat} {handler : Handler}
    (hhandler : s.handlers connection = some handler) {result : ReportedResult}
    {statusUpdated sent : Bool}
    (h : s.resume connection handler result statusUpdated sent = .ok next) : Invariant f next := by
  unfold resume at h
  split at h
  next snippetId call hpc =>
    have hcall : handler.pc.call = some call := by
      rw [hpc]
      rfl
    split at h
    next delivery hresult =>
      obtain ⟨hdelivery, hcompletion⟩ := resultOf_eq_some hresult
      have hsettled : s.Settled call := Or.inl (List.mem_map.mpr ⟨delivery, hdelivery, hcompletion⟩)
      split at h
      next hstatus =>
        split at h
        next =>
          cases h
          exact hs.settle hhandler hcall hsettled (Or.inl rfl)
        next =>
          cases h
          exact hs.settle hhandler hcall hsettled
            (Or.inr ⟨_, rfl, rfl, hs.answers hhandler hcall hresult hstatus⟩)
      next => cases h
    next => cases h
  next => cases h

theorem invariant_accept (hs : Invariant f s) :
    Invariant f { s.setHandler s.connections {} with connections := s.connections + 1 } := by
  have hext : Extends s
      { s.setHandler s.connections {} with connections := s.connections + 1 } :=
    ⟨List.Subset.refl _, List.Subset.refl _, List.Subset.refl _, (extends_refl s).calls,
      fun _ _ h => h, Nat.le_succ _⟩
  apply hs.of_extends hext hs.queue hs.known
  · intro connection handler hhandler
    have hold : connection ≠ s.connections := (hs.kept connection handler hhandler).below.ne
    exact ⟨handler, (Function.update_of_ne hold _ _).trans hhandler, List.prefix_refl _,
      fun call hcall => Or.inl hcall⟩
  · exact fun call request hrequest => Or.inl hrequest
  · intro connection handler hhandler
    obtain ⟨rfl, rfl⟩ | ⟨-, hold⟩ := handlers_setHandler hhandler
    · exact ⟨Nat.lt_succ_self _, nofun, List.Pairwise.nil, nofun⟩
    · exact (hs.kept connection handler hold).extends hext

theorem invariant_step {a : ServiceAction} (hs : Invariant f s) (h : s.step f a = .ok next) :
    Invariant f next := by
  cases a with
  | accept =>
      cases h
      exact invariant_accept hs
  | command connection text get =>
      simp only [step] at h
      split at h
      next handler hhandler =>
        split at h
        next hpc => exact invariant_receive hs hhandler (by rw [hpc]; rfl) h
        next => cases h
      next => cases h
  | submitted connection =>
      simp only [step] at h
      split at h
      next handler hhandler => exact invariant_submitted hs hhandler h
      next => cases h
  | resume connection result statusUpdated sent =>
      simp only [step] at h
      split at h
      next handler hhandler => exact invariant_resume hs hhandler h
      next => cases h
  | disconnect connection =>
      simp only [step] at h
      split at h
      next handler hhandler =>
        split at h
        next hpc =>
          cases h
          exact hs.idle hhandler (by rw [hpc]; rfl) rfl (List.prefix_refl _) rfl
        next => cases h
      next => cases h
  | pool a =>
      simp only [step] at h
      split at h
      next => cases h
      next hnot =>
        split at h
        next => cases h
        next queue hstep =>
          cases h
          exact hs.pool (Bool.eq_false_iff.mpr hnot) hstep

theorem invariant_initial (f : Formats) (numberOfDomainsInPool : Nat) :
    Invariant f (initial numberOfDomainsInPool) := by
  refine ⟨QueueSystem.invariant_initial numberOfDomainsInPool, ?_, ?_, ?_⟩
  · intro call submitter hsubmitter
    cases hsubmitter
  · intro call request hrequest
    cases hrequest
  · intro connection handler hhandler
    cases hhandler

/-! ### What the clients get -/

/-- What is in the pool was added by its call. -/
theorem Invariant.added_of_inPool (hs : Invariant f s) {call : Nat} (h : s.InPool call) :
    ∃ snippet, (call, snippet) ∈ s.queue.added := by
  obtain ⟨snippet, hwaiting, hid⟩ | ⟨t, w, hw, hholds, hid⟩ := h
  · have hmem : snippet ∈ s.queue.added.map Prod.snd := by
      rw [hs.queue.order]
      exact List.mem_append_right _ hwaiting
    obtain ⟨⟨other, added⟩, hadded, rfl⟩ := List.mem_map.mp hmem
    rw [hs.queue.added_id hadded hid]
    exact ⟨added, hadded⟩
  · exact ⟨_, hs.queue.taken_added (hs.queue.held t w hw hholds) hid⟩

/-- A call that has settled has nothing in the pool. -/
theorem Invariant.not_settled (hs : Invariant f s) {call : Nat} (h : s.InPool call) :
    ¬ s.Settled call := by
  rintro (hdelivered | ⟨submitter, hsubmitter, hthrew⟩)
  · obtain ⟨snippet, hwaiting, hid⟩ | ⟨t, w, hw, hholds, hid⟩ := h
    · exact hs.queue.waiting_unanswered hwaiting hid hdelivered
    · exact hs.queue.unanswered t w hw hholds call hid hdelivered
  · obtain ⟨snippet, hadded⟩ := hs.added_of_inPool h
    obtain ⟨other, hother, hreturned, -⟩ := (hs.queue.added_iff call snippet).mp hadded
    rw [hsubmitter] at hother
    cases hother
    rw [hthrew] at hreturned
    cases hreturned

theorem Invariant.requested (hs : Invariant f s) {call : Nat} (h : s.InPool call) :
    ∃ request, s.requests call = some request := by
  obtain ⟨snippet, hadded⟩ := hs.added_of_inPool h
  obtain ⟨submitter, hsubmitter, -⟩ := (hs.queue.added_iff call snippet).mp hadded
  exact (hs.known call submitter hsubmitter).2

/-- The connection of a call in the pool is busy with it, so it has no other there. -/
theorem Invariant.oneInPool (hs : Invariant f s) {call call' : Nat}
    {request request' : HostRequest} (hrequest : s.requests call = some request)
    (hrequest' : s.requests call' = some request')
    (hsame : request.connection = request'.connection) (h : s.InPool call)
    (h' : s.InPool call') : call = call' := by
  obtain ⟨-, handler, -, hhandler, -, -, -, hbusy⟩ := hs.traced call request hrequest
  obtain ⟨-, handler', -, hhandler', -, -, -, hbusy'⟩ := hs.traced call' request' hrequest'
  rw [hsame, hhandler'] at hhandler
  cases hhandler
  have hcall := hbusy.resolve_right (hs.not_settled h)
  have hcall' := hbusy'.resolve_right (hs.not_settled h')
  exact Option.some.inj (hcall.symm.trans hcall')

/-- The connection that waits for a snippet. -/
def clientOf (s : HostService) (snippet : SnippetInfo) : Option Nat :=
  (snippet.submissionId.bind s.requests).map HostRequest.connection

theorem Invariant.clientOf_waiting (hs : Invariant f s) {snippet : SnippetInfo}
    (hwaiting : snippet ∈ s.queue.system.pool.snippetsQueue) :
    ∃ call request, snippet.submissionId = some call ∧ s.requests call = some request ∧
      s.InPool call ∧ s.clientOf snippet = some request.connection ∧
      request.connection < s.connections := by
  have hmem : snippet ∈ s.queue.added.map Prod.snd := by
    rw [hs.queue.order]
    exact List.mem_append_right _ hwaiting
  obtain ⟨⟨call, added⟩, hadded, rfl⟩ := List.mem_map.mp hmem
  obtain ⟨submitter, hsubmitter, -, rfl⟩ := (hs.queue.added_iff call _).mp hadded
  obtain ⟨hid, request, hrequest⟩ := hs.known call submitter hsubmitter
  obtain ⟨-, handler, -, hhandler, -⟩ := hs.traced call request hrequest
  refine ⟨call, request, hid, hrequest, Or.inl ⟨_, hwaiting, hid⟩, ?_,
    (hs.kept _ handler hhandler).below⟩
  rw [clientOf, hid, Option.bind_some, hrequest, Option.map_some]

theorem Invariant.bounded (hs : Invariant f s) :
    s.queue.system.pool.snippetsQueue.length ≤ s.connections := by
  have hdistinct : (s.queue.system.pool.snippetsQueue.map s.clientOf).Nodup := by
    rw [List.Nodup, List.pairwise_map]
    have hapart := (List.pairwise_append.mp hs.queue.apart).2.1
    refine hapart.imp_of_mem ?_
    intro snippet other hsnippet hother hdiffer hsame
    obtain ⟨call, request, hid, hrequest, hpool, hclient, -⟩ := hs.clientOf_waiting hsnippet
    obtain ⟨call', request', hid', hrequest', hpool', hclient', -⟩ := hs.clientOf_waiting hother
    rw [hclient, hclient'] at hsame
    have hcalls := hs.oneInPool hrequest hrequest' (Option.some.inj hsame) hpool hpool'
    have hnone := hdiffer (by rw [hid, hid', hcalls])
    rw [hid] at hnone
    cases hnone
  have hclients : s.queue.system.pool.snippetsQueue.map s.clientOf ⊆
      (List.range s.connections).map some := by
    intro client hclient
    obtain ⟨snippet, hsnippet, rfl⟩ := List.mem_map.mp hclient
    obtain ⟨_, request, -, -, -, hconnection, hbelow⟩ := hs.clientOf_waiting hsnippet
    rw [hconnection]
    exact List.mem_map_of_mem (List.mem_range.mpr hbelow)
  simpa using (List.subperm_of_subset hdistinct hclients).length_le

/-- Replies to different commands are different. -/
theorem Kept.reply_unique {connection : Nat} {handler : Handler} (h : s.Kept f connection handler)
    {reply other : HandlerReply} (hreply : reply ∈ handler.replies)
    (hother : other ∈ handler.replies) (hsame : reply.command = other.command) : reply = other := by
  have hpairwise := List.pairwise_map.mp h.inOrder
  by_contra hne
  have hsymm : Std.Symm (fun reply other : HandlerReply => reply.command ≠ other.command) :=
    ⟨fun _ _ hne => hne.symm⟩
  exact (hpairwise.imp (fun hlt => Nat.ne_of_lt hlt)).forall hreply hother hne hsame

theorem Invariant.answersOwn (hs : Invariant f s) : AnswersOwn f s where
  answers connection handler hhandler reply hreply :=
    ((hs.kept connection handler hhandler).replies reply hreply).1
  inOrder connection handler hhandler := (hs.kept connection handler hhandler).inOrder
  sentOnce := by
    intro connection handler other otherHandler hhandler hother reply hreply otherReply hotherReply
      hcall
    obtain ⟨⟨request, -, hrequest, hconnection, hcommand, -⟩, -⟩ :=
      (hs.kept connection handler hhandler).replies reply hreply
    obtain ⟨⟨request', -, hrequest', hconnection', hcommand', -⟩, -⟩ :=
      (hs.kept other otherHandler hother).replies otherReply hotherReply
    rw [hcall, hrequest'] at hrequest
    cases hrequest
    obtain rfl : connection = other := hconnection.symm.trans hconnection'
    rw [hhandler] at hother
    cases hother
    exact ⟨rfl, (hs.kept connection handler hhandler).reply_unique hreply hotherReply
      (hcommand.symm.trans hcommand')⟩
  requested _ h := hs.requested h
  oneInPool _ _ _ _ hrequest hrequest' hsame h h' := hs.oneInPool hrequest hrequest' hsame h h'
  bounded := hs.bounded

end Steps

/-- Two clients ask for the same snippet. The call of the second is the first to add it, and
the first still waits when the second has its reply. -/
def twoClients : List ServiceAction :=
  let snippet : Guid → Option (Option SnippetData) := fun _ => some (some ⟨[77, 90]⟩)
  let bothAdd : List PoolAction :=
    List.replicate 3 (.submitter 1) ++ List.replicate 3 (.submitter 0)
  let oneRun : List PoolAction := PoolSystem.goesOn 0 5 ++ [.worker 0 (.finished .success)] ++
    PoolSystem.goesOn 0 6
  PoolSystem.firstWorkerReady.map .pool ++
    [.accept, .accept, .command 0 HostConnection.quickId snippet,
      .command 1 HostConnection.quickId snippet] ++
    bothAdd.map .pool ++ [.submitted 0, .submitted 1] ++ oneRun.map .pool ++
    [.resume 1 HostConnection.quickResult true true] ++
    (PoolSystem.goesOn 0 5 ++ oneRun).map .pool ++
    [.resume 0 HostConnection.quickResult true true]

end HostService

end HostedPumpkin
