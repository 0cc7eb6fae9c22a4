import HostedPumpkin.Web.HostConnector

/-!
`HandleConnection` with what stands behind it: the repository, and the pool that
completes a task some time after it was given a snippet. Every exception is caught
inside the loop, where it is logged; the request it belongs to gets no reply. The
replies of a connection answer its commands one by one exactly when nothing goes
wrong for any of them.

The connection stays up, and each `ReceiveAsync` comes back with one command.
-/

namespace HostedPumpkin

open Utf16 Runs

/-- A row of the table, with the column the host reads. -/
structure SnippetData where
  assemblyBytes : List UInt8

namespace SnippetData

def snippetTypeName : String := "SnippetText"

def snippetMethodName : String := "SnippetMain"

end SnippetData

/-- `SnippetInfo` with the fields the pool does not look at. -/
structure SubmittedSnippet where
  assemblyFile : List UInt8
  mainTypeName : String
  methodName : String
  submissionId : Guid

/-- The task of a `TaskCompletionSource`. -/
inductive SnippetTask where
  | pending
  | faulted
  | completed (result : ReportedResult)

namespace SnippetTask

def trySetResult (result : ReportedResult) : SnippetTask → SnippetTask
  | .pending => .completed result
  | .faulted => .faulted
  | .completed first => .completed first

def trySetException : SnippetTask → SnippetTask
  | .pending => .faulted
  | .faulted => .faulted
  | .completed first => .completed first

end SnippetTask

/-- What the pool does with a snippet: the result it has set when `SubmitSnippet`
ends, whether that call throws, and the result it sets later. -/
structure Submission where
  early : Option ReportedResult
  throws : Bool
  late : Option ReportedResult

/-- The snippet runs and its result gets into the task. -/
def Submission.Returns (submission : Submission) (result : ReportedResult) : Prop :=
  submission.early = some result ∨
    (submission.early = none ∧ submission.throws = false ∧ submission.late = some result)

/-- A command with what it meets: the repository, where an exception is `none` and
a null record `some none`, the pool, and whether `UpdateStatus` returns. -/
structure Exchange where
  command : List CodeUnit
  newGuid : Guid
  get : Guid → Option (Option SnippetData)
  submitSnippet : SubmittedSnippet → Submission
  updateStatus : Guid → SnippetHealth → Bool

namespace Exchange

def snippetInfo (e : Exchange) (snippetData : SnippetData) : SubmittedSnippet where
  assemblyFile := snippetData.assemblyBytes
  mainTypeName := SnippetData.snippetTypeName
  methodName := SnippetData.snippetMethodName
  submissionId := e.newGuid

/-- The task the caller awaits, as it ends. -/
def doStuffAndReturnWhenIdFinished (e : Exchange) (snippetId : Guid) : SnippetTask :=
  match e.get snippetId with
  | none => SnippetTask.pending.trySetException
  -- `snippetData.AssemblyBytes` on a null record
  | some none => SnippetTask.pending.trySetException
  | some (some snippetData) =>
      let submission := e.submitSnippet (e.snippetInfo snippetData)
      let task := submission.early.elim SnippetTask.pending (SnippetTask.trySetResult · .pending)
      let task := if submission.throws then task.trySetException else task
      submission.late.elim task (SnippetTask.trySetResult · task)

end Exchange

/-- How one turn of the loop of `HandleConnection` ends. -/
inductive CommandOutcome where
  | breaks
  | awaits
  | throws
  | replies (jsonResult : List CodeUnit)

/-- The bytes a turn of the loop sends. -/
def CommandOutcome.sentBytes : CommandOutcome → List UInt8
  | .replies jsonResult => sendAsync jsonResult true
  | .breaks | .awaits | .throws => []

def CommandOutcome.isReply : CommandOutcome → Bool
  | .replies _ => true
  | .breaks | .awaits | .throws => false

/-- The loop goes on: an exception is caught in it. -/
def CommandOutcome.goesOn : CommandOutcome → Bool
  | .replies _ | .throws => true
  | .breaks | .awaits => false

/-- The body of the loop, once the command is received. -/
def serveCommand (f : Formats) (e : Exchange) : CommandOutcome :=
  if f.hasEof e.command then .breaks
  else
    match f.parseGuid e.command with
    | none => .throws
    | some snippetId =>
        match e.doStuffAndReturnWhenIdFinished snippetId with
        | .pending => .awaits
        | .faulted => .throws
        | .completed result =>
            let newStatus := result.status.toHealth
            if newStatus ≠ .unknown ∧ e.updateStatus snippetId newStatus = false then .throws
            else .replies (f.serializeObject result)

/-- A reply on the connection, and the number of the command it was sent for. -/
structure ServerReply where
  command : Nat
  bytes : List UInt8
deriving DecidableEq

/-- `HandleConnection` between two turns of its loop: whether it takes a further
command, how many it has taken, and what it has sent. -/
structure ServerLoop where
  running : Bool
  commands : Nat
  replies : List ServerReply
deriving DecidableEq

namespace ServerLoop

def initial : ServerLoop := ⟨true, 0, []⟩

/-- The loop takes a command, unless it has ended or waits for a result. -/
def turn (f : Formats) (s : ServerLoop) (e : Exchange) : ServerLoop :=
  if s.running then
    let outcome := serveCommand f e
    { running := outcome.goesOn
      commands := s.commands + 1
      replies := if outcome.isReply then s.replies ++ [⟨s.commands, outcome.sentBytes⟩]
        else s.replies }
  else s

def handleConnection (f : Formats) (exchanges : List Exchange) : ServerLoop :=
  exchanges.foldl (turn f) initial

/-- One terminated reply for each of the first `count` commands, in their order. -/
def OneReplyPerCommand (s : ServerLoop) (count : Nat) : Prop :=
  s.replies.map ServerReply.command = List.range count ∧
    ∀ reply ∈ s.replies, ∃ text, reply.bytes = sendAsync text true

end ServerLoop

/-- Nothing goes wrong for the command: it is the id of a snippet the repository
has, the pool comes back with a result, and the status of that result, if it is to
be stored, is stored. -/
def Exchange.Answered (f : Formats) (e : Exchange) : Prop :=
  ∃ snippetId snippetData result, f.parseGuid e.command = some snippetId ∧
    e.get snippetId = some (some snippetData) ∧
    (e.submitSnippet (e.snippetInfo snippetData)).Returns result ∧
    (result.status.toHealth = .unknown ∨
      e.updateStatus snippetId result.status.toHealth = true)

variable {f : Formats} {e : Exchange} {s : ServerLoop}

/-- The task ends with a result exactly when the repository has the snippet and
the pool runs it. -/
theorem Exchange.completed_iff {snippetId : Guid} {result : ReportedResult} :
    e.doStuffAndReturnWhenIdFinished snippetId = .completed result ↔
      ∃ snippetData, e.get snippetId = some (some snippetData) ∧
        (e.submitSnippet (e.snippetInfo snippetData)).Returns result := by
  simp only [doStuffAndReturnWhenIdFinished]
  split
  next hget => simp [hget, SnippetTask.trySetException]
  next hget => simp [hget, SnippetTask.trySetException]
  next snippetData hget =>
    simp only [hget, Option.some.injEq, exists_eq_left', Submission.Returns]
    generalize e.submitSnippet (e.snippetInfo snippetData) = submission
    obtain ⟨early, throws, late⟩ := submission
    cases early with
    | some first =>
        cases throws <;> cases late <;>
          simp [SnippetTask.trySetResult, SnippetTask.trySetException]
    | none =>
        cases throws <;> cases late <;>
          simp [SnippetTask.trySetResult, SnippetTask.trySetException]

/-- A turn of the loop sends a reply exactly when nothing goes wrong in it. -/
theorem serveCommand_isReply_iff (hEof : f.hasEof e.command = false) :
    (serveCommand f e).isReply = true ↔ e.Answered f := by
  simp only [serveCommand, hEof, Bool.false_eq_true, if_false]
  split
  next hparse => simp [CommandOutcome.isReply, Exchange.Answered, hparse]
  next snippetId hparse =>
    have hanswered : e.Answered f ↔ ∃ result,
        e.doStuffAndReturnWhenIdFinished snippetId = .completed result ∧
          (result.status.toHealth = .unknown ∨
            e.updateStatus snippetId result.status.toHealth = true) := by
      simp only [Exchange.Answered, Exchange.completed_iff, hparse, Option.some.injEq]
      constructor
      · rintro ⟨id, snippetData, result, rfl, hget, hreturns, hstatus⟩
        exact ⟨result, ⟨snippetData, hget, hreturns⟩, hstatus⟩
      · rintro ⟨result, ⟨snippetData, hget, hreturns⟩, hstatus⟩
        exact ⟨snippetId, snippetData, result, rfl, hget, hreturns, hstatus⟩
    rw [hanswered]
    cases e.doStuffAndReturnWhenIdFinished snippetId with
    | pending => simp [CommandOutcome.isReply]
    | faulted => simp [CommandOutcome.isReply]
    | completed result =>
        simp only [SnippetTask.completed.injEq, exists_eq_left']
        split
        next hfails => simp [CommandOutcome.isReply, hfails]
        next hstored =>
          simp only [CommandOutcome.isReply, true_iff]
          by_contra hneither
          obtain ⟨hhealth, hupdate⟩ := not_or.mp hneither
          exact hstored ⟨hhealth, Bool.eq_false_iff.mpr hupdate⟩

namespace ServerLoop

/-- A turn adds a reply at most when its command is answered. -/
theorem turn_replies_length (hEof : f.hasEof e.command = false) :
    (s.turn f e).replies.length ≤ s.replies.length + 1 ∧
      (¬ e.Answered f → (s.turn f e).replies.length = s.replies.length) := by
  by_cases hrunning : s.running = true
  · by_cases hreply : (serveCommand f e).isReply = true
    · simp [turn, hrunning, hreply, (serveCommand_isReply_iff hEof).mp hreply]
    · simp [turn, hrunning, hreply]
  · simp [turn, hrunning]

/-- The loop sends no more replies than there are commands, and fewer when some
command is not answered. -/
theorem replies_length_le {exchanges : List Exchange}
    (hEof : ∀ e ∈ exchanges, f.hasEof e.command = false) (s : ServerLoop) :
    (exchanges.foldl (turn f) s).replies.length ≤ s.replies.length + exchanges.length ∧
      ((∃ e ∈ exchanges, ¬ e.Answered f) →
        (exchanges.foldl (turn f) s).replies.length < s.replies.length + exchanges.length) := by
  induction exchanges generalizing s with
  | nil => simp
  | cons e rest ih =>
      obtain ⟨hmore, hsame⟩ := turn_replies_length (s := s) (hEof e (by simp))
      obtain ⟨hle, hlt⟩ := ih (fun other hother => hEof other (by simp [hother])) (s.turn f e)
      simp only [List.foldl_cons, List.length_cons]
      refine ⟨by omega, ?_⟩
      rintro ⟨other, hother, hunanswered⟩
      obtain rfl | hother := List.mem_cons.mp hother
      · have hsame := hsame hunanswered
        omega
      · have hlt := hlt ⟨other, hother, hunanswered⟩
        omega

/-- The loop still runs and has replied to every command it has taken. -/
structure Served (s : ServerLoop) : Prop where
  running : s.running = true
  replies : s.OneReplyPerCommand s.commands

theorem served_initial : Served initial :=
  ⟨rfl, rfl, fun reply hreply => by cases hreply⟩

theorem Served.turn (hs : Served s) (hEof : f.hasEof e.command = false)
    (hanswered : e.Answered f) : Served (s.turn f e) ∧ (s.turn f e).commands = s.commands + 1 := by
  have hreply : (serveCommand f e).isReply = true := (serveCommand_isReply_iff hEof).mpr hanswered
  obtain ⟨jsonResult, hjson⟩ : ∃ jsonResult, serveCommand f e = .replies jsonResult := by
    cases houtcome : serveCommand f e with
    | replies jsonResult => exact ⟨jsonResult, rfl⟩
    | breaks | awaits | throws => simp [houtcome, CommandOutcome.isReply] at hreply
  have hturn : s.turn f e =
      ⟨true, s.commands + 1, s.replies ++ [⟨s.commands, sendAsync jsonResult true⟩]⟩ := by
    simp [ServerLoop.turn, hs.running, hjson, CommandOutcome.isReply, CommandOutcome.goesOn,
      CommandOutcome.sentBytes]
  rw [hturn]
  refine ⟨⟨rfl, ?_, ?_⟩, rfl⟩
  · simp [hs.replies.1, List.range_succ]
  · intro reply hmem
    rcases List.mem_append.mp hmem with hmem | hmem
    · exact hs.replies.2 reply hmem
    · rw [List.mem_singleton.mp hmem]
      exact ⟨jsonResult, rfl⟩

theorem Served.run {exchanges : List Exchange} (hs : Served s)
    (hEof : ∀ e ∈ exchanges, f.hasEof e.command = false)
    (hanswered : ∀ e ∈ exchanges, e.Answered f) :
    Served (exchanges.foldl (ServerLoop.turn f) s) ∧
      (exchanges.foldl (ServerLoop.turn f) s).commands = s.commands + exchanges.length := by
  induction exchanges generalizing s with
  | nil => exact ⟨hs, rfl⟩
  | cons e rest ih =>
      obtain ⟨hnext, hcommands⟩ := hs.turn (hEof e (by simp)) (hanswered e (by simp))
      obtain ⟨hserved, hcount⟩ := ih hnext (fun other hother => hEof other (by simp [hother]))
        (fun other hother => hanswered other (by simp [hother]))
      refine ⟨hserved, ?_⟩
      rw [List.foldl_cons, hcount, hcommands, List.length_cons]
      omega

/-- A connection gets one terminated reply for each of its commands, in their
order, if and only if nothing goes wrong for any of them. -/
theorem one_reply_per_command_iff (f : Formats) (exchanges : List Exchange)
    (hEof : ∀ e ∈ exchanges, f.hasEof e.command = false) :
    (handleConnection f exchanges).OneReplyPerCommand exchanges.length ↔
      ∀ e ∈ exchanges, e.Answered f := by
  constructor
  · intro hreplies e hmem
    by_contra hunanswered
    have hlt := (replies_length_le hEof initial).2 ⟨e, hmem, hunanswered⟩
    have hlength := congrArg List.length hreplies.1
    simp only [List.length_map, List.length_range, handleConnection, initial] at hlength
    simp only [initial, List.length_nil] at hlt
    omega
  · intro hanswered
    obtain ⟨hserved, hcommands⟩ := served_initial.run hEof hanswered
    have hcount : (handleConnection f exchanges).commands = exchanges.length := by
      simpa [initial, handleConnection] using hcommands
    rw [← hcount]
    exact hserved.replies

/-! A snippet that is there, and four commands that get no reply. -/

def storedSnippet : Exchange where
  command := HostConnection.quickId
  newGuid := 17
  get _ := some (some ⟨[77, 90]⟩)
  submitSnippet _ := ⟨none, false, some HostConnection.quickResult⟩
  updateStatus _ _ := true

def notAGuid : Exchange := { storedSnippet with command := HostConnection.unitsOf "hello" }

def unknownSnippet : Exchange := { storedSnippet with get := fun _ => some none }

def brokenRepository : Exchange := { storedSnippet with get := fun _ => none }

def closedPool : Exchange := { storedSnippet with submitSnippet := fun _ => ⟨none, true, none⟩ }

theorem one_reply_per_command_two_runs :
    (handleConnection HostConnection.plainFormats
      [storedSnippet, storedSnippet]).OneReplyPerCommand 2 := by
  apply (one_reply_per_command_iff HostConnection.plainFormats [storedSnippet, storedSnippet]
    (by decide +kernel)).mpr
  intro e hmem
  obtain rfl : e = storedSnippet := by simpa using hmem
  exact ⟨HostConnection.quickGuid, ⟨[77, 90]⟩, HostConnection.quickResult, by decide +kernel, rfl,
    Or.inr ⟨rfl, rfl, rfl⟩, Or.inr rfl⟩

/-- The commands that fail, none of which holds the marker. -/
def failing : List Exchange := [notAGuid, unknownSnippet, brokenRepository, closedPool]

/-- None of them gets a reply: the only reply is the one to the command after it. -/
theorem failed_command_gets_no_reply :
    (¬ ∃ e ∈ storedSnippet :: failing, HostConnection.plainFormats.hasEof e.command = true) ∧
      ¬ ∃ e ∈ failing, (handleConnection HostConnection.plainFormats
        [e, storedSnippet]).OneReplyPerCommand 2 := by
  refine ⟨by decide +kernel, ?_⟩
  rintro ⟨e, hmem, hone⟩
  have hreplies : ∀ e ∈ failing, (handleConnection HostConnection.plainFormats
      [e, storedSnippet]).replies.map ServerReply.command = [1] := by decide +kernel
  have hrange := (hreplies e hmem).symm.trans hone.1
  cases hrange

end ServerLoop

end HostedPumpkin
