import HostedPumpkin.Web.HostServer

/-!
The loop of `HandleConnection` when its client sends some bytes and closes its side
of the connection. The bytes arrive in chunks, and every receive after them
completes with no bytes, which `ReceiveAsync` reports as one more command: what it
has read so far, or the empty string. `Connected` stays true then; only a reply that
cannot be sent makes it false. So the loop can end on a command of the client alone.
-/

namespace HostedPumpkin

open Utf16

/-- The callbacks of one `ReceiveAsync` on a connection whose peer sends `unread` and
closes its side. -/
def receiveToEnd (status : SocketStatus) :
    List (List UInt8) → TaskCompletion × List (List UInt8)
  | [] => (.result status.sb, [])
  | bytes :: rest =>
      match receiveCallback status (.data bytes) with
      | .inr completion => (completion, rest)
      | .inl next => receiveToEnd next rest

theorem receiveToEnd_result (status : SocketStatus) (unread : List (List UInt8)) :
    ∃ command, (receiveToEnd status unread).1 = .result command := by
  induction unread generalizing status with
  | nil => exact ⟨status.sb, rfl⟩
  | cons bytes rest ih =>
      simp only [receiveToEnd]
      by_cases hbytes : bytes = []
      · subst hbytes
        exact ⟨status.sb, rfl⟩
      · rw [receiveCallback_data hbytes]
        by_cases hfinished : isFinished bytes bytes.length = true
        · rw [if_pos hfinished]
          exact ⟨_, rfl⟩
        · rw [if_neg hfinished]
          exact ih _

/-- A command uses up a chunk at least, as long as there is one. -/
theorem receiveToEnd_length (status : SocketStatus) (unread : List (List UInt8)) :
    (receiveToEnd status unread).2.length ≤ unread.length - 1 := by
  induction unread generalizing status with
  | nil => exact le_rfl
  | cons bytes rest ih =>
      simp only [receiveToEnd, List.length_cons, Nat.add_sub_cancel]
      cases receiveCallback status (.data bytes) with
      | inr completion => exact le_rfl
      | inl next => exact (ih next).trans (Nat.sub_le _ _)

/-- What is left of the chunks when `count` commands are received. -/
def unreadAfter (chunks : List (List UInt8)) : Nat → List (List UInt8)
  | 0 => chunks
  | count + 1 => (receiveToEnd SocketStatus.initial (unreadAfter chunks count)).2

/-- The `ReceiveAsync` after `count` others returns the command. -/
def ReceivedAt (chunks : List (List UInt8)) (count : Nat) (command : List CodeUnit) : Prop :=
  (receiveToEnd SocketStatus.initial (unreadAfter chunks count)).1 = .result command

instance (chunks : List (List UInt8)) (count : Nat) (command : List CodeUnit) :
    Decidable (ReceivedAt chunks count command) :=
  inferInstanceAs (Decidable (_ = _))

theorem unreadAfter_length (chunks : List (List UInt8)) (count : Nat) :
    (unreadAfter chunks count).length ≤ chunks.length - count := by
  induction count with
  | zero => exact le_rfl
  | succ count ih =>
      have hless := receiveToEnd_length SocketStatus.initial (unreadAfter chunks count)
      rw [unreadAfter]
      omega

/-- Behind the last chunk every command is the empty string. -/
theorem ReceivedAt.eq_nil {chunks : List (List UInt8)} {count : Nat} {command : List CodeUnit}
    (h : ReceivedAt chunks count command) (hcount : chunks.length ≤ count) : command = [] := by
  have hlength := unreadAfter_length chunks count
  rw [Nat.sub_eq_zero_of_le hcount, Nat.le_zero, List.length_eq_zero_iff] at hlength
  rw [ReceivedAt, hlength] at h
  cases h
  rfl

/-- What a turn of the loop meets beside its command, and whether the socket is
still connected when its reply has been sent, or could not be. -/
structure ConnectionTurn where
  exchange : Exchange
  connected : Bool

namespace ConnectionTurn

def receiving (t : ConnectionTurn) (command : List CodeUnit) : Exchange :=
  { t.exchange with command }

end ConnectionTurn

/-- `HandleConnection` at the head of its loop, behind an `await` that never ends, or
in its `finally` block. -/
inductive ConnectionLoop where
  | turning (connected : Bool) (unread : List (List UInt8))
  | awaiting
  | shutDown

namespace ConnectionLoop

/-- One turn of the loop, its condition included. -/
def turn (f : Formats) (t : ConnectionTurn) : ConnectionLoop → ConnectionLoop
  | .turning false _ => .shutDown
  | .turning true unread =>
      let received := receiveToEnd SocketStatus.initial unread
      match received.1 with
      | .exception _ => .turning true received.2
      | .result command =>
          match serveCommand f (t.receiving command) with
          | .breaks => .shutDown
          | .awaits => .awaiting
          | .throws => .turning true received.2
          | .replies _ => .turning t.connected received.2
  | .awaiting => .awaiting
  | .shutDown => .shutDown

/-- The loop after `count` turns. -/
def handleConnection (f : Formats) (turns : Nat → ConnectionTurn)
    (chunks : List (List UInt8)) : Nat → ConnectionLoop
  | 0 => .turning true chunks
  | count + 1 => turn f (turns count) (handleConnection f turns chunks count)

end ConnectionLoop

/-- The task the command is to wait for is never completed. -/
def Exchange.LeftWaiting (f : Formats) (e : Exchange) : Prop :=
  ∃ snippetId snippetData, f.parseGuid e.command = some snippetId ∧
    e.get snippetId = some (some snippetData) ∧
    e.submitSnippet (e.snippetInfo snippetData) = ⟨none, false, none⟩

/-- The task stays pending exactly when the repository has the snippet and the pool
never says how it ended. -/
theorem Exchange.leftWaiting_iff {f : Formats} {e : Exchange} :
    e.LeftWaiting f ↔ ∃ snippetId, f.parseGuid e.command = some snippetId ∧
      e.doStuffAndReturnWhenIdFinished snippetId = .pending := by
  have hpending : ∀ snippetId, e.doStuffAndReturnWhenIdFinished snippetId = .pending ↔
      ∃ snippetData, e.get snippetId = some (some snippetData) ∧
        e.submitSnippet (e.snippetInfo snippetData) = ⟨none, false, none⟩ := by
    intro snippetId
    simp only [doStuffAndReturnWhenIdFinished]
    split
    next hget => simp [hget, SnippetTask.trySetException]
    next hget => simp [hget, SnippetTask.trySetException]
    next snippetData hget =>
      simp only [hget, Option.some.injEq, exists_eq_left']
      generalize e.submitSnippet (e.snippetInfo snippetData) = submission
      obtain ⟨early, throws, late⟩ := submission
      cases early <;> cases throws <;> cases late <;>
        simp [SnippetTask.trySetResult, SnippetTask.trySetException]
  simp only [hpending, LeftWaiting, exists_and_left]

/-- How a turn ends, by what goes wrong for its command. -/
theorem serveCommand_cases (f : Formats) (e : Exchange) :
    (f.hasEof e.command = true ∧ serveCommand f e = .breaks) ∨
      f.hasEof e.command = false ∧
        ((e.LeftWaiting f ∧ serveCommand f e = .awaits) ∨
          (e.Answered f ∧ ∃ jsonResult, serveCommand f e = .replies jsonResult) ∨
            ¬ e.LeftWaiting f ∧ ¬ e.Answered f ∧ serveCommand f e = .throws) := by
  by_cases hEof : f.hasEof e.command = true
  · exact Or.inl ⟨hEof, if_pos hEof⟩
  · have hfree : f.hasEof e.command = false := Bool.eq_false_iff.mpr hEof
    refine Or.inr ⟨hfree, ?_⟩
    have hanswered := serveCommand_isReply_iff (e := e) hfree
    have hwaits : serveCommand f e = .awaits ↔ e.LeftWaiting f := by
      rw [Exchange.leftWaiting_iff, serveCommand, if_neg hEof]
      cases hparse : f.parseGuid e.command with
      | none => simp
      | some snippetId =>
          simp only [Option.some.injEq, exists_eq_left']
          cases e.doStuffAndReturnWhenIdFinished snippetId with
          | pending => simp
          | faulted => simp
          | completed result =>
              simp only [reduceCtorEq, iff_false]
              split <;> simp
    cases houtcome : serveCommand f e with
    | breaks =>
        simp only [serveCommand, if_neg hEof] at houtcome
        split at houtcome
        next => cases houtcome
        next =>
          split at houtcome
          next => cases houtcome
          next => cases houtcome
          next => split at houtcome <;> cases houtcome
    | awaits => exact Or.inl ⟨hwaits.mp houtcome, rfl⟩
    | replies jsonResult =>
        refine Or.inr (Or.inl ⟨hanswered.mp ?_, jsonResult, rfl⟩)
        rw [houtcome]
        rfl
    | throws =>
        refine Or.inr (Or.inr ⟨?_, ?_, rfl⟩)
        · intro hleft
          rw [hwaits.mpr hleft] at houtcome
          cases houtcome
        · intro hreply
          have hisReply := hanswered.mpr hreply
          rw [houtcome] at hisReply
          cases hisReply

/-! Where the loop can end. -/

/-- The command of the turn holds the marker, or the socket is no longer connected
behind its reply. -/
def EndsAt (f : Formats) (turns : Nat → ConnectionTurn) (chunks : List (List UInt8))
    (count : Nat) : Prop :=
  ∃ command, ReceivedAt chunks count command ∧
    (f.hasEof command = true ∨
      (((turns count).receiving command).Answered f ∧ (turns count).connected = false))

/-- The turn waits for a result that does not come. -/
def WaitsAt (f : Formats) (turns : Nat → ConnectionTurn) (chunks : List (List UInt8))
    (count : Nat) : Prop :=
  ∃ command, ReceivedAt chunks count command ∧ ((turns count).receiving command).LeftWaiting f

namespace ConnectionLoop

variable {f : Formats} {turns : Nat → ConnectionTurn} {chunks : List (List UInt8)}

/-- A turn that starts with the connection up. -/
theorem turn_cases (f : Formats) (turns : Nat → ConnectionTurn) (chunks : List (List UInt8))
    (count : Nat) :
    let next := turn f (turns count) (.turning true (unreadAfter chunks count))
    (EndsAt f turns chunks count ∧
        (next = .shutDown ∨ next = .turning false (unreadAfter chunks (count + 1)))) ∨
      ¬ EndsAt f turns chunks count ∧
        ((WaitsAt f turns chunks count ∧ next = .awaiting) ∨
          ¬ WaitsAt f turns chunks count ∧
            next = .turning true (unreadAfter chunks (count + 1))) := by
  obtain ⟨command, hcommand⟩ :=
    receiveToEnd_result SocketStatus.initial (unreadAfter chunks count)
  have hreceived : ∀ other, ReceivedAt chunks count other ↔ command = other := by
    intro other
    rw [ReceivedAt, hcommand, TaskCompletion.result.injEq]
  simp only [EndsAt, WaitsAt, hreceived, exists_eq_left', turn, hcommand, unreadAfter]
  rcases serveCommand_cases f ((turns count).receiving command) with
    ⟨hEof, hserve⟩ | ⟨hEof, ⟨hwaits, hserve⟩ | ⟨hanswered, jsonResult, hserve⟩ |
      ⟨hwaits, hanswered, hserve⟩⟩
  · have hmarker : f.hasEof command = true := hEof
    simp [hmarker, hserve]
  · have hmarker : f.hasEof command = false := hEof
    have hanswered : ¬ ((turns count).receiving command).Answered f := by
      rw [← serveCommand_isReply_iff hEof, hserve]
      simp [CommandOutcome.isReply]
    simp [hmarker, hserve, hwaits, hanswered]
  · have hmarker : f.hasEof command = false := hEof
    have hwaits : ¬ ((turns count).receiving command).LeftWaiting f := by
      rintro ⟨snippetId, snippetData, hparse, hget, hsubmission⟩
      obtain ⟨otherId, otherData, result, hparse', hget', hreturns, -⟩ := hanswered
      rw [hparse] at hparse'
      cases hparse'
      rw [hget] at hget'
      cases hget'
      simp [Submission.Returns, hsubmission] at hreturns
    cases (turns count).connected with
    | false => simp [hmarker, hserve, hwaits, hanswered]
    | true => simp [hmarker, hserve, hwaits, hanswered]
  · have hmarker : f.hasEof command = false := hEof
    simp [hmarker, hserve, hwaits, hanswered]

/-- Until a turn ends the loop or waits, the connection stays up. -/
theorem turning_of_before {count : Nat}
    (hbefore : ∀ j, j < count → ¬ EndsAt f turns chunks j ∧ ¬ WaitsAt f turns chunks j) :
    handleConnection f turns chunks count = .turning true (unreadAfter chunks count) := by
  induction count with
  | zero => rfl
  | succ count ih =>
      obtain ⟨hends, hwaits⟩ := hbefore count (Nat.lt_succ_self count)
      rw [handleConnection, ih (fun j hj => hbefore j (Nat.lt_succ_of_lt hj))]
      rcases turn_cases f turns chunks count with
        ⟨hend, -⟩ | ⟨-, ⟨hwait, -⟩ | ⟨-, hnext⟩⟩
      · exact absurd hend hends
      · exact absurd hwait hwaits
      · exact hnext

/-- A turn that ends the loop, with none before it that waits. -/
theorem shutDown_of_endsAt {count : Nat} (hends : EndsAt f turns chunks count)
    (hbefore : ∀ j, j < count → ¬ WaitsAt f turns chunks j) :
    ∃ n, handleConnection f turns chunks n = .shutDown := by
  classical
  let first := Nat.find (⟨count, hends⟩ : ∃ k, EndsAt f turns chunks k)
  have hfirst : EndsAt f turns chunks first := Nat.find_spec _
  have hup : handleConnection f turns chunks first =
      .turning true (unreadAfter chunks first) := by
    refine turning_of_before ?_
    intro j hj
    exact ⟨Nat.find_min _ hj, hbefore j (hj.trans_le (Nat.find_min' _ hends))⟩
  rcases turn_cases f turns chunks first with ⟨-, hdown | hdisconnected⟩ | ⟨hnever, -⟩
  · refine ⟨first + 1, ?_⟩
    rw [handleConnection, hup]
    exact hdown
  · refine ⟨first + 2, ?_⟩
    rw [handleConnection, handleConnection, hup, hdisconnected]
    rfl
  · exact absurd hfirst hnever

/-- Where every turn that would end the loop is behind one that waits, the loop
turns or waits for ever. -/
theorem never_shutDown
    (hbehind : ∀ k, EndsAt f turns chunks k → ∃ j, j < k ∧ WaitsAt f turns chunks j)
    (count : Nat) :
    handleConnection f turns chunks count = .awaiting ∨
      (handleConnection f turns chunks count = .turning true (unreadAfter chunks count) ∧
        ∀ j, j < count → ¬ WaitsAt f turns chunks j) := by
  induction count with
  | zero => exact Or.inr ⟨rfl, fun j hj => absurd hj (Nat.not_lt_zero j)⟩
  | succ count ih =>
      rcases ih with hawaiting | ⟨hup, hbefore⟩
      · left
        rw [handleConnection, hawaiting]
        rfl
      · rw [handleConnection, hup]
        rcases turn_cases f turns chunks count with
          ⟨hend, -⟩ | ⟨-, ⟨-, hnext⟩ | ⟨hwaits, hnext⟩⟩
        · obtain ⟨j, hj, hwait⟩ := hbehind count hend
          exact absurd hwait (hbefore j hj)
        · exact Or.inl hnext
        · refine Or.inr ⟨hnext, ?_⟩
          intro j hj
          rcases Nat.lt_succ_iff_lt_or_eq.mp hj with hj | rfl
          · exact hbefore j hj
          · exact hwaits

/-- No turn behind the last chunk ends the loop: `Guid.Parse("")` throws. -/
theorem lt_of_endsAt (hEof : f.hasEof [] = false) (hparse : f.parseGuid [] = none)
    {count : Nat} (hends : EndsAt f turns chunks count) : count < chunks.length := by
  obtain ⟨command, hreceived, hends⟩ := hends
  by_contra hbehind
  obtain rfl := hreceived.eq_nil (Nat.le_of_not_lt hbehind)
  rcases hends with hmarker | ⟨⟨snippetId, snippetData, result, hguid, -⟩, -⟩
  · rw [hEof] at hmarker
    cases hmarker
  · have hnone : f.parseGuid ((turns count).receiving []).command = none := hparse
    rw [hnone] at hguid
    cases hguid

/-- The socket is shut down after finitely many turns, if and only if one of the
commands in the client's bytes ends the loop and none before it waits for ever. -/
theorem shut_down_iff (turns : Nat → ConnectionTurn) (chunks : List (List UInt8))
    (hEof : f.hasEof [] = false) (hparse : f.parseGuid [] = none) :
    (∃ n, handleConnection f turns chunks n = .shutDown) ↔
      ∃ count, count < chunks.length ∧ EndsAt f turns chunks count ∧
        ∀ j, j < count → ¬ WaitsAt f turns chunks j := by
  constructor
  · rintro ⟨n, hdown⟩
    by_contra hnone
    push Not at hnone
    have hbehind : ∀ k, EndsAt f turns chunks k → ∃ j, j < k ∧ WaitsAt f turns chunks j :=
      fun k hends => hnone k (lt_of_endsAt hEof hparse hends) hends
    rcases never_shutDown hbehind n with hawaiting | ⟨hup, -⟩
    · rw [hdown] at hawaiting
      cases hawaiting
    · rw [hdown] at hup
      cases hup
  · rintro ⟨count, -, hends, hbefore⟩
    exact shutDown_of_endsAt hends hbefore

/-- A client that says good-bye. -/
def goodBye : List (List UInt8) := [sendAsync (HostConnection.unitsOf "<EOF>") true]

def quietTurns : Nat → ConnectionTurn := fun _ => ⟨ServerLoop.storedSnippet, true⟩

theorem shut_down_good_bye :
    ∃ n, handleConnection HostConnection.plainFormats quietTurns goodBye n = .shutDown :=
  (shut_down_iff quietTurns goodBye (by decide) (by decide)).mpr
    ⟨0, by decide, ⟨HostConnection.unitsOf "<EOF>", by decide +kernel, Or.inl (by decide)⟩,
      fun j hj => absurd hj (Nat.not_lt_zero j)⟩

/-- A client that closes at once leaves the loop turning for ever, on one empty
command after the other. -/
theorem silent_close_turns_for_ever :
    (∀ n, handleConnection HostConnection.plainFormats quietTurns [] n = .turning true []) ∧
      ¬ ∀ turns chunks, ∃ n, handleConnection HostConnection.plainFormats turns chunks n =
        .shutDown := by
  have hturns : ∀ n, handleConnection HostConnection.plainFormats quietTurns [] n =
      .turning true [] := by
    intro n
    induction n with
    | zero => rfl
    | succ n ih =>
        rw [handleConnection, ih]
        have hthrows : serveCommand HostConnection.plainFormats
            ((quietTurns n).receiving []) = .throws := rfl
        simp only [turn, receiveToEnd, SocketStatus.initial, hthrows]
  refine ⟨hturns, ?_⟩
  intro hall
  obtain ⟨n, hdown⟩ := hall quietTurns []
  rw [hturns n] at hdown
  cases hdown

end ConnectionLoop

end HostedPumpkin
