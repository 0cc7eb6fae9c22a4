import HostedPumpkin.CommandLine.Arg

/-!
The parser of the command line library. Each token is offered to the arguments in
their order until one takes it; what is left over must be an empty combined switch,
unless the rest is ignored.

A `CmdLine` handles its own exceptions: a failure is printed and the program exits
with 1. No list of exclusive arguments is declared, so that `XorHandler::check` is
whether an argument is required. The printed usage is left out.
-/

namespace HostedPumpkin

namespace TCLAP

structure CmdLine where
  argList : List Arg
  numRequired : Nat
deriving DecidableEq, Repr

/-- `addToList` puts an argument in front. -/
def CmdLine.add (cmd : CmdLine) (a : Arg) : Except Thrown CmdLine :=
  if cmd.argList.any a.sameAs then
    .error (.argException "Argument with same flag/name already exists!".toList a.longID)
  else .ok ⟨a :: cmd.argList, cmd.numRequired + if a.required then 1 else 0⟩

/-- What the round over `_argList` leaves for one token. -/
structure Offered where
  argList : List Arg
  matched : Option Arg
  token : Text
  tookNext : Bool
  ignoring : Bool
deriving DecidableEq, Repr

/-- The round over `_argList` for one token. -/
def offer : List Arg → Bool → Text → Option Text → Except Thrown Offered
  | [], ignoring, token, _ => .ok ⟨[], none, token, false, ignoring⟩
  | arg :: argList, ignoring, token, next => do
    let p ← arg.processArg ignoring token next
    if p.matched then
      .ok ⟨p.arg :: argList, some p.arg, p.token, p.tookNext, p.ignoring⟩
    else
      let o ← offer argList p.ignoring p.token next
      .ok { o with argList := p.arg :: o.argList }

/-- `_emptyCombined`. -/
def emptyCombined (s : Text) : Bool :=
  !(s != [] && s.head? != some flagStartChar) && (s.drop 1).all (· == blankChar)

/-- The variables of `parse`. -/
structure Parsing where
  argList : List Arg
  ignoring : Bool
  requiredCount : Nat
deriving DecidableEq, Repr

/-- A round of the loop over the tokens, and whether it took the next token too. -/
def parseToken (s : Parsing) (token : Text) (next : Option Text) :
    Except Thrown (Parsing × Bool) := do
  let o ← offer s.argList s.ignoring token next
  let required := match o.matched with
    | some arg => if arg.required then 1 else 0
    | none => 0
  if o.matched.isNone && !emptyCombined o.token && !o.ignoring then
    .error (.argException "Couldn't find match for argument".toList o.token)
  else .ok (⟨o.argList, o.ignoring, s.requiredCount + required⟩, o.tookNext)

/-- The loop over the tokens. The flag says that the first token was taken as the value
of the one before it. -/
def parseLoop : Parsing → Bool → List Text → Except Thrown Parsing
  | s, _, [] => .ok s
  | s, true, _ :: args => parseLoop s false args
  | s, false, token :: args => do
    let (s, tookNext) ← parseToken s token args.head?
    parseLoop s tookNext args

/-- The names of the required arguments that are not set. -/
def missingArgs (argList : List Arg) : List Text :=
  (argList.filter fun arg => arg.required && !arg.alreadySet).map Arg.name

def missingArgsException (argList : List Arg) : Thrown :=
  let missing := missingArgs argList
  .argException ((if 1 < missing.length then "Required arguments missing: ".toList
    else "Required argument missing: ".toList) ++ ", ".toList.intercalate missing)
    "undefined".toList

/-- The `try` block of `parse`, from the tokens behind the program's name. -/
def CmdLine.parseArgs (cmd : CmdLine) (args : List Text) : Except Thrown Parsing := do
  let s ← parseLoop ⟨cmd.argList, false, 0⟩ false args
  if s.requiredCount < cmd.numRequired then .error (missingArgsException s.argList)
  else if cmd.numRequired < s.requiredCount then
    .error (.argException "Too many arguments!".toList "undefined".toList)
  else .ok s

/-- The status the program exits with: `failure` throws an `ExitException` of 1. -/
def Thrown.exitStatus : Thrown → Nat
  | .argException _ _ => 1
  | .exitException estat => estat

/-- `parse`, with the status if it exits. -/
def CmdLine.parse (cmd : CmdLine) (args : List Text) : Except Nat Parsing :=
  (cmd.parseArgs args).mapError Thrown.exitStatus

/-! ### A token among the arguments -/

theorem offer_cons_of_declines {arg : Arg} {token : Text} {next : Option Text}
    {ignoring : Bool} (declined : arg.Declines ignoring token next) (after : List Arg) :
    offer (arg :: after) ignoring token next =
      (offer after ignoring token next).map
        fun o => { o with argList := arg :: o.argList } := by
  rw [Arg.Declines] at declined
  rw [offer, declined]
  change (offer after ignoring token next >>= _) = _
  cases offer after ignoring token next <;> rfl

theorem offer_of_declines {before : List Arg} {token : Text} {next : Option Text}
    {ignoring : Bool} (declined : ∀ a ∈ before, a.Declines ignoring token next)
    (after : List Arg) :
    offer (before ++ after) ignoring token next =
      (offer after ignoring token next).map
        fun o => { o with argList := before ++ o.argList } := by
  induction before with
  | nil =>
    cases offered : offer after ignoring token next <;> simp [offered, Except.map]
  | cons a before ih =>
    have rest := ih fun b member => declined b (List.mem_cons_of_mem a member)
    rw [List.cons_append, offer_cons_of_declines (declined a List.mem_cons_self), rest]
    cases offer after ignoring token next <;> rfl

theorem offer_of_matched {arg : Arg} {token : Text} {next : Option Text} {ignoring : Bool}
    {p : Processed} (processed : arg.processArg ignoring token next = .ok p)
    (matched : p.matched = true) (after : List Arg) :
    offer (arg :: after) ignoring token next =
      .ok ⟨p.arg :: after, some p.arg, p.token, p.tookNext, p.ignoring⟩ := by
  rw [offer, processed]
  change (if p.matched = true then _ else _) = _
  rw [if_pos matched]

theorem offer_of_thrown {arg : Arg} {token : Text} {next : Option Text} {ignoring : Bool}
    {thrown : Thrown} (processed : arg.processArg ignoring token next = .error thrown)
    (after : List Arg) : offer (arg :: after) ignoring token next = .error thrown := by
  rw [offer, processed]
  rfl

theorem offer_all_decline {argList : List Arg} {token : Text} {next : Option Text}
    {ignoring : Bool} (declined : ∀ a ∈ argList, a.Declines ignoring token next) :
    offer argList ignoring token next = .ok ⟨argList, none, token, false, ignoring⟩ := by
  have := offer_of_declines declined []
  simpa [offer, Except.map] using this

theorem parseToken_matched {s : Parsing} {token left : Text} {next : Option Text}
    {argList : List Arg} {arg : Arg} {tookNext ignoring : Bool}
    (offered : offer s.argList s.ignoring token next =
      .ok ⟨argList, some arg, left, tookNext, ignoring⟩) :
    parseToken s token next = .ok (⟨argList, ignoring,
      s.requiredCount + if arg.required = true then 1 else 0⟩, tookNext) := by
  simp [parseToken, offered, bind, Except.bind]

theorem parseToken_unmatched {s : Parsing} {token : Text} {next : Option Text}
    (offered : offer s.argList s.ignoring token next =
      .ok ⟨s.argList, none, token, false, s.ignoring⟩) :
    parseToken s token next =
      if emptyCombined token = false ∧ s.ignoring = false then
        .error (.argException "Couldn't find match for argument".toList token)
      else .ok (s, false) := by
  rw [parseToken, offered]
  change (if (!emptyCombined token && !s.ignoring) = true then _ else _) = _
  simp only [Bool.and_eq_true, Bool.not_eq_true']
  rfl

theorem parseToken_thrown {s : Parsing} {token : Text} {next : Option Text} {thrown : Thrown}
    (offered : offer s.argList s.ignoring token next = .error thrown) :
    parseToken s token next = .error thrown := by
  rw [parseToken, offered]
  rfl

/-- Behind a token that starts the ignoring nothing is read any more. -/
theorem parseLoop_ignoring (s : Parsing) (ignoring : s.ignoring = true) (args : List Text)
    (skip : Bool) : parseLoop s skip args = .ok s := by
  induction args generalizing skip with
  | nil => cases skip <;> rfl
  | cons token args ih =>
    cases skip with
    | true => exact ih false
    | false =>
      have passed : parseToken s token args.head? = .ok (s, false) := by
        have none_takes := @offer_all_decline s.argList token args.head? true
          fun a _ => a.declines_of_ignoring token args.head?
        rw [parseToken_unmatched (ignoring ▸ none_takes), ignoring]
        simp
      rw [parseLoop, passed]
      exact ih false

end TCLAP

end HostedPumpkin
