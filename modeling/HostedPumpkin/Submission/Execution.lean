import HostedPumpkin.Library.Machine
import HostedPumpkin.Library.LabelledCode
import HostedPumpkin.Submission.Module

/-!
Running the methods of a module. A run has a frame for every method that was entered and
has not ended; an instruction acts on the frame on top, enters a method of the module,
calls a method outside it, ends the method or raises an exception, and an exception leaves
frame after frame until a handler takes it.

What the runtime does with values, locals and the world outside the module is a parameter,
and so is its choice among the handlers that protect an instruction. The instruction is
passed together with its method, since its model leaves out operands that nothing patches.
-/

namespace HostedPumpkin.Execution

/-- What an instruction that invokes no method does. -/
inductive Effect (V L X W : Type) where
  | next (stack : List V) (locals : L) (world : W)
  | jump (target : InstructionRef) (stack : List V) (locals : L)
  | leave (target : InstructionRef) (locals : L)
  | ret
  | throw (exception : X) (world : W)
  | invalid

/-- The runtime, with its values, locals, exceptions and world. A stack and a list of
arguments have what was pushed last in front. -/
structure Runtime (V L X W : Type) where
  /-- An instruction that invokes no method. -/
  plain : Nat → Instruction → List V → L → W → Effect V L X W
  /-- The number of values a `calli` takes off the stack. -/
  indirectArguments : Nat → Instruction → Nat
  /-- The method of the module that an invocation enters, if it is one of the module. -/
  target : Nat → Instruction → List V → W → Option Nat
  /-- A method outside the module returns or throws. -/
  external : Nat → Instruction → List V → W → (Option V × W) ⊕ (X × W)
  /-- The object that a `newobj` creates for a constructor of the module. -/
  allocate : MethodReference → W → V × W
  enter : Nat → List V → L
  returns : Nat → Bool
  /-- The handler that takes an exception among those that protect the instruction. -/
  dispatch : Nat → List ExceptionHandler → X → L → W → Option (InstructionRef × List V × L)
  /-- Where a `leave` goes on, given the handlers of the blocks that it leaves. -/
  leave : Nat → List ExceptionHandler → InstructionRef → L → InstructionRef × L

/-- A method that was entered: the instructions still to come, the one that was begun last
and, in a constructor that a `newobj` entered, the object. -/
structure Frame (V L : Type) where
  method : Nat
  rest : List Instruction
  current : Option Instruction
  stack : List V
  locals : L
  created : Option V

/-- The frames, the one on top first, and the exception that is on its way. -/
structure Config (V L X W : Type) where
  frames : List (Frame V L)
  world : W
  raised : Option X

inductive Outcome (V X W : Type) where
  | returned (value : Option V) (world : W)
  | unhandled (exception : X) (world : W)
  | invalid

/-- The methods of a module, at every nesting depth. -/
def methodsOf (module : ModuleDefinition) : List MethodDefinition :=
  module.allTypes.flatMap TypeDefinition.methods

def bodyOf (methods : List MethodDefinition) (method : Nat) : Option MethodBody :=
  methods[method]?.bind MethodDefinition.body

/-- The place a reference of the body is to. -/
def goTo (body : MethodBody) (target : InstructionRef) : Option (List Instruction) :=
  if target ∈ body.references then
    LabelledCode.codeFrom Instruction.ref target body.instructions
  else none

/-- The handler protects the instruction. -/
def protects (body : MethodBody) (ref : InstructionRef) (handler : ExceptionHandler) : Bool :=
  LabelledCode.inRegion Instruction.ref body.instructions handler.tryStart handler.tryEnd ref

section

variable {V L X W : Type}

abbrev Step (V L X W : Type) := Config V L X W ⊕ Outcome V X W

def jumpTo (body : MethodBody) (target : InstructionRef) (frame : Frame V L)
    (callers : List (Frame V L)) (world : W) : Step V L X W :=
  match goTo body target with
  | some rest => .inl ⟨{ frame with rest } :: callers, world, none⟩
  | none => .inr .invalid

/-- The method ends with a value or without one, or its constructor with the object. -/
def result (rt : Runtime V L X W) (frame : Frame V L) : Option V :=
  match frame.created with
  | some object => some object
  | none => if rt.returns frame.method then frame.stack.head? else none

def endMethod (rt : Runtime V L X W) (frame : Frame V L) (world : W) :
    List (Frame V L) → Step V L X W
  | [] => .inr (.returned (result rt frame) world)
  | caller :: callers =>
      .inl ⟨{ caller with stack := (result rt frame).toList ++ caller.stack } :: callers, world,
        none⟩

def perform (rt : Runtime V L X W) (body : MethodBody) (i : Instruction) (frame : Frame V L)
    (callers : List (Frame V L)) (world : W) : Effect V L X W → Step V L X W
  | .next stack locals world => .inl ⟨{ frame with stack, locals } :: callers, world, none⟩
  | .jump target stack locals => jumpTo body target { frame with stack, locals } callers world
  | .leave target locals =>
      if target ∈ body.references then
        let left := body.exceptionHandlers.filter (fun handler =>
          protects body i.ref handler && !protects body target handler)
        let next := rt.leave frame.method left target locals
        jumpTo body next.1 { frame with stack := [], locals := next.2 } callers world
      else .inr .invalid
  | .ret => endMethod rt frame world callers
  | .throw exception world => .inl ⟨frame :: callers, world, some exception⟩
  | .invalid => .inr .invalid

/-- The number of values that an instruction takes off the stack if it invokes a method. -/
def argumentCount (rt : Runtime V L X W) (method : Nat) (i : Instruction) : Option Nat :=
  match i.code with
  | .call operand | .callvirt operand =>
      some ((if operand.hasThis then 1 else 0) + operand.parameters.length)
  | .newobj operand => some operand.parameters.length
  | .calli => some (rt.indirectArguments method i)
  | _ => none

/-- A new frame, and for a constructor the object in front of its arguments. -/
def enterMethod (rt : Runtime V L X W) (methods : List MethodDefinition) (method : Nat)
    (i : Instruction) (arguments : List V) (callers : List (Frame V L)) (world : W) :
    Step V L X W :=
  match bodyOf methods method with
  | none => .inr .invalid
  | some body =>
      match i.code with
      | .newobj operand =>
          let created := rt.allocate operand world
          .inl ⟨⟨method, body.instructions, none, [],
            rt.enter method (arguments ++ [created.1]), some created.1⟩ :: callers, created.2, none⟩
      | _ =>
          .inl ⟨⟨method, body.instructions, none, [], rt.enter method arguments, none⟩ :: callers,
            world, none⟩

def invoke (rt : Runtime V L X W) (methods : List MethodDefinition) (i : Instruction)
    (count : Nat) (frame : Frame V L) (callers : List (Frame V L)) (world : W) : Step V L X W :=
  if count ≤ frame.stack.length then
    let arguments := frame.stack.take count
    let caller := { frame with stack := frame.stack.drop count }
    match rt.target frame.method i arguments world with
    | some method => enterMethod rt methods method i arguments (caller :: callers) world
    | none =>
        match rt.external frame.method i arguments world with
        | .inl (value, world) =>
            .inl ⟨{ caller with stack := value.toList ++ caller.stack } :: callers, world, none⟩
        | .inr (exception, world) => .inl ⟨caller :: callers, world, some exception⟩
  else .inr .invalid

def execute (rt : Runtime V L X W) (methods : List MethodDefinition) (body : MethodBody)
    (i : Instruction) (frame : Frame V L) (callers : List (Frame V L)) (world : W) :
    Step V L X W :=
  match argumentCount rt frame.method i with
  | some count => invoke rt methods i count frame callers world
  | none =>
      perform rt body i frame callers world
        (rt.plain frame.method i frame.stack frame.locals world)

/-- The exception goes to a handler of the frame on top or leaves the frame. -/
def unwind (rt : Runtime V L X W) (body : MethodBody) (i : Instruction) (frame : Frame V L)
    (callers : List (Frame V L)) (exception : X) (world : W) : Step V L X W :=
  match rt.dispatch frame.method (body.exceptionHandlers.filter (protects body i.ref)) exception
      frame.locals world with
  | some (target, stack, locals) => jumpTo body target { frame with stack, locals } callers world
  | none =>
      match callers with
      | [] => .inr (.unhandled exception world)
      | caller :: others => .inl ⟨caller :: others, world, some exception⟩

def step (rt : Runtime V L X W) (methods : List MethodDefinition) (c : Config V L X W) :
    Step V L X W :=
  match c.frames with
  | [] => .inr .invalid
  | frame :: callers =>
      match bodyOf methods frame.method with
      | none => .inr .invalid
      | some body =>
          match c.raised, frame.current, frame.rest with
          | some exception, some i, _ => unwind rt body i frame callers exception c.world
          | some _, none, _ => .inr .invalid
          | none, _, i :: rest =>
              execute rt methods body i { frame with rest, current := some i } callers c.world
          | none, _, [] => .inr .invalid

/-- A method of the module is entered from outside. -/
def start (rt : Runtime V L X W) (methods : List MethodDefinition) (method : Nat)
    (arguments : List V) (world : W) : Config V L X W :=
  ⟨[⟨method, ((bodyOf methods method).map MethodBody.instructions).getD [], none, [],
    rt.enter method arguments, none⟩], world, none⟩

end

end HostedPumpkin.Execution
