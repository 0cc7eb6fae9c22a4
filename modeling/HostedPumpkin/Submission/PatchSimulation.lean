import HostedPumpkin.Submission.Execution
import HostedPumpkin.Submission.OwnCalls

/-!
The patched module runs like the original one. Its frames are those of the original with
the code patched: an instruction that stays is one step in both modules, and a call that is
replaced is matched by two, the load of the monitor and the call of the patch method.

Jumps and protected regions are kept only if nothing refers to a replaced call.
-/

namespace HostedPumpkin.SnippetCompiler

open Execution LabelledCode

section Translation

variable {V L X W W' : Type}

/-- An effect in another world. -/
def mapEffect (f : W → W') : Effect V L X W → Effect V L X W'
  | .next stack locals world => .next stack locals (f world)
  | .jump target stack locals => .jump target stack locals
  | .leave target locals => .leave target locals
  | .ret => .ret
  | .throw exception world => .throw exception (f world)
  | .invalid => .invalid

def mapOutcome (f : W → W') : Outcome V X W → Outcome V X W'
  | .returned value world => .returned value (f world)
  | .unhandled exception world => .unhandled exception (f world)
  | .invalid => .invalid

theorem mapOutcome_injective {f : W → W'} (hf : Function.Injective f) :
    Function.Injective (mapOutcome f : Outcome V X W → Outcome V X W') := by
  intro first second h
  cases first <;> cases second <;> simp only [mapOutcome, Outcome.returned.injEq,
    Outcome.unhandled.injEq, reduceCtorEq] at h ⊢
  · exact ⟨h.1, hf h.2⟩
  · exact ⟨h.1, hf h.2⟩

variable (importMethod : MethodDefinition → MethodReference) (monitorRef : FieldDefinition)
  (pairs : List (Signature × MethodDefinition))

/-- The instruction that does in the patched code what `i` did. -/
def standsFor (i : Instruction) : Instruction :=
  match patchFor pairs i with
  | some newMethod => createPatchedCall importMethod i newMethod
  | none => i

def patchFrame (frame : Frame V L) : Frame V L :=
  { frame with
    rest := frame.rest.flatMap (rewriteInstruction importMethod monitorRef pairs)
    current := frame.current.map (standsFor importMethod pairs) }

def patchConfig (f : W → W') (c : Config V L X W) : Config V L X W' :=
  ⟨c.frames.map (patchFrame importMethod monitorRef pairs), f c.world, c.raised⟩

def patchStep (f : W → W') : Step V L X W → Step V L X W' :=
  Sum.map (patchConfig importMethod monitorRef pairs f) (mapOutcome f)

end Translation

section Places

variable {importMethod : MethodDefinition → MethodReference} {monitorRef : FieldDefinition}
  {pairs : List (Signature × MethodDefinition)}

/-- A body whose jumps and regions survive: nothing refers to a call that is replaced. -/
structure KeepsPlaces (pairs : List (Signature × MethodDefinition)) (body : MethodBody) :
    Prop where
  read : body.AsRead
  well : body.WellFormed
  untouched : ∀ i ∈ body.instructions, i.ref ∈ body.references → patchFor pairs i = none

theorem rewriteInstruction_none {i : Instruction} (h : patchFor pairs i = none) :
    rewriteInstruction importMethod monitorRef pairs i = [i] := by
  simp only [rewriteInstruction, h]

theorem rewriteInstruction_some {i : Instruction} {newMethod : MethodDefinition}
    (h : patchFor pairs i = some newMethod) :
    rewriteInstruction importMethod monitorRef pairs i =
      [createMonitorLoad monitorRef i newMethod, createPatchedCall importMethod i newMethod] := by
  simp only [rewriteInstruction, h, createMonitorLoad, createPatchedCall]

theorem standsFor_none {i : Instruction} (h : patchFor pairs i = none) :
    standsFor importMethod pairs i = i := by
  simp only [standsFor, h]

theorem standsFor_some {i : Instruction} {newMethod : MethodDefinition}
    (h : patchFor pairs i = some newMethod) :
    standsFor importMethod pairs i = createPatchedCall importMethod i newMethod := by
  simp only [standsFor, h]

theorem standsFor_mem (i : Instruction) :
    standsFor importMethod pairs i ∈ rewriteInstruction importMethod monitorRef pairs i := by
  cases h : patchFor pairs i with
  | none => simp [standsFor_none h, rewriteInstruction_none h]
  | some newMethod => simp [standsFor_some h, rewriteInstruction_some h]

/-- The replacement of a call refers to no instruction, as the call did. -/
theorem targets_rewriteInstruction (i : Instruction) :
    (rewriteInstruction importMethod monitorRef pairs i).flatMap (fun j => j.code.targets) =
      i.code.targets := by
  cases h : patchFor pairs i with
  | none => rw [rewriteInstruction_none h, List.flatMap_singleton]
  | some newMethod =>
      have hcall : i.code.targets = [] := by
        cases hcode : i.code with
        | call | callvirt | newobj | calli | ldsfld | other => rfl
        | branch | switch => simp [patchFor, hcode, calledMethod] at h
      rw [rewriteInstruction_some h, hcall]
      rfl

theorem references_rewriteBody (body : MethodBody) :
    (rewriteBody importMethod monitorRef pairs body).references = body.references := by
  simp only [MethodBody.references, rewriteBody, List.flatMap_assoc, targets_rewriteInstruction]

variable {body : MethodBody}

/-- A reference of the body leads to its instruction in the patched body too. -/
theorem KeepsPlaces.entered (h : KeepsPlaces pairs body) {target : InstructionRef}
    (htarget : target ∈ body.references) :
    Entered Instruction.ref Instruction.ref (rewriteInstruction importMethod monitorRef pairs)
      body.instructions target := by
  refine ⟨?_, ?_⟩
  · intro i hi hlabel
    subst hlabel
    exact ⟨i, [], rewriteInstruction_none (h.untouched i hi htarget), rfl⟩
  · intro i hi hlabel j hj
    cases hfor : patchFor pairs i with
    | none =>
        rw [rewriteInstruction_none hfor, List.mem_singleton] at hj
        rw [hj]
        exact hlabel
    | some newMethod =>
        -- the two new instructions were never read, and the target was
        obtain ⟨found, hfound, hread⟩ := List.mem_map.mp (h.well target htarget)
        obtain ⟨index, hindex⟩ := h.read.read found hfound
        rw [rewriteInstruction_some hfor, List.mem_pair] at hj
        rw [← hread, hindex]
        rcases hj with rfl | rfl
        · exact InstructionRef.noConfusion
        · exact InstructionRef.noConfusion

theorem goTo_rewriteBody (h : KeepsPlaces pairs body) (target : InstructionRef) :
    goTo (rewriteBody importMethod monitorRef pairs body) target =
      (goTo body target).map (fun rest =>
        rest.flatMap (rewriteInstruction importMethod monitorRef pairs)) := by
  rw [goTo, goTo, references_rewriteBody]
  split
  next htarget => exact codeFrom_flatMap (h.entered htarget)
  next => rfl

/-- What replaces an instruction replaces no other one. -/
theorem eq_of_ref_eq (h : KeepsPlaces pairs body) {i j k : Instruction}
    (hi : i ∈ body.instructions) (hj : j ∈ body.instructions)
    (hk : k ∈ rewriteInstruction importMethod monitorRef pairs j)
    (href : k.ref = (standsFor importMethod pairs i).ref) : j = i := by
  obtain ⟨indexi, hreadi⟩ := h.read.read i hi
  obtain ⟨indexj, hreadj⟩ := h.read.read j hj
  apply List.inj_on_of_nodup_map h.read.distinct hj hi
  cases hfori : patchFor pairs i with
  | none =>
      rw [standsFor_none hfori] at href
      cases hforj : patchFor pairs j with
      | none =>
          rw [rewriteInstruction_none hforj, List.mem_singleton] at hk
          rw [← hk, href]
      | some newMethod =>
          rw [rewriteInstruction_some hforj, List.mem_pair] at hk
          rw [hreadi] at href
          rcases hk with rfl | rfl
          · cases href
          · cases href
  | some newMethod =>
      rw [standsFor_some hfori] at href
      cases hforj : patchFor pairs j with
      | none =>
          rw [rewriteInstruction_none hforj, List.mem_singleton] at hk
          rw [hk, hreadj] at href
          cases href
      | some newMethod =>
          rw [rewriteInstruction_some hforj, List.mem_pair] at hk
          rcases hk with rfl | rfl
          · cases href
          · exact InstructionRef.patchedCall.inj href

/-- The handlers that protect an instruction protect what stands for it. -/
theorem protects_rewriteBody (h : KeepsPlaces pairs body) {i : Instruction}
    (hi : i ∈ body.instructions) {handler : ExceptionHandler}
    (hhandler : handler ∈ body.exceptionHandlers) :
    protects (rewriteBody importMethod monitorRef pairs body)
        (standsFor importMethod pairs i).ref handler = protects body i.ref handler := by
  have hboundary : ∀ ref ∈ handler.boundaries, ref ∈ body.references := by
    intro ref href
    exact List.mem_append_right _ (List.mem_flatMap.mpr ⟨handler, hhandler, href⟩)
  apply inRegion_flatMap
  · intro first hfirst
    apply h.entered
    apply hboundary
    simp [ExceptionHandler.boundaries, Option.mem_def.mp hfirst]
  · intro last hlast
    apply h.entered
    apply hboundary
    simp [ExceptionHandler.boundaries, Option.mem_def.mp hlast]
  · exact hi
  · exact standsFor_mem i
  · exact h.read.distinct
  · intro j hj k hk href
    exact eq_of_ref_eq h hi hj hk href

theorem protects_target (h : KeepsPlaces pairs body) {target : InstructionRef}
    (htarget : target ∈ body.references) {handler : ExceptionHandler}
    (hhandler : handler ∈ body.exceptionHandlers) :
    protects (rewriteBody importMethod monitorRef pairs body) target handler =
      protects body target handler := by
  obtain ⟨i, hi, rfl⟩ := List.mem_map.mp (h.well target htarget)
  have hkept := @protects_rewriteBody importMethod monitorRef pairs body h i hi handler hhandler
  rw [standsFor_none (h.untouched i hi htarget)] at hkept
  exact hkept

end Places

section Following

variable {V L X W W' : Type} (rt : Runtime V L X W) (rt' : Runtime V L X W') (f : W → W')
  (monitor : V) (methods : List MethodDefinition)
  (importMethod : MethodDefinition → MethodReference) (monitorRef : FieldDefinition)
  (pairs : List (Signature × MethodDefinition))

/-- An instruction of a method of the module. -/
def InMethod (method : Nat) (i : Instruction) : Prop :=
  ∃ body, bodyOf methods method = some body ∧ i ∈ body.instructions

/-- The two runtimes do the same where nothing is patched, in worlds that correspond. The
load of the monitor pushes it, and a patch method with the monitor on top of the arguments
of the call it replaces does what that call did; neither is a method of the module. -/
structure Corresponds : Prop where
  plain : ∀ method i stack locals world, InMethod methods method i → patchFor pairs i = none →
    rt'.plain method i stack locals (f world) =
      mapEffect f (rt.plain method i stack locals world)
  indirectArguments : rt'.indirectArguments = rt.indirectArguments
  target : ∀ method i arguments world, InMethod methods method i → patchFor pairs i = none →
    rt'.target method i arguments (f world) = rt.target method i arguments world
  external : ∀ method i arguments world, InMethod methods method i → patchFor pairs i = none →
    rt'.external method i arguments (f world) =
      (rt.external method i arguments world).map (Prod.map id f) (Prod.map id f)
  allocate : ∀ operand world,
    rt'.allocate operand (f world) = Prod.map id f (rt.allocate operand world)
  enter : rt'.enter = rt.enter
  returns : rt'.returns = rt.returns
  dispatch : ∀ method handlers exception locals world,
    rt'.dispatch method handlers exception locals (f world) =
      rt.dispatch method handlers exception locals world
  leave : rt'.leave = rt.leave
  monitorLoad : ∀ method i newMethod stack locals world, patchFor pairs i = some newMethod →
    rt'.plain method (createMonitorLoad monitorRef i newMethod) stack locals world =
      .next (monitor :: stack) locals world
  argumentCount : ∀ method i newMethod, patchFor pairs i = some newMethod →
    argumentCount rt' method (createPatchedCall importMethod i newMethod) =
      (argumentCount rt method i).map (fun count => count + 1)
  patchTarget : ∀ method i newMethod arguments world, InMethod methods method i →
    patchFor pairs i = some newMethod → rt.target method i arguments world = none ∧
      rt'.target method (createPatchedCall importMethod i newMethod) (monitor :: arguments)
        (f world) = none
  patchCall : ∀ method i newMethod arguments world, InMethod methods method i →
    patchFor pairs i = some newMethod →
      rt'.external method (createPatchedCall importMethod i newMethod) (monitor :: arguments)
          (f world) =
        (rt.external method i arguments world).map (Prod.map id f) (Prod.map id f)

/-- The frame is in a method of the module and goes on inside it. -/
def Placed (frame : Frame V L) : Prop :=
  ∃ body, bodyOf methods frame.method = some body ∧ frame.rest <:+ body.instructions ∧
    ∀ i, frame.current = some i → i ∈ body.instructions

/-- The methods after the patching. -/
def patchedMethods : List MethodDefinition :=
  methods.map (rewriteMethod importMethod monitorRef pairs)

variable {rt rt' f monitor methods importMethod monitorRef pairs}

theorem bodyOf_patchedMethods (method : Nat) :
    bodyOf (patchedMethods methods importMethod monitorRef pairs) method =
      (bodyOf methods method).map (rewriteBody importMethod monitorRef pairs) := by
  rw [bodyOf, bodyOf, patchedMethods, List.getElem?_map]
  cases methods[method]? with
  | none => rfl
  | some definition => rfl

variable {body : MethodBody} {i : Instruction} {frame : Frame V L} {callers : List (Frame V L)}
  {world : W}

theorem jumpTo_patched (hplaces : KeepsPlaces pairs body) (target : InstructionRef)
    (frame : Frame V L) (callers : List (Frame V L)) (world : W) :
    jumpTo (rewriteBody importMethod monitorRef pairs body) target
        (patchFrame importMethod monitorRef pairs frame)
        (callers.map (patchFrame importMethod monitorRef pairs)) (f world) =
      patchStep importMethod monitorRef pairs f (jumpTo (X := X) body target frame callers world) := by
  rw [jumpTo, jumpTo, goTo_rewriteBody hplaces]
  cases goTo body target with
  | none => rfl
  | some rest => rfl

theorem endMethod_patched (h : Corresponds rt rt' f monitor methods importMethod monitorRef pairs)
    (frame : Frame V L) (world : W) (callers : List (Frame V L)) :
    endMethod rt' (patchFrame importMethod monitorRef pairs frame) (f world)
        (callers.map (patchFrame importMethod monitorRef pairs)) =
      patchStep importMethod monitorRef pairs f (endMethod rt frame world callers) := by
  have hresult : result rt' (patchFrame importMethod monitorRef pairs frame) = result rt frame := by
    rw [result, result, h.returns]
    rfl
  cases callers with
  | nil =>
      rw [List.map_nil, endMethod, endMethod, hresult]
      rfl
  | cons caller callers =>
      rw [List.map_cons, endMethod, endMethod, hresult]
      rfl

/-- The handlers a `leave` passes are the same ones. -/
theorem left_patched (hplaces : KeepsPlaces pairs body) (hi : i ∈ body.instructions)
    {target : InstructionRef} (htarget : target ∈ body.references) :
    (rewriteBody importMethod monitorRef pairs body).exceptionHandlers.filter (fun handler =>
        protects (rewriteBody importMethod monitorRef pairs body)
            (standsFor importMethod pairs i).ref handler &&
          !protects (rewriteBody importMethod monitorRef pairs body) target handler) =
      body.exceptionHandlers.filter (fun handler =>
        protects body i.ref handler && !protects body target handler) := by
  apply List.filter_congr
  intro handler hhandler
  rw [protects_rewriteBody hplaces hi hhandler, protects_target hplaces htarget hhandler]

theorem perform_patched (h : Corresponds rt rt' f monitor methods importMethod monitorRef pairs)
    (hplaces : KeepsPlaces pairs body) (hi : i ∈ body.instructions)
    (hfor : patchFor pairs i = none) (frame : Frame V L) (callers : List (Frame V L)) (world : W)
    (effect : Effect V L X W) :
    perform rt' (rewriteBody importMethod monitorRef pairs body) i
        (patchFrame importMethod monitorRef pairs frame)
        (callers.map (patchFrame importMethod monitorRef pairs)) (f world) (mapEffect f effect) =
      patchStep importMethod monitorRef pairs f (perform rt body i frame callers world effect) := by
  cases effect with
  | next stack locals world => rfl
  | jump target stack locals =>
      exact jumpTo_patched hplaces target { frame with stack, locals } callers world
  | leave target locals =>
      simp only [mapEffect, perform, references_rewriteBody]
      split
      next htarget =>
        have hleft := @left_patched importMethod monitorRef pairs body i hplaces hi target htarget
        rw [standsFor_none hfor] at hleft
        simp only [hleft, h.leave]
        exact jumpTo_patched hplaces _ { frame with stack := [], locals := _ } callers world
      next => rfl
  | ret => exact endMethod_patched h frame world callers
  | throw exception world => rfl
  | invalid => rfl

theorem enterMethod_patched (h : Corresponds rt rt' f monitor methods importMethod monitorRef pairs)
    (method : Nat) (i : Instruction) (arguments : List V) (callers : List (Frame V L))
    (world : W) :
    enterMethod rt' (patchedMethods methods importMethod monitorRef pairs) method i arguments
        (callers.map (patchFrame importMethod monitorRef pairs)) (f world) =
      patchStep importMethod monitorRef pairs f
        (enterMethod rt methods method i arguments callers world) := by
  rw [enterMethod, enterMethod, bodyOf_patchedMethods]
  cases bodyOf methods method with
  | none => rfl
  | some body =>
      simp only [Option.map_some, h.enter]
      cases i.code with
      | newobj operand =>
          simp only [h.allocate]
          rfl
      | call | callvirt | calli | branch | switch | ldsfld | other => rfl

/-- A method that stays outside the module, called in both modules. -/
theorem invoke_patched (h : Corresponds rt rt' f monitor methods importMethod monitorRef pairs)
    (hin : InMethod methods frame.method i) (hfor : patchFor pairs i = none) (count : Nat) :
    invoke rt' (patchedMethods methods importMethod monitorRef pairs) i count
        (patchFrame importMethod monitorRef pairs frame)
        (callers.map (patchFrame importMethod monitorRef pairs)) (f world) =
      patchStep importMethod monitorRef pairs f
        (invoke rt methods i count frame callers world) := by
  simp only [invoke, patchFrame, h.target _ i _ world hin hfor, h.external _ i _ world hin hfor]
  split
  next =>
    cases rt.target frame.method i (frame.stack.take count) world with
    | some method =>
        exact enterMethod_patched h method i (frame.stack.take count)
          ({ frame with stack := frame.stack.drop count } :: callers) world
    | none =>
        cases rt.external frame.method i (frame.stack.take count) world with
        | inl returned => rfl
        | inr thrown => rfl
  next => rfl

theorem execute_patched (h : Corresponds rt rt' f monitor methods importMethod monitorRef pairs)
    (hplaces : KeepsPlaces pairs body) (hi : i ∈ body.instructions)
    (hfor : patchFor pairs i = none) (frame : Frame V L) (hin : InMethod methods frame.method i)
    (callers : List (Frame V L)) (world : W) :
    execute rt' (patchedMethods methods importMethod monitorRef pairs)
        (rewriteBody importMethod monitorRef pairs body) i
        (patchFrame importMethod monitorRef pairs frame)
        (callers.map (patchFrame importMethod monitorRef pairs)) (f world) =
      patchStep importMethod monitorRef pairs f
        (execute rt methods body i frame callers world) := by
  have hcount : argumentCount rt' frame.method i = argumentCount rt frame.method i := by
    simp only [argumentCount, h.indirectArguments]
  have hplain := h.plain frame.method i frame.stack frame.locals world hin hfor
  simp only [execute]
  rw [show (patchFrame importMethod monitorRef pairs frame).method = frame.method from rfl, hcount]
  cases argumentCount rt frame.method i with
  | some count => exact invoke_patched h hin hfor count
  | none =>
      simp only [show (patchFrame importMethod monitorRef pairs frame).stack = frame.stack from rfl,
        show (patchFrame importMethod monitorRef pairs frame).locals = frame.locals from rfl,
        hplain]
      exact perform_patched h hplaces hi hfor frame callers world _

theorem unwind_patched (h : Corresponds rt rt' f monitor methods importMethod monitorRef pairs)
    (hplaces : KeepsPlaces pairs body) (hi : i ∈ body.instructions) (frame : Frame V L)
    (callers : List (Frame V L)) (exception : X) (world : W) :
    unwind rt' (rewriteBody importMethod monitorRef pairs body) (standsFor importMethod pairs i)
        (patchFrame importMethod monitorRef pairs frame)
        (callers.map (patchFrame importMethod monitorRef pairs)) exception (f world) =
      patchStep importMethod monitorRef pairs f
        (unwind rt body i frame callers exception world) := by
  have hhandlers : (rewriteBody importMethod monitorRef pairs body).exceptionHandlers.filter
      (protects (rewriteBody importMethod monitorRef pairs body)
        (standsFor importMethod pairs i).ref) =
          body.exceptionHandlers.filter (protects body i.ref) := by
    apply List.filter_congr
    intro handler hhandler
    exact protects_rewriteBody hplaces hi hhandler
  simp only [unwind, hhandlers, patchFrame, h.dispatch]
  cases rt.dispatch frame.method (body.exceptionHandlers.filter (protects body i.ref)) exception
      frame.locals world with
  | some entry =>
      exact jumpTo_patched hplaces entry.1 { frame with stack := entry.2.1, locals := entry.2.2 }
        callers world
  | none =>
      cases callers with
      | nil => rfl
      | cons caller callers => rfl

/-- The call that is replaced is matched by two steps: the load of the monitor, and the
call of the patch method, which finds the arguments under it. -/
theorem advance_patchedCall
    (h : Corresponds rt rt' f monitor methods importMethod monitorRef pairs)
    (hbody : bodyOf methods frame.method = some body) (hi : i ∈ body.instructions)
    {newMethod : MethodDefinition} (hfor : patchFor pairs i = some newMethod)
    (hcurrent : frame.current = some i) (current : Option Instruction) :
    Machine.advance (step rt' (patchedMethods methods importMethod monitorRef pairs)) 2
        ⟨{ patchFrame importMethod monitorRef pairs frame with
            rest := createMonitorLoad monitorRef i newMethod ::
              createPatchedCall importMethod i newMethod ::
                (patchFrame importMethod monitorRef pairs frame).rest
            current } ::
          callers.map (patchFrame importMethod monitorRef pairs), f world, none⟩ =
      patchStep importMethod monitorRef pairs f
        (execute rt methods body i frame callers world) := by
  have hin : InMethod methods frame.method i := ⟨body, hbody, hi⟩
  have hbody' : bodyOf (patchedMethods methods importMethod monitorRef pairs) frame.method =
      some (rewriteBody importMethod monitorRef pairs body) := by
    rw [bodyOf_patchedMethods, hbody]
    rfl
  have hload := h.monitorLoad frame.method i newMethod frame.stack frame.locals (f world) hfor
  obtain ⟨count, hcount⟩ : ∃ count, argumentCount rt frame.method i = some count := by
    cases hcode : i.code with
    | call | callvirt => exact ⟨_, by rw [argumentCount, hcode]⟩
    | newobj | calli | branch | switch | ldsfld | other =>
        simp [patchFor, hcode, calledMethod] at hfor
  have hcount' := h.argumentCount frame.method i newMethod hfor
  rw [hcount, Option.map_some] at hcount'
  have hfirst : step rt' (patchedMethods methods importMethod monitorRef pairs)
      ⟨{ patchFrame importMethod monitorRef pairs frame with
          rest := createMonitorLoad monitorRef i newMethod ::
            createPatchedCall importMethod i newMethod ::
              (patchFrame importMethod monitorRef pairs frame).rest
          current } ::
        callers.map (patchFrame importMethod monitorRef pairs), f world, none⟩ =
      .inl ⟨{ patchFrame importMethod monitorRef pairs frame with
          rest := createPatchedCall importMethod i newMethod ::
            (patchFrame importMethod monitorRef pairs frame).rest
          current := some (createMonitorLoad monitorRef i newMethod)
          stack := monitor :: frame.stack } ::
        callers.map (patchFrame importMethod monitorRef pairs), f world, none⟩ := by
    simp only [step, patchFrame, hbody', execute, createMonitorLoad, argumentCount]
    simp only [createMonitorLoad] at hload
    simp only [hload, perform]
  rw [Machine.advance_succ_inl hfirst]
  have hsecond : step rt' (patchedMethods methods importMethod monitorRef pairs)
      ⟨{ patchFrame importMethod monitorRef pairs frame with
          rest := createPatchedCall importMethod i newMethod ::
            (patchFrame importMethod monitorRef pairs frame).rest
          current := some (createMonitorLoad monitorRef i newMethod)
          stack := monitor :: frame.stack } ::
        callers.map (patchFrame importMethod monitorRef pairs), f world, none⟩ =
      patchStep importMethod monitorRef pairs f
        (execute rt methods body i frame callers world) := by
    obtain ⟨htarget, htarget'⟩ :=
      h.patchTarget frame.method i newMethod (frame.stack.take count) world hin hfor
    have hcall := h.patchCall frame.method i newMethod (frame.stack.take count) world hin hfor
    simp only [step, patchFrame, hbody', execute, hcount, hcount', invoke, List.length_cons,
      Nat.add_le_add_iff_right, List.take_succ_cons, List.drop_succ_cons, htarget, htarget', hcall]
    split
    next =>
      cases rt.external frame.method i (frame.stack.take count) world with
      | inl returned => simp [patchStep, patchConfig, patchFrame, hcurrent, standsFor_some hfor]
      | inr thrown => simp [patchStep, patchConfig, patchFrame, hcurrent, standsFor_some hfor]
    next => rfl
  cases hstep : execute rt methods body i frame callers world with
  | inl next =>
      rw [hstep] at hsecond
      exact Machine.advance_succ_inl hsecond 0
  | inr outcome =>
      rw [hstep] at hsecond
      exact Machine.advance_succ_inr hsecond 0

section Placing

/-- After a step that goes on, every frame is inside its method. -/
def StepPlaced (methods : List MethodDefinition) : Step V L X W → Prop
  | .inl next => ∀ frame ∈ next.frames, Placed methods frame
  | .inr _ => True

theorem jumpTo_placed (frame : Frame V L) (hbody : bodyOf methods frame.method = some body)
    (hframe : Placed methods frame) (hcallers : ∀ other ∈ callers, Placed methods other)
    (target : InstructionRef) (world : W) :
    StepPlaced methods (jumpTo (X := X) body target frame callers world) := by
  rw [jumpTo]
  cases hplace : goTo body target with
  | none => trivial
  | some rest =>
      obtain ⟨found, hfound, -, hcurrent⟩ := hframe
      have hsame : found = body := Option.some.inj (hfound.symm.trans hbody)
      subst hsame
      rw [goTo] at hplace
      split at hplace
      next => exact List.forall_mem_cons.mpr
                ⟨⟨found, hfound, codeFrom_suffix hplace, hcurrent⟩, hcallers⟩
      next => cases hplace

theorem endMethod_placed (hcallers : ∀ other ∈ callers, Placed methods other) (world : W) :
    StepPlaced methods (endMethod rt frame world callers) := by
  cases callers with
  | nil => trivial
  | cons caller callers =>
      obtain ⟨hcaller, hothers⟩ := List.forall_mem_cons.mp hcallers
      exact List.forall_mem_cons.mpr ⟨hcaller, hothers⟩

theorem perform_placed (hbody : bodyOf methods frame.method = some body)
    (hframes : ∀ other ∈ frame :: callers, Placed methods other) (effect : Effect V L X W) :
    StepPlaced methods (perform rt body i frame callers world effect) := by
  obtain ⟨hframe, hcallers⟩ := List.forall_mem_cons.mp hframes
  cases effect with
  | next stack locals world => exact List.forall_mem_cons.mpr ⟨hframe, hcallers⟩
  | jump target stack locals =>
      exact jumpTo_placed { frame with stack, locals } hbody hframe hcallers target world
  | leave target locals =>
      rw [perform]
      split
      · exact jumpTo_placed { frame with stack := [], locals := _ } hbody hframe hcallers _ world
      · trivial
  | ret => exact endMethod_placed hcallers world
  | throw exception world => exact hframes
  | invalid => trivial

theorem enterMethod_placed (hcallers : ∀ other ∈ callers, Placed methods other) (method : Nat)
    (i : Instruction) (arguments : List V) (world : W) :
    StepPlaced methods (enterMethod rt methods method i arguments callers world) := by
  rw [enterMethod]
  cases hbody : bodyOf methods method with
  | none => trivial
  | some body =>
      have hentered : ∀ locals created, Placed methods
          (⟨method, body.instructions, none, [], locals, created⟩ : Frame V L) := by
        intro locals created
        refine ⟨body, hbody, List.suffix_refl _, ?_⟩
        intro j hj
        cases hj
      cases i.code with
      | newobj | call | callvirt | calli | branch | switch | ldsfld | other =>
          exact List.forall_mem_cons.mpr ⟨hentered _ _, hcallers⟩

theorem execute_placed (hbody : bodyOf methods frame.method = some body)
    (hframes : ∀ other ∈ frame :: callers, Placed methods other) :
    StepPlaced methods (execute rt methods body i frame callers world) := by
  obtain ⟨hframe, hcallers⟩ := List.forall_mem_cons.mp hframes
  rw [execute]
  cases argumentCount rt frame.method i with
  | none => exact perform_placed hbody hframes _
  | some count =>
      simp only [invoke]
      split
      next =>
        split
        next method hmethod =>
          apply enterMethod_placed
          exact List.forall_mem_cons.mpr ⟨hframe, hcallers⟩
        next =>
          split
          next => exact List.forall_mem_cons.mpr ⟨hframe, hcallers⟩
          next => exact List.forall_mem_cons.mpr ⟨hframe, hcallers⟩
      next => trivial

theorem unwind_placed (hbody : bodyOf methods frame.method = some body)
    (hframes : ∀ other ∈ frame :: callers, Placed methods other) (exception : X) :
    StepPlaced methods (unwind rt body i frame callers exception world) := by
  obtain ⟨hframe, hcallers⟩ := List.forall_mem_cons.mp hframes
  simp only [unwind]
  split
  next target stack locals _ =>
    exact jumpTo_placed { frame with stack, locals } hbody hframe hcallers target world
  next =>
    cases callers with
    | nil => trivial
    | cons caller callers => exact hcallers

theorem step_placed {c : Config V L X W} (hframes : ∀ frame ∈ c.frames, Placed methods frame) :
    StepPlaced methods (step rt methods c) := by
  obtain ⟨frames, world, raised⟩ := c
  cases frames with
  | nil => trivial
  | cons frame callers =>
      obtain ⟨hframe, hcallers⟩ := List.forall_mem_cons.mp hframes
      obtain ⟨body, hbody, hsuffix, hcurrent⟩ := id hframe
      simp only [step, hbody]
      split
      next => exact unwind_placed hbody hframes _
      next => trivial
      next i rest hrest =>
        rw [hrest] at hsuffix
        have hnext : Placed methods { frame with rest, current := some i } := by
          refine ⟨body, hbody, (List.suffix_cons i rest).trans hsuffix, ?_⟩
          intro j hj
          cases hj
          exact hsuffix.subset List.mem_cons_self
        exact @execute_placed V L X W rt methods body i { frame with rest, current := some i }
          callers world hbody (List.forall_mem_cons.mpr ⟨hnext, hcallers⟩)
      next => trivial

theorem start_placed {method : Nat} (hbody : bodyOf methods method = some body)
    (arguments : List V) (world : W) :
    ∀ frame ∈ (start rt methods method arguments world).frames, Placed methods frame := by
  intro frame hframe
  rw [List.mem_singleton.mp hframe]
  refine ⟨body, hbody, ?_, ?_⟩
  · rw [hbody]
    exact List.suffix_refl _
  · intro i hi
    cases hi

theorem advance_placed {n : Nat} {c next : Config V L X W}
    (hframes : ∀ frame ∈ c.frames, Placed methods frame)
    (hrun : Machine.advance (step rt methods) n c = .inl next) :
    ∀ frame ∈ next.frames, Placed methods frame := by
  induction n generalizing c with
  | zero =>
      cases hrun
      exact hframes
  | succ n ih =>
      have hplaced := @step_placed V L X W rt methods c hframes
      cases hstep : step rt methods c with
      | inl middle =>
          rw [hstep] at hplaced
          rw [Machine.advance_succ_inl hstep] at hrun
          exact ih hplaced hrun
      | inr outcome =>
          rw [Machine.advance_succ_inr hstep] at hrun
          cases hrun

end Placing

/-- A step of the original and the steps that match it. -/
theorem advance_matched
    (h : Corresponds rt rt' f monitor methods importMethod monitorRef pairs)
    (hplaces : ∀ method body, bodyOf methods method = some body → KeepsPlaces pairs body)
    {c : Config V L X W} (hframes : ∀ frame ∈ c.frames, Placed methods frame) :
    ∃ n, Machine.advance (step rt' (patchedMethods methods importMethod monitorRef pairs))
        (n + 1) (patchConfig importMethod monitorRef pairs f c) =
      patchStep importMethod monitorRef pairs f (step rt methods c) := by
  have hone : ∀ c : Config V L X W, step rt' (patchedMethods methods importMethod monitorRef pairs)
      (patchConfig importMethod monitorRef pairs f c) =
        patchStep importMethod monitorRef pairs f (step rt methods c) →
      ∃ n, Machine.advance (step rt' (patchedMethods methods importMethod monitorRef pairs))
          (n + 1) (patchConfig importMethod monitorRef pairs f c) =
        patchStep importMethod monitorRef pairs f (step rt methods c) := by
    intro c hstep
    refine ⟨0, ?_⟩
    cases hresult : step rt methods c with
    | inl next =>
        rw [hresult] at hstep
        exact Machine.advance_succ_inl hstep 0
    | inr outcome =>
        rw [hresult] at hstep
        exact Machine.advance_succ_inr hstep 0
  obtain ⟨frames, world, raised⟩ := c
  cases frames with
  | nil => exact hone _ rfl
  | cons frame callers =>
      obtain ⟨hframe, hcallers⟩ := List.forall_mem_cons.mp hframes
      obtain ⟨body, hbody, hsuffix, hcurrent⟩ := hframe
      have hkeeps := hplaces frame.method body hbody
      have hbody' : bodyOf (patchedMethods methods importMethod monitorRef pairs) frame.method =
          some (rewriteBody importMethod monitorRef pairs body) := by
        rw [bodyOf_patchedMethods, hbody]
        rfl
      cases raised with
      | some exception =>
          cases hbegun : frame.current with
          | none =>
              have hstep : step rt methods ⟨frame :: callers, world, some exception⟩ =
                  .inr .invalid := by
                simp only [step, hbody, hbegun]
              apply hone
              rw [hstep]
              simp only [step, patchConfig, patchFrame, List.map_cons, hbody', hbegun,
                Option.map_none]
              rfl
          | some i =>
              have hstep : step rt methods ⟨frame :: callers, world, some exception⟩ =
                  unwind rt body i frame callers exception world := by
                simp only [step, hbody, hbegun]
              apply hone
              rw [hstep, ← unwind_patched h hkeeps (hcurrent i hbegun)]
              simp only [step, patchConfig, patchFrame, List.map_cons, hbody', hbegun,
                Option.map_some]
      | none =>
          cases hrest : frame.rest with
          | nil =>
              have hstep : step rt methods ⟨frame :: callers, world, none⟩ = .inr .invalid := by
                simp only [step, hbody, hrest]
              apply hone
              rw [hstep]
              simp only [step, patchConfig, patchFrame, List.map_cons, hbody', hrest,
                List.flatMap_nil]
              rfl
          | cons i rest =>
              have hstep : step rt methods ⟨frame :: callers, world, none⟩ =
                  execute rt methods body i { frame with rest, current := some i } callers
                    world := by
                simp only [step, hbody, hrest]
              rw [hrest] at hsuffix
              have hi : i ∈ body.instructions := hsuffix.subset List.mem_cons_self
              have hin : InMethod methods frame.method i := ⟨body, hbody, hi⟩
              cases hfor : patchFor pairs i with
              | none =>
                  apply hone
                  rw [hstep, ← execute_patched h hkeeps hi hfor
                    { frame with rest, current := some i } hin callers world]
                  simp only [step, patchConfig, patchFrame, List.map_cons, hbody', hrest,
                    List.flatMap_cons, rewriteInstruction_none hfor, List.singleton_append,
                    Option.map_some, standsFor_none hfor]
              | some newMethod =>
                  rw [hstep]
                  refine ⟨1, ?_⟩
                  have hadvance := @advance_patchedCall V L X W W' rt rt' f monitor methods
                    importMethod monitorRef pairs body i
                    { frame with rest, current := some i } callers world h hbody hi newMethod
                    hfor rfl (frame.current.map (standsFor importMethod pairs))
                  rw [← hadvance]
                  simp only [patchConfig, patchFrame, List.map_cons, hrest, List.flatMap_cons,
                    rewriteInstruction_some hfor, List.cons_append, List.nil_append]

/-- Step by step the patched module does what the original one does. -/
theorem follows_patched (h : Corresponds rt rt' f monitor methods importMethod monitorRef pairs)
    (hplaces : ∀ method body, bodyOf methods method = some body → KeepsPlaces pairs body) :
    Machine.Follows (step rt methods)
      (step rt' (patchedMethods methods importMethod monitorRef pairs))
      (fun c c' => (∀ frame ∈ c.frames, Placed methods frame) ∧
        c' = patchConfig importMethod monitorRef pairs f c)
      (fun outcome outcome' => outcome' = mapOutcome f outcome) := by
  refine ⟨?_, ?_⟩
  · rintro c c' next ⟨hframes, rfl⟩ hstep
    have hplaced := @step_placed V L X W rt methods c hframes
    obtain ⟨n, hn⟩ := advance_matched h hplaces hframes
    rw [hstep] at hplaced hn
    exact ⟨n, _, hn, hplaced, rfl⟩
  · rintro c c' outcome ⟨hframes, rfl⟩ hstep
    obtain ⟨n, hn⟩ := advance_matched h hplaces hframes
    rw [hstep] at hn
    exact ⟨n, _, hn, rfl⟩

end Following

end HostedPumpkin.SnippetCompiler
