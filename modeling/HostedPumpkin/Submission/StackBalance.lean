import HostedPumpkin.Library.EvaluationStack
import HostedPumpkin.Submission.OwnCalls

/-!
The evaluation stack of a patched method. A value on the stack is described by the name
of its type. A call takes its arguments off, and before them the object if it is a call
of an instance method, and leaves a value unless the method returns nothing.

What a method returns is not in the model of a reference, so it is a parameter; so is
what instructions other than calls and loads of static fields do.
-/

namespace HostedPumpkin.SnippetCompiler

def parameterTypes (parameters : List ParameterDefinition) : List String :=
  parameters.map (fun parameter => parameter.parameterType.fullName)

section Stack

-- the type of what the method that an instruction calls returns, if it returns something
variable (returnType : Instruction → Option String)

-- what the remaining instructions do to the stack
variable (otherStep : Instruction → List String → Option (List String))

/-- What a call does to the stack. -/
def callEffect (method : MethodReference) (returned : Option String) : StackEffect String where
  pops := (if method.hasThis then 1 else 0) + method.parameters.length
  pushes := returned.toList

def stackStep (i : Instruction) : List String → Option (List String) :=
  match i.code with
  | .call method | .callvirt method => (callEffect method (returnType i)).apply
  | .newobj method =>
      (⟨method.parameters.length, [method.declaringType.fullName]⟩ : StackEffect String).apply
  | .ldsfld field => (StackEffect.push field.fieldType.fullName).apply
  | _ => otherStep i

variable {returnType otherStep}

theorem stackStep_of_called {i : Instruction} {called : MethodReference}
    (h : calledMethod i.code = some called) (stack : List String) :
    stackStep returnType otherStep i stack =
      (callEffect called (returnType i)).apply stack := by
  cases hcode : i.code with
  | call operand | callvirt operand =>
      rw [hcode] at h
      cases h
      rw [stackStep, hcode]
  | newobj | calli | branch | switch | ldsfld | other =>
      rw [hcode] at h
      cases h

end Stack

section Patches

variable {stringHash : String → UInt32} {buckets : Nat} {monitorType : TypeDefinition}
  {patches : Patches}

/-- The parameters of a signature are those of its patch method, trimmed. -/
theorem parameters_of_patchSignature {method : MethodDefinition} {signature : Signature}
    (h : patchSignature method = .ok (some signature)) :
    signature.parameters = patchedParameters signature.isStatic method.parameters := by
  rw [patchSignature] at h
  split at h
  next => cases h
  next patch _ =>
    obtain ⟨isStatic, -, h⟩ := exists_of_bind_ok h
    obtain ⟨className, -, h⟩ := exists_of_bind_ok h
    obtain ⟨methodName, -, h⟩ := exists_of_bind_ok h
    cases h
    rfl

/-- The loop of `MethodPatches` enters the patch methods it comes to. -/
theorem entries_of_methodPatchesLoop {methods : List MethodDefinition} {start patches : Patches}
    (h : methodPatchesLoop stringHash start methods = .ok patches) :
    ∀ entry ∈ patches.entries, entry ∈ start.entries ∨
      (entry.2 ∈ methods ∧ patchSignature entry.2 = .ok (some entry.1)) := by
  induction methods generalizing start with
  | nil =>
      cases h
      exact fun entry hentry => Or.inl hentry
  | cons method rest ih =>
      rw [methodPatchesLoop] at h
      obtain ⟨found, hsignature, h⟩ := exists_of_bind_ok h
      cases found with
      | none =>
          intro entry hentry
          obtain hold | ⟨hin, hfound⟩ := ih h entry hentry
          · exact Or.inl hold
          · exact Or.inr ⟨List.mem_cons_of_mem _ hin, hfound⟩
      | some signature =>
          cases hadd : start.add (Signature.comparer stringHash) signature method with
          | none =>
              simp only [hadd] at h
              cases h
          | some added =>
              simp only [hadd] at h
              intro entry hentry
              obtain hold | ⟨hin, hfound⟩ := ih h entry hentry
              · rw [Dictionary.add] at hadd
                split at hadd
                next => cases hadd
                next =>
                  cases hadd
                  obtain rfl | hold := List.mem_cons.mp hold
                  · exact Or.inr ⟨List.mem_cons_self, hsignature⟩
                  · exact Or.inl hold
              · exact Or.inr ⟨List.mem_cons_of_mem _ hin, hfound⟩

theorem entries_of_methodPatches (h : methodPatches stringHash buckets monitorType = .ok patches)
    {entry : Signature × MethodDefinition} (hentry : entry ∈ patches.entries) :
    entry.2 ∈ monitorType.methods ∧ patchSignature entry.2 = .ok (some entry.1) := by
  obtain hold | hfound := entries_of_methodPatchesLoop h entry hentry
  · cases hold
  · exact hfound

end Patches

/-- The patch method takes what the call it replaces took, an object if there was one
and the arguments, and on top of that the monitor. -/
def TakesSameValues (monitorName : String) (called : MethodReference)
    (newMethod : MethodDefinition) : Prop :=
  ∃ object : List String, object.length = (if called.hasThis then 1 else 0) ∧
    parameterTypes newMethod.parameters =
      object ++ parameterTypes called.parameters ++ [monitorName]

/-- A patch method that was found for a call takes the same values, unless it is for an
instance method and has no parameter but the monitor. -/
theorem takesSameValues_iff {monitorName : String} {called : MethodReference}
    {newMethod : MethodDefinition} {signature : Signature}
    {others : List ParameterDefinition} {monitor : ParameterDefinition}
    (hkey : signature.equals (callSignature called) = true)
    (htrimmed : signature.parameters =
      patchedParameters signature.isStatic newMethod.parameters)
    (hlast : newMethod.parameters = others ++ [monitor])
    (hmonitor : monitor.parameterType.fullName = monitorName) :
    TakesSameValues monitorName called newMethod ↔
      (called.hasThis = true → 2 ≤ newMethod.parameters.length) := by
  have hshape := Signature.equals_iff.mp hkey
  simp only [Signature.shape, callSignature, Prod.mk.injEq] at hshape
  obtain ⟨-, -, hstatic, hnames⟩ := hshape
  rw [htrimmed, hstatic, hlast] at hnames
  have hnames : parameterTypes (patchedParameters (!called.hasThis) (others ++ [monitor])) =
      parameterTypes called.parameters := hnames
  cases hthis : called.hasThis with
  | false =>
      have htaken : patchedParameters true (others ++ [monitor]) = others := by
        simp [patchedParameters]
      rw [hthis, Bool.not_false, htaken] at hnames
      simp only [Bool.false_eq_true, false_implies, iff_true]
      refine ⟨[], by simp [hthis], ?_⟩
      rw [hlast, ← hnames, ← hmonitor]
      simp [parameterTypes]
  | true =>
      cases others with
      | nil =>
          simp only [hlast, List.nil_append, List.length_singleton, true_implies]
          constructor
          · rintro ⟨object, hobject, htypes⟩
            have hlength := congrArg List.length htypes
            simp only [hlast, parameterTypes, List.nil_append, List.length_map,
              List.length_append, List.length_singleton, hobject, hthis, if_true] at hlength
            omega
          · omega
      | cons first rest =>
          have htaken : patchedParameters false (first :: rest ++ [monitor]) = rest := by
            simp [patchedParameters]
          rw [hthis, Bool.not_true, htaken] at hnames
          have hlength : 2 ≤ newMethod.parameters.length := by
            rw [hlast, List.length_append, List.length_cons, List.length_singleton]
            omega
          simp only [hlength, implies_true, iff_true]
          refine ⟨[first.parameterType.fullName], by simp [hthis], ?_⟩
          rw [hlast, ← hnames, ← hmonitor]
          simp [parameterTypes]

section Balance

variable (stringHash : String → UInt32) (importMethod : MethodDefinition → MethodReference)
  (monitorRef : FieldDefinition) (patches : Patches)
  (returnType : Instruction → Option String)
  (otherStep : Instruction → List String → Option (List String))
  (isStatic : MethodDefinition → Bool) (patchReturnType : MethodDefinition → Option String)

/-- A reference that `Import` returns is one to the method it was given. -/
structure ImportsMethods : Prop where
  hasThis : ∀ method, (importMethod method).hasThis = !isStatic method
  parameters : ∀ method, parameterTypes (importMethod method).parameters =
    parameterTypes method.parameters
  returned : ∀ i method,
    returnType (createPatchedCall importMethod i method) = patchReturnType method

/-- The patch methods of a monitor type are static and take the monitor last. -/
def StaticWithMonitor (monitorName : String) (monitorType : TypeDefinition) : Prop :=
  ∀ method ∈ monitorType.methods, ∀ signature, patchSignature method = .ok (some signature) →
    isStatic method = true ∧ ∃ others monitor, method.parameters = others ++ [monitor] ∧
      monitor.parameterType.fullName = monitorName

/-- Patching replaces calls in such a way that each replacement takes the values the
call took and leaves the stack the call left, and that before and after every
instruction of straight-line code the stack is the one of the original code. -/
structure KeepsStack (method : MethodDefinition) (body : MethodBody) : Prop where
  patched : patchMethod stringHash importMethod monitorRef patches method =
    .ok { method with body := some { body with
      instructions := body.instructions.flatMap
        (rewriteInstruction importMethod monitorRef patches.entries) } }
  values : ∀ i ∈ body.instructions, ∀ called newMethod, calledMethod i.code = some called →
    findPatch stringHash patches i = some newMethod →
      TakesSameValues monitorRef.fieldType.fullName called newMethod
  replacement : ∀ i ∈ body.instructions, ∀ stack,
    runCode (stackStep returnType otherStep)
        (rewriteInstruction importMethod monitorRef patches.entries i) stack =
      stackStep returnType otherStep i stack
  straightLine : ∀ before, before <+: body.instructions → ∀ stack,
    runCode (stackStep returnType otherStep)
        (before.flatMap (rewriteInstruction importMethod monitorRef patches.entries)) stack =
      runCode (stackStep returnType otherStep) before stack

variable {stringHash importMethod monitorRef patches returnType otherStep isStatic
  patchReturnType}

/-- What the load of the monitor and the call of the patch method do together. -/
theorem runCode_patched (himports : ImportsMethods importMethod returnType isStatic
      patchReturnType) {newMethod : MethodDefinition} (hstatic : isStatic newMethod = true)
    (hparameters : 0 < newMethod.parameters.length) (i : Instruction) (stack : List String) :
    runCode (stackStep returnType otherStep) [createMonitorLoad monitorRef i newMethod,
        createPatchedCall importMethod i newMethod] stack =
      (⟨newMethod.parameters.length - 1, (patchReturnType newMethod).toList⟩ :
        StackEffect String).apply stack := by
  have hlength : (importMethod newMethod).parameters.length = newMethod.parameters.length := by
    have htypes := congrArg List.length (himports.parameters newMethod)
    simpa only [parameterTypes, List.length_map] using htypes
  have heffect : callEffect (importMethod newMethod) (patchReturnType newMethod) =
      ⟨newMethod.parameters.length, (patchReturnType newMethod).toList⟩ := by
    simp [callEffect, himports.hasThis, hstatic, hlength]
  have hcall : runCode (stackStep returnType otherStep)
      [createPatchedCall importMethod i newMethod] =
        (⟨newMethod.parameters.length, (patchReturnType newMethod).toList⟩ :
          StackEffect String).apply := by
    funext stack
    rw [runCode_singleton, stackStep_of_called rfl, himports.returned, heffect]
  rw [runCode, hcall]
  exact StackEffect.apply_push _ hparameters stack

theorem findPatch_eq_patchFor : findPatch stringHash patches = patchFor patches.entries := by
  funext i
  simp only [findPatch, patchFor, tryGetValue_eq_findBySignature]

/-- A replacement that takes the same values leaves the same stack if the patch method
returns what the called method returned. -/
theorem replacement_iff (himports : ImportsMethods importMethod returnType isStatic
      patchReturnType) {i : Instruction} {called : MethodReference}
    {newMethod : MethodDefinition} (hcalled : calledMethod i.code = some called)
    (hfor : patchFor patches.entries i = some newMethod) (hstatic : isStatic newMethod = true)
    (hvalues : TakesSameValues monitorRef.fieldType.fullName called newMethod) :
    (∀ stack, runCode (stackStep returnType otherStep)
        (rewriteInstruction importMethod monitorRef patches.entries i) stack =
      stackStep returnType otherStep i stack) ↔ returnType i = patchReturnType newMethod := by
  obtain ⟨object, hobject, htypes⟩ := hvalues
  have hlength : newMethod.parameters.length =
      (callEffect called (returnType i)).pops + 1 := by
    have hsame := congrArg List.length htypes
    simp only [parameterTypes, List.length_map, List.length_append, List.length_singleton,
      hobject] at hsame
    exact hsame
  have hrewrite : rewriteInstruction importMethod monitorRef patches.entries i =
      [createMonitorLoad monitorRef i newMethod, createPatchedCall importMethod i newMethod] := by
    rw [rewriteInstruction, hfor]
    rfl
  have hrun : ∀ stack, runCode (stackStep returnType otherStep)
      [createMonitorLoad monitorRef i newMethod, createPatchedCall importMethod i newMethod]
        stack = (⟨(callEffect called (returnType i)).pops, (patchReturnType newMethod).toList⟩ :
          StackEffect String).apply stack := by
    intro stack
    rw [runCode_patched himports hstatic (by omega), hlength, Nat.add_sub_cancel]
  simp only [hrewrite, hrun, stackStep_of_called hcalled]
  constructor
  · intro hsame
    have hpushes := congrArg StackEffect.pushes (StackEffect.eq_of_apply_eq hsame)
    have hhead := congrArg List.head? hpushes
    simp only [callEffect, Option.head?_toList] at hhead
    exact hhead.symm
  · intro hreturn stack
    rw [← hreturn]
    rfl

/-- The calls that are patched go to methods with the return type of the patch method,
and the patch method of an instance method takes an object before the monitor. -/
def PatchesFit (stringHash : String → UInt32) (patches : Patches)
    (returnType : Instruction → Option String)
    (patchReturnType : MethodDefinition → Option String) (body : MethodBody) : Prop :=
  ∀ i ∈ body.instructions, ∀ called newMethod, calledMethod i.code = some called →
    findPatch stringHash patches i = some newMethod →
      returnType i = patchReturnType newMethod ∧
        (called.hasThis = true → 2 ≤ newMethod.parameters.length)

/-- A patch that is found for a call is a patch method with parameters that end in the
monitor and match those of the call when trimmed. -/
theorem exists_entry_of_findPatch {buckets : Nat} {monitorType : TypeDefinition}
    (hpatches : methodPatches stringHash buckets monitorType = .ok patches)
    {i : Instruction} {called : MethodReference} {newMethod : MethodDefinition}
    (hcalled : calledMethod i.code = some called)
    (hfind : findPatch stringHash patches i = some newMethod) :
    ∃ signature, newMethod ∈ monitorType.methods ∧
      patchSignature newMethod = .ok (some signature) ∧
      signature.equals (callSignature called) = true := by
  rw [findPatch_eq_patchFor, patchFor, hcalled, Option.bind_some] at hfind
  obtain ⟨entry, hentry, rfl⟩ := Option.map_eq_some_iff.mp hfind
  obtain ⟨hmethod, hsignature⟩ :=
    entries_of_methodPatches hpatches (List.mem_of_find?_eq_some hentry)
  have hkey := List.find?_some hentry
  exact ⟨entry.1, hmethod, hsignature, hkey⟩

/-- Patching a method keeps the evaluation stack if the patch methods fit the calls that
they are found for. -/
theorem patching_keeps_stack_iff {buckets : Nat} {monitorType : TypeDefinition}
    {method : MethodDefinition} {body : MethodBody}
    (hpatches : methodPatches stringHash buckets monitorType = .ok patches)
    (himports : ImportsMethods importMethod returnType isStatic patchReturnType)
    (hmonitor : StaticWithMonitor isStatic monitorRef.fieldType.fullName monitorType)
    (hbody : method.body = some body) (hread : body.AsRead) :
    KeepsStack stringHash importMethod monitorRef patches returnType otherStep method body ↔
      PatchesFit stringHash patches returnType patchReturnType body := by
  have hvalues : ∀ i called newMethod, calledMethod i.code = some called →
      findPatch stringHash patches i = some newMethod → isStatic newMethod = true ∧
        (TakesSameValues monitorRef.fieldType.fullName called newMethod ↔
          (called.hasThis = true → 2 ≤ newMethod.parameters.length)) := by
    intro i called newMethod hcalled hfind
    obtain ⟨signature, hmethod, hsignature, hkey⟩ :=
      exists_entry_of_findPatch hpatches hcalled hfind
    obtain ⟨hstatic, others, monitor, hlast, hname⟩ := hmonitor newMethod hmethod signature hsignature
    exact ⟨hstatic, takesSameValues_iff hkey (parameters_of_patchSignature hsignature) hlast hname⟩
  constructor
  · rintro ⟨-, htakes, hreplacement, -⟩ i hi called newMethod hcalled hfind
    obtain ⟨hstatic, hiff⟩ := hvalues i called newMethod hcalled hfind
    have hsame := htakes i hi called newMethod hcalled hfind
    have hfor : patchFor patches.entries i = some newMethod := by
      rw [← findPatch_eq_patchFor]
      exact hfind
    exact ⟨(replacement_iff himports hcalled hfor hstatic hsame).mp (hreplacement i hi),
      hiff.mp hsame⟩
  · intro hfit
    have hreplacement : ∀ i ∈ body.instructions, ∀ stack,
        runCode (stackStep returnType otherStep)
            (rewriteInstruction importMethod monitorRef patches.entries i) stack =
          stackStep returnType otherStep i stack := by
      intro i hi
      cases hfor : patchFor patches.entries i with
      | none =>
          intro stack
          rw [rewriteInstruction, hfor]
          exact runCode_singleton i stack
      | some newMethod =>
          obtain ⟨called, hcalled, -⟩ := Option.bind_eq_some_iff.mp hfor
          have hfind : findPatch stringHash patches i = some newMethod := by
            rw [findPatch_eq_patchFor]
            exact hfor
          obtain ⟨hstatic, hiff⟩ := hvalues i called newMethod hcalled hfind
          obtain ⟨hreturn, hobject⟩ := hfit i hi called newMethod hcalled hfind
          exact (replacement_iff himports hcalled hfor hstatic (hiff.mpr hobject)).mpr hreturn
    refine ⟨?_, ?_, hreplacement, ?_⟩
    · rw [patchMethod_eq_rewrite tryGetValue_eq_findBySignature hbody hread, rewriteMethod, hbody]
      rfl
    · intro i hi called newMethod hcalled hfind
      obtain ⟨-, hiff⟩ := hvalues i called newMethod hcalled hfind
      exact hiff.mpr (hfit i hi called newMethod hcalled hfind).2
    · intro before hbefore stack
      apply runCode_flatMap
      intro i hi
      exact hreplacement i (hbefore.subset hi)

end Balance

/-- The one patch method of `Monitor` is static and takes the monitor last. -/
theorem staticWithMonitor_typeDefinition :
    StaticWithMonitor (fun _ => true) "Pumpkin.Monitor" Monitor.typeDefinition := by
  intro method hmethod signature hsignature
  obtain rfl | rfl := List.mem_pair.mp hmethod
  · cases hsignature
  · exact ⟨rfl, [Monitor.stringParameter], ⟨Monitor.typeRef⟩, rfl, rfl⟩

theorem importsMethods_importMethod {returnType : Instruction → Option String}
    {patchReturnType : MethodDefinition → Option String}
    (hreturned : ∀ i method, returnType (createPatchedCall Monitor.importMethod i method) =
      patchReturnType method) :
    ImportsMethods Monitor.importMethod returnType (fun _ => true) patchReturnType :=
  ⟨fun _ => rfl, fun _ => rfl, hreturned⟩

/-- A snippet that writes a text with the `Console` of the framework. -/
theorem patching_keeps_stack_console :
    let body : MethodBody :=
      ⟨[⟨.read 0, .other 114 5⟩, ⟨.read 1, .call Monitor.writeLine⟩, ⟨.read 2, .other 42 1⟩], []⟩
    let loadString : Instruction → List String → Option (List String) :=
      fun i stack => some (if i.ref = .read 0 then "System.String" :: stack else stack)
    KeepsStack (fun _ => 0) Monitor.importMethod ⟨monitorFieldName, Monitor.typeRef⟩
      Monitor.patches (fun _ => none) loadString ⟨"SnippetMain", [], [], some body⟩ body := by
  intro body loadString
  have hpatches : methodPatches (fun _ => 0) 3 Monitor.typeDefinition = .ok Monitor.patches :=
    Monitor.methodPatches_eq (fun _ => 0) 3
  have himports : ImportsMethods Monitor.importMethod (fun _ => none) (fun _ => true)
      (fun _ => none) := importsMethods_importMethod (fun _ _ => rfl)
  apply (patching_keeps_stack_iff hpatches himports staticWithMonitor_typeDefinition rfl
    (by decide)).mpr
  intro i hi called newMethod hcalled _
  refine ⟨rfl, ?_⟩
  intro hthis
  have hstatic : ∀ i ∈ body.instructions, ∀ called ∈ calledMethod i.code,
      called.hasThis = false := by decide
  rw [hstatic i hi called hcalled] at hthis
  cases hthis

/-- A snippet whose own `Console.WriteLine(string)` returns a number, where the patch
method and the framework's `Console.WriteLine(string)` return nothing. -/
theorem own_console_number_lost :
    ¬ ∀ (stringHash : String → UInt32) (importMethod : MethodDefinition → MethodReference)
      (monitorRef : FieldDefinition) (patches : Patches)
      (returnType : Instruction → Option String)
      (otherStep : Instruction → List String → Option (List String))
      (isStatic : MethodDefinition → Bool) (patchReturnType : MethodDefinition → Option String)
      (buckets : Nat) (method : MethodDefinition) (body : MethodBody),
      methodPatches stringHash buckets Monitor.typeDefinition = .ok patches →
      ImportsMethods importMethod returnType isStatic patchReturnType →
      StaticWithMonitor isStatic monitorRef.fieldType.fullName Monitor.typeDefinition →
      (∀ i called newMethod, calledMethod i.code = some called →
        IsConsole called.declaringType → findPatch stringHash patches i = some newMethod →
          returnType i = patchReturnType newMethod) →
      method.body = some body → body.AsRead →
      KeepsStack stringHash importMethod monitorRef patches returnType otherStep method body := by
  intro hall
  let writeLine : MethodReference :=
    ⟨⟨.moduleDefinition, "Snippets.Console", "Console"⟩, "WriteLine", false,
      [Monitor.stringParameter]⟩
  let i : Instruction := ⟨.read 0, .call writeLine⟩
  let body : MethodBody := ⟨[i], []⟩
  let returnType : Instruction → Option String :=
    fun i => if i.code = .call writeLine then some "System.Int32" else none
  have hreturned : ∀ i method,
      returnType (createPatchedCall Monitor.importMethod i method) = none := by
    intro i method
    apply if_neg
    intro hcall
    have htype := congrArg MethodReference.declaringType (Code.call.inj hcall)
    cases htype
  have hconsole : ∀ i called newMethod, calledMethod i.code = some called →
      IsConsole called.declaringType →
      findPatch (fun _ => 0) Monitor.patches i = some newMethod → returnType i = none := by
    intro i called newMethod hcalled htype _
    apply if_neg
    intro hcall
    rw [hcall] at hcalled
    cases hcalled
    revert htype
    decide
  have hkeeps := hall (fun _ => 0) Monitor.importMethod ⟨monitorFieldName, Monitor.typeRef⟩
    Monitor.patches returnType (fun _ _ => none) (fun _ => true) (fun _ => none) 3
    ⟨"SnippetMain", [], [], some body⟩ body (Monitor.methodPatches_eq (fun _ => 0) 3)
    (importsMethods_importMethod hreturned) staticWithMonitor_typeDefinition hconsole rfl
    (by decide)
  have hstack := hkeeps.replacement i List.mem_cons_self ["System.String"]
  revert hstack
  decide

end HostedPumpkin.SnippetCompiler
