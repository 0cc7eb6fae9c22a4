import HostedPumpkin.Library.Dictionary
import HostedPumpkin.Submission.Module

/-!
Patching of a compiled snippet. The patch methods of the monitor type are put in
a dictionary under the signature of the calls they replace; then every call in
every method of the module whose signature is found there is replaced by a load
of the monitor field and a call of the patch method.

Strings have some hash code and `ModuleDefinition.Import` returns some
reference; both are parameters.
-/

namespace HostedPumpkin

structure Signature where
  className : String
  methodName : String
  isStatic : Bool
  parameters : List ParameterDefinition
deriving DecidableEq

namespace Signature

def equals (this other : Signature) : Bool :=
  other.className == this.className && other.methodName == this.methodName &&
    other.isStatic == this.isStatic && other.parameters.length == this.parameters.length &&
    (List.zipWith (fun p1 p2 => p1.parameterType.fullName == p2.parameterType.fullName)
      other.parameters this.parameters).all id

/-- `GetHashCode`, without the sign bit as the dictionary takes it. -/
def getHashCode (stringHash : String → UInt32) (this : Signature) : Nat :=
  ((stringHash this.className ^^^ stringHash this.methodName ^^^
    UInt32.ofNat this.parameters.length) &&& 0x7FFFFFFF).toNat

/-- What two equal signatures share. -/
def shape (this : Signature) : String × String × Bool × List String :=
  (this.className, this.methodName, this.isStatic,
    this.parameters.map (fun parameter => parameter.parameterType.fullName))

theorem all_zipWith_iff {ps qs : List ParameterDefinition} :
    (ps.length = qs.length ∧ (List.zipWith (fun p1 p2 =>
        p1.parameterType.fullName == p2.parameterType.fullName) ps qs).all id = true) ↔
      ps.map (fun p => p.parameterType.fullName) = qs.map (fun p => p.parameterType.fullName) := by
  induction ps generalizing qs with
  | nil => cases qs <;> simp
  | cons p ps ih =>
      cases qs with
      | nil => simp
      | cons q qs =>
          have hrest := @ih qs
          simp only [List.length_cons, List.zipWith_cons_cons, List.all_cons, id_eq,
            Bool.and_eq_true, beq_iff_eq, List.map_cons, List.cons.injEq,
            Nat.add_right_cancel_iff]
          rw [← hrest]
          constructor
          · rintro ⟨hlength, hhead, hall⟩
            exact ⟨hhead, hlength, hall⟩
          · rintro ⟨hhead, hlength, hall⟩
            exact ⟨hlength, hhead, hall⟩

theorem equals_iff {this other : Signature} :
    this.equals other = true ↔ this.shape = other.shape := by
  simp only [equals, Bool.and_eq_true, beq_iff_eq, and_assoc, all_zipWith_iff, shape,
    Prod.mk.injEq]
  constructor
  · rintro ⟨hclass, hmethod, hstatic, hparameters⟩
    exact ⟨hclass.symm, hmethod.symm, hstatic.symm, hparameters.symm⟩
  · rintro ⟨hclass, hmethod, hstatic, hparameters⟩
    exact ⟨hclass.symm, hmethod.symm, hstatic.symm, hparameters.symm⟩

/-- `Equals` is an equivalence and `GetHashCode` respects it. -/
def comparer (stringHash : String → UInt32) : Comparer Signature where
  equals := equals
  getHashCode := getHashCode stringHash
  refl a := equals_iff.mpr rfl
  symm a b h := equals_iff.mpr (equals_iff.mp h).symm
  trans a b c hab hbc := equals_iff.mpr ((equals_iff.mp hab).trans (equals_iff.mp hbc))
  hash a b h := by
    have hshape := equals_iff.mp h
    simp only [shape, Prod.mk.injEq] at hshape
    obtain ⟨hclass, hmethod, -, hparameters⟩ := hshape
    have hlength := congrArg List.length hparameters
    simp only [List.length_map] at hlength
    simp only [getHashCode, hclass, hmethod, hlength]

end Signature

/-- The field a patched snippet class gets, `Monitor.MonitorFieldName`. -/
def monitorFieldName : String := "__monitor"

namespace SnippetCompiler

/-- `attribute.Fields.Single(arg => arg.Name == name).Argument.Value`. -/
def singleField (patch : CustomAttribute) (name : String) :
    Except CompilerFault AttributeValue :=
  match patch.fields.filter (fun field => field.1 == name) with
  | [field] => .ok field.2
  | _ => .error .invalidOperation

def boolField (patch : CustomAttribute) (name : String) : Except CompilerFault Bool := do
  match ← singleField patch name with
  | .bool value => .ok value
  | .string _ => .error .invalidCast

def stringField (patch : CustomAttribute) (name : String) :
    Except CompilerFault String := do
  match ← singleField patch name with
  | .string value => .ok value
  | .bool _ => .error .invalidCast

/-- The parameters of the calls a patch method replaces: without the monitor,
which comes last, and for an instance method without the object, which comes
first. -/
def patchedParameters (isStatic : Bool) (parameters : List ParameterDefinition) :
    List ParameterDefinition :=
  if isStatic then parameters.take (parameters.length - 1)
  else (parameters.drop 1).take (parameters.length - 2)

/-- The signature a patch method is meant for, if it has the attribute. -/
def patchSignature (method : MethodDefinition) : Except CompilerFault (Option Signature) := do
  match method.customAttributes.find? (fun attr =>
      attr.attributeType == "Pumpkin.MethodPatch") with
  | none => .ok none
  | some patch =>
      let isStatic ← boolField patch "IsStatic"
      let className ← stringField patch "ClassName"
      let methodName ← stringField patch "MethodName"
      .ok (some ⟨className, methodName, isStatic,
        patchedParameters isStatic method.parameters⟩)

/-- The patch methods of a type with their signatures, in order. -/
def patchPairs : List MethodDefinition →
    Except CompilerFault (List (Signature × MethodDefinition))
  | [] => .ok []
  | method :: rest => do
      match ← patchSignature method with
      | none => patchPairs rest
      | some signature => return (signature, method) :: (← patchPairs rest)

section Patching

variable (stringHash : String → UInt32) (importMethod : MethodDefinition → MethodReference)

abbrev Patches := Dictionary Signature MethodDefinition

/-- The loop of `MethodPatches` with the dictionary it fills. -/
def methodPatchesLoop (patches : Patches) :
    List MethodDefinition → Except CompilerFault Patches
  | [] => .ok patches
  | method :: rest => do
      match ← patchSignature method with
      | none => methodPatchesLoop patches rest
      | some signature =>
          match patches.add (Signature.comparer stringHash) signature method with
          | none => .error .argumentException
          | some patches => methodPatchesLoop patches rest

def methodPatches (buckets : Nat) (monitorType : TypeDefinition) :
    Except CompilerFault Patches :=
  methodPatchesLoop stringHash (Dictionary.empty buckets) monitorType.methods

/-- The signature a call is looked up under. -/
def callSignature (calledMethod : MethodReference) : Signature where
  className := calledMethod.declaringType.name
  methodName := calledMethod.name
  isStatic := !calledMethod.hasThis
  parameters := calledMethod.parameters

/-- The method of a `call` or `callvirt`. -/
def calledMethod : Code → Option MethodReference
  | .call operand | .callvirt operand => some operand
  | _ => none

/-- The patch method for an instruction, if it calls a patchable method. -/
def findPatch (patches : Patches) (instruction : Instruction) : Option MethodDefinition :=
  (calledMethod instruction.code).bind (fun calledMethod =>
    patches.tryGetValue (Signature.comparer stringHash) (callSignature calledMethod))

/-- `il.Create(OpCodes.Call, module.Import(newMethod))`. -/
def createPatchedCall (i : Instruction) (newMethod : MethodDefinition) : Instruction :=
  ⟨.patchedCall i.ref, .call (importMethod newMethod)⟩

/-- `il.Create(OpCodes.Ldsfld, monitorRef)`. -/
def createMonitorLoad (monitorRef : FieldDefinition) (i : Instruction)
    (_ : MethodDefinition) : Instruction :=
  ⟨.monitorLoad i.ref, .ldsfld monitorRef⟩

/-- The body of the loop of `PatchMethod`: `il.Replace` and `il.InsertBefore`. -/
def patchCall (monitorRef : FieldDefinition) (instructions : List Instruction)
    (x : Instruction × MethodDefinition) : Option (List Instruction) :=
  let patchedCall := createPatchedCall importMethod x.1 x.2
  (KeyedEdits.replace Instruction.ref x.1.ref patchedCall instructions).bind
    (KeyedEdits.insertBefore Instruction.ref patchedCall.ref
      (createMonitorLoad monitorRef x.1 x.2))

def patchMethod (monitorRef : FieldDefinition) (patches : Patches)
    (method : MethodDefinition) : Except CompilerFault MethodDefinition :=
  match method.body with
  | none => .error .nullReference
  | some body =>
      let callsToPatch := body.instructions.filterMap (fun i =>
        (findPatch stringHash patches i).map (fun newMethod => (i, newMethod)))
      match callsToPatch.foldlM (patchCall importMethod monitorRef) body.instructions with
      | none => .error .argumentOutOfRange
      | some instructions => .ok { method with body := some { body with instructions } }

mutual

def patchType (monitorRef : FieldDefinition) (patches : Patches) :
    TypeDefinition → Except CompilerFault TypeDefinition
  | .mk fullName fields methods nestedTypes => do
      let methods ← methods.mapM (patchMethod stringHash importMethod monitorRef patches)
      let nestedTypes ← patchTypes monitorRef patches nestedTypes
      return .mk fullName fields methods nestedTypes

/-- The loop over a list of types. -/
def patchTypes (monitorRef : FieldDefinition) (patches : Patches) :
    List TypeDefinition → Except CompilerFault (List TypeDefinition)
  | [] => .ok []
  | type :: rest => do
      let type ← patchType monitorRef patches type
      let rest ← patchTypes monitorRef patches rest
      return type :: rest

end

/-- `snippetClass.Fields.Add(monitorInstance)`. -/
def addMonitorField (className : String) (monitorRef : FieldDefinition) :
    TypeDefinition → TypeDefinition
  | .mk fullName fields methods nestedTypes =>
      .mk fullName (if fullName = className then fields ++ [monitorRef] else fields) methods
        nestedTypes

/-- `PatchAssembly` on the module it reads, up to the module it writes. -/
def patchAssembly (buckets : Nat) (monitorType : TypeDefinition)
    (monitorTypeRef : TypeReference) (module : ModuleDefinition) (className : String) :
    Except CompilerFault ModuleDefinition :=
  if module.types.countP (fun type => type.fullName == className) = 1 then do
    let monitorInstance : FieldDefinition := ⟨monitorFieldName, monitorTypeRef⟩
    let patches ← methodPatches stringHash buckets monitorType
    let types ← patchTypes stringHash importMethod monitorInstance patches
      (module.types.map (addMonitorField className monitorInstance))
    return ⟨types⟩
  else .error .invalidOperation

end Patching

/-- An instruction that is no call has no patch. -/
theorem findPatch_of_calledMethod_none {stringHash : String → UInt32} {patches : Patches}
    {i : Instruction} (h : calledMethod i.code = none) :
    findPatch stringHash patches i = none := by
  rw [findPatch, h]
  rfl

end SnippetCompiler

namespace Monitor

def typeRef : TypeReference :=
  ⟨.assemblyNameReference "Pumpkin.Monitor", "Pumpkin.Monitor", "Monitor"⟩

def stringParameter : ParameterDefinition :=
  ⟨⟨.assemblyNameReference "mscorlib", "System.String", "String"⟩⟩

/-- The attribute of a patch method for a static method. -/
def staticPatch (className methodName : String) : CustomAttribute :=
  ⟨"Pumpkin.MethodPatch", [("ClassName", .string className), ("MethodName", .string methodName),
    ("IsStatic", .bool true)]⟩

/-- `Console_WriteLine`, of which the pass reads no body. -/
def consoleWriteLine : MethodDefinition :=
  ⟨"Console_WriteLine", [stringParameter, ⟨typeRef⟩], [staticPatch "Console" "WriteLine"], none⟩

/-- The method that `Console_WriteLine` replaces. -/
def writeLine : MethodReference :=
  ⟨⟨.assemblyNameReference "mscorlib", "System.Console", "Console"⟩, "WriteLine", false,
    [stringParameter]⟩

def writeLineSignature : Signature := ⟨"Console", "WriteLine", true, [stringParameter]⟩

/-- The patches of a monitor with that one patch method. -/
def patches : SnippetCompiler.Patches := ⟨3, [(writeLineSignature, consoleWriteLine)]⟩

/-- A patch method of the monitor as a module refers to it. -/
def importMethod (method : MethodDefinition) : MethodReference :=
  ⟨typeRef, method.name, false, method.parameters⟩

example : SnippetCompiler.patchPairs [consoleWriteLine] =
    .ok [(writeLineSignature, consoleWriteLine)] := rfl

theorem findPatch_writeLine (stringHash : String → UInt32) (ref : InstructionRef) :
    SnippetCompiler.findPatch stringHash patches ⟨ref, .call writeLine⟩ =
      some consoleWriteLine := by
  simp only [SnippetCompiler.findPatch, SnippetCompiler.calledMethod, Option.bind_some,
    Dictionary.tryGetValue_eq_linearSearch]
  rfl

end Monitor

end HostedPumpkin
