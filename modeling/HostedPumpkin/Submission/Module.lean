import HostedPumpkin.Library.KeyedEdits

/-!
What the submission code reads and writes of a .NET module through Mono.Cecil:
the tree of types, their methods and the instruction lists of their bodies. An
instruction is an object with an identity, and branch targets and handler
boundaries refer to instruction objects, not to positions.

An opcode comes together with its operand, so an operand of the wrong kind
cannot be built. Operands and metadata that nothing here reads are left out.
-/

namespace HostedPumpkin

/-- `IMetadataScope`, the place a type is declared in. -/
inductive MetadataScope where
  | assemblyNameReference (fullName : String)
  | moduleReference (name : String)
  | moduleDefinition
deriving DecidableEq

structure TypeReference where
  scope : MetadataScope
  fullName : String
  name : String
deriving DecidableEq

structure ParameterDefinition where
  parameterType : TypeReference
deriving DecidableEq

structure MethodReference where
  declaringType : TypeReference
  name : String
  hasThis : Bool
  parameters : List ParameterDefinition
deriving DecidableEq

structure FieldDefinition where
  name : String
  fieldType : TypeReference
deriving DecidableEq

/-- The identity of an `Instruction` object: one that was read from the module,
or one of the two that are created to replace a call. -/
inductive InstructionRef where
  | read (index : Nat)
  | patchedCall (replaced : InstructionRef)
  | monitorLoad (replaced : InstructionRef)
deriving DecidableEq

def InstructionRef.isRead : InstructionRef → Bool
  | .read _ => true
  | .patchedCall _ | .monitorLoad _ => false

theorem InstructionRef.isRead_iff {ref : InstructionRef} :
    ref.isRead = true ↔ ∃ index, ref = .read index := by
  cases ref <;> simp [isRead]

inductive BranchOpCode where
  | br | brfalse | brtrue | beq | bge | bgt | ble | blt
  | bneUn | bgeUn | bgtUn | bleUn | bltUn | leave
deriving DecidableEq

/-- An opcode with its operand. A branch is in its short form (`br.s`) or not. -/
inductive Code where
  | newobj (operand : MethodReference)
  | call (operand : MethodReference)
  | callvirt (operand : MethodReference)
  | calli
  | branch (opCode : BranchOpCode) (short : Bool) (operand : InstructionRef)
  | switch (operand : List InstructionRef)
  | ldsfld (operand : FieldDefinition)
  | other (opCode : UInt16) (size : Nat)
deriving DecidableEq

structure Instruction where
  ref : InstructionRef
  code : Code
deriving DecidableEq

/-- The boundaries of a protected region; a missing one is `null`. -/
structure ExceptionHandler where
  tryStart : Option InstructionRef
  tryEnd : Option InstructionRef
  filterStart : Option InstructionRef
  handlerStart : Option InstructionRef
  handlerEnd : Option InstructionRef
deriving DecidableEq

structure MethodBody where
  instructions : List Instruction
  exceptionHandlers : List ExceptionHandler
deriving DecidableEq

inductive AttributeValue where
  | string (value : String)
  | bool (value : Bool)
deriving DecidableEq

structure CustomAttribute where
  attributeType : String
  fields : List (String × AttributeValue)
deriving DecidableEq

structure MethodDefinition where
  name : String
  parameters : List ParameterDefinition
  customAttributes : List CustomAttribute
  body : Option MethodBody
deriving DecidableEq

inductive TypeDefinition where
  | mk (fullName : String) (fields : List FieldDefinition) (methods : List MethodDefinition)
      (nestedTypes : List TypeDefinition)

/-- A module, with its top-level types. -/
structure ModuleDefinition where
  types : List TypeDefinition

/-- The exceptions of the submission code. -/
inductive CompilerFault where
  | nullReference
  | invalidCast
  | argumentException
  | argumentOutOfRange
  | invalidOperation
deriving DecidableEq, Repr

namespace TypeDefinition

def fullName : TypeDefinition → String
  | .mk fullName _ _ _ => fullName

def fields : TypeDefinition → List FieldDefinition
  | .mk _ fields _ _ => fields

def methods : TypeDefinition → List MethodDefinition
  | .mk _ _ methods _ => methods

def nestedTypes : TypeDefinition → List TypeDefinition
  | .mk _ _ _ nestedTypes => nestedTypes

end TypeDefinition

mutual

/-- A type and the types nested in it, at every depth. -/
def TypeDefinition.allTypes : TypeDefinition → List TypeDefinition
  | .mk fullName fields methods nestedTypes =>
      .mk fullName fields methods nestedTypes :: allTypesOf nestedTypes

/-- All types of a list of types, at every depth. -/
def allTypesOf : List TypeDefinition → List TypeDefinition
  | [] => []
  | type :: rest => type.allTypes ++ allTypesOf rest

end

/-- All types of a module, at every nesting depth. -/
def ModuleDefinition.allTypes (module : ModuleDefinition) : List TypeDefinition :=
  allTypesOf module.types

theorem TypeDefinition.allTypes_eq (type : TypeDefinition) :
    type.allTypes = type :: allTypesOf type.nestedTypes := by
  cases type with
  | mk fullName fields methods nestedTypes =>
      rw [TypeDefinition.allTypes]
      rfl

theorem mem_allTypesOf {type : TypeDefinition} {types : List TypeDefinition} :
    type ∈ allTypesOf types ↔ ∃ top ∈ types, type ∈ top.allTypes := by
  induction types with
  | nil => simp [allTypesOf]
  | cons top rest ih => simp [allTypesOf, ih]

theorem allTypesOf_eq_flatMap (types : List TypeDefinition) :
    allTypesOf types = types.flatMap TypeDefinition.allTypes := by
  induction types with
  | nil => rfl
  | cons top rest ih => rw [allTypesOf, ih, List.flatMap_cons]

/-- Induction over the tree of nested types. -/
theorem TypeDefinition.induction {P : TypeDefinition → Prop}
    (hmk : ∀ fullName fields methods nestedTypes, (∀ type ∈ nestedTypes, P type) →
      P (.mk fullName fields methods nestedTypes)) (type : TypeDefinition) : P type := by
  refine @TypeDefinition.rec P (fun types => ∀ type ∈ types, P type) hmk ?_ ?_ type
  · intro nested hnested
    cases hnested
  · intro head tail hhead htail nested hnested
    rcases List.mem_cons.mp hnested with rfl | hin
    · exact hhead
    · exact htail nested hin

mutual

/-- Change the methods of a type and of the types nested in it, at every depth. -/
def TypeDefinition.mapMethods (f : MethodDefinition → MethodDefinition) :
    TypeDefinition → TypeDefinition
  | .mk fullName fields methods nestedTypes =>
      .mk fullName fields (methods.map f) (mapMethodsOf f nestedTypes)

def mapMethodsOf (f : MethodDefinition → MethodDefinition) :
    List TypeDefinition → List TypeDefinition
  | [] => []
  | type :: rest => type.mapMethods f :: mapMethodsOf f rest

end

theorem mapMethodsOf_eq_map (f : MethodDefinition → MethodDefinition)
    (types : List TypeDefinition) :
    mapMethodsOf f types = types.map (TypeDefinition.mapMethods f) := by
  induction types with
  | nil => rfl
  | cons top rest ih => rw [mapMethodsOf, ih, List.map_cons]

@[simp]
theorem TypeDefinition.methods_mapMethods (f : MethodDefinition → MethodDefinition)
    (type : TypeDefinition) : (type.mapMethods f).methods = type.methods.map f := by
  cases type with
  | mk fullName fields methods nestedTypes => rw [TypeDefinition.mapMethods]; rfl

/-- Changing the methods changes no nesting. -/
theorem TypeDefinition.allTypes_mapMethods (f : MethodDefinition → MethodDefinition)
    (type : TypeDefinition) :
    (type.mapMethods f).allTypes = type.allTypes.map (TypeDefinition.mapMethods f) := by
  induction type using TypeDefinition.induction with
  | hmk fullName fields methods nestedTypes ih =>
      have hnested : allTypesOf (nestedTypes.map (TypeDefinition.mapMethods f)) =
          (allTypesOf nestedTypes).map (TypeDefinition.mapMethods f) := by
        rw [allTypesOf_eq_flatMap, allTypesOf_eq_flatMap, List.flatMap_map, List.map_flatMap]
        exact List.flatMap_congr ih
      rw [TypeDefinition.mapMethods, mapMethodsOf_eq_map, TypeDefinition.allTypes,
        TypeDefinition.allTypes, hnested, List.map_cons, TypeDefinition.mapMethods,
        mapMethodsOf_eq_map]

/-- The method an instruction creates an object with or calls. -/
def Code.invoked : Code → Option MethodReference
  | .newobj operand | .call operand | .callvirt operand => some operand
  | _ => none

/-- The instructions a branch or a switch refers to. -/
def Code.targets : Code → List InstructionRef
  | .branch _ _ operand => [operand]
  | .switch operand => operand
  | _ => []

def ExceptionHandler.boundaries (handler : ExceptionHandler) : List InstructionRef :=
  [handler.tryStart, handler.tryEnd, handler.filterStart, handler.handlerStart,
    handler.handlerEnd].filterMap id

namespace MethodBody

/-- Every reference to an instruction in the body: the branch and switch
operands and the boundaries of the exception handlers. -/
def references (body : MethodBody) : List InstructionRef :=
  body.instructions.flatMap (fun instruction => instruction.code.targets) ++
    body.exceptionHandlers.flatMap ExceptionHandler.boundaries

/-- A body as it was read: every instruction is an object of its own. -/
structure AsRead (body : MethodBody) : Prop where
  distinct : (body.instructions.map Instruction.ref).Nodup
  read : ∀ instruction ∈ body.instructions, ∃ index, instruction.ref = .read index

instance (body : MethodBody) : Decidable body.AsRead :=
  decidable_of_iff ((body.instructions.map Instruction.ref).Nodup ∧
      ∀ instruction ∈ body.instructions, instruction.ref.isRead = true) (by
    constructor
    · rintro ⟨hdistinct, hread⟩
      refine ⟨hdistinct, ?_⟩
      intro instruction hinstruction
      exact InstructionRef.isRead_iff.mp (hread instruction hinstruction)
    · rintro ⟨hdistinct, hread⟩
      refine ⟨hdistinct, ?_⟩
      intro instruction hinstruction
      exact InstructionRef.isRead_iff.mpr (hread instruction hinstruction))

/-- Every reference is to an instruction of the body. -/
def WellFormed (body : MethodBody) : Prop :=
  ∀ ref ∈ body.references, ref ∈ body.instructions.map Instruction.ref

instance (body : MethodBody) : Decidable body.WellFormed :=
  inferInstanceAs (Decidable (∀ ref ∈ body.references,
    ref ∈ body.instructions.map Instruction.ref))

end MethodBody

end HostedPumpkin
