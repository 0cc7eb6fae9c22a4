import HostedPumpkin.Pool.Worker
import HostedPumpkin.Submission.PatchMeaning

/-!
`InternalRun`: the assembly is loaded, its main type and the method are looked up by their
names, the monitor is stored in its field and the method is invoked. What comes out for a
patched snippet is said by the snippet as it was compiled: the lines it writes to the
console are the output, and how it ends is the status.

The flags of fields and methods, which the model of a module leaves out, and the texts of
the exceptions come with the loaded assembly. The snippets have no type initializers:
`SetValue` would run the one of the main type before the monitor is in its field. The abort
of the thread is a matter of the pool.
-/

namespace HostedPumpkin

open Execution SnippetCompiler

/-- What reflection throws. -/
inductive ReflectionFault where
  | moreThanOneElement
  | ambiguousMatch
  | argument
  | parameterCount
deriving DecidableEq, Repr

/-- What reflection knows beside the model of the module. A method goes by its index in
the module. -/
structure Reflection (X W : Type) where
  isPublic : Nat → Bool
  isStatic : Nat → Bool
  /-- The field is found by `Public | Static`. -/
  isPublicStatic : FieldDefinition → Bool
  /-- A field of the type can hold a `Monitor`. -/
  holdsMonitor : TypeReference → Bool
  faultMessage : ReflectionFault → String
  /-- `ex.InnerException.Message`. -/
  exceptionMessage : X → W → String

/-- `SnippetResult` as `InternalRun` fills it in. -/
structure InternalResult (V : Type) where
  status : SnippetStatus
  exception : Option String
  output : Option (List V)
deriving DecidableEq

/-- `Type.Name` of a type that the module has under its full name. -/
def typeName (fullName : String) : String :=
  String.ofList (fullName.toList.reverse.takeWhile (fun c => c != '.' && c != '/')).reverse

/-- `Type.FullName`. -/
def reflectedFullName (fullName : String) : String :=
  fullName.map fun c => if c = '/' then '+' else c

/-- `t.Name == mainTypeName || t.FullName == mainTypeName`. -/
def goesBy (mainTypeName fullName : String) : Bool :=
  typeName fullName == mainTypeName || reflectedFullName fullName == mainTypeName

/-- The types with the index of their first method. -/
def typesFrom : Nat → List TypeDefinition → List (Nat × TypeDefinition)
  | _, [] => []
  | first, type :: rest => (first, type) :: typesFrom (first + type.methods.length) rest

/-- One of a list, none, or too many. -/
def atMostOne {α : Type} (fault : ReflectionFault) : List α → Except ReflectionFault (Option α)
  | [] => .ok none
  | [only] => .ok (some only)
  | _ :: _ :: _ => .error fault

namespace SimpleHostAppDomainManager

variable {V L X W : Type}

/-- `GetTypes().Where(..).SingleOrDefault()`. -/
def findType (module : ModuleDefinition) (mainTypeName : String) :
    Except ReflectionFault (Option (Nat × TypeDefinition)) :=
  atMostOne .moreThanOneElement ((typesFrom 0 module.allTypes).filter fun found =>
    goesBy mainTypeName found.2.fullName)

/-- `type.GetField(MonitorFieldName, BindingFlags.Public | BindingFlags.Static)`. -/
def getMonitorField (loader : Reflection X W) (type : TypeDefinition) :
    Except ReflectionFault (Option FieldDefinition) :=
  atMostOne .ambiguousMatch (type.fields.filter fun field =>
    field.name == monitorFieldName && loader.isPublicStatic field)

/-- The binding flags match; in a sandbox only a public method is found. -/
def isVisible (loader : Reflection X W) (runningInSandbox : Bool) (index : Nat) : Bool :=
  loader.isStatic index && (loader.isPublic index || !runningInSandbox)

/-- `type.GetMethod(methodName, bindingFlags)`. -/
def getMethod (loader : Reflection X W) (runningInSandbox : Bool) (methodName : String)
    (first : Nat) (type : TypeDefinition) :
    Except ReflectionFault (Option (MethodDefinition × Nat)) :=
  atMostOne .ambiguousMatch ((type.methods.zipIdx first).filter fun found =>
    found.1.name == methodName && isVisible loader runningInSandbox found.2)

/-- The result in the `catch (Exception ex)` block. -/
def caught (loader : Reflection X W) (output : Option (List V)) (fault : ReflectionFault) :
    InternalResult V :=
  ⟨.executionError, some (loader.faultMessage fault), output⟩

/-- The result when the invoked method has ended, with the output it has written. -/
def report (loader : Reflection X W) (output : List V → Option (List V)) :
    Outcome V X (W × List V) → Option (InternalResult V)
  | .returned _ world => some ⟨.success, none, output world.2⟩
  | .unhandled exception world =>
      some ⟨.executionError, some (loader.exceptionMessage exception world.1), output world.2⟩
  | .invalid => none

/-- `InternalRun` ends with a result. `ends` says what the invoked method ends with, and
which lines it wrote to the list of the monitor. -/
def InternalRun (loader : Reflection X W) (module : ModuleDefinition)
    (mainTypeName methodName : String) (runningInSandbox : Bool)
    (ends : Nat → Outcome V X (W × List V) → Prop) (result : InternalResult V) : Prop :=
  match findType module mainTypeName with
  | .error fault => result = caught loader none fault
  | .ok none => result = ⟨.initializationError, none, none⟩
  | .ok (some (first, type)) =>
      match getMonitorField loader type with
      | .error fault => result = caught loader none fault
      | .ok monitorField =>
          let output : Option (List V) := monitorField.map fun _ => []
          if monitorField.any (fun field => !loader.holdsMonitor field.fieldType) then
            result = caught loader output .argument
          else
            match getMethod loader runningInSandbox methodName first type with
            | .error fault => result = caught loader output fault
            | .ok none => result = ⟨.initializationError, none, output⟩
            | .ok (some (target, index)) =>
                if target.parameters ≠ [] then result = caught loader output .parameterCount
                else ∃ outcome, ends index outcome ∧
                  report loader (fun lines => output.map fun _ => lines) outcome = some result

section Lookup

variable (importMethod : MethodDefinition → MethodReference) (monitorRef : FieldDefinition)
  (pairs : List (Signature × MethodDefinition)) (className : String)

/-- The types have the same name, and the methods of the one are those of the other,
patched. -/
def PatchedType (type type' : TypeDefinition) : Prop :=
  type'.fullName = type.fullName ∧
    type'.methods = type.methods.map (rewriteMethod importMethod monitorRef pairs)

theorem patchedType_mapMethods (type : TypeDefinition) :
    PatchedType importMethod monitorRef pairs type
      (type.mapMethods (rewriteMethod importMethod monitorRef pairs)) := by
  constructor
  · cases type with
    | mk fullName fields methods nestedTypes => rw [TypeDefinition.mapMethods]; rfl
  · exact TypeDefinition.methods_mapMethods _ type

theorem fullName_addMonitorField (type : TypeDefinition) :
    (addMonitorField className monitorRef type).fullName = type.fullName := by
  cases type with
  | mk fullName fields methods nestedTypes => rfl

/-- The types of the rewritten module, in the order of the types of the module. -/
theorem forall₂_rewriteModule (module : ModuleDefinition) :
    List.Forall₂ (PatchedType importMethod monitorRef pairs) module.allTypes
      (rewriteModule importMethod monitorRef pairs className module).allTypes := by
  rw [ModuleDefinition.allTypes, ModuleDefinition.allTypes, rewriteModule]
  induction module.types with
  | nil => exact .nil
  | cons top rest ih =>
      rw [List.map_cons, allTypesOf, allTypesOf, TypeDefinition.allTypes_mapMethods,
        allTypes_addMonitorField, TypeDefinition.allTypes_eq, List.map_cons]
      apply List.rel_append _ ih
      constructor
      · obtain ⟨name, methods⟩ := patchedType_mapMethods importMethod monitorRef pairs
          (addMonitorField className monitorRef top)
        rw [fullName_addMonitorField] at name
        rw [methods_addMonitorField] at methods
        exact ⟨name, methods⟩
      · rw [List.forall₂_map_right_iff, List.forall₂_same]
        intro type member
        exact patchedType_mapMethods importMethod monitorRef pairs type

/-- A type of the module as it is rewritten. -/
theorem class_mem_rewriteModule {module : ModuleDefinition} {top : TypeDefinition}
    (member : top ∈ module.types) :
    (addMonitorField className monitorRef top).mapMethods
        (rewriteMethod importMethod monitorRef pairs) ∈
      (rewriteModule importMethod monitorRef pairs className module).allTypes ∧
    ((addMonitorField className monitorRef top).mapMethods
      (rewriteMethod importMethod monitorRef pairs)).fullName = top.fullName := by
  constructor
  · apply mem_allTypesOf.mpr
    refine ⟨_, List.mem_map_of_mem member, ?_⟩
    rw [TypeDefinition.allTypes_eq]
    exact List.mem_cons_self
  · rw [(patchedType_mapMethods importMethod monitorRef pairs _).1, fullName_addMonitorField]

variable {importMethod monitorRef pairs className}

theorem forall₂_typesFrom {types types' : List TypeDefinition}
    (h : List.Forall₂ (PatchedType importMethod monitorRef pairs) types types') (first : Nat) :
    List.Forall₂ (fun found found' => found'.1 = found.1 ∧
        PatchedType importMethod monitorRef pairs found.2 found'.2)
      (typesFrom first types) (typesFrom first types') := by
  induction h generalizing first with
  | nil => exact .nil
  | cons patched rest ih =>
      rw [typesFrom, typesFrom]
      refine .cons ⟨rfl, patched⟩ ?_
      rw [patched.2, List.length_map]
      exact ih _

/-- The index of a method among all methods. -/
theorem mem_typesFrom {types : List TypeDefinition} {first index : Nat} {type : TypeDefinition}
    (h : (index, type) ∈ typesFrom first types) :
    type ∈ types ∧ first ≤ index ∧ ∀ k method, type.methods[k]? = some method →
      (types.flatMap TypeDefinition.methods)[index - first + k]? = some method := by
  induction types generalizing first with
  | nil => cases h
  | cons top rest ih =>
      rw [typesFrom] at h
      rcases List.mem_cons.mp h with same | later
      · cases same
        refine ⟨List.mem_cons_self, le_refl index, ?_⟩
        intro k method found
        obtain ⟨bound, -⟩ := List.getElem?_eq_some_iff.mp found
        rw [List.flatMap_cons, Nat.sub_self, Nat.zero_add, List.getElem?_append_left bound, found]
      · obtain ⟨member, below, found⟩ := ih later
        refine ⟨List.mem_cons_of_mem top member, by omega, ?_⟩
        intro k method there
        have place : index - first + k =
            top.methods.length + (index - (first + top.methods.length) + k) := by omega
        rw [List.flatMap_cons, place, List.getElem?_append_right (Nat.le_add_right _ _),
          Nat.add_sub_cancel_left]
        exact found k method there

theorem exists_mem_typesFrom {types : List TypeDefinition} {type : TypeDefinition}
    (h : type ∈ types) (first : Nat) : ∃ index, (index, type) ∈ typesFrom first types := by
  induction types generalizing first with
  | nil => cases h
  | cons top rest ih =>
      rcases List.mem_cons.mp h with rfl | later
      · exact ⟨first, List.mem_cons_self⟩
      · obtain ⟨index, member⟩ := ih later (first + top.methods.length)
        exact ⟨index, List.mem_cons_of_mem _ member⟩

theorem atMostOne_eq_some {α : Type} {fault : ReflectionFault} {l : List α} {only : α} :
    atMostOne fault l = .ok (some only) ↔ l = [only] := by
  match l with
  | [] => simp [atMostOne]
  | [other] => simp [atMostOne]
  | _ :: _ :: _ => simp [atMostOne]

theorem atMostOne_eq_none {α : Type} {fault : ReflectionFault} {l : List α} :
    atMostOne fault l = .ok none ↔ l = [] := by
  match l with
  | [] => simp [atMostOne]
  | [other] => simp [atMostOne]
  | _ :: _ :: _ => simp [atMostOne]

theorem atMostOne_map {α β : Type} (f : α → β) (fault : ReflectionFault) (l : List α) :
    atMostOne fault (l.map f) = (atMostOne fault l).map (Option.map f) := by
  match l with
  | [] => rfl
  | [only] => rfl
  | _ :: _ :: _ => rfl

/-- Lists that correspond have as many elements. -/
theorem atMostOne_forall₂ {α β : Type} {R : α → β → Prop} {l : List α} {l' : List β}
    (h : List.Forall₂ R l l') (fault : ReflectionFault) :
    (atMostOne fault l = .error fault ∧ atMostOne fault l' = .error fault) ∨
      (atMostOne fault l = .ok none ∧ atMostOne fault l' = .ok none) ∨
      ∃ only only', atMostOne fault l = .ok (some only) ∧
        atMostOne fault l' = .ok (some only') ∧ R only only' := by
  cases h with
  | nil => exact .inr (.inl ⟨rfl, rfl⟩)
  | cons first rest =>
      cases rest with
      | nil => exact .inr (.inr ⟨_, _, rfl, rfl, first⟩)
      | cons second others => exact .inl ⟨rfl, rfl⟩

/-- The type is looked up in the rewritten module as it is in the module. -/
theorem findType_rewriteModule {module patched : ModuleDefinition}
    (hpatched : patched = rewriteModule importMethod monitorRef pairs className module)
    (mainTypeName : String) :
    (findType module mainTypeName = .error .moreThanOneElement ∧
        findType patched mainTypeName = .error .moreThanOneElement) ∨
      (findType module mainTypeName = .ok none ∧ findType patched mainTypeName = .ok none) ∨
      ∃ found found', findType module mainTypeName = .ok (some found) ∧
        findType patched mainTypeName = .ok (some found') ∧ found'.1 = found.1 ∧
        PatchedType importMethod monitorRef pairs found.2 found'.2 := by
  rw [hpatched]
  have types := forall₂_typesFrom
    (forall₂_rewriteModule importMethod monitorRef pairs className module) 0
  refine atMostOne_forall₂ (List.rel_filter ?_ types) .moreThanOneElement
  intro found found' patched
  change goesBy mainTypeName found.2.fullName = true ↔
    goesBy mainTypeName found'.2.fullName = true
  rw [patched.2.1]

theorem exists_mem_named {module : ModuleDefinition} {mainTypeName : String}
    {type : TypeDefinition} (member : type ∈ module.allTypes)
    (named : goesBy mainTypeName type.fullName = true) :
    ∃ index, (index, type) ∈ (typesFrom 0 module.allTypes).filter fun found =>
      goesBy mainTypeName found.2.fullName := by
  obtain ⟨index, placed⟩ := exists_mem_typesFrom member 0
  exact ⟨index, List.mem_filter.mpr ⟨placed, named⟩⟩

/-- A type that goes by the name is the type that is found. -/
theorem eq_of_findType {module : ModuleDefinition} {mainTypeName : String}
    {found : Nat × TypeDefinition} (h : findType module mainTypeName = .ok (some found))
    {type : TypeDefinition} (member : type ∈ module.allTypes)
    (named : goesBy mainTypeName type.fullName = true) : found.2 = type := by
  obtain ⟨index, kept⟩ := exists_mem_named member named
  rw [atMostOne_eq_some.mp h] at kept
  rw [← List.mem_singleton.mp kept]

theorem findType_ne_none {module : ModuleDefinition} {mainTypeName : String}
    {type : TypeDefinition} (member : type ∈ module.allTypes)
    (named : goesBy mainTypeName type.fullName = true) :
    findType module mainTypeName ≠ .ok none := by
  intro missing
  obtain ⟨index, kept⟩ := exists_mem_named member named
  rw [atMostOne_eq_none.mp missing] at kept
  cases kept

theorem getMethod_patchedType {type type' : TypeDefinition}
    (h : PatchedType importMethod monitorRef pairs type type') (loader : Reflection X W)
    (runningInSandbox : Bool) (methodName : String) (first : Nat) :
    getMethod loader runningInSandbox methodName first type' =
      (getMethod loader runningInSandbox methodName first type).map
        (Option.map (Prod.map (rewriteMethod importMethod monitorRef pairs) id)) := by
  rw [getMethod, getMethod, h.2, List.zipIdx_map, List.filter_map, atMostOne_map]
  rfl

/-- The monitor finds its field in the class it was added to. -/
theorem getMonitorField_class {loader : Reflection X W} {top : TypeDefinition}
    (hclass : top.fullName = className)
    (hown : ∀ field ∈ top.fields, field.name ≠ monitorFieldName)
    (hname : monitorRef.name = monitorFieldName)
    (hflags : loader.isPublicStatic monitorRef = true) :
    getMonitorField loader ((addMonitorField className monitorRef top).mapMethods
      (rewriteMethod importMethod monitorRef pairs)) = .ok (some monitorRef) := by
  have fields : ((addMonitorField className monitorRef top).mapMethods
      (rewriteMethod importMethod monitorRef pairs)).fields = top.fields ++ [monitorRef] := by
    cases top with
    | mk fullName fields methods nestedTypes =>
        have named : fullName = className := hclass
        rw [addMonitorField, if_pos named, TypeDefinition.mapMethods]
        rfl
  have others : top.fields.filter (fun field =>
      field.name == monitorFieldName && loader.isPublicStatic field) = [] := by
    apply List.filter_eq_nil_iff.mpr
    intro field member
    simp [hown field member]
  rw [getMonitorField, atMostOne_eq_some, fields, List.filter_append, others]
  simp [hname, hflags]

/-- The method that is found is one of the module. -/
theorem getElem?_of_getMethod {module : ModuleDefinition} {mainTypeName methodName : String}
    {loader : Reflection X W} {runningInSandbox : Bool} {found : Nat × TypeDefinition}
    {target : MethodDefinition} {index : Nat}
    (htype : findType module mainTypeName = .ok (some found))
    (hmethod : getMethod loader runningInSandbox methodName found.1 found.2 =
      .ok (some (target, index))) :
    found.2 ∈ module.allTypes ∧ target ∈ found.2.methods ∧
      (methodsOf module)[index]? = some target := by
  have typeKept : found ∈ (typesFrom 0 module.allTypes).filter fun found =>
      goesBy mainTypeName found.2.fullName := by
    rw [atMostOne_eq_some.mp htype]
    exact List.mem_singleton_self found
  have methodKept : (target, index) ∈ (found.2.methods.zipIdx found.1).filter fun found =>
      found.1.name == methodName && isVisible loader runningInSandbox found.2 := by
    rw [atMostOne_eq_some.mp hmethod]
    exact List.mem_singleton_self _
  obtain ⟨member, -, places⟩ := mem_typesFrom (List.mem_filter.mp typeKept).1
  obtain ⟨below, there⟩ := List.mk_mem_zipIdx_iff_le_and_getElem?_sub.mp
    (List.mem_filter.mp methodKept).1
  refine ⟨member, List.mem_of_getElem? there, ?_⟩
  have place := places (index - found.1) target there
  rwa [Nat.sub_zero, Nat.add_sub_cancel' below] at place

end Lookup

/-- What a method ends with that is invoked without arguments, and the lines in the output
of the monitor. -/
def MonitoredEnds (rt : Runtime V L X (W × List V × List V)) (methods : List MethodDefinition)
    (world : W) (index : Nat) (outcome : Outcome V X (W × List V)) : Prop :=
  ∃ ended, Machine.Finishes (step rt methods)
      (start rt methods index [] (world, [], [])) ended ∧
    outcome = mapOutcome (fun world => (world.1, world.2.2)) ended

/-- The lines are those on the console. -/
def ConsoleEnds (rt : Runtime V L X (W × List V)) (methods : List MethodDefinition)
    (world : W) (index : Nat) (outcome : Outcome V X (W × List V)) : Prop :=
  Machine.Finishes (step rt methods) (start rt methods index [] (world, [])) outcome

theorem mapOutcome_collected (outcome : Outcome V X (W × List V)) :
    mapOutcome (fun world => (world.1, world.2.2)) (mapOutcome collected outcome) = outcome := by
  cases outcome <;> rfl

/-- A method that is invoked ends as it did before the patching, with the lines it wrote to
the console in the output. -/
theorem monitoredEnds_iff {importMethod : MethodDefinition → MethodReference}
    {stringHash : String → UInt32} {buckets : Nat}
    {monitorTypeRef : TypeReference} {className : String} {module patched : ModuleDefinition}
    (hsnippet : PatchableModule importMethod ⟨monitorFieldName, monitorTypeRef⟩ module)
    (hstatic : (importMethod Monitor.consoleWriteLine).hasThis = false)
    (hparameters : (importMethod Monitor.consoleWriteLine).parameters.length = 2)
    (hother : importMethod Monitor.consoleWriteLine ≠ Monitor.writeLine)
    (hpatched : patchAssembly stringHash importMethod buckets Monitor.typeDefinition
      monitorTypeRef module className = .ok patched)
    (base : Runtime V L X W) (monitor : V) {index : Nat} {body : MethodBody}
    (hmethod : bodyOf (methodsOf module) index = some body) (world : W)
    (outcome : Outcome V X (W × List V)) :
    MonitoredEnds (withMonitor importMethod ⟨monitorFieldName, monitorTypeRef⟩ monitor base)
        (methodsOf patched) world index outcome ↔
      ConsoleEnds (withConsole base) (methodsOf module) world index outcome := by
  have halike := patchedRun_iff hsnippet hstatic hparameters hother hpatched base monitor hmethod
    [] world
  constructor
  · rintro ⟨ended, hfinishes, rfl⟩
    obtain ⟨before, hrun, rfl⟩ := (halike ended).mp hfinishes
    rw [mapOutcome_collected]
    exact hrun
  · intro hrun
    exact ⟨mapOutcome collected outcome, (halike _).mpr ⟨outcome, hrun, rfl⟩,
      (mapOutcome_collected outcome).symm⟩

/-- What is left to do once the monitor is stored. -/
theorem internalRun_of_monitorField {loader : Reflection X W} {module : ModuleDefinition}
    {mainTypeName methodName : String} {runningInSandbox : Bool}
    {ends : Nat → Outcome V X (W × List V) → Prop} {result : InternalResult V}
    {found : Nat × TypeDefinition} {field : FieldDefinition}
    (htype : findType module mainTypeName = .ok (some found))
    (hfield : getMonitorField loader found.2 = .ok (some field))
    (hholds : loader.holdsMonitor field.fieldType = true) :
    InternalRun loader module mainTypeName methodName runningInSandbox ends result ↔
      match getMethod loader runningInSandbox methodName found.1 found.2 with
      | .error fault => result = caught loader (some []) fault
      | .ok none => result = ⟨.initializationError, none, some []⟩
      | .ok (some (target, index)) =>
          if target.parameters ≠ [] then result = caught loader (some []) .parameterCount
          else ∃ outcome, ends index outcome ∧ report loader some outcome = some result := by
  simp only [InternalRun, htype, hfield, Option.map_some, Option.any_some, hholds, Bool.not_true,
    Bool.false_eq_true, if_false]

theorem exists_class_of_patchAssembly {stringHash : String → UInt32}
    {importMethod : MethodDefinition → MethodReference} {buckets : Nat}
    {monitorType : TypeDefinition} {monitorTypeRef : TypeReference}
    {module patched : ModuleDefinition} {className : String}
    (hpatched : patchAssembly stringHash importMethod buckets monitorType monitorTypeRef module
      className = .ok patched) : ∃ top ∈ module.types, top.fullName = className := by
  rw [patchAssembly] at hpatched
  split at hpatched
  next hclass =>
    have hpositive : 0 < module.types.countP (fun type => type.fullName == className) := by omega
    obtain ⟨top, htop, hnamed⟩ := List.countP_pos_iff.mp hpositive
    exact ⟨top, htop, beq_iff_eq.mp hnamed⟩
  next => cases hpatched

/-- Every result is one that the pool has an outcome for. -/
theorem internalRun_outcome {loader : Reflection X W} {module : ModuleDefinition}
    {mainTypeName methodName : String} {runningInSandbox : Bool}
    {ends : Nat → Outcome V X (W × List V) → Prop} {result : InternalResult V}
    (h : InternalRun loader module mainTypeName methodName runningInSandbox ends result) :
    ∃ outcome : RunOutcome, outcome.toResult.status = result.status ∧
      outcome.toResult.exception = result.exception := by
  have failed : ∀ output fault, ∃ outcome : RunOutcome,
      outcome.toResult.status = (caught loader output fault : InternalResult V).status ∧
        outcome.toResult.exception = (caught loader output fault : InternalResult V).exception :=
    fun output fault => ⟨.executionError (loader.faultMessage fault), rfl, rfl⟩
  unfold InternalRun at h
  split at h
  · exact h ▸ failed _ _
  · exact ⟨.initializationError, by rw [h]; rfl, by rw [h]; rfl⟩
  · split at h
    · exact h ▸ failed _ _
    · split at h
      · exact h ▸ failed _ _
      · split at h
        · exact h ▸ failed _ _
        · exact ⟨.initializationError, by rw [h]; rfl, by rw [h]; rfl⟩
        · split at h
          · exact h ▸ failed _ _
          · obtain ⟨outcome, -, reported⟩ := h
            cases outcome with
            | returned value world =>
                cases reported
                exact ⟨.success, rfl, rfl⟩
            | unhandled exception world =>
                cases reported
                exact ⟨.executionError (loader.exceptionMessage exception world.1), rfl, rfl⟩
            | invalid => cases reported

/-- All methods are public and static. -/
def plainReflection : Reflection Unit Unit where
  isPublic _ := true
  isStatic _ := true
  isPublicStatic _ := true
  holdsMonitor _ := true
  faultMessage _ := "fault"
  exceptionMessage _ _ := "exception"

end SimpleHostAppDomainManager

end HostedPumpkin
