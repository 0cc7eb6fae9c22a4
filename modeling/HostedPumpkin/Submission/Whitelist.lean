import HostedPumpkin.Submission.Module

/-!
The whitelist of a submitted snippet. `CheckAssemblyAgainstWhitelist` walks the
instructions of every method of the module's top-level types and looks each
constructor and method they refer to up in the list. Compiler-generated code
lives in nested types, which this walk does not reach.
-/

namespace HostedPumpkin

/-- An entry with its optional names; `null` and the empty name are wildcards. -/
structure ListEntry where
  assemblyName : Option String
  typeName : Option String
  methodName : Option String
deriving DecidableEq

namespace ListEntry

def wildcardOrEquals (thisName : Option String) (otherName : String) : Bool :=
  match thisName with
  | none => true
  | some name => name.isEmpty || name == otherName

/-- One entry covers an assembly, a type and a method. -/
def covers (entry : ListEntry) (assemblyName typeName methodName : String) : Bool :=
  wildcardOrEquals entry.assemblyName assemblyName &&
    wildcardOrEquals entry.typeName typeName && wildcardOrEquals entry.methodName methodName

/-- `ListEntry.Matches`, which narrows the list name by name. -/
def matchesList (list : List ListEntry) (assemblyName typeName methodName : String) : Bool :=
  let matchingAssemblies := list.filter (fun e => wildcardOrEquals e.assemblyName assemblyName)
  if matchingAssemblies.isEmpty then false
  else
    let matchingTypes := matchingAssemblies.filter (fun e => wildcardOrEquals e.typeName typeName)
    if matchingTypes.isEmpty then false
    else
      let matchingMethods :=
        matchingTypes.filter (fun e => wildcardOrEquals e.methodName methodName)
      !matchingMethods.isEmpty

/-- Narrowing the list name by name finds one entry for all three names. -/
theorem matchesList_iff {list : List ListEntry} {assemblyName typeName methodName : String} :
    matchesList list assemblyName typeName methodName = true ↔
      ∃ entry ∈ list, entry.covers assemblyName typeName methodName = true := by
  simp only [matchesList]
  split
  next hassemblies =>
    simp only [Bool.false_eq_true, false_iff, not_exists, not_and]
    intro entry hentry hcovers
    simp only [covers, Bool.and_eq_true] at hcovers
    rw [List.isEmpty_iff, List.filter_eq_nil_iff] at hassemblies
    exact hassemblies entry hentry hcovers.1.1
  next =>
    split
    next htypes =>
      simp only [Bool.false_eq_true, false_iff, not_exists, not_and]
      intro entry hentry hcovers
      simp only [covers, Bool.and_eq_true] at hcovers
      rw [List.isEmpty_iff, List.filter_eq_nil_iff] at htypes
      exact htypes entry (List.mem_filter.mpr ⟨hentry, hcovers.1.1⟩) hcovers.1.2
    next =>
      rw [Bool.not_eq_true', List.isEmpty_eq_false_iff_exists_mem]
      simp only [covers, List.mem_filter, and_assoc, Bool.and_eq_true]

end ListEntry

namespace SnippetCompiler

/-- `((AssemblyNameReference)declaringType.Scope).FullName`. -/
def declaringTypeAssembly (method : MethodReference) : Except CompilerFault String :=
  match method.declaringType.scope with
  | .assemblyNameReference fullName => .ok fullName
  | .moduleReference _ | .moduleDefinition => .error .invalidCast

/-- What the loop does with one instruction. The operand of `calli` is a call
site and no method reference. -/
def checkInstruction (whiteList : List ListEntry) (instruction : Instruction) :
    Except CompilerFault Bool :=
  match instruction.code with
  | .newobj methodRef | .call methodRef | .callvirt methodRef =>
      match declaringTypeAssembly methodRef with
      | .error fault => .error fault
      | .ok assembly =>
          .ok (ListEntry.matchesList whiteList assembly methodRef.declaringType.fullName
            methodRef.name)
  | .calli => .error .invalidCast
  | _ => .ok true

/-- A method without a body has no `ILProcessor`. -/
def checkMethod (whiteList : List ListEntry) (method : MethodDefinition) :
    Except CompilerFault Bool :=
  match method.body with
  | none => .error .nullReference
  | some body => body.instructions.allM (checkInstruction whiteList)

def checkType (whiteList : List ListEntry) (type : TypeDefinition) :
    Except CompilerFault Bool :=
  type.methods.allM (checkMethod whiteList)

/-- `ToDictionary` fails on two types of one name, then the loops run until the
first reference that is not listed. -/
def checkAssemblyAgainstWhitelist (module : ModuleDefinition) (whiteList : List ListEntry) :
    Except CompilerFault Bool :=
  if (module.types.map TypeDefinition.fullName).Nodup then
    module.types.allM (checkType whiteList)
  else .error .argumentException

/-- An instruction refers to nothing outside the module that is not listed. -/
def Listed (whiteList : List ListEntry) (instruction : Instruction) : Prop :=
  ∀ methodRef, instruction.code.invoked = some methodRef →
    methodRef.declaringType.scope ≠ .moduleDefinition →
      ∃ assembly, methodRef.declaringType.scope = .assemblyNameReference assembly ∧
        ∃ entry ∈ whiteList,
          entry.covers assembly methodRef.declaringType.fullName methodRef.name = true

/-- Every instruction in the methods of these types is listed. -/
def AllListed (whiteList : List ListEntry) (types : List TypeDefinition) : Prop :=
  ∀ type ∈ types, ∀ method ∈ type.methods, ∀ body, method.body = some body →
    ∀ instruction ∈ body.instructions, Listed whiteList instruction

theorem allM_ok_true {α : Type*} {p : α → Except CompilerFault Bool} {l : List α} :
    l.allM p = .ok true ↔ ∀ a ∈ l, p a = .ok true := by
  induction l with
  | nil => simp [List.allM, pure, Except.pure]
  | cons a rest ih =>
      rw [List.allM, List.forall_mem_cons, ← ih]
      cases p a with
      | error fault => simp [bind, Except.bind]
      | ok answer => cases answer <;> simp [bind, Except.bind, pure, Except.pure]

/-- An instruction that passes is listed. -/
theorem listed_of_checkInstruction {whiteList : List ListEntry} {instruction : Instruction}
    (h : checkInstruction whiteList instruction = .ok true) : Listed whiteList instruction := by
  intro methodRef hinvoked _
  have hcode : instruction.code = .newobj methodRef ∨ instruction.code = .call methodRef ∨
      instruction.code = .callvirt methodRef := by
    cases hcode : instruction.code <;> simp_all [Code.invoked]
  have hcheck : ∃ assembly, declaringTypeAssembly methodRef = .ok assembly ∧
      ListEntry.matchesList whiteList assembly methodRef.declaringType.fullName
        methodRef.name = true := by
    rcases hcode with hcode | hcode | hcode <;>
      · simp only [checkInstruction, hcode] at h
        cases hassembly : declaringTypeAssembly methodRef with
        | error fault => simp [hassembly] at h
        | ok assembly => exact ⟨assembly, rfl, by simpa [hassembly] using h⟩
  obtain ⟨assembly, hassembly, hmatches⟩ := hcheck
  refine ⟨assembly, ?_, ListEntry.matchesList_iff.mp hmatches⟩
  cases hscope : methodRef.declaringType.scope with
  | assemblyNameReference fullName =>
      simp only [declaringTypeAssembly, hscope, Except.ok.injEq] at hassembly
      rw [hassembly]
  | moduleReference | moduleDefinition => simp [declaringTypeAssembly, hscope] at hassembly

/-- The check covers the top-level types. -/
theorem topLevel_listed {module : ModuleDefinition} {whiteList : List ListEntry}
    (h : checkAssemblyAgainstWhitelist module whiteList = .ok true) :
    AllListed whiteList module.types := by
  simp only [checkAssemblyAgainstWhitelist] at h
  split at h
  next =>
    rw [allM_ok_true] at h
    intro type htype method hmethod body hbody instruction hinstruction
    have hcheck := allM_ok_true.mp (h type htype) method hmethod
    simp only [checkMethod, hbody] at hcheck
    exact listed_of_checkInstruction (allM_ok_true.mp hcheck instruction hinstruction)
  next => cases h

/-- The types nested in the top-level types, at every depth. -/
def nestedTypesOf (module : ModuleDefinition) : List TypeDefinition :=
  allTypesOf (module.types.flatMap TypeDefinition.nestedTypes)

theorem mem_allTypes_iff {module : ModuleDefinition} {type : TypeDefinition} :
    type ∈ module.allTypes ↔ type ∈ module.types ∨ type ∈ nestedTypesOf module := by
  simp only [ModuleDefinition.allTypes, nestedTypesOf, mem_allTypesOf, List.mem_flatMap]
  constructor
  · rintro ⟨top, htop, htype⟩
    rw [TypeDefinition.allTypes_eq, List.mem_cons, mem_allTypesOf] at htype
    rcases htype with rfl | ⟨nested, hnested, htype⟩
    · exact Or.inl htop
    · exact Or.inr ⟨nested, ⟨top, htop, hnested⟩, htype⟩
  · rintro (htop | ⟨nested, ⟨top, htop, hnested⟩, htype⟩)
    · exact ⟨type, htop, by rw [TypeDefinition.allTypes_eq]; exact List.mem_cons_self⟩
    · refine ⟨top, htop, ?_⟩
      rw [TypeDefinition.allTypes_eq]
      exact List.mem_cons_of_mem _ (mem_allTypesOf.mpr ⟨nested, hnested, htype⟩)

/-- A module that passes the check has only listed references if and only if
the methods of its nested types have. -/
theorem whitelist_sound_iff {module : ModuleDefinition} {whiteList : List ListEntry}
    (h : checkAssemblyAgainstWhitelist module whiteList = .ok true) :
    AllListed whiteList module.allTypes ↔ AllListed whiteList (nestedTypesOf module) := by
  constructor
  · intro hall type htype
    exact hall type (mem_allTypes_iff.mpr (Or.inr htype))
  · intro hnested type htype
    rcases mem_allTypes_iff.mp htype with htop | hin
    · exact topLevel_listed h type htop
    · exact hnested type hin

/-- A snippet class that calls `Console.WriteLine` and whose closure does the
same, against a list that allows the class `Console`. -/
theorem whitelist_sound_closure :
    let mscorlib : MetadataScope := .assemblyNameReference "mscorlib"
    let writeLine : MethodReference :=
      ⟨⟨mscorlib, "System.Console", "Console"⟩, "WriteLine", false, []⟩
    let main : MethodDefinition :=
      ⟨"SnippetMain", [], [], some ⟨[⟨.read 0, .call writeLine⟩], []⟩⟩
    let closure : TypeDefinition := .mk "Snippets.Hello/<>c" [] [main] []
    let module : ModuleDefinition := ⟨[.mk "Snippets.Hello" [] [main] [closure]]⟩
    let whiteList : List ListEntry := [⟨some "mscorlib", some "System.Console", none⟩]
    AllListed whiteList module.allTypes := by
  intro mscorlib writeLine main closure module whiteList
  have hcheck : checkAssemblyAgainstWhitelist module whiteList = .ok true := by decide
  refine (whitelist_sound_iff hcheck).mpr ?_
  have hnested : nestedTypesOf module = [closure] := rfl
  rw [hnested]
  intro type htype method hmethod body hbody instruction hinstruction
  cases List.mem_singleton.mp htype
  cases List.mem_singleton.mp hmethod
  cases hbody
  cases List.mem_singleton.mp hinstruction
  exact listed_of_checkInstruction (by decide)

/-- A class with an empty method passes the check with an empty list, while a
type nested in it deletes files. -/
theorem nested_type_passes_whitelist :
    ¬ ∀ module whiteList, checkAssemblyAgainstWhitelist module whiteList = .ok true →
      AllListed whiteList module.allTypes := by
  intro hall
  let mscorlib : MetadataScope := .assemblyNameReference "mscorlib"
  let delete : MethodReference := ⟨⟨mscorlib, "System.IO.File", "File"⟩, "Delete", false, []⟩
  let main : MethodDefinition := ⟨"SnippetMain", [], [], some ⟨[⟨.read 0, .other 42 1⟩], []⟩⟩
  let moveNext : MethodDefinition :=
    ⟨"MoveNext", [], [], some ⟨[⟨.read 0, .call delete⟩], []⟩⟩
  let nested : TypeDefinition := .mk "Snippets.Hello/<Run>d__0" [] [moveNext] []
  let module : ModuleDefinition := ⟨[.mk "Snippets.Hello" [] [main] [nested]]⟩
  have hcheck : checkAssemblyAgainstWhitelist module [] = .ok true := by decide
  have hnested : nested ∈ module.allTypes :=
    mem_allTypes_iff.mpr (Or.inr List.mem_cons_self)
  obtain ⟨assembly, -, entry, hentry, -⟩ := hall module [] hcheck nested hnested moveNext
    List.mem_cons_self _ rfl ⟨.read 0, .call delete⟩ List.mem_cons_self delete rfl (by decide)
  cases hentry

end SnippetCompiler

end HostedPumpkin
