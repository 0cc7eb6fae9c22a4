import HostedPumpkin.Submission.Rewriting

/-!
On which modules patching completes. `PatchType` asks every method of every type for
its `ILProcessor`, at every nesting depth, so a single method without a body ends the
whole pass. A module whose methods all have bodies comes out rewritten.
-/

namespace HostedPumpkin

namespace Monitor

/-- The constructor of `Monitor`, which is no patch method. -/
def constructor : MethodDefinition where
  name := ".ctor"
  parameters := [⟨⟨.assemblyNameReference "mscorlib",
    "System.Collections.Generic.List`1<System.String>", "List`1"⟩⟩]
  customAttributes := []
  body := none

/-- The type `Monitor`, of which the pass reads the methods. -/
def typeDefinition : TypeDefinition :=
  .mk "Pumpkin.Monitor" [] [constructor, consoleWriteLine] []

theorem methodPatches_eq (stringHash : String → UInt32) (buckets : Nat) :
    SnippetCompiler.methodPatches stringHash buckets typeDefinition =
      .ok ⟨buckets, [(writeLineSignature, consoleWriteLine)]⟩ := rfl

end Monitor

namespace SnippetCompiler

section Pass

variable {stringHash : String → UInt32} {importMethod : MethodDefinition → MethodReference}
  {monitorRef : FieldDefinition} {patches : Patches}

/-- A method that could be patched had a body. -/
theorem body_of_patchMethod {method patched : MethodDefinition}
    (h : patchMethod stringHash importMethod monitorRef patches method = .ok patched) :
    method.body ≠ none := by
  intro hnone
  rw [patchMethod, hnone] at h
  cases h

/-- A type that could be patched has a body in every method, at every depth. -/
theorem bodies_of_patchType {type patched : TypeDefinition}
    (h : patchType stringHash importMethod monitorRef patches type = .ok patched) :
    ∀ inner ∈ type.allTypes, ∀ method ∈ inner.methods, method.body ≠ none := by
  induction type using TypeDefinition.induction generalizing patched with
  | hmk fullName fields methods nestedTypes ih =>
      rw [patchType, patchTypes_eq_mapM] at h
      obtain ⟨newMethods, hmethods, h⟩ := exists_of_bind_ok h
      obtain ⟨newTypes, hnested, -⟩ := exists_of_bind_ok h
      rw [TypeDefinition.allTypes, List.forall_mem_cons]
      refine ⟨?_, ?_⟩
      · intro method hmethod
        obtain ⟨result, hresult⟩ := exists_of_mapM_ok hmethods method hmethod
        exact body_of_patchMethod hresult
      · intro inner hinner
        obtain ⟨nested, hin, hdeeper⟩ := mem_allTypesOf.mp hinner
        obtain ⟨result, hresult⟩ := exists_of_mapM_ok hnested nested hin
        exact ih nested hin hresult inner hdeeper

/-- The types of the module keep their methods when the field is added. -/
theorem exists_methods_addMonitorField (className : String) (monitorRef : FieldDefinition)
    {top type : TypeDefinition} (h : type ∈ top.allTypes) :
    ∃ inner ∈ (addMonitorField className monitorRef top).allTypes,
      inner.methods = type.methods := by
  rw [TypeDefinition.allTypes_eq] at h
  rw [allTypes_addMonitorField]
  rcases List.mem_cons.mp h with rfl | hin
  · exact ⟨_, List.mem_cons_self, methods_addMonitorField className type⟩
  · exact ⟨type, List.mem_cons_of_mem _ hin, rfl⟩

/-- A dictionary answers like a search over its entries. -/
theorem tryGetValue_eq_findBySignature (key : Signature) :
    patches.tryGetValue (Signature.comparer stringHash) key =
      findBySignature patches.entries key := by
  rw [Dictionary.tryGetValue_eq_linearSearch]
  rfl

end Pass

section Total

variable {stringHash : String → UInt32} {importMethod : MethodDefinition → MethodReference}
  {buckets : Nat} {monitorType : TypeDefinition} {monitorTypeRef : TypeReference}
  {module patched : ModuleDefinition} {className : String} {patches : Patches}

/-- A module that could be patched has a body in every method. -/
theorem bodies_of_patchAssembly
    (h : patchAssembly stringHash importMethod buckets monitorType monitorTypeRef module
      className = .ok patched) :
    ∀ type ∈ module.allTypes, ∀ method ∈ type.methods, method.body ≠ none := by
  rw [patchAssembly] at h
  split at h
  next =>
    obtain ⟨found, -, h⟩ := exists_of_bind_ok h
    obtain ⟨newTypes, htypes, -⟩ := exists_of_bind_ok h
    rw [patchTypes_eq_mapM] at htypes
    intro type htype method hmethod
    obtain ⟨top, htop, hin⟩ := mem_allTypesOf.mp htype
    obtain ⟨inner, hinner, hmethods⟩ := exists_methods_addMonitorField className
      ⟨monitorFieldName, monitorTypeRef⟩ hin
    obtain ⟨result, hresult⟩ := exists_of_mapM_ok htypes _ (List.mem_map_of_mem htop)
    rw [← hmethods] at hmethod
    exact bodies_of_patchType hresult inner hinner method hmethod
  next => cases h

/-- A module whose methods have bodies comes out rewritten. -/
theorem patchAssembly_of_bodies
    (hclass : module.types.countP (fun type => type.fullName == className) = 1)
    (hread : ∀ type ∈ module.allTypes, ∀ method ∈ type.methods, ∀ body,
      method.body = some body → body.AsRead)
    (hpatches : methodPatches stringHash buckets monitorType = .ok patches)
    (hbodies : ∀ type ∈ module.allTypes, ∀ method ∈ type.methods, method.body ≠ none) :
    patchAssembly stringHash importMethod buckets monitorType monitorTypeRef module className =
      .ok (rewriteModule importMethod ⟨monitorFieldName, monitorTypeRef⟩ patches.entries
        className module) := by
  refine patchAssembly_eq_rewrite hclass ?_ hpatches tryGetValue_eq_findBySignature
  intro type htype method hmethod
  obtain ⟨body, hbody⟩ := Option.ne_none_iff_exists'.mp (hbodies type htype method hmethod)
  exact ⟨body, hbody, hread type htype method hmethod body hbody⟩

/-- What patching returns is the rewritten module. -/
theorem patched_eq_rewrite
    (hread : ∀ type ∈ module.allTypes, ∀ method ∈ type.methods, ∀ body,
      method.body = some body → body.AsRead)
    (hpatches : methodPatches stringHash buckets monitorType = .ok patches)
    (hpatched : patchAssembly stringHash importMethod buckets monitorType monitorTypeRef module
      className = .ok patched) :
    patched = rewriteModule importMethod ⟨monitorFieldName, monitorTypeRef⟩ patches.entries
      className module := by
  have hbodies := bodies_of_patchAssembly hpatched
  by_cases hclass : module.types.countP (fun type => type.fullName == className) = 1
  · rw [patchAssembly_of_bodies hclass hread hpatches hbodies] at hpatched
    exact (Except.ok.inj hpatched).symm
  · rw [patchAssembly, if_neg hclass] at hpatched
    cases hpatched

end Total

/-- The module with the monitor field in the snippet class and every method changed. -/
def changeMethods (className : String) (monitorRef : FieldDefinition)
    (change : MethodDefinition → MethodDefinition) (module : ModuleDefinition) :
    ModuleDefinition :=
  ⟨module.types.map (fun top => (addMonitorField className monitorRef top).mapMethods change)⟩

/-- Patching completes with some change of every method, and a method without a body
is not changed. -/
def PatchesAllButBodiless (stringHash : String → UInt32)
    (importMethod : MethodDefinition → MethodReference) (buckets : Nat)
    (monitorTypeRef : TypeReference) (className : String) (module : ModuleDefinition) : Prop :=
  ∃ change : MethodDefinition → MethodDefinition,
    patchAssembly stringHash importMethod buckets Monitor.typeDefinition monitorTypeRef module
        className =
      .ok (changeMethods className ⟨monitorFieldName, monitorTypeRef⟩ change module) ∧
    ∀ method, method.body = none → change method = method

/-- A snippet is patched if all its methods have bodies; a declaration without one, in
an interface, a delegate or an abstract class, is not left alone. -/
theorem patchAssembly_total_iff {stringHash : String → UInt32}
    {importMethod : MethodDefinition → MethodReference} {buckets : Nat}
    {monitorTypeRef : TypeReference} {className : String} {module : ModuleDefinition}
    (hclass : module.types.countP (fun type => type.fullName == className) = 1)
    (hread : ∀ type ∈ module.allTypes, ∀ method ∈ type.methods, ∀ body,
      method.body = some body → body.AsRead) :
    PatchesAllButBodiless stringHash importMethod buckets monitorTypeRef className module ↔
      ∀ type ∈ module.allTypes, ∀ method ∈ type.methods, method.body ≠ none := by
  constructor
  · rintro ⟨change, hpatched, -⟩
    exact bodies_of_patchAssembly hpatched
  · intro hbodies
    have hpatches := Monitor.methodPatches_eq stringHash buckets
    refine ⟨rewriteMethod importMethod ⟨monitorFieldName, monitorTypeRef⟩
      [(Monitor.writeLineSignature, Monitor.consoleWriteLine)],
      patchAssembly_of_bodies hclass hread hpatches hbodies, ?_⟩
    intro method hbody
    cases method with
    | mk name parameters customAttributes body =>
        cases hbody
        rfl

/-- A snippet whose class writes to the console, and so does the closure in a type nested in
a nested type of it. -/
theorem patchAssembly_total_nested :
    let main : MethodDefinition := ⟨"SnippetMain", [], [], some
      ⟨[⟨.read 0, .other 114 5⟩, ⟨.read 1, .call Monitor.writeLine⟩, ⟨.read 2, .other 42 1⟩], []⟩⟩
    let step : MethodDefinition := ⟨"Step", [], [], some ⟨[⟨.read 0, .other 42 1⟩], []⟩⟩
    let closure : TypeDefinition := .mk "Snippets.Hello/Worker/<>c" [] [main, step] []
    let worker : TypeDefinition := .mk "Snippets.Hello/Worker" [] [step] [closure]
    let module : ModuleDefinition := ⟨[.mk "Snippets.Hello" [] [main] [worker]]⟩
    PatchesAllButBodiless (fun text => UInt32.ofNat text.length) Monitor.importMethod 3
      Monitor.typeRef "Snippets.Hello" module := by
  intro main step closure worker module
  have htypes : module.allTypes = [.mk "Snippets.Hello" [] [main] [worker], worker, closure] :=
    rfl
  have hmethods : ∀ type ∈ module.allTypes, ∀ method ∈ type.methods,
      method = main ∨ method = step := by
    intro type htype method hmethod
    rw [htypes, List.mem_cons, List.mem_pair] at htype
    rcases htype with rfl | rfl | rfl
    · exact .inl (List.mem_singleton.mp hmethod)
    · exact .inr (List.mem_singleton.mp hmethod)
    · exact List.mem_pair.mp hmethod
  apply (patchAssembly_total_iff rfl ?_).mpr
  · intro type htype method hmethod
    rcases hmethods type htype method hmethod with rfl | rfl
    · exact nofun
    · exact nofun
  · intro type htype method hmethod body hbody
    rcases hmethods type htype method hmethod with rfl | rfl
    · cases hbody
      decide
    · cases hbody
      decide

/-- The snippet class with an interface beside it. -/
theorem interface_ends_patching :
    ¬ ∀ (stringHash : String → UInt32) (importMethod : MethodDefinition → MethodReference)
      (buckets : Nat) (monitorTypeRef : TypeReference) (className : String)
      (module : ModuleDefinition),
      module.types.countP (fun type => type.fullName == className) = 1 →
      (∀ type ∈ module.allTypes, ∀ method ∈ type.methods, ∀ body,
        method.body = some body → body.AsRead) →
      PatchesAllButBodiless stringHash importMethod buckets monitorTypeRef className module := by
  intro hall
  let main : MethodDefinition := ⟨"SnippetMain", [], [], some ⟨[⟨.read 0, .other 42 1⟩], []⟩⟩
  let declared : MethodDefinition := ⟨"Run", [], [], none⟩
  let hello : TypeDefinition := .mk "Snippets.Hello" [] [main] []
  let runner : TypeDefinition := .mk "Snippets.IRunner" [] [declared] []
  have hread : ∀ type ∈ ModuleDefinition.allTypes ⟨[hello, runner]⟩, ∀ method ∈ type.methods,
      ∀ body, method.body = some body → body.AsRead := by
    intro type htype method hmethod body hbody
    obtain rfl | rfl := List.mem_pair.mp htype
    · cases List.mem_singleton.mp hmethod
      cases hbody
      decide
    · cases List.mem_singleton.mp hmethod
      cases hbody
  obtain ⟨change, hpatched, -⟩ := hall (fun _ => 0) Monitor.importMethod 3 Monitor.typeRef
    "Snippets.Hello" ⟨[hello, runner]⟩ rfl hread
  have hrunner : runner ∈ ModuleDefinition.allTypes ⟨[hello, runner]⟩ :=
    List.mem_pair.mpr (Or.inr rfl)
  exact bodies_of_patchAssembly hpatched runner hrunner declared List.mem_cons_self rfl

end SnippetCompiler

end HostedPumpkin
