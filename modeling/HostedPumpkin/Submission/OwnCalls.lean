import HostedPumpkin.Submission.PatchingTotal

/-!
Which calls patching takes for calls of the patched framework type. A call is looked up
under the simple name of the declaring type, the method's name and the full names of the
parameter types, so a method of another type with these names is replaced as well. The
type the patch method was written for is a parameter.
-/

namespace HostedPumpkin

namespace SnippetCompiler

section Changes

variable {f g : MethodDefinition → MethodDefinition}

/-- Equal results of two changes are equal method by method. -/
theorem eq_of_mapMethods_eq {type : TypeDefinition} (h : type.mapMethods f = type.mapMethods g) :
    ∀ inner ∈ type.allTypes, ∀ method ∈ inner.methods, f method = g method := by
  induction type using TypeDefinition.induction with
  | hmk fullName fields methods nestedTypes ih =>
      simp only [TypeDefinition.mapMethods, TypeDefinition.mk.injEq, true_and,
        mapMethodsOf_eq_map] at h
      obtain ⟨hmethods, hnested⟩ := h
      rw [TypeDefinition.allTypes, List.forall_mem_cons]
      refine ⟨List.map_inj_left.mp hmethods, ?_⟩
      intro inner hinner
      obtain ⟨nested, hin, hdeeper⟩ := mem_allTypesOf.mp hinner
      exact ih nested hin (List.map_inj_left.mp hnested nested hin) inner hdeeper

theorem eq_of_changeMethods_eq {className : String} {monitorRef : FieldDefinition}
    {module : ModuleDefinition}
    (h : changeMethods className monitorRef f module =
      changeMethods className monitorRef g module) :
    ∀ type ∈ module.allTypes, ∀ method ∈ type.methods, f method = g method := by
  intro type htype method hmethod
  obtain ⟨top, htop, hin⟩ := mem_allTypesOf.mp htype
  obtain ⟨inner, hinner, hmethods⟩ := exists_methods_addMonitorField className monitorRef hin
  have htops := List.map_inj_left.mp (ModuleDefinition.mk.inj h) top htop
  rw [← hmethods] at hmethod
  exact eq_of_mapMethods_eq htops inner hinner method hmethod

end Changes

section Keeping

variable {importMethod : MethodDefinition → MethodReference} {monitorRef : FieldDefinition}
  {pairs : List (Signature × MethodDefinition)}

/-- An instruction that was read is still in its body if no patch was found for it. -/
theorem mem_rewriteBody_iff {body : MethodBody} (hread : body.AsRead) {i : Instruction}
    (hi : i ∈ body.instructions) :
    i ∈ (rewriteBody importMethod monitorRef pairs body).instructions ↔
      patchFor pairs i = none := by
  constructor
  · intro hin
    obtain ⟨original, -, hrewritten⟩ := List.mem_flatMap.mp hin
    obtain ⟨index, hindex⟩ := hread.read i hi
    cases hfor : patchFor pairs original with
    | none =>
        rw [rewriteInstruction, hfor, List.mem_singleton] at hrewritten
        rw [hrewritten]
        exact hfor
    | some newMethod =>
        -- the two instructions put in its place were never read
        rw [rewriteInstruction, hfor, List.mem_pair] at hrewritten
        obtain rfl | rfl := hrewritten
        · cases hindex
        · cases hindex
  · intro hnone
    apply List.mem_flatMap.mpr
    refine ⟨i, hi, ?_⟩
    rw [rewriteInstruction, hnone]
    exact List.mem_singleton_self i

end Keeping

/-- A method that goes by the names of `Console.WriteLine(string)`. -/
def GoesByWriteLine (called : MethodReference) : Prop :=
  called.declaringType.name = "Console" ∧ called.name = "WriteLine" ∧ called.hasThis = false ∧
    called.parameters.map (fun parameter => parameter.parameterType.fullName) = ["System.String"]

theorem findBySignature_writeLine_iff (called : MethodReference) :
    findBySignature [(Monitor.writeLineSignature, Monitor.consoleWriteLine)]
        (callSignature called) = none ↔ ¬ GoesByWriteLine called := by
  have hequals : Monitor.writeLineSignature.equals (callSignature called) = true ↔
      GoesByWriteLine called := by
    have hthis : (true = !called.hasThis) ↔ called.hasThis = false := by
      cases called.hasThis <;> simp
    rw [Signature.equals_iff]
    simp only [Signature.shape, Monitor.writeLineSignature, Monitor.stringParameter,
      callSignature, GoesByWriteLine, Prod.mk.injEq, List.map_cons, List.map_nil, hthis]
    constructor
    · rintro ⟨hclass, hmethod, hstatic, hparameters⟩
      exact ⟨hclass.symm, hmethod.symm, hstatic, hparameters.symm⟩
    · rintro ⟨hclass, hmethod, hstatic, hparameters⟩
      exact ⟨hclass.symm, hmethod.symm, hstatic, hparameters.symm⟩
  rw [← hequals, findBySignature]
  cases hkey : Monitor.writeLineSignature.equals (callSignature called) <;> simp [hkey]

/-- Something holds of every call in the methods of a module. -/
def ForEveryCall (module : ModuleDefinition)
    (P : MethodDefinition → Instruction → MethodReference → Prop) : Prop :=
  ∀ type ∈ module.allTypes, ∀ method ∈ type.methods, ∀ body, method.body = some body →
    ∀ i ∈ body.instructions, ∀ called, calledMethod i.code = some called → P method i called

/-- In the patched module the calls of methods of other types are where they were. -/
def KeepsOtherCalls (framework : TypeReference → Prop) (className : String)
    (monitorRef : FieldDefinition) (module patched : ModuleDefinition) : Prop :=
  ∃ change, patched = changeMethods className monitorRef change module ∧
    ForEveryCall module (fun method i called => ¬ framework called.declaringType →
      ∃ body, (change method).body = some body ∧ i ∈ body.instructions)

/-- Patching keeps the calls of other types if none of the methods they call goes by
the names of `Console.WriteLine(string)`. -/
theorem otherCalls_kept_iff (framework : TypeReference → Prop) {stringHash : String → UInt32}
    {importMethod : MethodDefinition → MethodReference} {buckets : Nat}
    {monitorTypeRef : TypeReference} {className : String} {module patched : ModuleDefinition}
    (hread : ∀ type ∈ module.allTypes, ∀ method ∈ type.methods, ∀ body,
      method.body = some body → body.AsRead)
    (hpatched : patchAssembly stringHash importMethod buckets Monitor.typeDefinition
      monitorTypeRef module className = .ok patched) :
    KeepsOtherCalls framework className ⟨monitorFieldName, monitorTypeRef⟩ module patched ↔
      ForEveryCall module (fun _ _ called => ¬ framework called.declaringType →
        ¬ GoesByWriteLine called) := by
  have hrewrite := patched_eq_rewrite hread (Monitor.methodPatches_eq stringHash buckets) hpatched
  have hfor : ∀ i called, calledMethod i.code = some called →
      (patchFor [(Monitor.writeLineSignature, Monitor.consoleWriteLine)] i = none ↔
        ¬ GoesByWriteLine called) := by
    intro i called hcalled
    rw [patchFor, hcalled, Option.bind_some]
    exact findBySignature_writeLine_iff called
  constructor
  · rintro ⟨change, hchange, hkept⟩ type htype method hmethod body hbody i hi called hcalled hother
    have hsame := eq_of_changeMethods_eq (hchange.symm.trans hrewrite) type htype method hmethod
    obtain ⟨newBody, hnewBody, hin⟩ :=
      hkept type htype method hmethod body hbody i hi called hcalled hother
    rw [hsame, rewriteMethod, hbody] at hnewBody
    cases hnewBody
    have hbodyRead := hread type htype method hmethod body hbody
    exact (hfor i called hcalled).mp ((mem_rewriteBody_iff hbodyRead hi).mp hin)
  · intro hnames
    refine ⟨_, hrewrite, ?_⟩
    intro type htype method hmethod body hbody i hi called hcalled hother
    have hbodyRead := hread type htype method hmethod body hbody
    have hnone := (hfor i called hcalled).mpr
      (hnames type htype method hmethod body hbody i hi called hcalled hother)
    have hin : i ∈ (rewriteBody importMethod ⟨monitorFieldName, monitorTypeRef⟩
        [(Monitor.writeLineSignature, Monitor.consoleWriteLine)] body).instructions :=
      (mem_rewriteBody_iff hbodyRead hi).mpr hnone
    refine ⟨_, ?_, hin⟩
    rw [rewriteMethod, hbody]
    rfl

/-- The type that `Monitor.Console_WriteLine` was written for. -/
def IsConsole (type : TypeReference) : Prop := type = Monitor.writeLine.declaringType

instance : DecidablePred IsConsole :=
  fun type => inferInstanceAs (Decidable (type = Monitor.writeLine.declaringType))

/-- A snippet with a `Logger.WriteLine(string)` of its own. -/
theorem otherCalls_kept_logger :
    let writeLine : MethodReference :=
      ⟨⟨.moduleDefinition, "Snippets.Logger", "Logger"⟩, "WriteLine", false,
        [Monitor.stringParameter]⟩
    let main : MethodDefinition :=
      ⟨"SnippetMain", [], [], some ⟨[⟨.read 0, .call writeLine⟩], []⟩⟩
    let module : ModuleDefinition := ⟨[.mk "Snippets.Hello" [] [main] []]⟩
    ∃ patched, patchAssembly (fun _ => 0) Monitor.importMethod 3 Monitor.typeDefinition
        Monitor.typeRef module "Snippets.Hello" = .ok patched ∧
      KeepsOtherCalls IsConsole "Snippets.Hello" ⟨monitorFieldName, Monitor.typeRef⟩ module
        patched := by
  intro writeLine main module
  have hread : ∀ type ∈ module.allTypes, ∀ method ∈ type.methods, ∀ body,
      method.body = some body → body.AsRead := by
    intro type htype method hmethod body hbody
    cases List.mem_singleton.mp htype
    cases List.mem_singleton.mp hmethod
    cases hbody
    decide
  have hbodies : ∀ type ∈ module.allTypes, ∀ method ∈ type.methods, method.body ≠ none := by
    intro type htype method hmethod
    cases List.mem_singleton.mp htype
    cases List.mem_singleton.mp hmethod
    exact nofun
  have hpatched : patchAssembly (fun _ => 0) Monitor.importMethod 3 Monitor.typeDefinition
      Monitor.typeRef module "Snippets.Hello" = .ok ⟨[.mk "Snippets.Hello"
        [⟨monitorFieldName, Monitor.typeRef⟩] [main] []]⟩ :=
    patchAssembly_of_bodies rfl hread (Monitor.methodPatches_eq (fun _ => 0) 3) hbodies
  refine ⟨_, hpatched, (otherCalls_kept_iff IsConsole hread hpatched).mpr ?_⟩
  intro type htype method hmethod body hbody i hi called hcalled _ hnames
  cases List.mem_singleton.mp htype
  cases List.mem_singleton.mp hmethod
  cases hbody
  cases List.mem_singleton.mp hi
  cases hcalled
  exact absurd hnames.1 (by decide)

/-- A call of the snippet's own `Console.WriteLine(string)` is replaced. -/
theorem own_console_call_replaced :
    ¬ ∀ (stringHash : String → UInt32) (importMethod : MethodDefinition → MethodReference)
      (buckets : Nat) (monitorTypeRef : TypeReference) (className : String)
      (module patched : ModuleDefinition),
      (∀ type ∈ module.allTypes, ∀ method ∈ type.methods, ∀ body,
        method.body = some body → body.AsRead) →
      patchAssembly stringHash importMethod buckets Monitor.typeDefinition monitorTypeRef
        module className = .ok patched →
      KeepsOtherCalls IsConsole className ⟨monitorFieldName, monitorTypeRef⟩ module
        patched := by
  intro hall
  let writeLine : MethodReference :=
    ⟨⟨.moduleDefinition, "Snippets.Console", "Console"⟩, "WriteLine", false,
      [Monitor.stringParameter]⟩
  let i : Instruction := ⟨.read 0, .call writeLine⟩
  let main : MethodDefinition := ⟨"SnippetMain", [], [], some ⟨[i], []⟩⟩
  let own : MethodDefinition :=
    ⟨"WriteLine", [Monitor.stringParameter], [], some ⟨[⟨.read 0, .other 42 1⟩], []⟩⟩
  let hello : TypeDefinition := .mk "Snippets.Hello" [] [main] []
  let console : TypeDefinition := .mk "Snippets.Console" [] [own] []
  let patchedMain : MethodDefinition := ⟨"SnippetMain", [], [], some
    ⟨[⟨.monitorLoad (.read 0), .ldsfld ⟨monitorFieldName, Monitor.typeRef⟩⟩,
      ⟨.patchedCall (.read 0), .call (Monitor.importMethod Monitor.consoleWriteLine)⟩], []⟩⟩
  have hread : ∀ type ∈ ModuleDefinition.allTypes ⟨[hello, console]⟩, ∀ method ∈ type.methods,
      ∀ body, method.body = some body → body.AsRead := by
    intro type htype method hmethod body hbody
    obtain rfl | rfl := List.mem_pair.mp htype
    · cases List.mem_singleton.mp hmethod
      cases hbody
      decide
    · cases List.mem_singleton.mp hmethod
      cases hbody
      decide
  have hbodies : ∀ type ∈ ModuleDefinition.allTypes ⟨[hello, console]⟩,
      ∀ method ∈ type.methods, method.body ≠ none := by
    intro type htype method hmethod
    obtain rfl | rfl := List.mem_pair.mp htype
    · cases List.mem_singleton.mp hmethod
      exact nofun
    · cases List.mem_singleton.mp hmethod
      exact nofun
  have hpatched : patchAssembly (fun _ => 0) Monitor.importMethod 3 Monitor.typeDefinition
      Monitor.typeRef ⟨[hello, console]⟩ "Snippets.Hello" = .ok ⟨[.mk "Snippets.Hello"
        [⟨monitorFieldName, Monitor.typeRef⟩] [patchedMain] [], console]⟩ :=
    patchAssembly_of_bodies rfl hread (Monitor.methodPatches_eq (fun _ => 0) 3) hbodies
  obtain ⟨change, hchange, hkept⟩ := hall (fun _ => 0) Monitor.importMethod 3 Monitor.typeRef
    "Snippets.Hello" ⟨[hello, console]⟩ _ hread hpatched
  have hmain : change main = patchedMain := by
    have htypes := (List.cons.inj (ModuleDefinition.mk.inj hchange)).1
    have hmethods := congrArg TypeDefinition.methods htypes
    exact (List.cons.inj hmethods).1.symm
  obtain ⟨body, hbody, hin⟩ := hkept hello List.mem_cons_self main List.mem_cons_self _ rfl i
    List.mem_cons_self writeLine rfl (by decide)
  rw [hmain] at hbody
  cases hbody
  revert hin
  decide

end SnippetCompiler

end HostedPumpkin
