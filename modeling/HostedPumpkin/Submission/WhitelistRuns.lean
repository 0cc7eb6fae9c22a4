import HostedPumpkin.Submission.PatchMeaning
import HostedPumpkin.Submission.Whitelist

/-!
What the whitelist means for a run. A snippet is checked as it was compiled and runs as it
was patched. In whatever order the runtime enters its methods, and whichever exceptions
they raise, a `newobj`, `call` or `callvirt` in the methods of its top-level types names
nothing but what the list covers and the methods of the monitor.

The check looks neither into nested types nor at `jmp`, `ldftn` and `ldvirtftn`, so nothing
is said of the steps in the methods of the ones and of the methods that the others name.
-/

namespace HostedPumpkin.SnippetCompiler

open Execution

section Runs

variable {V L X W : Type} {rt : Runtime V L X W} {methods : List MethodDefinition}

/-- The method whose instruction the next step executes, and the instruction. -/
def executing (c : Config V L X W) : Option (Nat × Instruction) :=
  match c.raised, c.frames with
  | none, frame :: _ => frame.rest.head?.map (fun i => (frame.method, i))
  | _, _ => none

/-- What a run executes in a method is in the body of the method. -/
theorem inMethod_of_executing {method n index : Nat} {body : MethodBody} {arguments : List V}
    {world : W} {c : Config V L X W} {i : Instruction}
    (hmethod : bodyOf methods method = some body)
    (hrun : Machine.advance (step rt methods) n (start rt methods method arguments world) = .inl c)
    (hnext : executing c = some (index, i)) : InMethod methods index i := by
  have hplaced := advance_placed (start_placed hmethod arguments world) hrun
  obtain ⟨frames, world, raised⟩ := c
  cases raised with
  | some exception => cases hnext
  | none =>
      cases frames with
      | nil => cases hnext
      | cons frame callers =>
          obtain ⟨found, hfirst, hpair⟩ := Option.map_eq_some_iff.mp hnext
          cases hpair
          obtain ⟨body, hbody, hsuffix, -⟩ := hplaced frame List.mem_cons_self
          exact ⟨body, hbody, hsuffix.subset (List.mem_of_head? hfirst)⟩

end Runs

/-- The bodies are as they were read, and the branches of the patched bodies are written to
the instructions they name. -/
structure WrittenAsNamed (module patched : ModuleDefinition) : Prop where
  read : ∀ type ∈ module.allTypes, ∀ method ∈ type.methods, ∀ body,
    method.body = some body → body.AsRead
  written : ∀ type ∈ patched.allTypes, ∀ method ∈ type.methods, ∀ body,
    method.body = some body → body.WellFormed ∧ ShortBranchesSurvive body.instructions

/-- A method of a top-level type. -/
def OfTopLevel (module : ModuleDefinition) (method : Nat) : Prop :=
  ∃ type ∈ module.types, ∃ definition ∈ type.methods,
    (methodsOf module)[method]? = some definition

/-- The instruction is no `calli`, and a method that a `newobj`, `call` or `callvirt` names
is one of these or one of another assembly that the list covers. -/
def CallsOnly (whiteList : List ListEntry) (others : List MethodReference)
    (i : Instruction) : Prop :=
  i.code ≠ .calli ∧ ∀ callee, i.code.invoked = some callee → callee ∈ others ∨
    ∃ assembly, callee.declaringType.scope = .assemblyNameReference assembly ∧
      ListEntry.matchesList whiteList assembly callee.declaringType.fullName callee.name = true

variable {whiteList : List ListEntry}

theorem callsOnly_of_checkInstruction {i : Instruction}
    (h : checkInstruction whiteList i = .ok true) (others : List MethodReference) :
    CallsOnly whiteList others i := by
  have hlisted := listed_of_checkInstruction h
  constructor
  · intro hcode
    simp [checkInstruction, hcode] at h
  · intro callee hinvoked
    right
    have houtside : callee.declaringType.scope ≠ .moduleDefinition := by
      intro hown
      obtain ⟨ref, code⟩ := i
      cases code with
      | newobj operand | call operand | callvirt operand =>
          cases hinvoked
          simp [checkInstruction, declaringTypeAssembly, hown] at h
      | calli | branch | switch | ldsfld | other => cases hinvoked
    obtain ⟨assembly, hscope, hentry⟩ := hlisted callee hinvoked houtside
    exact ⟨assembly, hscope, ListEntry.matchesList_iff.mpr hentry⟩

/-- Every instruction of the methods of the top-level types has passed the check. -/
theorem checkInstruction_of_check {module : ModuleDefinition}
    (h : checkAssemblyAgainstWhitelist module whiteList = .ok true) {type : TypeDefinition}
    (htype : type ∈ module.types) {method : MethodDefinition} (hmethod : method ∈ type.methods)
    {body : MethodBody} (hbody : method.body = some body) {i : Instruction}
    (hi : i ∈ body.instructions) : checkInstruction whiteList i = .ok true := by
  rw [checkAssemblyAgainstWhitelist] at h
  split at h
  next =>
    have hcheck := allM_ok_true.mp (allM_ok_true.mp h type htype) method hmethod
    simp only [checkMethod, hbody] at hcheck
    exact allM_ok_true.mp hcheck i hi
  next => cases h

/-- Patching adds the load of the monitor and calls of patch methods, and nothing else. -/
theorem callsOnly_of_rewrite {importMethod : MethodDefinition → MethodReference}
    {monitorRef : FieldDefinition} {pairs : List (Signature × MethodDefinition)}
    {i j : Instruction} (h : checkInstruction whiteList i = .ok true)
    (hj : j ∈ rewriteInstruction importMethod monitorRef pairs i) :
    CallsOnly whiteList (pairs.map (fun entry => importMethod entry.2)) j := by
  cases hfor : patchFor pairs i with
  | none =>
      rw [rewriteInstruction_none hfor, List.mem_singleton] at hj
      rw [hj]
      exact callsOnly_of_checkInstruction h _
  | some newMethod =>
      obtain ⟨called, -, hfound⟩ := Option.bind_eq_some_iff.mp hfor
      obtain ⟨entry, hentry, rfl⟩ := Option.map_eq_some_iff.mp hfound
      have hmember := List.mem_of_find?_eq_some hentry
      simp only [rewriteInstruction, hfor, List.mem_cons, List.not_mem_nil, or_false] at hj
      rcases hj with rfl | rfl
      · refine ⟨by simp, ?_⟩
        intro callee hinvoked
        cases hinvoked
      · refine ⟨by simp, ?_⟩
        intro callee hinvoked
        cases hinvoked
        exact .inl (List.mem_map_of_mem hmember)

/-- In every run of a method of a snippet that passed the check and was then patched, what
is executed in the methods of its top-level types calls and creates nothing but what the
list covers and the patch methods. -/
theorem whitelisted_run {V L X W : Type} {stringHash : String → UInt32}
    {importMethod : MethodDefinition → MethodReference} {buckets : Nat}
    {monitorType : TypeDefinition} {monitorTypeRef : TypeReference} {className : String}
    {module patched : ModuleDefinition} {patches : Patches}
    (hlisted : checkAssemblyAgainstWhitelist module whiteList = .ok true)
    (hwritten : WrittenAsNamed module patched)
    (hpatches : methodPatches stringHash buckets monitorType = .ok patches)
    (hpatched : patchAssembly stringHash importMethod buckets monitorType monitorTypeRef module
      className = .ok patched)
    (rt : Runtime V L X W) {method : Nat} {body : MethodBody}
    (hmethod : bodyOf (methodsOf patched) method = some body) (arguments : List V) (world : W)
    {n index : Nat} {c : Config V L X W} {i : Instruction}
    (hrun : Machine.advance (step rt (methodsOf patched)) n
      (start rt (methodsOf patched) method arguments world) = .inl c)
    (hnext : executing c = some (index, i)) (htop : OfTopLevel patched index) :
    CallsOnly whiteList (patches.entries.map (fun entry => importMethod entry.2)) i := by
  obtain ⟨found, hfound, hi⟩ := inMethod_of_executing hmethod hrun hnext
  obtain ⟨type', htype', definition, hdefinition, hindex⟩ := htop
  rw [patched_eq_rewrite hwritten.read hpatches hpatched] at htype'
  obtain ⟨type, htype, rfl⟩ := List.mem_map.mp htype'
  rw [TypeDefinition.methods_mapMethods, methods_addMonitorField] at hdefinition
  obtain ⟨old, hold, rfl⟩ := List.mem_map.mp hdefinition
  rw [bodyOf, hindex] at hfound
  obtain ⟨oldBody, holdBody, rfl⟩ := Option.map_eq_some_iff.mp hfound
  obtain ⟨original, horiginal, hin⟩ := List.mem_flatMap.mp hi
  exact callsOnly_of_rewrite
    (checkInstruction_of_check hlisted htype hold holdBody horiginal) hin

theorem writtenAsNamed_greeting : WrittenAsNamed greetingModule patchedGreeting := by
  refine ⟨forall_greeting (by decide), ?_⟩
  intro type htype method hmethod body hbody
  rw [List.mem_singleton.mp htype] at hmethod
  rw [List.mem_singleton.mp hmethod] at hbody
  cases hbody
  exact ⟨by decide, patchableBody_greeting.branches⟩

/-- The greeting has loaded the monitor and is about to call the patch method. -/
theorem whitelisted_run_greeting :
    CallsOnly [⟨some "mscorlib", some "System.Console", none⟩]
      [Monitor.importMethod Monitor.consoleWriteLine]
      ⟨.patchedCall (.read 3), .call (Monitor.importMethod Monitor.consoleWriteLine)⟩ := by
  have hrun : Machine.advance (step (withMonitor Monitor.importMethod
      ⟨monitorFieldName, Monitor.typeRef⟩ "monitor" greetingRuntime) (methodsOf patchedGreeting)) 4
      (start (withMonitor Monitor.importMethod ⟨monitorFieldName, Monitor.typeRef⟩ "monitor"
        greetingRuntime) (methodsOf patchedGreeting) 0 ["argument"] ((), [], [])) = .inl _ := rfl
  exact whitelisted_run (by decide) writtenAsNamed_greeting (Monitor.methodPatches_eq _ 3)
    patchAssembly_greeting _ rfl ["argument"] ((), [], []) hrun rfl
    ⟨_, List.mem_cons_self, _, List.mem_cons_self, rfl⟩

end HostedPumpkin.SnippetCompiler
