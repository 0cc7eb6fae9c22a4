import HostedPumpkin.Submission.Patching

/-!
What patching comes to: every patchable call becomes a load of the monitor and
a call of its patch, every other instruction stays, and this in every method at
every nesting depth. `PatchMethod` collects the calls first and edits the list
afterwards, so a patch method is called where it was inserted even if its own
signature is one to patch.
-/

namespace HostedPumpkin.SnippetCompiler

open Dictionary

section Pass

variable {stringHash : String → UInt32} {importMethod : MethodDefinition → MethodReference}
  {monitorRef : FieldDefinition} {patches : Patches}

/-- New instructions are new objects. -/
theorem fresh_of_asRead {body : MethodBody} (h : body.AsRead) :
    KeyedEdits.Fresh Instruction.ref (createMonitorLoad monitorRef)
      (createPatchedCall importMethod) body.instructions := by
  refine ⟨h.distinct, ?_, ?_, ?_, ?_⟩
  · intro a _ _ b hb heq
    obtain ⟨index, hindex⟩ := h.read b hb
    rw [hindex] at heq
    cases heq
  · intro a _ _ b hb heq
    obtain ⟨index, hindex⟩ := h.read b hb
    rw [hindex] at heq
    cases heq
  · intro a _ _ b _ _ heq
    cases heq
  · intro a _ _ b _ _ heq
    exact InstructionRef.patchedCall.inj heq

/-- The patched instruction list as a single walk. -/
def patchedInstructions (stringHash : String → UInt32)
    (importMethod : MethodDefinition → MethodReference) (monitorRef : FieldDefinition)
    (patches : Patches) (instructions : List Instruction) : List Instruction :=
  instructions.flatMap (KeyedEdits.expand (findPatch stringHash patches)
    (createMonitorLoad monitorRef) (createPatchedCall importMethod))

/-- `PatchMethod` edits the list of a body that was read and nothing else. -/
theorem patchMethod_ok {method : MethodDefinition} {body : MethodBody}
    (hbody : method.body = some body) (hread : body.AsRead) :
    patchMethod stringHash importMethod monitorRef patches method =
      .ok { method with body := some { body with
        instructions :=
          patchedInstructions stringHash importMethod monitorRef patches body.instructions } } := by
  have hpass : (KeyedEdits.collect (findPatch stringHash patches) body.instructions).foldlM
      (patchCall importMethod monitorRef) body.instructions =
        some (patchedInstructions stringHash importMethod monitorRef patches
          body.instructions) :=
    KeyedEdits.pass_eq_flatMap (fresh_of_asRead hread)
  rw [KeyedEdits.collect] at hpass
  simp only [patchMethod, hbody, hpass]

theorem mapM_ok {α β : Type*} {f : α → Except CompilerFault β} {g : α → β} {l : List α}
    (h : ∀ a ∈ l, f a = .ok (g a)) : l.mapM f = .ok (l.map g) := by
  induction l with
  | nil => rfl
  | cons a rest ih =>
      have hrest := ih (fun b hb => h b (List.mem_cons_of_mem a hb))
      rw [List.mapM_cons, h a List.mem_cons_self, hrest]
      rfl

/-- A step after another one was reached, and with its result. -/
theorem exists_of_bind_ok {α β : Type} {x : Except CompilerFault α}
    {f : α → Except CompilerFault β} {result : β} (h : x >>= f = .ok result) :
    ∃ a, x = .ok a ∧ f a = .ok result := by
  cases x with
  | error fault => cases h
  | ok a => exact ⟨a, rfl, h⟩

theorem exists_of_mapM_ok {α β : Type} {f : α → Except CompilerFault β} {l : List α}
    {results : List β} (h : l.mapM f = .ok results) : ∀ a ∈ l, ∃ result, f a = .ok result := by
  induction l generalizing results with
  | nil => simp
  | cons a rest ih =>
      rw [List.mapM_cons] at h
      obtain ⟨result, hfirst, h⟩ := exists_of_bind_ok h
      obtain ⟨others, hrest, -⟩ := exists_of_bind_ok h
      rw [List.forall_mem_cons]
      exact ⟨⟨result, hfirst⟩, ih hrest⟩

theorem patchTypes_eq_mapM (types : List TypeDefinition) :
    patchTypes stringHash importMethod monitorRef patches types =
      types.mapM (patchType stringHash importMethod monitorRef patches) := by
  induction types with
  | nil => rfl
  | cons top rest ih => rw [patchTypes, ih, List.mapM_cons]

/-- If every method of a type and of its nested types is patched to some
method, so is the type. -/
theorem patchType_ok {f : MethodDefinition → MethodDefinition} {type : TypeDefinition}
    (h : ∀ inner ∈ type.allTypes, ∀ method ∈ inner.methods,
      patchMethod stringHash importMethod monitorRef patches method = .ok (f method)) :
    patchType stringHash importMethod monitorRef patches type = .ok (type.mapMethods f) := by
  induction type using TypeDefinition.induction with
  | hmk fullName fields methods nestedTypes ih =>
      rw [TypeDefinition.allTypes] at h
      have hmethods : methods.mapM (patchMethod stringHash importMethod monitorRef patches) =
          .ok (methods.map f) :=
        mapM_ok (fun method hmethod => h _ List.mem_cons_self method hmethod)
      have hnested : patchTypes stringHash importMethod monitorRef patches nestedTypes =
          .ok (mapMethodsOf f nestedTypes) := by
        rw [patchTypes_eq_mapM, mapMethodsOf_eq_map]
        apply mapM_ok
        intro nested hin
        apply ih nested hin
        intro inner hinner
        exact h inner (List.mem_cons_of_mem _ (mem_allTypesOf.mpr ⟨nested, hin, hinner⟩))
      rw [patchType, hmethods, hnested, TypeDefinition.mapMethods]
      rfl

end Pass

section Signatures

variable {stringHash : String → UInt32}

/-- `MethodPatches` adds the pairs one after the other. -/
theorem methodPatchesLoop_eq {methods : List MethodDefinition}
    {pairs : List (Signature × MethodDefinition)} {patches : Patches}
    (h : patchPairs methods = .ok pairs) :
    methodPatchesLoop stringHash patches methods =
      match patches.addAll (Signature.comparer stringHash) pairs with
      | none => .error .argumentException
      | some patches => .ok patches := by
  induction methods generalizing pairs patches with
  | nil =>
      cases h
      rfl
  | cons method rest ih =>
      rw [patchPairs] at h
      obtain ⟨found, hsignature, h⟩ := exists_of_bind_ok h
      rw [methodPatchesLoop, hsignature]
      cases found with
      | none => exact ih h
      | some signature =>
          obtain ⟨others, hrest, h⟩ := exists_of_bind_ok h
          cases h
          simp only [bind, Except.bind, addAll, List.foldlM_cons]
          cases hadd : patches.add (Signature.comparer stringHash) signature method with
          | none => rfl
          | some added => exact ih hrest

/-- With pairwise different signatures the dictionary is a linear search. -/
theorem methodPatches_ok {buckets : Nat} {monitorType : TypeDefinition}
    {pairs : List (Signature × MethodDefinition)}
    (hpairs : patchPairs monitorType.methods = .ok pairs)
    (hdistinct : Distinct (Signature.comparer stringHash) pairs) :
    ∃ patches, methodPatches stringHash buckets monitorType = .ok patches ∧
      ∀ key, patches.tryGetValue (Signature.comparer stringHash) key =
        linearSearch (Signature.comparer stringHash) pairs key := by
  have hadd : (Dictionary.empty buckets).addAll (Signature.comparer stringHash) pairs =
      some ⟨buckets, pairs.reverse ++ []⟩ := addAll_of_distinct (by simpa [Dictionary.empty])
  refine ⟨_, ?_, tryGetValue_addAll hdistinct hadd⟩
  rw [methodPatches, methodPatchesLoop_eq hpairs, hadd]

end Signatures

section Rewriting

variable (importMethod : MethodDefinition → MethodReference) (monitorRef : FieldDefinition)
  (pairs : List (Signature × MethodDefinition))

/-- The first patch method with an equal signature. -/
def findBySignature (key : Signature) : Option MethodDefinition :=
  (pairs.find? (fun entry => entry.1.equals key)).map Prod.snd

/-- The patch method for an instruction. -/
def patchFor (i : Instruction) : Option MethodDefinition :=
  (calledMethod i.code).bind (fun method => findBySignature pairs (callSignature method))

/-- A patchable call becomes `ldsfld __monitor; call patch`. -/
def rewriteInstruction (i : Instruction) : List Instruction :=
  match patchFor pairs i with
  | some newMethod =>
      [⟨.monitorLoad i.ref, .ldsfld monitorRef⟩,
        ⟨.patchedCall i.ref, .call (importMethod newMethod)⟩]
  | none => [i]

def rewriteBody (body : MethodBody) : MethodBody :=
  { body with
    instructions := body.instructions.flatMap
      (rewriteInstruction importMethod monitorRef pairs) }

def rewriteMethod (method : MethodDefinition) : MethodDefinition :=
  { method with body := method.body.map (rewriteBody importMethod monitorRef pairs) }

def rewriteModule (className : String) (module : ModuleDefinition) : ModuleDefinition :=
  ⟨module.types.map (fun top => (addMonitorField className monitorRef top).mapMethods
    (rewriteMethod importMethod monitorRef pairs))⟩

variable {importMethod monitorRef pairs} {stringHash : String → UInt32} {patches : Patches}

/-- A dictionary that answers like a search makes the pass the rewriting. -/
theorem patchMethod_eq_rewrite {method : MethodDefinition} {body : MethodBody}
    (hsearch : ∀ key, patches.tryGetValue (Signature.comparer stringHash) key =
      findBySignature pairs key)
    (hbody : method.body = some body) (hread : body.AsRead) :
    patchMethod stringHash importMethod monitorRef patches method =
      .ok (rewriteMethod importMethod monitorRef pairs method) := by
  have hfind : findPatch stringHash patches = patchFor pairs := by
    funext i
    simp only [findPatch, patchFor, hsearch]
  have hexpand : KeyedEdits.expand (patchFor pairs) (createMonitorLoad monitorRef)
      (createPatchedCall importMethod) = rewriteInstruction importMethod monitorRef pairs := by
    funext i
    cases hfor : patchFor pairs i with
    | none => simp only [KeyedEdits.expand, rewriteInstruction, hfor]
    | some newMethod =>
        simp only [KeyedEdits.expand, rewriteInstruction, hfor, createMonitorLoad,
          createPatchedCall]
  rw [patchMethod_ok hbody hread, patchedInstructions, hfind, hexpand, rewriteMethod, hbody]
  rfl

theorem methods_addMonitorField (className : String) (type : TypeDefinition) :
    (addMonitorField className monitorRef type).methods = type.methods := by
  cases type with
  | mk fullName fields methods nestedTypes => rfl

/-- The new field changes no nested type. -/
theorem allTypes_addMonitorField (className : String) (type : TypeDefinition) :
    (addMonitorField className monitorRef type).allTypes =
      addMonitorField className monitorRef type :: allTypesOf type.nestedTypes := by
  cases type with
  | mk fullName fields methods nestedTypes => rw [TypeDefinition.allTypes_eq]; rfl

/-- The types with the new field have the methods of the types of the module. -/
theorem exists_methods_eq {className : String} {top inner : TypeDefinition}
    (h : inner ∈ (addMonitorField className monitorRef top).allTypes) :
    ∃ type ∈ top.allTypes, inner.methods = type.methods := by
  rw [allTypes_addMonitorField] at h
  rw [TypeDefinition.allTypes_eq]
  rcases List.mem_cons.mp h with rfl | hin
  · exact ⟨top, List.mem_cons_self, methods_addMonitorField className top⟩
  · exact ⟨inner, List.mem_cons_of_mem top hin, rfl⟩

/-- Every method of a rewritten module is a method of the module, rewritten. -/
theorem exists_of_mem_rewriteModule {className : String} {module : ModuleDefinition}
    {type : TypeDefinition} {method : MethodDefinition}
    (htype : type ∈ (rewriteModule importMethod monitorRef pairs className module).allTypes)
    (hmethod : method ∈ type.methods) :
    ∃ original ∈ module.allTypes, ∃ old ∈ original.methods,
      method = rewriteMethod importMethod monitorRef pairs old := by
  obtain ⟨top', htop', hin⟩ := mem_allTypesOf.mp htype
  obtain ⟨top, htop, rfl⟩ := List.mem_map.mp htop'
  rw [TypeDefinition.allTypes_mapMethods] at hin
  obtain ⟨inner, hinner, rfl⟩ := List.mem_map.mp hin
  obtain ⟨original, horiginal, hmethods⟩ := exists_methods_eq hinner
  rw [TypeDefinition.methods_mapMethods, hmethods] at hmethod
  obtain ⟨old, hold, rfl⟩ := List.mem_map.mp hmethod
  exact ⟨original, mem_allTypesOf.mpr ⟨top, htop, horiginal⟩, old, hold, rfl⟩

/-- An instruction of a rewritten list that could be patched is an inserted
call: what stays has no patch. -/
theorem patchable_of_mem_rewrite {instructions : List Instruction} {i : Instruction}
    (hi : i ∈ instructions.flatMap (rewriteInstruction importMethod monitorRef pairs))
    (hpatch : (patchFor pairs i).isSome) :
    ∃ replaced ∈ instructions, ∃ newMethod, patchFor pairs replaced = some newMethod ∧
      i = ⟨.patchedCall replaced.ref, .call (importMethod newMethod)⟩ := by
  obtain ⟨replaced, hreplaced, hin⟩ := List.mem_flatMap.mp hi
  refine ⟨replaced, hreplaced, ?_⟩
  cases hfor : patchFor pairs replaced with
  | none =>
      simp only [rewriteInstruction, hfor, List.mem_singleton] at hin
      subst hin
      rw [hfor] at hpatch
      cases hpatch
  | some newMethod =>
      simp only [rewriteInstruction, hfor, List.mem_cons, List.not_mem_nil, or_false] at hin
      refine ⟨newMethod, rfl, ?_⟩
      rcases hin with rfl | rfl
      · cases hpatch
      · rfl

/-- The module that is written is the rewritten module. -/
theorem patchAssembly_eq_rewrite {buckets : Nat} {monitorType : TypeDefinition}
    {monitorTypeRef : TypeReference} {module : ModuleDefinition} {className : String}
    (hclass : module.types.countP (fun type => type.fullName == className) = 1)
    (hbodies : ∀ type ∈ module.allTypes, ∀ method ∈ type.methods,
      ∃ body, method.body = some body ∧ body.AsRead)
    (hpatches : methodPatches stringHash buckets monitorType = .ok patches)
    (hsearch : ∀ key, patches.tryGetValue (Signature.comparer stringHash) key =
      findBySignature pairs key) :
    patchAssembly stringHash importMethod buckets monitorType monitorTypeRef module className =
      .ok (rewriteModule importMethod ⟨monitorFieldName, monitorTypeRef⟩ pairs className
        module) := by
  have htypes : patchTypes stringHash importMethod ⟨monitorFieldName, monitorTypeRef⟩ patches
      (module.types.map (addMonitorField className ⟨monitorFieldName, monitorTypeRef⟩)) =
        .ok ((module.types.map (addMonitorField className
          ⟨monitorFieldName, monitorTypeRef⟩)).map (TypeDefinition.mapMethods
            (rewriteMethod importMethod ⟨monitorFieldName, monitorTypeRef⟩ pairs))) := by
    rw [patchTypes_eq_mapM]
    apply mapM_ok
    intro type htype
    obtain ⟨top, htop, rfl⟩ := List.mem_map.mp htype
    apply patchType_ok
    intro inner hinner method hmethod
    obtain ⟨original, horiginal, hmethods⟩ := exists_methods_eq hinner
    rw [hmethods] at hmethod
    obtain ⟨body, hbody, hread⟩ := hbodies original
      (mem_allTypesOf.mpr ⟨top, htop, horiginal⟩) method hmethod
    exact patchMethod_eq_rewrite hsearch hbody hread
  simp only [patchAssembly, if_pos hclass, hpatches, bind, Except.bind, htypes, pure, Except.pure,
    rewriteModule, List.map_map]
  rfl

/-- With pairwise different signatures the lookup is a search by `Equals`, the
patched module is the rewritten module, and a call that could still be patched
is one that was inserted. -/
theorem patchAssembly_rewrites {buckets : Nat} {monitorType : TypeDefinition}
    {monitorTypeRef : TypeReference} {module : ModuleDefinition} {className : String}
    (hclass : module.types.countP (fun type => type.fullName == className) = 1)
    (hbodies : ∀ type ∈ module.allTypes, ∀ method ∈ type.methods,
      ∃ body, method.body = some body ∧ body.AsRead)
    (hpairs : patchPairs monitorType.methods = .ok pairs)
    (hdistinct : Distinct (Signature.comparer stringHash) pairs) :
    ∃ patches, methodPatches stringHash buckets monitorType = .ok patches ∧
      (∀ key, patches.tryGetValue (Signature.comparer stringHash) key =
        findBySignature pairs key) ∧
      ∃ patched, patchAssembly stringHash importMethod buckets monitorType monitorTypeRef module
          className = .ok patched ∧
        patched = rewriteModule importMethod ⟨monitorFieldName, monitorTypeRef⟩ pairs className
          module ∧
        ∀ type ∈ patched.allTypes, ∀ method ∈ type.methods, ∀ body, method.body = some body →
          ∀ i ∈ body.instructions, (patchFor pairs i).isSome →
            ∃ replaced newMethod, newMethod ∈ pairs.map Prod.snd ∧
              i = ⟨.patchedCall replaced, .call (importMethod newMethod)⟩ := by
  obtain ⟨patches, hpatches, hsearch⟩ := @methodPatches_ok stringHash buckets monitorType pairs
    hpairs hdistinct
  refine ⟨patches, hpatches, hsearch, _,
    patchAssembly_eq_rewrite hclass hbodies hpatches hsearch, rfl, ?_⟩
  intro type htype method hmethod body hbody i hi hpatch
  obtain ⟨original, -, old, -, rfl⟩ := exists_of_mem_rewriteModule htype hmethod
  obtain ⟨oldBody, -, rfl⟩ := Option.map_eq_some_iff.mp hbody
  obtain ⟨replaced, -, newMethod, hfor, rfl⟩ := patchable_of_mem_rewrite hi hpatch
  refine ⟨replaced.ref, newMethod, ?_, rfl⟩
  obtain ⟨called, -, hfound⟩ := Option.bind_eq_some_iff.mp hfor
  obtain ⟨entry, hentry, rfl⟩ := Option.map_eq_some_iff.mp hfound
  exact List.mem_map_of_mem (List.mem_of_find?_eq_some hentry)

/-- A snippet that calls `Console.WriteLine` in its class and in a closure. -/
theorem patchAssembly_rewrites_console :
    let main : MethodDefinition := ⟨"SnippetMain", [], [], some
      ⟨[⟨.read 0, .other 114 5⟩, ⟨.read 1, .call Monitor.writeLine⟩, ⟨.read 2, .other 42 1⟩], []⟩⟩
    let closure : TypeDefinition := .mk "Snippets.Hello/<>c" [] [main] []
    let module : ModuleDefinition := ⟨[.mk "Snippets.Hello" [] [main] [closure]]⟩
    ∃ patched, patchAssembly (fun text => UInt32.ofNat text.length) Monitor.importMethod 3
        (.mk "Pumpkin.Monitor" [] [Monitor.consoleWriteLine] []) Monitor.typeRef module
        "Snippets.Hello" = .ok patched ∧
      patched = rewriteModule Monitor.importMethod ⟨monitorFieldName, Monitor.typeRef⟩
        [(Monitor.writeLineSignature, Monitor.consoleWriteLine)] "Snippets.Hello" module := by
  intro main closure module
  have hmain : ∃ body, main.body = some body ∧ body.AsRead := ⟨_, rfl, by decide⟩
  have hbodies : ∀ type ∈ module.allTypes, ∀ method ∈ type.methods,
      ∃ body, method.body = some body ∧ body.AsRead := by
    have htypes : module.allTypes = [.mk "Snippets.Hello" [] [main] [closure], closure] := rfl
    intro type htype method hmethod
    rw [htypes, List.mem_pair] at htype
    rcases htype with rfl | rfl
    · rw [List.mem_singleton.mp hmethod]
      exact hmain
    · rw [List.mem_singleton.mp hmethod]
      exact hmain
  obtain ⟨patches, -, -, patched, hpatched, hrewrite, -⟩ :=
    @patchAssembly_rewrites Monitor.importMethod
      [(Monitor.writeLineSignature, Monitor.consoleWriteLine)]
      (fun text => UInt32.ofNat text.length) 3
      (.mk "Pumpkin.Monitor" [] [Monitor.consoleWriteLine] []) Monitor.typeRef module
      "Snippets.Hello" rfl hbodies rfl (List.pairwise_singleton _ _)
  exact ⟨patched, hpatched, hrewrite⟩

/-- A second patch method that is meant for the first one: the call the pass
inserts has a patch, and the pass had collected its calls before it was there. -/
theorem inserted_call_stays_patchable :
    ¬ ∀ (stringHash : String → UInt32) (importMethod : MethodDefinition → MethodReference)
      (buckets : Nat) (monitorType : TypeDefinition) (monitorTypeRef : TypeReference)
      (module : ModuleDefinition) (className : String)
      (pairs : List (Signature × MethodDefinition)) (patched : ModuleDefinition),
      (∀ type ∈ module.allTypes, ∀ method ∈ type.methods,
        ∃ body, method.body = some body ∧ body.AsRead) →
      patchPairs monitorType.methods = .ok pairs →
      Distinct (Signature.comparer stringHash) pairs →
      patchAssembly stringHash importMethod buckets monitorType monitorTypeRef module
        className = .ok patched →
      ∀ type ∈ patched.allTypes, ∀ method ∈ type.methods, ∀ body, method.body = some body →
        ∀ i ∈ body.instructions, patchFor pairs i = none := by
  intro hall
  let monitorPatch : MethodDefinition := ⟨"Monitor_Console_WriteLine",
    [Monitor.stringParameter, ⟨Monitor.typeRef⟩, ⟨Monitor.typeRef⟩],
    [Monitor.staticPatch "Monitor" "Console_WriteLine"], none⟩
  let monitorType : TypeDefinition :=
    .mk "Pumpkin.Monitor" [] [Monitor.consoleWriteLine, monitorPatch] []
  let pairs : List (Signature × MethodDefinition) :=
    [(Monitor.writeLineSignature, Monitor.consoleWriteLine),
      (⟨"Monitor", "Console_WriteLine", true, [Monitor.stringParameter, ⟨Monitor.typeRef⟩]⟩,
        monitorPatch)]
  let main : MethodDefinition :=
    ⟨"SnippetMain", [], [], some ⟨[⟨.read 0, .call Monitor.writeLine⟩], []⟩⟩
  let module : ModuleDefinition := ⟨[.mk "Snippets.Hello" [] [main] []]⟩
  let inserted : Instruction :=
    ⟨.patchedCall (.read 0), .call (Monitor.importMethod Monitor.consoleWriteLine)⟩
  let patchedMain : MethodDefinition := ⟨"SnippetMain", [], [],
    some ⟨[⟨.monitorLoad (.read 0), .ldsfld ⟨monitorFieldName, Monitor.typeRef⟩⟩, inserted], []⟩⟩
  let patchedHello : TypeDefinition :=
    .mk "Snippets.Hello" [⟨monitorFieldName, Monitor.typeRef⟩] [patchedMain] []
  let stringHash : String → UInt32 := fun text => UInt32.ofNat text.length
  have hbodies : ∀ type ∈ module.allTypes, ∀ method ∈ type.methods,
      ∃ body, method.body = some body ∧ body.AsRead := by
    intro type htype method hmethod
    cases List.mem_singleton.mp htype
    cases List.mem_singleton.mp hmethod
    exact ⟨_, rfl, by decide⟩
  have hpairs : patchPairs monitorType.methods = .ok pairs := rfl
  have hdistinct : Distinct (Signature.comparer stringHash) pairs :=
    List.pairwise_pair.mpr (by decide)
  obtain ⟨patches, hpatches, hsearch⟩ := @methodPatches_ok stringHash 3 monitorType pairs
    hpairs hdistinct
  have hpatched : patchAssembly stringHash Monitor.importMethod 3 monitorType Monitor.typeRef
      module "Snippets.Hello" = .ok ⟨[patchedHello]⟩ :=
    patchAssembly_eq_rewrite rfl hbodies hpatches hsearch
  have hnone := hall stringHash Monitor.importMethod 3 monitorType Monitor.typeRef module
    "Snippets.Hello" pairs _ hbodies hpairs hdistinct hpatched patchedHello List.mem_cons_self
    patchedMain List.mem_cons_self _ rfl inserted (List.mem_cons_of_mem _ List.mem_cons_self)
  have hsome : patchFor pairs inserted = some monitorPatch := rfl
  rw [hsome] at hnone
  cases hnone

end Rewriting

end HostedPumpkin.SnippetCompiler
