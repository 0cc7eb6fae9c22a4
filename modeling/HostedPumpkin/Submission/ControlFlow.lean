import HostedPumpkin.Submission.Rewriting

/-!
Jumps in a patched body. The edits of the list leave every operand and every
handler boundary as it is, so a reference to a call that is replaced stays a
reference to the instruction object that was taken out.
-/

namespace HostedPumpkin.SnippetCompiler

variable {stringHash : String → UInt32} {importMethod : MethodDefinition → MethodReference}
  {monitorRef : FieldDefinition} {patches : Patches}

/-- A body after `PatchMethod`. -/
def patchedBody (stringHash : String → UInt32)
    (importMethod : MethodDefinition → MethodReference) (monitorRef : FieldDefinition)
    (patches : Patches) (body : MethodBody) : MethodBody :=
  { body with
    instructions :=
      patchedInstructions stringHash importMethod monitorRef patches body.instructions }

/-- The reference is to a call of the body that is replaced. -/
def PatchedCall (stringHash : String → UInt32) (patches : Patches) (body : MethodBody)
    (ref : InstructionRef) : Prop :=
  ∃ i ∈ body.instructions, i.ref = ref ∧ (findPatch stringHash patches i).isSome

/-- Every reference of the patched body is to an instruction in it, and one that
was to a replaced call is to the load before the new call. -/
structure ControlFlowSurvives (stringHash : String → UInt32) (patches : Patches)
    (body patched : MethodBody) : Prop where
  inside : patched.WellFormed
  follows : List.Forall₂ (fun old new => PatchedCall stringHash patches body old →
    new = .monitorLoad old) body.references patched.references

/-- A call, and what replaces it, refers to no instruction. -/
theorem targets_expand (i : Instruction) :
    (KeyedEdits.expand (findPatch stringHash patches) (createMonitorLoad monitorRef)
      (createPatchedCall importMethod) i).flatMap (fun instruction => instruction.code.targets) =
        i.code.targets := by
  cases hfind : findPatch stringHash patches i with
  | none => rw [KeyedEdits.expand_none hfind, List.flatMap_singleton]
  | some newMethod =>
      have hcall : i.code.targets = [] := by
        cases hcode : i.code with
        | call | callvirt | newobj | calli | ldsfld | other => rfl
        | branch | switch => simp [findPatch, hcode, calledMethod] at hfind
      rw [KeyedEdits.expand_some hfind, hcall]
      rfl

/-- Patching changes no reference. -/
theorem references_patchedBody (body : MethodBody) :
    (patchedBody stringHash importMethod monitorRef patches body).references =
      body.references := by
  simp only [MethodBody.references, patchedBody, patchedInstructions, List.flatMap_assoc,
    targets_expand]

/-- An instruction that is not replaced stays in the body. -/
theorem mem_patchedBody {body : MethodBody} {i : Instruction} (hi : i ∈ body.instructions)
    (hfind : findPatch stringHash patches i = none) :
    i ∈ (patchedBody stringHash importMethod monitorRef patches body).instructions := by
  apply List.mem_flatMap.mpr
  refine ⟨i, hi, ?_⟩
  rw [KeyedEdits.expand_none hfind]
  exact List.mem_singleton.mpr rfl

/-- A reference to a call that is replaced is left dangling. -/
theorem not_survives_of_patchedCall {body : MethodBody} {ref : InstructionRef}
    (hread : body.AsRead) (href : ref ∈ body.references)
    (hpatched : PatchedCall stringHash patches body ref) :
    ¬ ControlFlowSurvives stringHash patches body
      (patchedBody stringHash importMethod monitorRef patches body) := by
  intro hsurvives
  have hfollows := hsurvives.follows
  rw [references_patchedBody, List.forall₂_same] at hfollows
  have hself : ref = .monitorLoad ref := hfollows ref href hpatched
  obtain ⟨i, hi, hiref, -⟩ := hpatched
  obtain ⟨index, hindex⟩ := hread.read i hi
  rw [← hiref, hindex] at hself
  cases hself

/-- Control flow survives the patching of a body if and only if nothing in the
body refers to a call that is replaced. -/
theorem controlFlow_survives_iff {method : MethodDefinition} {body : MethodBody}
    (hbody : method.body = some body) (hread : body.AsRead) (hwell : body.WellFormed) :
    ∃ method' patched,
      patchMethod stringHash importMethod monitorRef patches method = .ok method' ∧
      method'.body = some patched ∧
      (ControlFlowSurvives stringHash patches body patched ↔
        ∀ ref ∈ body.references, ¬ PatchedCall stringHash patches body ref) := by
  refine ⟨_, patchedBody stringHash importMethod monitorRef patches body,
    patchMethod_ok hbody hread, rfl, ?_⟩
  constructor
  · intro hsurvives ref href hpatched
    exact not_survives_of_patchedCall hread href hpatched hsurvives
  · intro hnone
    refine ⟨?_, ?_⟩
    · intro ref href
      rw [references_patchedBody] at href
      obtain ⟨i, hi, hiref⟩ := List.mem_map.mp (hwell ref href)
      have hfind : findPatch stringHash patches i = none := by
        rw [← Option.not_isSome_iff_eq_none]
        intro hsome
        exact hnone ref href ⟨i, hi, hiref, hsome⟩
      exact List.mem_map.mpr ⟨i, mem_patchedBody hi hfind, hiref⟩
    · rw [references_patchedBody, List.forall₂_same]
      intro ref href hpatched
      exact absurd hpatched (hnone ref href)

/-- `if (x) Console.WriteLine("a");`: the branch goes to the return. -/
theorem controlFlow_survives_statement :
    let body : MethodBody := ⟨[⟨.read 0, .other 2 1⟩, ⟨.read 1, .branch .brfalse true (.read 4)⟩,
      ⟨.read 2, .other 114 5⟩, ⟨.read 3, .call Monitor.writeLine⟩, ⟨.read 4, .other 42 1⟩], []⟩
    ∃ method' patched,
      patchMethod (fun text => UInt32.ofNat text.length) Monitor.importMethod
        ⟨monitorFieldName, Monitor.typeRef⟩ Monitor.patches
        ⟨"SnippetMain", [], [], some body⟩ = .ok method' ∧
      method'.body = some patched ∧
      ControlFlowSurvives (fun text => UInt32.ofNat text.length) Monitor.patches body
        patched := by
  intro body
  have hread : body.AsRead := by decide
  obtain ⟨method', patched, hpatch, hpatched, hiff⟩ :=
    @controlFlow_survives_iff (fun text => UInt32.ofNat text.length) Monitor.importMethod
      ⟨monitorFieldName, Monitor.typeRef⟩ Monitor.patches ⟨"SnippetMain", [], [], some body⟩ body
      rfl hread (by decide)
  refine ⟨method', patched, hpatch, hpatched, hiff.mpr ?_⟩
  intro ref href hcall
  obtain ⟨i, hi, hiref, hsome⟩ := hcall
  have hreturn : ref = .read 4 := List.mem_singleton.mp href
  have hlast : i = ⟨.read 4, .other 42 1⟩ := by
    subst hreturn
    simp only [body, List.mem_cons, List.not_mem_nil, or_false] at hi
    rcases hi with rfl | rfl | rfl | rfl | rfl
    all_goals first | rfl | cases hiref
  rw [hlast, findPatch_of_calledMethod_none rfl] at hsome
  cases hsome

/-- `Console.WriteLine(x ? "a" : "b")`: the branch over `"a"` goes to the call. -/
theorem jump_to_patched_call_dangles :
    ¬ ∀ (stringHash : String → UInt32) (importMethod : MethodDefinition → MethodReference)
      (monitorRef : FieldDefinition) (patches : Patches) (method method' : MethodDefinition)
      (body patched : MethodBody),
      method.body = some body → body.AsRead → body.WellFormed →
      patchMethod stringHash importMethod monitorRef patches method = .ok method' →
      method'.body = some patched →
      ControlFlowSurvives stringHash patches body patched := by
  intro hall
  let body : MethodBody := ⟨[⟨.read 0, .other 2 1⟩, ⟨.read 1, .branch .brtrue true (.read 4)⟩,
    ⟨.read 2, .other 114 5⟩, ⟨.read 3, .branch .br true (.read 5)⟩, ⟨.read 4, .other 114 5⟩,
    ⟨.read 5, .call Monitor.writeLine⟩, ⟨.read 6, .other 42 1⟩], []⟩
  let stringHash : String → UInt32 := fun text => UInt32.ofNat text.length
  have hread : body.AsRead := by decide
  have hcall : PatchedCall stringHash Monitor.patches body (.read 5) := by
    refine ⟨⟨.read 5, .call Monitor.writeLine⟩, by decide, rfl, ?_⟩
    rw [Monitor.findPatch_writeLine]
    rfl
  have hsurvives := hall stringHash Monitor.importMethod ⟨monitorFieldName, Monitor.typeRef⟩
    Monitor.patches ⟨"SnippetMain", [], [], some body⟩ _ body _ rfl hread (by decide)
    (patchMethod_ok rfl hread) rfl
  exact not_survives_of_patchedCall hread (by decide) hcall hsurvives

end HostedPumpkin.SnippetCompiler
