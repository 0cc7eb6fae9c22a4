import HostedPumpkin.Submission.ControlFlow

/-!
The bytes of a patched body. The writer lays the instructions out one after the
other, with the opcodes they have, and a short branch gets the displacement to
its target cut to a signed byte. Every replaced call makes the code five bytes
longer, so a short branch over enough of them goes somewhere else.
-/

namespace HostedPumpkin

/-- `Instruction.GetSize`, the opcode with its operand. -/
def Code.getSize : Code → Nat
  | .newobj _ | .call _ | .callvirt _ | .calli | .ldsfld _ => 5
  | .branch _ short _ => if short then 2 else 5
  | .switch operand => 5 + 4 * operand.length
  | .other _ size => size

def codeSize (instructions : List Instruction) : Nat :=
  (instructions.map (fun i => i.code.getSize)).sum

/-- Where an instruction is written, if it is in the list. -/
def offsetOf (ref : InstructionRef) : List Instruction → Option Nat
  | [] => none
  | i :: rest =>
      if i.ref = ref then some 0 else (offsetOf ref rest).map (i.code.getSize + ·)

theorem offsetOf_append {front back : List Instruction} {i : Instruction}
    (hfront : ∀ b ∈ front, b.ref ≠ i.ref) :
    offsetOf i.ref (front ++ i :: back) = some (codeSize front) := by
  induction front with
  | nil => simp [offsetOf, codeSize]
  | cons b front ih =>
      have hb : b.ref ≠ i.ref := hfront b List.mem_cons_self
      have hrest := ih (fun c hc => hfront c (List.mem_cons_of_mem b hc))
      simp [offsetOf, hb, hrest, codeSize]

theorem offsetOf_eq_none {instructions : List Instruction} {ref : InstructionRef}
    (h : ref ∉ instructions.map Instruction.ref) : offsetOf ref instructions = none := by
  induction instructions with
  | nil => rfl
  | cons i rest ih =>
      simp only [List.map_cons, List.mem_cons, not_or] at h
      simp [offsetOf, Ne.symm h.1, ih h.2]

/-- What a short branch adds to the offset behind it. -/
def displacement (start dest : Nat) : Int := dest - (start + 2)

/-- Where a short branch goes once its displacement is a signed byte. -/
def writtenTarget (start dest : Nat) : Int :=
  start + 2 + (BitVec.ofInt 8 (displacement start dest)).toInt

def InSByte (d : Int) : Prop := -128 ≤ d ∧ d ≤ 127

instance (d : Int) : Decidable (InSByte d) := inferInstanceAs (Decidable (_ ∧ _))

/-- A displacement that fits is not changed by the cut. -/
theorem writtenTarget_eq {start dest : Nat} (h : InSByte (displacement start dest)) :
    writtenTarget start dest = dest := by
  have hbyte : (BitVec.ofInt 8 (displacement start dest)).toInt = displacement start dest := by
    rw [BitVec.toInt_ofInt]
    obtain ⟨hlow, hhigh⟩ := h
    apply Int.bmod_eq_of_le
    · omega
    · omega
  rw [writtenTarget, hbyte, displacement]
  omega

/-- The displacement fits and the written branch goes to the target. -/
def ShortBranchSurvives (instructions : List Instruction) (ref target : InstructionRef) : Prop :=
  ∃ start dest, offsetOf ref instructions = some start ∧
    offsetOf target instructions = some dest ∧ InSByte (displacement start dest) ∧
    writtenTarget start dest = dest

def ShortBranchesSurvive (instructions : List Instruction) : Prop :=
  ∀ i ∈ instructions, ∀ opCode target, i.code = .branch opCode true target →
    ShortBranchSurvives instructions i.ref target

namespace SnippetCompiler

section Patched

variable (stringHash : String → UInt32) (patches : Patches)

/-- The number of replaced calls in front of an instruction. -/
def patchedBefore (ref : InstructionRef) : List Instruction → Nat
  | [] => 0
  | i :: rest =>
      if i.ref = ref then 0
      else (if (findPatch stringHash patches i).isSome then 1 else 0) + patchedBefore ref rest

/-- A short branch has a target that stays and room for the loads between them. -/
def LeavesRoom (body : MethodBody) (ref target : InstructionRef) : Prop :=
  ¬ PatchedCall stringHash patches body target ∧
    ∃ start dest, offsetOf ref body.instructions = some start ∧
      offsetOf target body.instructions = some dest ∧
      InSByte (displacement start dest +
        5 * ((patchedBefore stringHash patches target body.instructions : Int) -
          patchedBefore stringHash patches ref body.instructions))

variable {stringHash patches} {importMethod : MethodDefinition → MethodReference}
  {monitorRef : FieldDefinition}

theorem patchedBefore_append {front back : List Instruction} {i : Instruction}
    (hfront : ∀ b ∈ front, b.ref ≠ i.ref) :
    patchedBefore stringHash patches i.ref (front ++ i :: back) =
      front.countP (fun b => (findPatch stringHash patches b).isSome) := by
  induction front with
  | nil => simp [patchedBefore]
  | cons b front ih =>
      have hb : b.ref ≠ i.ref := hfront b List.mem_cons_self
      have hrest := ih (fun c hc => hfront c (List.mem_cons_of_mem b hc))
      simp only [List.cons_append, patchedBefore, hb, if_false, hrest, List.countP_cons]
      omega

/-- Every replaced call adds the five bytes of the load. -/
theorem codeSize_patchedInstructions (instructions : List Instruction) :
    codeSize (patchedInstructions stringHash importMethod monitorRef patches instructions) =
      codeSize instructions +
        5 * instructions.countP (fun b => (findPatch stringHash patches b).isSome) := by
  induction instructions with
  | nil => rfl
  | cons i rest ih =>
      simp only [patchedInstructions, codeSize] at ih ⊢
      rw [List.flatMap_cons, List.map_append, List.sum_append, ih, List.map_cons, List.sum_cons,
        List.countP_cons]
      cases hfind : findPatch stringHash patches i with
      | none =>
          rw [KeyedEdits.expand_none hfind]
          simp only [List.map_cons, List.map_nil, List.sum_cons, List.sum_nil, Option.isSome_none,
            Bool.false_eq_true, if_false]
          omega
      | some newMethod =>
          have hcall : i.code.getSize = 5 := by
            cases hcode : i.code with
            | call | callvirt | newobj | calli | ldsfld => rfl
            | other | branch | switch => simp [findPatch, hcode, calledMethod] at hfind
          rw [KeyedEdits.expand_some hfind, hcall]
          simp only [List.map_cons, List.map_nil, List.sum_cons, List.sum_nil, Option.isSome_some,
            if_true, createMonitorLoad, createPatchedCall, Code.getSize]
          omega

/-- The instructions of a patched list that were read were in the list. -/
theorem mem_of_mem_patched {instructions : List Instruction} {i : Instruction} {index : Nat}
    (hi : i ∈ patchedInstructions stringHash importMethod monitorRef patches instructions)
    (hindex : i.ref = .read index) :
    i ∈ instructions ∧ findPatch stringHash patches i = none := by
  obtain ⟨old, hold, hin⟩ := List.mem_flatMap.mp hi
  cases hfind : findPatch stringHash patches old with
  | none =>
      rw [KeyedEdits.expand_none hfind, List.mem_singleton] at hin
      subst hin
      exact ⟨hold, hfind⟩
  | some newMethod =>
      rw [KeyedEdits.expand_some hfind, List.mem_pair] at hin
      rcases hin with rfl | rfl
      · cases hindex
      · cases hindex

variable (importMethod monitorRef) in
/-- An instruction that stays moves by five bytes for every call replaced in
front of it. -/
theorem offsetOf_patchedBody {body : MethodBody} {i : Instruction} (hread : body.AsRead)
    (hi : i ∈ body.instructions) (hfind : findPatch stringHash patches i = none) :
    ∃ start, offsetOf i.ref body.instructions = some start ∧
      offsetOf i.ref
        (patchedBody stringHash importMethod monitorRef patches body).instructions =
          some (start + 5 * patchedBefore stringHash patches i.ref body.instructions) := by
  obtain ⟨index, hindex⟩ := hread.read i hi
  have hdistinct := hread.distinct
  obtain ⟨front, back, hsplit⟩ := List.append_of_mem hi
  rw [hsplit, List.map_append, List.map_cons] at hdistinct
  have hfront : ∀ b ∈ front, b.ref ≠ i.ref := by
    intro b hb heq
    apply (List.nodup_append.mp hdistinct).2.2 b.ref (List.mem_map_of_mem hb) i.ref
      List.mem_cons_self heq
  have hpatchedFront : ∀ b ∈ patchedInstructions stringHash importMethod monitorRef patches front,
      b.ref ≠ i.ref := by
    intro b hb heq
    exact hfront b (mem_of_mem_patched hb (heq.trans hindex)).1 heq
  have hpatched : patchedInstructions stringHash importMethod monitorRef patches
      (front ++ i :: back) =
        patchedInstructions stringHash importMethod monitorRef patches front ++
          i :: patchedInstructions stringHash importMethod monitorRef patches back := by
    simp only [patchedInstructions, List.flatMap_append, List.flatMap_cons,
      KeyedEdits.expand_none hfind, List.singleton_append]
  refine ⟨codeSize front, ?_, ?_⟩
  · rw [hsplit, offsetOf_append hfront]
  · rw [patchedBody, hsplit, hpatched, offsetOf_append hpatchedFront,
      codeSize_patchedInstructions, patchedBefore_append hfront]

/-- A short branch survives the patching of its body if and only if its target
stays and it leaves room. -/
theorem shortBranch_survives_iff {body : MethodBody} {i : Instruction} {opCode : BranchOpCode}
    {target : InstructionRef} (hread : body.AsRead) (hwell : body.WellFormed)
    (hi : i ∈ body.instructions) (hcode : i.code = .branch opCode true target) :
    ShortBranchSurvives (patchedBody stringHash importMethod monitorRef patches body).instructions
        i.ref target ↔ LeavesRoom stringHash patches body i.ref target := by
  have hfind : findPatch stringHash patches i = none :=
    findPatch_of_calledMethod_none (by rw [hcode]; rfl)
  obtain ⟨start, hstart, hstart'⟩ :=
    offsetOf_patchedBody importMethod monitorRef hread hi hfind
  have htarget : target ∈ body.instructions.map Instruction.ref := by
    apply hwell
    apply List.mem_append_left
    refine List.mem_flatMap.mpr ⟨i, hi, ?_⟩
    rw [hcode]
    exact List.mem_singleton.mpr rfl
  obtain ⟨j, hj, rfl⟩ := List.mem_map.mp htarget
  obtain ⟨index, hindex⟩ := hread.read j hj
  cases hjfind : findPatch stringHash patches j with
  | some newMethod =>
      -- the target is taken out of the list
      have hcall : PatchedCall stringHash patches body j.ref :=
        ⟨j, hj, rfl, by rw [hjfind]; rfl⟩
      have hgone : offsetOf j.ref
          (patchedBody stringHash importMethod monitorRef patches body).instructions = none := by
        apply offsetOf_eq_none
        intro hin
        obtain ⟨k, hk, hkj⟩ := List.mem_map.mp hin
        obtain ⟨hkbody, hkfind⟩ := mem_of_mem_patched hk (hkj.trans hindex)
        have hkj' : k = j := List.inj_on_of_nodup_map hread.distinct hkbody hj hkj
        rw [hkj', hjfind] at hkfind
        cases hkfind
      constructor
      · rintro ⟨_, dest, -, hdest, -⟩
        rw [hgone] at hdest
        cases hdest
      · rintro ⟨hstays, -⟩
        exact absurd hcall hstays
  | none =>
      obtain ⟨dest, hdest, hdest'⟩ :=
        offsetOf_patchedBody importMethod monitorRef hread hj hjfind
      have hstays : ¬ PatchedCall stringHash patches body j.ref := by
        rintro ⟨k, hk, hkj, hsome⟩
        rw [List.inj_on_of_nodup_map hread.distinct hk hj hkj, hjfind] at hsome
        cases hsome
      have hmoved : displacement
          (start + 5 * patchedBefore stringHash patches i.ref body.instructions)
          (dest + 5 * patchedBefore stringHash patches j.ref body.instructions) =
            displacement start dest +
              5 * ((patchedBefore stringHash patches j.ref body.instructions : Int) -
                patchedBefore stringHash patches i.ref body.instructions) := by
        simp only [displacement]
        push_cast
        ring
      constructor
      · rintro ⟨start', dest', hs, hd, hfits, -⟩
        rw [hstart'] at hs
        rw [hdest'] at hd
        cases hs
        cases hd
        rw [hmoved] at hfits
        exact ⟨hstays, start, dest, hstart, hdest, hfits⟩
      · rintro ⟨-, start', dest', hs, hd, hfits⟩
        rw [hstart] at hs
        rw [hdest] at hd
        cases hs
        cases hd
        rw [← hmoved] at hfits
        exact ⟨_, _, hstart', hdest', hfits, writtenTarget_eq hfits⟩

/-- The short branches of a body survive its patching if and only if each of
them leaves room for the loads between it and its target, which stays. -/
theorem shortBranches_survive_iff {method : MethodDefinition} {body : MethodBody}
    (hbody : method.body = some body) (hread : body.AsRead) (hwell : body.WellFormed) :
    ∃ method' patched,
      patchMethod stringHash importMethod monitorRef patches method = .ok method' ∧
      method'.body = some patched ∧
      (ShortBranchesSurvive patched.instructions ↔
        ∀ i ∈ body.instructions, ∀ opCode target, i.code = .branch opCode true target →
          LeavesRoom stringHash patches body i.ref target) := by
  refine ⟨_, patchedBody stringHash importMethod monitorRef patches body,
    patchMethod_ok hbody hread, rfl, ?_⟩
  constructor
  · intro hsurvive i hi opCode target hcode
    have hfind : findPatch stringHash patches i = none :=
      findPatch_of_calledMethod_none (by rw [hcode]; rfl)
    exact (shortBranch_survives_iff hread hwell hi hcode).mp
      (hsurvive i (mem_patchedBody hi hfind) opCode target hcode)
  · intro hroom i hi opCode target hcode
    -- a branch in the patched list is none of the new instructions
    have hold : i ∈ body.instructions := by
      obtain ⟨old, hold, hin⟩ := List.mem_flatMap.mp hi
      cases hfind : findPatch stringHash patches old with
      | none =>
          rw [KeyedEdits.expand_none hfind, List.mem_singleton] at hin
          rwa [hin]
      | some newMethod =>
          rw [KeyedEdits.expand_some hfind, List.mem_pair] at hin
          rcases hin with rfl | rfl
          · cases hcode
          · cases hcode
    exact (shortBranch_survives_iff hread hwell hold hcode).mpr
      (hroom i hold opCode target hcode)

/-- `if (x) { Console.WriteLine("a"); Console.WriteLine("b"); }` -/
theorem shortBranches_survive_two_calls :
    let body : MethodBody := ⟨[⟨.read 0, .other 2 1⟩, ⟨.read 1, .branch .brfalse true (.read 6)⟩,
      ⟨.read 2, .other 114 5⟩, ⟨.read 3, .call Monitor.writeLine⟩, ⟨.read 4, .other 114 5⟩,
      ⟨.read 5, .call Monitor.writeLine⟩, ⟨.read 6, .other 42 1⟩], []⟩
    ∃ method' patched,
      patchMethod (fun text => UInt32.ofNat text.length) Monitor.importMethod
        ⟨monitorFieldName, Monitor.typeRef⟩ Monitor.patches
        ⟨"SnippetMain", [], [], some body⟩ = .ok method' ∧
      method'.body = some patched ∧ ShortBranchesSurvive patched.instructions := by
  intro body
  obtain ⟨method', patched, hpatch, hpatched, hiff⟩ :=
    @shortBranches_survive_iff (fun text => UInt32.ofNat text.length) Monitor.patches
      Monitor.importMethod ⟨monitorFieldName, Monitor.typeRef⟩
      ⟨"SnippetMain", [], [], some body⟩ body rfl (by decide) (by decide)
  refine ⟨method', patched, hpatch, hpatched, hiff.mpr ?_⟩
  have honly : ∀ i ∈ body.instructions,
      i = ⟨.read 1, .branch .brfalse true (.read 6)⟩ ∨ i.code.targets = [] := by decide
  intro i hi opCode target hcode
  rcases honly i hi with rfl | hnone
  · cases hcode
    refine ⟨?_, 1, 23, rfl, rfl, by decide⟩
    rintro ⟨j, hj, hjref, hsome⟩
    have hlast : j = ⟨.read 6, .other 42 1⟩ :=
      List.inj_on_of_nodup_map (f := Instruction.ref) (l := body.instructions) (by decide) hj
        (by decide) hjref
    rw [hlast, findPatch_of_calledMethod_none rfl] at hsome
    cases hsome
  · rw [hcode] at hnone
    cases hnone

/-- A branch over twelve calls of `Console.WriteLine` jumps 120 bytes, and 180
once they are patched. -/
theorem short_branch_overflows :
    ¬ ∀ (stringHash : String → UInt32) (importMethod : MethodDefinition → MethodReference)
      (monitorRef : FieldDefinition) (patches : Patches) (method method' : MethodDefinition)
      (body patched : MethodBody),
      method.body = some body → body.AsRead → body.WellFormed →
      ShortBranchesSurvive body.instructions →
      patchMethod stringHash importMethod monitorRef patches method = .ok method' →
      method'.body = some patched → ShortBranchesSurvive patched.instructions := by
  intro hall
  let jump : Instruction := ⟨.read 1, .branch .brfalse true (.read 26)⟩
  let body : MethodBody := ⟨⟨.read 0, .other 2 1⟩ :: jump ::
    (List.range 12).flatMap (fun k => [⟨.read (2 * k + 2), .other 114 5⟩,
      ⟨.read (2 * k + 3), .call Monitor.writeLine⟩]) ++ [⟨.read 26, .other 42 1⟩], []⟩
  let stringHash : String → UInt32 := fun text => UInt32.ofNat text.length
  have hread : body.AsRead := by decide
  have hwell : body.WellFormed := by decide
  have honly : ∀ i ∈ body.instructions, i = jump ∨ i.code.targets = [] := by decide
  have hvalid : ShortBranchesSurvive body.instructions := by
    intro i hi opCode target hcode
    rcases honly i hi with rfl | hnone
    · cases hcode
      exact ⟨1, 123, rfl, rfl, by decide, by decide⟩
    · rw [hcode] at hnone
      cases hnone
  have hjump : jump ∈ body.instructions := by decide
  have hpatched := hall stringHash Monitor.importMethod ⟨monitorFieldName, Monitor.typeRef⟩
    Monitor.patches ⟨"SnippetMain", [], [], some body⟩ _ body _ rfl hread hwell hvalid
    (patchMethod_ok rfl hread) rfl
  have hsurvives := hpatched jump
    (mem_patchedBody hjump (findPatch_of_calledMethod_none rfl)) .brfalse (.read 26) rfl
  obtain ⟨-, start, dest, hstart, hdest, hfits⟩ :=
    (shortBranch_survives_iff hread hwell hjump rfl).mp hsurvives
  have hstart' : offsetOf jump.ref body.instructions = some 1 := rfl
  have hdest' : offsetOf (.read 26) body.instructions = some 123 := rfl
  have hbefore : patchedBefore stringHash Monitor.patches jump.ref body.instructions = 0 := by
    decide
  have hbefore' : patchedBefore stringHash Monitor.patches (.read 26) body.instructions = 12 := by
    decide
  rw [hstart'] at hstart
  rw [hdest'] at hdest
  cases hstart
  cases hdest
  rw [hbefore, hbefore'] at hfits
  exact absurd hfits (by decide)

end Patched

end SnippetCompiler

end HostedPumpkin
