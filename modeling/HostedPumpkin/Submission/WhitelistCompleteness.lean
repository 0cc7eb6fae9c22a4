import HostedPumpkin.Submission.Whitelist

/-!
When the whitelist check lets a module pass whose references to the outside are all
listed. It also has to get through the module: it asks every method for its
`ILProcessor`, casts the operand of every constructor call and call to a method
reference, and the scope of every declaring type to another assembly.
-/

namespace HostedPumpkin.SnippetCompiler

/-- A reference to a method of the module itself. -/
def RefersToOwn (code : Code) : Prop :=
  ∃ methodRef, code.invoked = some methodRef ∧
    methodRef.declaringType.scope = .moduleDefinition

/-- The modules that the check gets through: the full names of the top-level types are
keys, their methods have bodies, and in these there is no `calli` and no reference to
the module itself. -/
structure Checkable (module : ModuleDefinition) : Prop where
  distinctNames : (module.types.map TypeDefinition.fullName).Nodup
  bodies : ∀ type ∈ module.types, ∀ method ∈ type.methods, method.body ≠ none
  operands : ∀ type ∈ module.types, ∀ method ∈ type.methods, ∀ body,
    method.body = some body → ∀ instruction ∈ body.instructions,
      instruction.code ≠ .calli ∧ ¬ RefersToOwn instruction.code

theorem checkInstruction_of_not_invoked {whiteList : List ListEntry} {instruction : Instruction}
    (hinvoked : instruction.code.invoked = none) (hcalli : instruction.code ≠ .calli) :
    checkInstruction whiteList instruction = .ok true := by
  cases hcode : instruction.code with
  | newobj operand | call operand | callvirt operand =>
      rw [hcode] at hinvoked
      cases hinvoked
  | calli => exact absurd hcode hcalli
  | branch | switch | ldsfld | other => simp only [checkInstruction, hcode]

theorem checkInstruction_of_invoked {whiteList : List ListEntry} {instruction : Instruction}
    {methodRef : MethodReference} (hinvoked : instruction.code.invoked = some methodRef) :
    checkInstruction whiteList instruction =
      (declaringTypeAssembly methodRef).map (fun assembly =>
        ListEntry.matchesList whiteList assembly methodRef.declaringType.fullName
          methodRef.name) := by
  cases hcode : instruction.code with
  | newobj operand | call operand | callvirt operand =>
      rw [hcode] at hinvoked
      cases hinvoked
      simp only [checkInstruction, hcode]
      cases declaringTypeAssembly methodRef with
      | error fault => rfl
      | ok assembly => rfl
  | calli | branch | switch | ldsfld | other =>
      rw [hcode] at hinvoked
      cases hinvoked

/-- A listed instruction passes if its operand can be cast. -/
theorem checkInstruction_iff {whiteList : List ListEntry} {instruction : Instruction}
    (hlisted : Listed whiteList instruction) :
    checkInstruction whiteList instruction = .ok true ↔
      instruction.code ≠ .calli ∧ ¬ RefersToOwn instruction.code := by
  cases hinvoked : instruction.code.invoked with
  | none =>
      have hown : ¬ RefersToOwn instruction.code := by
        rintro ⟨methodRef, hsome, -⟩
        rw [hinvoked] at hsome
        cases hsome
      by_cases hcalli : instruction.code = .calli
      · simp [checkInstruction, hcalli]
      · simp [checkInstruction_of_not_invoked hinvoked hcalli, hcalli, hown]
  | some methodRef =>
      have hcalli : instruction.code ≠ .calli := by
        intro hcode
        rw [hcode] at hinvoked
        cases hinvoked
      have hown : RefersToOwn instruction.code ↔
          methodRef.declaringType.scope = .moduleDefinition := by
        simp [RefersToOwn, hinvoked]
      rw [checkInstruction_of_invoked hinvoked, hown]
      by_cases hscope : methodRef.declaringType.scope = .moduleDefinition
      · simp [declaringTypeAssembly, hscope, Except.map]
      · obtain ⟨assembly, hassembly, hentry⟩ := hlisted methodRef hinvoked hscope
        have hmatches := ListEntry.matchesList_iff.mpr hentry
        simp [declaringTypeAssembly, hassembly, hmatches, hcalli, Except.map]

theorem checkMethod_iff {whiteList : List ListEntry} {method : MethodDefinition}
    (hlisted : ∀ body, method.body = some body →
      ∀ instruction ∈ body.instructions, Listed whiteList instruction) :
    checkMethod whiteList method = .ok true ↔
      method.body ≠ none ∧ ∀ body, method.body = some body →
        ∀ instruction ∈ body.instructions,
          instruction.code ≠ .calli ∧ ¬ RefersToOwn instruction.code := by
  cases hbody : method.body with
  | none => simp [checkMethod, hbody]
  | some body =>
      simp only [checkMethod, hbody, allM_ok_true, ne_eq, reduceCtorEq, not_false_eq_true,
        true_and, Option.some.injEq, forall_eq']
      apply forall₂_congr
      intro instruction hinstruction
      exact checkInstruction_iff (hlisted body hbody instruction hinstruction)

/-- If the module refers to nothing outside that is not listed, the check returns true
exactly for the modules it gets through. -/
theorem whitelist_complete_iff {module : ModuleDefinition} {whiteList : List ListEntry}
    (hlisted : AllListed whiteList module.allTypes) :
    checkAssemblyAgainstWhitelist module whiteList = .ok true ↔ Checkable module := by
  have hmethods : ∀ type ∈ module.types, ∀ method ∈ type.methods,
      (checkMethod whiteList method = .ok true ↔
        method.body ≠ none ∧ ∀ body, method.body = some body →
          ∀ instruction ∈ body.instructions,
            instruction.code ≠ .calli ∧ ¬ RefersToOwn instruction.code) := by
    intro type htype method hmethod
    apply checkMethod_iff
    intro body hbody
    exact hlisted type (mem_allTypes_iff.mpr (Or.inl htype)) method hmethod body hbody
  by_cases hnames : (module.types.map TypeDefinition.fullName).Nodup
  · rw [checkAssemblyAgainstWhitelist, if_pos hnames, allM_ok_true]
    constructor
    · intro hcheck
      have hpassed : ∀ type ∈ module.types, ∀ method ∈ type.methods,
          checkMethod whiteList method = .ok true :=
        fun type htype => allM_ok_true.mp (hcheck type htype)
      refine ⟨hnames, ?_, ?_⟩
      · intro type htype method hmethod
        exact ((hmethods type htype method hmethod).mp (hpassed type htype method hmethod)).1
      · intro type htype method hmethod
        exact ((hmethods type htype method hmethod).mp (hpassed type htype method hmethod)).2
    · rintro ⟨-, hbodies, hoperands⟩ type htype
      rw [checkType, allM_ok_true]
      intro method hmethod
      apply (hmethods type htype method hmethod).mpr
      exact ⟨hbodies type htype method hmethod, hoperands type htype method hmethod⟩
  · rw [checkAssemblyAgainstWhitelist, if_neg hnames]
    simp only [reduceCtorEq, false_iff]
    exact fun hcheckable => hnames hcheckable.distinctNames

/-- A snippet that only calls `Console.WriteLine`, which is listed. -/
theorem whitelist_complete_console :
    let mscorlib : MetadataScope := .assemblyNameReference "mscorlib"
    let writeLine : MethodReference :=
      ⟨⟨mscorlib, "System.Console", "Console"⟩, "WriteLine", false, []⟩
    let main : MethodDefinition :=
      ⟨"SnippetMain", [], [], some ⟨[⟨.read 0, .call writeLine⟩], []⟩⟩
    let module : ModuleDefinition := ⟨[.mk "Snippets.Hello" [] [main] []]⟩
    Checkable module := by
  intro mscorlib writeLine main module
  let whiteList : List ListEntry := [⟨some "mscorlib", some "System.Console", none⟩]
  have hlisted : AllListed whiteList module.allTypes := by
    intro type htype method hmethod body hbody instruction hinstruction
    cases List.mem_singleton.mp htype
    cases List.mem_singleton.mp hmethod
    cases hbody
    cases List.mem_singleton.mp hinstruction
    exact listed_of_checkInstruction (by decide)
  exact (whitelist_complete_iff hlisted).mp (by decide)

/-- A snippet that calls a method of its own and nothing else fails the check with an
exception, whatever the list. -/
theorem own_call_fails_whitelist :
    ¬ ∀ module whiteList, AllListed whiteList module.allTypes →
      checkAssemblyAgainstWhitelist module whiteList = .ok true := by
  intro hall
  let helper : MethodReference :=
    ⟨⟨.moduleDefinition, "Snippets.Hello", "Hello"⟩, "Helper", false, []⟩
  let main : MethodDefinition :=
    ⟨"SnippetMain", [], [], some ⟨[⟨.read 0, .call helper⟩], []⟩⟩
  let module : ModuleDefinition := ⟨[.mk "Snippets.Hello" [] [main] []]⟩
  have hlisted : AllListed [] module.allTypes := by
    intro type htype method hmethod body hbody instruction hinstruction methodRef hinvoked hscope
    cases List.mem_singleton.mp htype
    cases List.mem_singleton.mp hmethod
    cases hbody
    cases List.mem_singleton.mp hinstruction
    cases hinvoked
    exact absurd rfl hscope
  have hcheck : checkAssemblyAgainstWhitelist module [] = .error .invalidCast := by decide
  rw [hall module [] hlisted] at hcheck
  cases hcheck

end HostedPumpkin.SnippetCompiler
