import HostedPumpkin.Submission.PatchSimulation
import HostedPumpkin.Submission.ShortBranches

/-!
Patching keeps the meaning of a snippet. `Console.WriteLine(string)` writes to the console,
and the method that replaces it writes to the output of the monitor it finds on top of the
stack. So a method of the patched snippet ends like the method of the original one, with
the lines that went to the console in the output.

A run goes to the instruction that a branch names. The written bytes do the same as long as
the short branches of the patched bodies survive. No type of the snippet has an initializer:
no instruction of a run would enter it. What else the runtime does is a parameter, the same
for both snippets.
-/

namespace HostedPumpkin.SnippetCompiler

open Execution

/-- The methods of the rewritten module are those of the module, rewritten. -/
theorem methodsOf_rewriteModule (importMethod : MethodDefinition → MethodReference)
    (monitorRef : FieldDefinition) (pairs : List (Signature × MethodDefinition))
    (className : String) (module : ModuleDefinition) :
    methodsOf (rewriteModule importMethod monitorRef pairs className module) =
      patchedMethods (methodsOf module) importMethod monitorRef pairs := by
  have htop : ∀ top : TypeDefinition,
      (((addMonitorField className monitorRef top).mapMethods
          (rewriteMethod importMethod monitorRef pairs)).allTypes).flatMap TypeDefinition.methods =
        (top.allTypes.flatMap TypeDefinition.methods).map
          (rewriteMethod importMethod monitorRef pairs) := by
    intro top
    rw [TypeDefinition.allTypes_mapMethods, allTypes_addMonitorField, TypeDefinition.allTypes_eq,
      List.flatMap_map, List.map_flatMap, List.flatMap_cons, List.flatMap_cons]
    simp only [TypeDefinition.methods_mapMethods, methods_addMonitorField]
  simp only [methodsOf, patchedMethods, rewriteModule, ModuleDefinition.allTypes,
    allTypesOf_eq_flatMap, List.flatMap_assoc, List.flatMap_map, List.map_flatMap, htop]

section Console

variable {V L X W : Type} (importMethod : MethodDefinition → MethodReference)
  (monitorRef : FieldDefinition)

/-- The instruction calls `Console.WriteLine(string)`. -/
def Writes (i : Instruction) : Prop := calledMethod i.code = some Monitor.writeLine

instance (i : Instruction) : Decidable (Writes i) := inferInstanceAs (Decidable (_ = _))

/-- The instruction calls `Monitor.Console_WriteLine`. -/
def Collects (i : Instruction) : Prop :=
  calledMethod i.code = some (importMethod Monitor.consoleWriteLine)

instance (i : Instruction) : Decidable (Collects importMethod i) :=
  inferInstanceAs (Decidable (_ = _))

/-- A runtime in which `Console.WriteLine(string)` adds its argument to the console. -/
def withConsole (base : Runtime V L X W) : Runtime V L X (W × List V) where
  plain method i stack locals world :=
    mapEffect (fun rest => (rest, world.2)) (base.plain method i stack locals world.1)
  indirectArguments := base.indirectArguments
  target method i arguments world :=
    if Writes i then none else base.target method i arguments world.1
  external method i arguments world :=
    if Writes i then .inl (none, (world.1, world.2 ++ arguments))
    else (base.external method i arguments world.1).map (Prod.map id (fun rest => (rest, world.2)))
      (Prod.map id (fun rest => (rest, world.2)))
  allocate operand world :=
    Prod.map id (fun rest => (rest, world.2)) (base.allocate operand world.1)
  enter := base.enter
  returns := base.returns
  dispatch method handlers exception locals world :=
    base.dispatch method handlers exception locals world.1
  leave := base.leave

/-- A runtime with the static field that holds the monitor, and in which
`Monitor.Console_WriteLine` adds its first argument to the output. The world has the
console and the output. -/
def withMonitor (monitor : V) (base : Runtime V L X W) :
    Runtime V L X (W × List V × List V) where
  plain method i stack locals world :=
    if i.code = .ldsfld monitorRef then .next (monitor :: stack) locals world
    else mapEffect (fun rest => (rest, world.2)) (base.plain method i stack locals world.1)
  indirectArguments := base.indirectArguments
  target method i arguments world :=
    if Writes i ∨ Collects importMethod i then none
    else base.target method i arguments world.1
  external method i arguments world :=
    if Writes i then .inl (none, (world.1, world.2.1 ++ arguments, world.2.2))
    else if Collects importMethod i then
      .inl (none, (world.1, world.2.1, world.2.2 ++ arguments.tail))
    else (base.external method i arguments world.1).map (Prod.map id (fun rest => (rest, world.2)))
      (Prod.map id (fun rest => (rest, world.2)))
  allocate operand world :=
    Prod.map id (fun rest => (rest, world.2)) (base.allocate operand world.1)
  enter := base.enter
  returns := base.returns
  dispatch method handlers exception locals world :=
    base.dispatch method handlers exception locals world.1
  leave := base.leave

/-- The console stays empty and its lines are in the output. -/
def collected (world : W × List V) : W × List V × List V := (world.1, [], world.2)

theorem collected_injective : Function.Injective (collected : W × List V → _) := by
  rintro ⟨first, lines⟩ ⟨second, others⟩ h
  simp only [collected, Prod.mk.injEq, true_and] at h
  exact Prod.ext h.1 h.2

/-- A body in which a method that goes by the names of `Console.WriteLine(string)` is that
method, nothing refers to a call of it, the monitor is not named, and no short branch is too
short for the loads of the monitor. -/
structure PatchableBody (body : MethodBody) : Prop where
  read : body.AsRead
  well : body.WellFormed
  console : ∀ i ∈ body.instructions, ∀ called, calledMethod i.code = some called →
    GoesByWriteLine called → called = Monitor.writeLine ∧ i.ref ∉ body.references
  monitor : ∀ i ∈ body.instructions,
    i.code ≠ .ldsfld monitorRef ∧ ¬ Collects importMethod i
  branches : ShortBranchesSurvive (rewriteBody importMethod monitorRef
    [(Monitor.writeLineSignature, Monitor.consoleWriteLine)] body).instructions

/-- The bodies can be patched, and no type has an initializer. -/
structure PatchableModule (module : ModuleDefinition) : Prop where
  bodies : ∀ type ∈ module.allTypes, ∀ method ∈ type.methods, ∀ body, method.body = some body →
    PatchableBody importMethod monitorRef body
  initializers : ∀ type ∈ module.allTypes, ∀ method ∈ type.methods, method.name ≠ ".cctor"

variable {importMethod monitorRef}

theorem patchFor_writeLine_iff (i : Instruction) :
    patchFor [(Monitor.writeLineSignature, Monitor.consoleWriteLine)] i = none ↔
      ∀ called, calledMethod i.code = some called → ¬ GoesByWriteLine called := by
  rw [patchFor, Option.bind_eq_none_iff]
  apply forall_congr'
  intro called
  rw [findBySignature_writeLine_iff]

/-- The only patch method is `Console_WriteLine`. -/
theorem patchFor_writeLine_some {i : Instruction} {newMethod : MethodDefinition}
    (h : patchFor [(Monitor.writeLineSignature, Monitor.consoleWriteLine)] i = some newMethod) :
    newMethod = Monitor.consoleWriteLine ∧
      ∃ called, calledMethod i.code = some called ∧ GoesByWriteLine called := by
  obtain ⟨called, hcalled, hfound⟩ := Option.bind_eq_some_iff.mp h
  refine ⟨?_, called, hcalled, ?_⟩
  · obtain ⟨entry, hentry, rfl⟩ := Option.map_eq_some_iff.mp hfound
    rw [List.mem_singleton.mp (List.mem_of_find?_eq_some hentry)]
  · by_contra hnot
    rw [(findBySignature_writeLine_iff called).mpr hnot] at hfound
    cases hfound

theorem goesByWriteLine_writeLine : GoesByWriteLine Monitor.writeLine := ⟨rfl, rfl, rfl, rfl⟩

theorem not_writes_of_patchFor {i : Instruction}
    (h : patchFor [(Monitor.writeLineSignature, Monitor.consoleWriteLine)] i = none) :
    ¬ Writes i := by
  intro hwrites
  exact (patchFor_writeLine_iff i).mp h _ hwrites goesByWriteLine_writeLine

theorem PatchableBody.keepsPlaces {body : MethodBody}
    (h : PatchableBody importMethod monitorRef body) :
    KeepsPlaces [(Monitor.writeLineSignature, Monitor.consoleWriteLine)] body := by
  refine ⟨h.read, h.well, ?_⟩
  intro i hi href
  rw [patchFor_writeLine_iff]
  intro called hcalled hgoes
  exact (h.console i hi called hcalled hgoes).2 href

/-- A console that is printed to and a monitor that collects correspond. -/
theorem corresponds_console {methods : List MethodDefinition}
    (hbodies : ∀ method body, bodyOf methods method = some body →
      PatchableBody importMethod monitorRef body)
    (hstatic : (importMethod Monitor.consoleWriteLine).hasThis = false)
    (hparameters : (importMethod Monitor.consoleWriteLine).parameters.length = 2)
    (hother : importMethod Monitor.consoleWriteLine ≠ Monitor.writeLine)
    (base : Runtime V L X W) (monitor : V) :
    Corresponds (withConsole base) (withMonitor importMethod monitorRef monitor base) collected
      monitor methods importMethod monitorRef
      [(Monitor.writeLineSignature, Monitor.consoleWriteLine)] := by
  have hquiet : ∀ method i, InMethod methods method i →
      i.code ≠ .ldsfld monitorRef ∧ ¬ Collects importMethod i := by
    rintro method i ⟨body, hbody, hi⟩
    exact (hbodies method body hbody).monitor i hi
  have hwrites : ∀ method i newMethod, InMethod methods method i →
      patchFor [(Monitor.writeLineSignature, Monitor.consoleWriteLine)] i = some newMethod →
        Writes i := by
    rintro method i newMethod ⟨body, hbody, hi⟩ hfor
    obtain ⟨-, called, hcalled, hgoes⟩ := patchFor_writeLine_some hfor
    rw [Writes, hcalled, ((hbodies method body hbody).console i hi called hcalled hgoes).1]
  have hcollects : ∀ i newMethod,
      patchFor [(Monitor.writeLineSignature, Monitor.consoleWriteLine)] i = some newMethod →
        Collects importMethod (createPatchedCall importMethod i newMethod) ∧
          ¬ Writes (createPatchedCall importMethod i newMethod) := by
    intro i newMethod hfor
    obtain ⟨rfl, -⟩ := patchFor_writeLine_some hfor
    refine ⟨rfl, ?_⟩
    intro hwrites
    exact hother (Option.some.inj hwrites)
  refine
    { plain := ?_, indirectArguments := rfl, target := ?_, external := ?_, allocate := ?_
      enter := rfl, returns := rfl, dispatch := fun _ _ _ _ _ => rfl, leave := rfl
      monitorLoad := ?_, argumentCount := ?_, patchTarget := ?_, patchCall := ?_ }
  · intro method i stack locals world hin hfor
    simp only [withMonitor, withConsole, if_neg (hquiet method i hin).1, collected]
    cases base.plain method i stack locals world.1 <;> rfl
  · intro method i arguments world hin hfor
    have hneither : ¬ (Writes i ∨ Collects importMethod i) :=
      not_or.mpr ⟨not_writes_of_patchFor hfor, (hquiet method i hin).2⟩
    simp only [withMonitor, withConsole, if_neg hneither, if_neg (not_writes_of_patchFor hfor),
      collected]
  · intro method i arguments world hin hfor
    simp only [withMonitor, withConsole, if_neg (not_writes_of_patchFor hfor),
      if_neg (hquiet method i hin).2, collected]
    cases base.external method i arguments world.1 <;> rfl
  · intro operand world
    rfl
  · intro method i newMethod stack locals world hfor
    simp only [withMonitor, createMonitorLoad, if_true]
  · intro method i newMethod hfor
    obtain ⟨rfl, called, hcalled, -, -, hthis, hone⟩ := patchFor_writeLine_some hfor
    have hlength : called.parameters.length = 1 := by
      have hnames := congrArg List.length hone
      simpa only [List.length_map, List.length_singleton] using hnames
    have hcount : argumentCount (withConsole base) method i = some 1 := by
      cases hcode : i.code with
      | call operand | callvirt operand =>
          rw [hcode] at hcalled
          cases hcalled
          simp [argumentCount, hcode, hthis, hlength]
      | newobj | calli | branch | switch | ldsfld | other =>
          rw [hcode] at hcalled
          cases hcalled
    rw [hcount]
    simp [argumentCount, createPatchedCall, hstatic, hparameters]
  · intro method i newMethod arguments world hin hfor
    simp only [withMonitor, withConsole, if_pos (hwrites method i newMethod hin hfor), true_and,
      if_pos (Or.inr (hcollects i newMethod hfor).1)]
  · intro method i newMethod arguments world hin hfor
    simp only [withMonitor, withConsole, if_pos (hwrites method i newMethod hin hfor),
      if_neg (hcollects i newMethod hfor).2, if_pos (hcollects i newMethod hfor).1, collected,
      List.tail_cons, Sum.map_inl, Prod.map, id]

section Patched

variable {stringHash : String → UInt32} {buckets : Nat} {monitorTypeRef : TypeReference}
  {className : String} {module patched : ModuleDefinition}
  (hmodule : PatchableModule importMethod ⟨monitorFieldName, monitorTypeRef⟩ module)
  (hstatic : (importMethod Monitor.consoleWriteLine).hasThis = false)
  (hparameters : (importMethod Monitor.consoleWriteLine).parameters.length = 2)
  (hother : importMethod Monitor.consoleWriteLine ≠ Monitor.writeLine)
  (hpatched : patchAssembly stringHash importMethod buckets Monitor.typeDefinition
    monitorTypeRef module className = .ok patched)

include hmodule hpatched in
theorem patched_eq_rewriteModule : patched = rewriteModule importMethod
    ⟨monitorFieldName, monitorTypeRef⟩ [(Monitor.writeLineSignature, Monitor.consoleWriteLine)]
    className module :=
  patched_eq_rewrite
    (fun type htype method hmem found hfound =>
      (hmodule.bodies type htype method hmem found hfound).read)
    (Monitor.methodPatches_eq stringHash buckets) hpatched

include hmodule hstatic hparameters hother hpatched in
/-- What a method of the patched snippet ends with is what it ended with, collected. -/
theorem patchedRun_iff (base : Runtime V L X W) (monitor : V) {method : Nat} {body : MethodBody}
    (hmethod : bodyOf (methodsOf module) method = some body) (arguments : List V) (world : W)
    (outcome' : Outcome V X (W × List V × List V)) :
    let before := withConsole base
    let after := withMonitor importMethod ⟨monitorFieldName, monitorTypeRef⟩ monitor base
    Machine.Finishes (step after (methodsOf patched))
        (start after (methodsOf patched) method arguments (world, [], [])) outcome' ↔
      ∃ outcome, Machine.Finishes (step before (methodsOf module))
        (start before (methodsOf module) method arguments (world, [])) outcome ∧
        outcome' = mapOutcome collected outcome := by
  intro before after
  have hbody : ∀ index found, bodyOf (methodsOf module) index = some found →
      PatchableBody importMethod ⟨monitorFieldName, monitorTypeRef⟩ found := by
    intro index found hfound
    obtain ⟨definition, hdefinition, hin⟩ := Option.bind_eq_some_iff.mp hfound
    obtain ⟨type, htype, hmem⟩ := List.mem_flatMap.mp (List.mem_of_getElem? hdefinition)
    exact hmodule.bodies type htype definition hmem found hin
  have hmethods : methodsOf patched = patchedMethods (methodsOf module) importMethod
      ⟨monitorFieldName, monitorTypeRef⟩
      [(Monitor.writeLineSignature, Monitor.consoleWriteLine)] := by
    rw [patched_eq_rewriteModule hmodule hpatched]
    exact methodsOf_rewriteModule _ _ _ className module
  have hfollows := follows_patched
    (corresponds_console hbody hstatic hparameters hother base monitor)
    (fun index found hfound => (hbody index found hfound).keepsPlaces)
  have hstart : start after (methodsOf patched) method arguments (world, [], []) =
      patchConfig importMethod ⟨monitorFieldName, monitorTypeRef⟩
        [(Monitor.writeLineSignature, Monitor.consoleWriteLine)] collected
        (start before (methodsOf module) method arguments (world, [])) := by
    simp only [start, hmethods, bodyOf_patchedMethods, hmethod, Option.map_some, Option.getD_some]
    rfl
  have hplaced : ∀ frame ∈ (start before (methodsOf module) method arguments
      (world, [])).frames, Placed (methodsOf module) frame :=
    start_placed hmethod arguments (world, [])
  rw [← hmethods] at hfollows
  constructor
  · exact hfollows.backward ⟨hplaced, hstart⟩
  · rintro ⟨outcome, hfinishes, rfl⟩
    exact (hfollows.finishes_iff (mapOutcome_injective collected_injective) ⟨hplaced, hstart⟩
      outcome).mpr hfinishes

end Patched

/-- `if (args != null) Console.WriteLine("Hello");` with its branch to the return. -/
def greeting : MethodBody :=
  ⟨[⟨.read 0, .other 2 1⟩, ⟨.read 1, .branch .brfalse true (.read 4)⟩, ⟨.read 2, .other 114 5⟩,
    ⟨.read 3, .call Monitor.writeLine⟩, ⟨.read 4, .other 42 1⟩], []⟩

def greetingModule : ModuleDefinition :=
  ⟨[.mk "Snippets.SnippetText" [] [⟨"SnippetMain", [], [], some greeting⟩] []]⟩

/-- Values are strings, and the argument of the method is loaded, tested and not null. -/
def greetingRuntime : Runtime String (List String) Unit Unit where
  plain _ i stack locals world :=
    match i.code with
    | .other 2 _ => .next (locals ++ stack) locals world
    | .branch _ _ _ => .next stack.tail locals world
    | .other 114 _ => .next ("Hello" :: stack) locals world
    | .other 42 _ => .ret
    | _ => .invalid
  indirectArguments _ _ := 0
  target _ _ _ _ := none
  external _ _ _ world := .inl (none, world)
  allocate _ world := ("", world)
  enter _ arguments := arguments
  returns _ := false
  dispatch _ _ _ _ _ := none
  leave _ _ target locals := (target, locals)

theorem forall_greeting {P : MethodBody → Prop} (h : P greeting) :
    ∀ type ∈ greetingModule.allTypes, ∀ method ∈ type.methods, ∀ body,
      method.body = some body → P body := by
  intro type htype method hmethod body hbody
  rw [List.mem_singleton.mp htype] at hmethod
  rw [List.mem_singleton.mp hmethod] at hbody
  cases hbody
  exact h

/-- The greeting after the patching. -/
def patchedGreeting : ModuleDefinition :=
  rewriteModule Monitor.importMethod ⟨monitorFieldName, Monitor.typeRef⟩
    [(Monitor.writeLineSignature, Monitor.consoleWriteLine)] "Snippets.SnippetText" greetingModule

theorem patchAssembly_greeting :
    patchAssembly (fun text => UInt32.ofNat text.length) Monitor.importMethod 3
      Monitor.typeDefinition Monitor.typeRef greetingModule "Snippets.SnippetText" =
        .ok patchedGreeting := by
  refine patchAssembly_of_bodies rfl (forall_greeting (by decide)) (Monitor.methodPatches_eq _ 3) ?_
  intro type htype method hmethod
  rw [List.mem_singleton.mp htype] at hmethod
  rw [List.mem_singleton.mp hmethod]
  exact Option.some_ne_none greeting

theorem patchableBody_greeting :
    PatchableBody Monitor.importMethod ⟨monitorFieldName, Monitor.typeRef⟩ greeting := by
  refine ⟨by decide, by decide, ?_, by decide, ?_⟩
  · intro i hi called hcalled hgoes
    simp only [greeting, List.mem_cons, List.not_mem_nil, or_false] at hi
    rcases hi with rfl | rfl | rfl | rfl | rfl
    all_goals cases hcalled
    exact ⟨rfl, by decide⟩
  · -- the only branch, over the string, the load of the monitor and the call
    intro i hi opCode target hcode
    have hpatched : (rewriteBody Monitor.importMethod ⟨monitorFieldName, Monitor.typeRef⟩
        [(Monitor.writeLineSignature, Monitor.consoleWriteLine)] greeting).instructions =
        [⟨.read 0, .other 2 1⟩, ⟨.read 1, .branch .brfalse true (.read 4)⟩,
          ⟨.read 2, .other 114 5⟩,
          ⟨.monitorLoad (.read 3), .ldsfld ⟨monitorFieldName, Monitor.typeRef⟩⟩,
          ⟨.patchedCall (.read 3), .call (Monitor.importMethod Monitor.consoleWriteLine)⟩,
          ⟨.read 4, .other 42 1⟩] := rfl
    rw [hpatched] at hi ⊢
    simp only [List.mem_cons, List.not_mem_nil, or_false] at hi
    rcases hi with rfl | rfl | rfl | rfl | rfl | rfl
    all_goals cases hcode
    exact ⟨1, 18, rfl, rfl, by decide, by decide⟩

theorem patchableModule_greeting :
    PatchableModule Monitor.importMethod ⟨monitorFieldName, Monitor.typeRef⟩ greetingModule := by
  refine ⟨forall_greeting patchableBody_greeting, ?_⟩
  intro type htype method hmethod
  rw [List.mem_singleton.mp htype] at hmethod
  rw [List.mem_singleton.mp hmethod]
  decide

end Console

end HostedPumpkin.SnippetCompiler
