import HostedPumpkin.Library.Runs
import HostedPumpkin.Library.Utf16

/-!
The COM objects the host hands out: heaps from `CreateMalloc`, file streams from
`ProvideAssembly`, the assembly store from `GetAssemblyStore`. Each deletes
itself when a `Release` brings its counter to zero. The constructors start the
counter at zero, and the methods that hand an object out do not count the
reference they give away.

An object also carries what no code keeps: the clients that own a reference to
it, once for each reference, and how often it was handed out.
-/

namespace HostedPumpkin

open Runs

/-- Who holds references; the code does not know its clients. -/
abbrev Client := Nat

/-- `m_cRef` is a `LONG` that wraps around. -/
structure ComObject where
  cRef : UInt32
  deleted : Bool
  owners : List Client
  handedOut : Nat
deriving DecidableEq

namespace ComObject

/-- A constructed object whose pointer is returned to a client. -/
def new (client : Client) : ComObject := ⟨0, false, [client], 1⟩

/-- The pointer is returned once more. -/
def handOut (client : Client) (o : ComObject) : ComObject :=
  { o with owners := client :: o.owners, handedOut := o.handedOut + 1 }

def addRef (client : Client) (o : ComObject) : ComObject :=
  { o with cRef := o.cRef + 1, owners := client :: o.owners }

/-- `if (InterlockedDecrement(&m_cRef) == 0) delete this`. -/
def release (client : Client) (o : ComObject) : ComObject :=
  { o with
    cRef := o.cRef - 1
    deleted := o.cRef - 1 == 0
    owners := o.owners.erase client }

end ComObject

inductive EBindPolicyLevels where
  | ePolicyLevelNone
  | ePolicyLevelRetargetable
  | ePolicyUnifiedToCLR
  | ePolicyLevelApp
  | ePolicyLevelPublisher
  | ePolicyLevelHost
  | ePolicyLevelAdmin
deriving DecidableEq, Repr

structure AssemblyBindInfo where
  lpPostPolicyIdentity : List Utf16.CodeUnit
  ePolicyLevel : EBindPolicyLevels
deriving DecidableEq

structure AssemblyInfo where
  fullName : List Utf16.CodeUnit
  assemblyLoadPath : List Utf16.CodeUnit
  assemblyDebugInfoPath : List Utf16.CodeUnit
deriving DecidableEq

/-- What `ProvideAssembly` sets: the id, and which streams it returns. -/
structure ProvidedAssembly where
  succeeded : Bool
  pAssemblyId : Option UInt64
  stmAssemblyImage : Bool
  stmPDB : Bool
deriving DecidableEq

namespace SHAssemblyStore

/-- `towlower` in the C locale. -/
def towlower (c : Utf16.CodeUnit) : Utf16.CodeUnit := if 65 ≤ c ∧ c ≤ 90 then c + 32 else c

/-- `_wcsnicmp(first, second, count) == 0`; a string ends with its list. -/
def wcsnicmpEqual : List Utf16.CodeUnit → List Utf16.CodeUnit → Nat → Bool
  | _, _, 0 => true
  | [], [], _ + 1 => true
  | [], c :: _, _ + 1 | c :: _, [], _ + 1 => c == 0
  | c :: first, d :: second, count + 1 =>
      towlower c == towlower d && (c == 0 || wcsnicmpEqual first second count)

def sameAssembly (availableName requiredName : List Utf16.CodeUnit) : Bool :=
  requiredName.length == availableName.length &&
    wcsnicmpEqual availableName requiredName availableName.length

/-- The search of `ProvideAssembly`; `opens` says which files can be opened. -/
def provideFrom (opens : List Utf16.CodeUnit → Bool) (identity : List Utf16.CodeUnit) :
    UInt64 → List AssemblyInfo → ProvidedAssembly
  | _, [] => ⟨false, none, false, false⟩
  | id, it :: rest =>
      if sameAssembly it.fullName identity then
        if it.assemblyLoadPath.isEmpty || !opens it.assemblyLoadPath then
          ⟨false, some id, false, false⟩
        else
          ⟨true, some id, true,
            !it.assemblyDebugInfoPath.isEmpty && opens it.assemblyDebugInfoPath⟩
      else provideFrom opens identity (id + 1) rest

def provideAssembly (hostAssemblies : List AssemblyInfo) (opens : List Utf16.CodeUnit → Bool)
    (pBindInfo : AssemblyBindInfo) : ProvidedAssembly :=
  if pBindInfo.ePolicyLevel = .ePolicyLevelAdmin then ⟨false, none, false, false⟩
  else provideFrom opens pBindInfo.lpPostPolicyIdentity 10000 hostAssemblies

end SHAssemblyStore

/-- The objects in the order of their creation, and the store the assembly
manager keeps a pointer to. A stream whose file does not open reaches nobody and
is left out. -/
structure HandedOut where
  hostAssemblies : List AssemblyInfo
  objects : List ComObject
  assemblyStore : Option Nat
deriving DecidableEq

inductive ComFault where
  | disabled
  | useAfterFree
deriving DecidableEq, Repr

inductive ComAction where
  | createMalloc (client : Client)
  | provideAssembly (client : Client) (pBindInfo : AssemblyBindInfo)
      (opens : List Utf16.CodeUnit → Bool)
  | getAssemblyStore (client : Client)
  | addRef (client : Client) (object : Nat)
  | release (client : Client) (object : Nat)

namespace HandedOut

def initial (hostAssemblies : List AssemblyInfo) : HandedOut := ⟨hostAssemblies, [], none⟩

def createMalloc (s : HandedOut) (client : Client) : HandedOut :=
  { s with objects := s.objects ++ [ComObject.new client] }

def provideAssembly (s : HandedOut) (client : Client) (pBindInfo : AssemblyBindInfo)
    (opens : List Utf16.CodeUnit → Bool) : HandedOut :=
  let provided := SHAssemblyStore.provideAssembly s.hostAssemblies opens pBindInfo
  let streams := [provided.stmAssemblyImage, provided.stmPDB].filter id
  { s with objects := s.objects ++ streams.map (fun _ => ComObject.new client) }

def getAssemblyStore (s : HandedOut) (client : Client) : HandedOut :=
  match s.assemblyStore with
  | none =>
      { s with
        objects := s.objects ++ [ComObject.new client]
        assemblyStore := some s.objects.length }
  | some object => { s with objects := s.objects.modify object (ComObject.handOut client) }

/-- A call through a pointer that somebody owns a reference for. -/
def call (s : HandedOut) (object : Nat) (allowed : ComObject → Bool)
    (method : ComObject → ComObject) : Except ComFault HandedOut :=
  match s.objects[object]? with
  | none => .error .disabled
  | some o =>
      if !allowed o then .error .disabled
      else if o.deleted then .error .useAfterFree
      else .ok { s with objects := s.objects.modify object method }

/-- Anyone may add a reference while there is one; a client releases only what
it owns. -/
def step (s : HandedOut) : ComAction → Except ComFault HandedOut
  | .createMalloc client => .ok (s.createMalloc client)
  | .provideAssembly client pBindInfo opens => .ok (s.provideAssembly client pBindInfo opens)
  | .getAssemblyStore client => .ok (s.getAssemblyStore client)
  | .addRef client object =>
      s.call object (fun o => !o.owners.isEmpty) (ComObject.addRef client)
  | .release client object =>
      s.call object (fun o => o.owners.contains client) (ComObject.release client)

/-- An object is deleted if and only if nobody owns a reference to it. -/
def LivesWhileOwned (s : HandedOut) : Prop :=
  ∀ o ∈ s.objects, o.deleted = true ↔ o.owners = []

/-- The counter misses the references that were handed out. -/
def Counted (s : HandedOut) : Prop :=
  ∀ o ∈ s.objects, o.cRef + UInt32.ofNat o.handedOut = UInt32.ofNat o.owners.length

theorem mem_modify {objects : List ComObject} {object : Nat} {method : ComObject → ComObject}
    {o : ComObject} (h : o ∈ objects.modify object method) :
    o ∈ objects ∨ ∃ before, objects[object]? = some before ∧ o = method before := by
  obtain ⟨i, hi⟩ := List.getElem?_of_mem h
  rw [List.getElem?_modify] at hi
  obtain ⟨before, hbefore, rfl⟩ := Option.map_eq_some_iff.mp hi
  split
  next heq =>
    subst heq
    exact Or.inr ⟨before, hbefore, rfl⟩
  next => exact Or.inl (List.mem_of_getElem? hbefore)

theorem modify_mem {objects : List ComObject} {object : Nat} {o : ComObject}
    (h : objects[object]? = some o) (method : ComObject → ComObject) :
    method o ∈ objects.modify object method := by
  refine List.mem_of_getElem? (i := object) ?_
  simp [h]

theorem call_ok_iff {s next : HandedOut} {object : Nat} {allowed : ComObject → Bool}
    {method : ComObject → ComObject} :
    s.call object allowed method = .ok next ↔
      ∃ o, s.objects[object]? = some o ∧ allowed o = true ∧ o.deleted = false ∧
        next = { s with objects := s.objects.modify object method } := by
  constructor
  · intro h
    simp only [call] at h
    split at h
    next => cases h
    next o ho =>
      split at h
      next => cases h
      next hallowed =>
        split at h
        next => cases h
        next hdeleted =>
          cases h
          exact ⟨o, ho, by simpa using hallowed, by simpa using hdeleted, rfl⟩
  · rintro ⟨o, ho, hallowed, hdeleted, rfl⟩
    simp [call, ho, hallowed, hdeleted]

/-- What holds of new objects and is kept by whatever is called on one of them
holds of all objects. -/
theorem step_forall {P : ComObject → Prop} {s next : HandedOut} {a : ComAction}
    (hs : ∀ o ∈ s.objects, P o) (hnew : ∀ client, P (ComObject.new client))
    (hhandOut : ∀ client i o, a = .getAssemblyStore client → s.assemblyStore = some i →
      s.objects[i]? = some o → P o → P (o.handOut client))
    (haddRef : ∀ client i o, a = .addRef client i → s.objects[i]? = some o →
      o.owners ≠ [] → o.deleted = false → P o → P (o.addRef client))
    (hrelease : ∀ client i o, a = .release client i → s.objects[i]? = some o →
      client ∈ o.owners → o.deleted = false → P o → P (o.release client))
    (h : s.step a = .ok next) : ∀ o ∈ next.objects, P o := by
  intro o ho
  have hmem : ∀ {i o}, s.objects[i]? = some o → P o := fun hi => hs _ (List.mem_of_getElem? hi)
  cases a with
  | createMalloc client =>
      cases h
      rcases List.mem_append.mp ho with ho | ho
      · exact hs o ho
      · rw [List.mem_singleton.mp ho]
        exact hnew client
  | provideAssembly client pBindInfo opens =>
      cases h
      rcases List.mem_append.mp ho with ho | ho
      · exact hs o ho
      · obtain ⟨stream, -, rfl⟩ := List.mem_map.mp ho
        exact hnew client
  | getAssemblyStore client =>
      cases h
      simp only [getAssemblyStore] at ho
      split at ho
      next =>
        rcases List.mem_append.mp ho with ho | ho
        · exact hs o ho
        · rw [List.mem_singleton.mp ho]
          exact hnew client
      next i hstore =>
        rcases mem_modify ho with ho | ⟨before, hbefore, rfl⟩
        · exact hs o ho
        · exact hhandOut client i before rfl hstore hbefore (hmem hbefore)
  | addRef client i =>
      obtain ⟨before, hbefore, howned, hdeleted, rfl⟩ := call_ok_iff.mp h
      rcases mem_modify ho with ho | ⟨before', hbefore', rfl⟩
      · exact hs o ho
      · rw [hbefore] at hbefore'
        cases hbefore'
        exact haddRef client i before rfl hbefore (by simpa using howned) hdeleted
          (hmem hbefore)
  | release client i =>
      obtain ⟨before, hbefore, howned, hdeleted, rfl⟩ := call_ok_iff.mp h
      rcases mem_modify ho with ho | ⟨before', hbefore', rfl⟩
      · exact hs o ho
      · rw [hbefore] at hbefore'
        cases hbefore'
        exact hrelease client i before rfl hbefore (by simpa using howned) hdeleted
          (hmem hbefore)

theorem step_counted (s : HandedOut) (a : ComAction) (next : HandedOut) (hs : s.Counted)
    (h : s.step a = .ok next) : next.Counted := by
  refine step_forall hs ?_ ?_ ?_ ?_ h
  · intro client
    rfl
  · intro client i o _ _ _ ho
    simp only [ComObject.handOut, List.length_cons, UInt32.ofNat_add]
    rw [← UInt32.add_assoc, ho]
  · intro client i o _ _ _ _ ho
    simp only [ComObject.addRef, List.length_cons, UInt32.ofNat_add]
    rw [← ho]
    grind
  · intro client i o _ _ howned _ ho
    have hlength : o.owners.length = (o.owners.erase client).length + 1 :=
      (List.length_erase_add_one howned).symm
    rw [hlength, UInt32.ofNat_add] at ho
    simp only [ComObject.release]
    grind

/-- The counter reaches zero when as many references are owned as the object was
handed out, and one more. -/
theorem release_deleted_iff {o : ComObject}
    (ho : o.cRef + UInt32.ofNat o.handedOut = UInt32.ofNat o.owners.length) (client : Client) :
    (o.release client).deleted = true ↔
      o.owners.length % 2 ^ 32 = (o.handedOut + 1) % 2 ^ 32 := by
  have hcount : o.cRef - 1 = 0 ↔
      UInt32.ofNat o.owners.length = UInt32.ofNat (o.handedOut + 1) := by
    rw [← ho, UInt32.ofNat_add]
    grind
  have hmod : UInt32.ofNat o.owners.length = UInt32.ofNat (o.handedOut + 1) ↔
      o.owners.length % 2 ^ 32 = (o.handedOut + 1) % 2 ^ 32 := by
    rw [← UInt32.toNat_inj, UInt32.toNat_ofNat', UInt32.toNat_ofNat']
  simp only [ComObject.release, beq_iff_eq]
  rw [hcount, hmod]

/-- A `Release` finds one reference owned if and only if it finds one more owned
than the object was handed out, as far as 32 bits tell; and a store that is
handed out again is still owned. For an object handed out once this means that
neither the last reference is released nor the last but one. -/
def ReleasesInTime (s : HandedOut) : ComAction → Prop
  | .release client i => ∀ o, s.objects[i]? = some o → client ∈ o.owners →
      (o.owners.length % 2 ^ 32 = (o.handedOut + 1) % 2 ^ 32 ↔ o.owners.length = 1)
  | .getAssemblyStore _ => ∀ i o, s.assemblyStore = some i → s.objects[i]? = some o →
      o.owners ≠ []
  | .createMalloc _ | .provideAssembly _ _ _ | .addRef _ _ => True

theorem erase_eq_nil_iff {owners : List Client} {client : Client} (h : client ∈ owners) :
    owners.erase client = [] ↔ owners.length = 1 := by
  rw [← List.length_eq_zero_iff, List.length_erase_of_mem h]
  have hpos := List.length_pos_of_mem h
  omega

theorem not_deleted {s : HandedOut} (hs : s.LivesWhileOwned) {i : Nat} {o : ComObject}
    (hi : s.objects[i]? = some o) (howned : o.owners ≠ []) : o.deleted = false := by
  have ho := hs o (List.mem_of_getElem? hi)
  rw [← Bool.not_eq_true, ho]
  exact howned

theorem step_livesWhileOwned_iff (s : HandedOut) (a : ComAction) (hs : s.LivesWhileOwned)
    (hcounted : s.Counted) :
    s.ReleasesInTime a ↔ ∀ next, s.step a = .ok next → next.LivesWhileOwned := by
  constructor
  · intro hcond next h
    refine step_forall hs ?_ ?_ ?_ ?_ h
    · intro client
      simp [ComObject.new]
    · rintro client i o rfl hstore hi -
      have halive := not_deleted hs hi (hcond i o hstore hi)
      simp [ComObject.handOut, halive]
    · rintro client i o - - - halive -
      simp [ComObject.addRef, halive]
    · rintro client i o rfl hi howned - -
      rw [release_deleted_iff (hcounted o (List.mem_of_getElem? hi)), hcond o hi howned]
      exact (erase_eq_nil_iff howned).symm
  · intro hnext
    cases a with
    | createMalloc client | provideAssembly client pBindInfo opens | addRef client i => trivial
    | getAssemblyStore client =>
        intro i o hstore hi
        have hmem : o.handOut client ∈ (s.getAssemblyStore client).objects := by
          simp only [getAssemblyStore, hstore]
          exact modify_mem hi (ComObject.handOut client)
        have hiff := hnext _ rfl _ hmem
        intro hnone
        have hdeleted := (hs o (List.mem_of_getElem? hi)).mpr hnone
        have hempty : client :: o.owners = [] := hiff.mp hdeleted
        cases hempty
    | release client i =>
        intro o hi howned
        have halive := not_deleted hs hi (List.ne_nil_of_mem howned)
        have hstep : s.step (.release client i) =
            .ok { s with objects := s.objects.modify i (ComObject.release client) } :=
          call_ok_iff.mpr ⟨o, hi, by simpa using howned, halive, rfl⟩
        have hiff := hnext _ hstep _ (modify_mem hi (ComObject.release client))
        rw [← release_deleted_iff (hcounted o (List.mem_of_getElem? hi)) client, hiff]
        exact erase_eq_nil_iff howned

/-- Every object lives exactly as long as somebody owns a reference to it, if and
only if every step of the run releases in time. -/
theorem lives_while_owned_iff (hostAssemblies : List AssemblyInfo) (actions : List ComAction) :
    Always step LivesWhileOwned (initial hostAssemblies) actions ↔
      Meets step ReleasesInTime (initial hostAssemblies) actions := by
  have hinitial : ∀ {P : ComObject → Prop}, ∀ o ∈ (initial hostAssemblies).objects, P o := by
    intro P o ho
    cases ho
  have hcounted := always_of_step step_counted hinitial actions
  exact always_iff_meets_of_meets (fun s a hs hcounted => step_livesWhileOwned_iff s a hs hcounted)
    hinitial hcounted.meets

/-- A heap is deleted by a client's first `Release` after its `AddRef`, while the
reference it got the heap with is still owned. -/
theorem heap_deleted_while_owned :
    (∃ s, run step (initial []) [.createMalloc 1, .addRef 1 0, .release 1 0] = .ok s ∧
      s.objects = [⟨0, true, [1], 1⟩]) ∧
    (∃ s, run step (initial []) [.createMalloc 1, .release 1 0] = .ok s ∧
      s.objects = [⟨4294967295, false, [], 1⟩]) ∧
    ¬ ∀ actions, Always step LivesWhileOwned (initial []) actions := by
  have hearly : Reaches step (fun s => s.objects = [⟨0, true, [1], 1⟩]) (initial [])
      [.createMalloc 1, .addRef 1 0, .release 1 0] := by decide
  have hnever : Reaches step (fun s => s.objects = [⟨4294967295, false, [], 1⟩]) (initial [])
      [.createMalloc 1, .release 1 0] := by decide
  refine ⟨reaches_iff.mp hearly, reaches_iff.mp hnever, ?_⟩
  intro hall
  obtain ⟨s, hrun, hobjects⟩ := reaches_iff.mp hearly
  have hlives := (hall _).last hrun ⟨0, true, [1], 1⟩ (by simp [hobjects])
  have hempty := hlives.mp rfl
  cases hempty

end HandedOut

end HostedPumpkin
