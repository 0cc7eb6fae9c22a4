import HostedPumpkin.Host.MemoryRecords

/-!
`SHMalloc`, the allocator the host gives to the CLR. `Alloc` asks the host
whether the thread's domain has room, allocates from the heap and tells the
host; these are three separate steps, each atomic by itself, and any number of
threads take them in any order. `Free` gives the block back to the heap first
and tells the host afterwards. The heaps of all `SHMalloc` objects are one map
here, since their addresses are disjoint.

A call remembers the domain its thread was mapped to when the host was asked,
and a block remembers that domain and how it was charged; no step reads either.
-/

namespace HostedPumpkin

inductive EMemoryCriticalLevel where
  | eTaskCritical
  | eAppDomainCritical
  | eProcessCritical
deriving DecidableEq, Repr

/-- `eCriticalLevel > eTaskCritical`. -/
def EMemoryCriticalLevel.aboveTask : EMemoryCriticalLevel → Bool
  | .eTaskCritical => false
  | .eAppDomainCritical | .eProcessCritical => true

/-- What a thread asked for, and the domain it was mapped to. -/
structure Request where
  cbSize : LONG
  eCriticalLevel : EMemoryCriticalLevel
  domain : Option DWORD
deriving DecidableEq

/-- The domain a block was charged to, and whether `insert` recorded it there. -/
structure Charge where
  appDomainId : DWORD
  recorded : Bool
deriving DecidableEq

structure HeapBlock where
  request : Request
  charge : Option Charge
deriving DecidableEq

/-- Where a thread is inside `SHMalloc`. -/
inductive MallocCall where
  /-- `OnMemoryAcquiring` let the request pass. -/
  | requested (request : Request)
  /-- `HeapAlloc` returned the address. -/
  | allocated (request : Request) (address : PVOID)
  /-- `HeapFree` returned. -/
  | freed (pMem : PVOID)
deriving DecidableEq

structure MallocSystem where
  host : HostContext
  heap : StdMap PVOID HeapBlock
  calls : StdMap DWORD MallocCall

inductive MallocFault where
  | disabled
  | host (fault : HostFault)
deriving DecidableEq, Repr

inductive MallocAction where
  | onMemoryAcquiring (dwThreadId : DWORD) (cbSize : LONG)
      (eCriticalLevel : EMemoryCriticalLevel)
  | heapAlloc (dwThreadId : DWORD) (ppMem : Option PVOID)
  | onMemoryAcquire (dwThreadId : DWORD)
  | heapFree (dwThreadId : DWORD) (pMem : PVOID)
  | onMemoryRelease (dwThreadId : DWORD)
  | host (op : HostOp)
deriving DecidableEq

/-- The calls of the host that are not made by `SHMalloc` and reset nothing. -/
def HostOp.Outside : HostOp → Prop
  | .onMemoryAcquire _ _ _ | .onMemoryRelease _ | .rawResetCountersForAppDomain _ => False
  | _ => True

instance (op : HostOp) : Decidable op.Outside :=
  match op with
  | .onMemoryAcquire .. | .onMemoryRelease .. | .rawResetCountersForAppDomain .. =>
      isFalse not_false
  | .postHostMessage .. | .onDomainRudeUnload .. | .rawGetLastMessage .. | .onDomainUnload ..
  | .onDomainCreate .. | .onThreadAcquiring .. | .onThreadAcquire .. | .onThreadRelease .. =>
      isTrue trivial

namespace MallocSystem

def initial : MallocSystem := ⟨HostContext.initial, ∅, ∅⟩

/-- The block is in the hands of an `Alloc` that has not returned. -/
def Held (address : PVOID) : MallocCall → Prop
  | .allocated _ held => held = address
  | _ => False

instance (address : PVOID) (call : MallocCall) : Decidable (Held address call) := by
  cases call <;> unfold Held <;> infer_instance

/-- The first step of `InternalAlloc`, with the test that follows it. -/
def onMemoryAcquiring (s : MallocSystem) (dwThreadId : DWORD) (cbSize : LONG)
    (eCriticalLevel : EMemoryCriticalLevel) : Except MallocFault MallocSystem :=
  match s.calls.lookup dwThreadId with
  | some _ => .error .disabled
  | none =>
      let belowMemoryLimit := s.host.onMemoryAcquiring dwThreadId cbSize
      if eCriticalLevel.aboveTask || belowMemoryLimit then
        .ok { s with calls := s.calls.set dwThreadId (.requested
          ⟨cbSize, eCriticalLevel, s.host.threadAppDomain.lookup dwThreadId⟩) }
      else .ok s

/-- `HeapAlloc` returns nothing or a block that is not in use. -/
def heapAlloc (s : MallocSystem) (dwThreadId : DWORD) (ppMem : Option PVOID) :
    Except MallocFault MallocSystem :=
  match s.calls.lookup dwThreadId, ppMem with
  | some (.requested _), none => .ok { s with calls := s.calls.remove dwThreadId }
  | some (.requested request), some address =>
      if address ∉ s.heap ∧ address ≠ 0 then
        .ok { s with
          heap := s.heap.set address ⟨request, none⟩
          calls := s.calls.set dwThreadId (.allocated request address) }
      else .error .disabled
  | _, _ => .error .disabled

/-- How `OnMemoryAcquire` charges a block. -/
def chargeOf (c : DomainData) (dwThreadId : DWORD) (address : PVOID) : Option Charge :=
  (c.chargedDomain dwThreadId).map
    (fun domain => ⟨domain, (c.memoryAppDomain.lookup address).isNone⟩)

def onMemoryAcquire (s : MallocSystem) (dwThreadId : DWORD) :
    Except MallocFault MallocSystem :=
  match s.calls.lookup dwThreadId with
  | some (.allocated request address) =>
      .ok {
        host := { s.host with toDomainData :=
          s.host.toDomainData.onMemoryAcquire dwThreadId request.cbSize address }
        heap := s.heap.set address
          ⟨request, chargeOf s.host.toDomainData dwThreadId address⟩
        calls := s.calls.remove dwThreadId }
  | _ => .error .disabled

/-- A block is freed at most once and only after `Alloc` has returned it; a
null pointer may be freed too. -/
def heapFree (s : MallocSystem) (dwThreadId : DWORD) (pMem : PVOID) :
    Except MallocFault MallocSystem :=
  match s.calls.lookup dwThreadId with
  | some _ => .error .disabled
  | none =>
      if (pMem = 0 ∨ pMem ∈ s.heap) ∧ s.calls.AllValues (fun call => ¬ Held pMem call) then
        .ok { s with
          heap := s.heap.remove pMem
          calls := s.calls.set dwThreadId (.freed pMem) }
      else .error .disabled

def onMemoryRelease (s : MallocSystem) (dwThreadId : DWORD) :
    Except MallocFault MallocSystem :=
  match s.calls.lookup dwThreadId with
  | some (.freed pMem) =>
      .ok { s with
        host := { s.host with toDomainData := (s.host.toDomainData.onMemoryRelease pMem).1 }
        calls := s.calls.remove dwThreadId }
  | _ => .error .disabled

def step (s : MallocSystem) : MallocAction → Except MallocFault MallocSystem
  | .onMemoryAcquiring dwThreadId cbSize eCriticalLevel =>
      s.onMemoryAcquiring dwThreadId cbSize eCriticalLevel
  | .heapAlloc dwThreadId ppMem => s.heapAlloc dwThreadId ppMem
  | .onMemoryAcquire dwThreadId => s.onMemoryAcquire dwThreadId
  | .heapFree dwThreadId pMem => s.heapFree dwThreadId pMem
  | .onMemoryRelease dwThreadId => s.onMemoryRelease dwThreadId
  | .host op =>
      if op.Outside then
        match s.host.step op with
        | .ok host => .ok { s with host }
        | .error fault => .error (.host fault)
      else .error .disabled

/-! What each step can do. -/

theorem onMemoryAcquiring_ok {s next : MallocSystem} {thread : DWORD} {cbSize : LONG}
    {level : EMemoryCriticalLevel} (h : s.onMemoryAcquiring thread cbSize level = .ok next) :
    s.calls.lookup thread = none ∧
      (next = s ∨
        ((level.aboveTask = true ∨ s.host.onMemoryAcquiring thread cbSize = true) ∧
          next = { s with calls := s.calls.set thread (.requested
            ⟨cbSize, level, s.host.threadAppDomain.lookup thread⟩) })) := by
  simp only [onMemoryAcquiring] at h
  split at h
  next => cases h
  next hidle =>
    refine ⟨hidle, ?_⟩
    split at h
    next hpass =>
      cases h
      exact Or.inr ⟨Bool.or_eq_true_iff.mp hpass, rfl⟩
    next =>
      cases h
      exact Or.inl rfl

theorem heapAlloc_ok {s next : MallocSystem} {thread : DWORD} {ppMem : Option PVOID}
    (h : s.heapAlloc thread ppMem = .ok next) :
    ∃ request, s.calls.lookup thread = some (.requested request) ∧
      (next = { s with calls := s.calls.remove thread } ∨
        ∃ address, s.heap.lookup address = none ∧ address ≠ 0 ∧
          next = { s with
            heap := s.heap.set address ⟨request, none⟩
            calls := s.calls.set thread (.allocated request address) }) := by
  simp only [heapAlloc] at h
  split at h
  next request hcall =>
    cases h
    exact ⟨request, hcall, Or.inl rfl⟩
  next request address hcall =>
    split at h
    next hfresh =>
      cases h
      exact ⟨request, hcall, Or.inr ⟨address, Finmap.lookup_eq_none.mpr hfresh.1, hfresh.2, rfl⟩⟩
    next => cases h
  next => cases h

theorem onMemoryAcquire_ok {s next : MallocSystem} {thread : DWORD}
    (h : s.onMemoryAcquire thread = .ok next) :
    ∃ request address, s.calls.lookup thread = some (.allocated request address) ∧
      next.host.toDomainData =
        s.host.toDomainData.onMemoryAcquire thread request.cbSize address ∧
      next.heap = s.heap.set address ⟨request, chargeOf s.host.toDomainData thread address⟩ ∧
      next.calls = s.calls.remove thread := by
  simp only [onMemoryAcquire] at h
  split at h
  next request address hcall =>
    cases h
    exact ⟨request, address, hcall, rfl, rfl, rfl⟩
  next => cases h

theorem heapFree_ok {s next : MallocSystem} {thread : DWORD} {pMem : PVOID}
    (h : s.heapFree thread pMem = .ok next) :
    s.calls.lookup thread = none ∧
      (∀ other call, s.calls.lookup other = some call → ¬ Held pMem call) ∧
      next = { s with
        heap := s.heap.remove pMem
        calls := s.calls.set thread (.freed pMem) } := by
  simp only [heapFree] at h
  split at h
  next => cases h
  next hidle =>
    split at h
    next hfree =>
      cases h
      exact ⟨hidle, StdMap.allValues_iff.mp hfree.2, rfl⟩
    next => cases h

theorem onMemoryRelease_ok {s next : MallocSystem} {thread : DWORD}
    (h : s.onMemoryRelease thread = .ok next) :
    ∃ pMem, s.calls.lookup thread = some (.freed pMem) ∧
      next.host.toDomainData = (s.host.toDomainData.onMemoryRelease pMem).1 ∧
      next.heap = s.heap ∧ next.calls = s.calls.remove thread := by
  simp only [onMemoryRelease] at h
  split at h
  next pMem hcall =>
    cases h
    exact ⟨pMem, hcall, rfl, rfl, rfl⟩
  next => cases h

theorem host_ok {s next : MallocSystem} {op : HostOp} (h : s.step (.host op) = .ok next) :
    op.Outside ∧ s.host.step op = .ok next.host ∧ next.heap = s.heap ∧
      next.calls = s.calls := by
  simp only [step] at h
  split at h
  next houtside =>
    split at h
    next host hstep =>
      cases h
      exact ⟨houtside, hstep, rfl, rfl⟩
    next => cases h
  next => cases h

/-- A block that `Alloc` has not returned is in the hands of one call, and is not
charged yet. -/
structure HeldBlocks (s : MallocSystem) : Prop where
  held : ∀ thread request address,
    s.calls.lookup thread = some (.allocated request address) →
      s.heap.lookup address = some ⟨request, none⟩
  apart : ∀ thread thread' request request' address,
    s.calls.lookup thread = some (.allocated request address) →
      s.calls.lookup thread' = some (.allocated request' address) → thread = thread'

/-- A step after which every call that holds a block held it before, and the block
is as it was. -/
theorem HeldBlocks.of_kept {s next : MallocSystem} (hs : s.HeldBlocks)
    (hkept : ∀ thread request address,
      next.calls.lookup thread = some (.allocated request address) →
        s.calls.lookup thread = some (.allocated request address) ∧
          next.heap.lookup address = s.heap.lookup address) : next.HeldBlocks := by
  refine ⟨?_, ?_⟩
  · intro thread request address hcall
    obtain ⟨hbefore, hblock⟩ := hkept thread request address hcall
    rw [hblock]
    exact hs.held thread request address hbefore
  · intro thread thread' request request' address hcall hcall'
    exact hs.apart thread thread' request request' address (hkept _ _ _ hcall).1
      (hkept _ _ _ hcall').1

/-- The block a call is given is in nobody's hands. -/
theorem HeldBlocks.alloc {s : MallocSystem} (hs : s.HeldBlocks) (thread : DWORD)
    (request : Request) {address : PVOID} (hfresh : s.heap.lookup address = none) :
    HeldBlocks { s with
      heap := s.heap.set address ⟨request, none⟩
      calls := s.calls.set thread (.allocated request address) } := by
  have hne : ∀ t r a, s.calls.lookup t = some (.allocated r a) → a ≠ address := by
    rintro t r a ht rfl
    have hblock := hs.held t r a ht
    rw [hfresh] at hblock
    cases hblock
  refine ⟨?_, ?_⟩
  · intro t r a ht
    rcases StdMap.lookup_set_eq_some.mp ht with ⟨-, hnew⟩ | ⟨-, ht⟩
    · cases hnew
      exact StdMap.lookup_set_eq_some.mpr (Or.inl ⟨rfl, rfl⟩)
    · exact StdMap.lookup_set_eq_some.mpr (Or.inr ⟨hne t r a ht, hs.held t r a ht⟩)
  · intro t t' r r' a ht ht'
    rcases StdMap.lookup_set_eq_some.mp ht with ⟨heq, hnew⟩ | ⟨-, hold⟩ <;>
      rcases StdMap.lookup_set_eq_some.mp ht' with ⟨heq', hnew'⟩ | ⟨-, hold'⟩
    · rw [heq, heq']
    · cases hnew
      exact absurd rfl (hne t' r' _ hold')
    · cases hnew'
      exact absurd rfl (hne t r _ hold)
    · exact hs.apart t t' r r' a hold hold'

/-- Every step keeps it: no other call can free a held block or charge it. -/
theorem HeldBlocks.step {s next : MallocSystem} (hs : s.HeldBlocks) {action : MallocAction}
    (h : s.step action = .ok next) : next.HeldBlocks := by
  cases action with
  | onMemoryAcquiring thread cbSize level =>
      obtain ⟨-, rfl | ⟨-, rfl⟩⟩ := onMemoryAcquiring_ok h
      · exact hs
      · refine hs.of_kept ?_
        intro t r a ht
        rcases StdMap.lookup_set_eq_some.mp ht with ⟨-, hnew⟩ | ⟨-, ht⟩
        · cases hnew
        · exact ⟨ht, rfl⟩
  | heapAlloc thread ppMem =>
      obtain ⟨request, -, rfl | ⟨address, hfresh, -, rfl⟩⟩ := heapAlloc_ok h
      · refine hs.of_kept ?_
        intro t r a ht
        exact ⟨(StdMap.lookup_remove_eq_some.mp ht).2, rfl⟩
      · exact hs.alloc thread request hfresh
  | onMemoryAcquire thread =>
      obtain ⟨request, address, hcall, -, hheap, hcalls⟩ := onMemoryAcquire_ok h
      refine hs.of_kept ?_
      intro t r a ht
      rw [hcalls] at ht
      obtain ⟨hother, ht⟩ := StdMap.lookup_remove_eq_some.mp ht
      refine ⟨ht, ?_⟩
      rw [hheap, StdMap.lookup_set, if_neg]
      rintro rfl
      exact hother (hs.apart t thread r request a ht hcall)
  | heapFree thread pMem =>
      obtain ⟨-, hheld, rfl⟩ := heapFree_ok h
      refine hs.of_kept ?_
      intro t r a ht
      rcases StdMap.lookup_set_eq_some.mp ht with ⟨-, hnew⟩ | ⟨-, ht⟩
      · cases hnew
      · have hother : a ≠ pMem := hheld t _ ht
        refine ⟨ht, ?_⟩
        rw [StdMap.lookup_remove, if_neg hother]
  | onMemoryRelease thread =>
      obtain ⟨pMem, -, -, hheap, hcalls⟩ := onMemoryRelease_ok h
      refine hs.of_kept ?_
      intro t r a ht
      rw [hcalls] at ht
      rw [hheap]
      exact ⟨(StdMap.lookup_remove_eq_some.mp ht).2, rfl⟩
  | host op =>
      obtain ⟨-, -, hheap, hcalls⟩ := host_ok h
      refine hs.of_kept ?_
      intro t r a ht
      rw [hcalls] at ht
      rw [hheap]
      exact ⟨ht, rfl⟩

end MallocSystem

end HostedPumpkin
