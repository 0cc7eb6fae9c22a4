import HostedPumpkin.Memory.Malloc
import Mathlib.Data.PNat.Basic

/-!
`SHMemoryManager` and the `SHMalloc` objects it creates, over the memory of the
process: the reserved regions and the private heaps with their blocks. A call is
one step here, and the system calls follow the Win32 rules. The host charges each
call to the address it returned and takes a charge back by the address it is
told of, so a region that is charged twice or freed as a whole, and a heap that
is destroyed with blocks in it, leave charges behind.
-/

namespace HostedPumpkin

open Runs

abbrev SIZE_T := UInt32

/-- What becomes of a `SIZE_T` passed where the host expects a `LONG`. -/
def SIZE_T.toLONG (dwSize : SIZE_T) : LONG := dwSize.toInt32.toInt

/-- `MEM_RESERVE`, `MEM_COMMIT` or both. -/
inductive AllocationType where
  | memReserve
  | memCommit
  | memReserveCommit
deriving DecidableEq

def AllocationType.reserves : AllocationType → Bool
  | .memReserve | .memReserveCommit => true
  | .memCommit => false

inductive FreeType where
  | memDecommit
  | memRelease
deriving DecidableEq

namespace Win32

def pageSize : Nat := 4096

def allocationGranularity : Nat := 65536

def roundDown (n unit : Nat) : Nat := n / unit * unit

def roundUp (n unit : Nat) : Nat := roundDown (n + (unit - 1)) unit

/-- An address lies in a region of so many bytes. -/
def InRegion (base : PVOID) (bytes : ℕ+) (address : PVOID) : Prop :=
  base.toNat ≤ address.toNat ∧ address.toNat < base.toNat + bytes

instance (base : PVOID) (bytes : ℕ+) (address : PVOID) :
    Decidable (InRegion base bytes address) := by
  unfold InRegion
  infer_instance

/-- The whole pages reserved from `base` on for a request: all that hold a byte
from `pAddress` to `pAddress + dwSize`, or `dwSize` rounded up if no address was
given. -/
def reservedBytes (pAddress : PVOID) (dwSize : SIZE_T) (base : PVOID) : ℕ+ :=
  if pAddress = 0 then (roundUp dwSize.toNat pageSize).toPNat'
  else (roundUp (pAddress.toNat + dwSize.toNat) pageSize - base.toNat).toPNat'

/-- Where a reservation may start. -/
def ReservesAt (pAddress base : PVOID) : Prop :=
  if pAddress = 0 then base.toNat % allocationGranularity = 0
  else base.toNat = roundDown pAddress.toNat allocationGranularity

instance (pAddress base : PVOID) : Decidable (ReservesAt pAddress base) := by
  unfold ReservesAt
  infer_instance

/-- A range from an address on lies in a region. -/
def RangeIn (base : PVOID) (bytes : ℕ+) (address : PVOID) (dwSize : SIZE_T) : Prop :=
  InRegion base bytes address ∧ address.toNat + dwSize.toNat ≤ base.toNat + bytes

instance (base : PVOID) (bytes : ℕ+) (address : PVOID) (dwSize : SIZE_T) :
    Decidable (RangeIn base bytes address dwSize) := by
  unfold RangeIn
  infer_instance

end Win32

open Win32

/-- The domains' data, the reserved regions with their sizes in bytes, and the
heaps with their live blocks. -/
structure MemoryManagerSystem where
  host : DomainData
  regions : StdMap PVOID ℕ+
  heaps : StdMap HANDLE (Finset PVOID)

inductive MemoryAction where
  | virtualAlloc (dwThreadId : DWORD) (pAddress : PVOID) (dwSize : SIZE_T)
      (flAllocationType : AllocationType) (eCriticalLevel : EMemoryCriticalLevel)
      (ppMem : Option PVOID)
  | virtualFree (lpAddress : PVOID) (dwSize : SIZE_T) (dwFreeType : FreeType)
  | createMalloc (hHeap : HANDLE)
  | alloc (hHeap : HANDLE) (dwThreadId : DWORD) (cbSize : SIZE_T)
      (eCriticalLevel : EMemoryCriticalLevel) (ppMem : Option PVOID)
  | free (hHeap : HANDLE) (pMem : PVOID)
  | destroyMalloc (hHeap : HANDLE)
deriving DecidableEq

namespace MemoryManagerSystem

/-- The address lies in a reserved region. -/
def Reserved (s : MemoryManagerSystem) (address : PVOID) : Prop :=
  ∃ base ∈ s.regions.keys, ∃ bytes ∈ s.regions.lookup base, InRegion base bytes address

/-- The address is that of a live block. -/
def Allocated (s : MemoryManagerSystem) (address : PVOID) : Prop :=
  ∃ hHeap ∈ s.heaps.keys, ∃ blocks ∈ s.heaps.lookup hHeap, address ∈ blocks

instance (s : MemoryManagerSystem) (address : PVOID) : Decidable (s.Reserved address) := by
  unfold Reserved
  infer_instance

instance (s : MemoryManagerSystem) (address : PVOID) : Decidable (s.Allocated address) := by
  unfold Allocated
  infer_instance

/-- Some page from `base` on belongs to a region or holds a block. -/
def Overlaps (s : MemoryManagerSystem) (base : PVOID) (bytes : ℕ+) : Prop :=
  (∃ other ∈ s.regions.keys, ∃ size ∈ s.regions.lookup other,
    base.toNat < other.toNat + size ∧ other.toNat < base.toNat + bytes) ∨
  ∃ hHeap ∈ s.heaps.keys, ∃ blocks ∈ s.heaps.lookup hHeap, ∃ address ∈ blocks,
    InRegion base bytes address

instance (s : MemoryManagerSystem) (base : PVOID) (bytes : ℕ+) :
    Decidable (s.Overlaps base bytes) := by
  unfold Overlaps
  infer_instance

/-- The pages from `base` on are free, and inside the address space. -/
def FreePages (s : MemoryManagerSystem) (base : PVOID) (bytes : ℕ+) : Prop :=
  base.toNat + bytes ≤ 2 ^ 32 ∧ ¬ s.Overlaps base bytes

instance (s : MemoryManagerSystem) (base : PVOID) (bytes : ℕ+) :
    Decidable (s.FreePages base bytes) := by
  unfold FreePages
  infer_instance

/-- What `::VirtualAlloc` may return: the start of free pages, or for a mere
commit the page of the address, with the whole range inside one region. -/
def Grants (s : MemoryManagerSystem) (pAddress : PVOID) (dwSize : SIZE_T)
    (flAllocationType : AllocationType) (address : PVOID) : Prop :=
  address ≠ 0 ∧ dwSize ≠ 0 ∧
    if flAllocationType.reserves then
      ReservesAt pAddress address ∧
        s.FreePages address (reservedBytes pAddress dwSize address)
    else
      address.toNat = roundDown pAddress.toNat pageSize ∧
        ∃ base ∈ s.regions.keys, ∃ bytes ∈ s.regions.lookup base,
          InRegion base bytes address ∧ RangeIn base bytes pAddress dwSize

instance (s : MemoryManagerSystem) (pAddress : PVOID) (dwSize : SIZE_T)
    (flAllocationType : AllocationType) (address : PVOID) :
    Decidable (s.Grants pAddress dwSize flAllocationType address) := by
  unfold Grants
  infer_instance

/-- The test before every allocation. -/
def passes (s : MemoryManagerSystem) (dwThreadId : DWORD) (dwSize : SIZE_T)
    (eCriticalLevel : EMemoryCriticalLevel) : Bool :=
  eCriticalLevel.aboveTask || s.host.onMemoryAcquiring dwThreadId dwSize.toLONG

def virtualAlloc (s : MemoryManagerSystem) (dwThreadId : DWORD) (pAddress : PVOID)
    (dwSize : SIZE_T) (flAllocationType : AllocationType)
    (eCriticalLevel : EMemoryCriticalLevel) (ppMem : Option PVOID) :
    Except MallocFault MemoryManagerSystem :=
  if s.passes dwThreadId dwSize eCriticalLevel then
    match ppMem with
    | none => .ok s
    | some address =>
        if s.Grants pAddress dwSize flAllocationType address then
          .ok { s with
            regions :=
              if flAllocationType.reserves then
                s.regions.set address (reservedBytes pAddress dwSize address)
              else s.regions
            host := s.host.onMemoryAcquire dwThreadId dwSize.toLONG address }
        else .error .disabled
  else .ok s

/-- `::VirtualFree`: a range inside a region is decommitted, and a range without
a size is the whole region at its base; a region is released at its base, with
no size. Nothing means that the call fails. -/
def winVirtualFree (s : MemoryManagerSystem) (lpAddress : PVOID) (dwSize : SIZE_T) :
    FreeType → Option (StdMap PVOID ℕ+)
  | .memDecommit =>
      if ∃ base ∈ s.regions.keys, ∃ bytes ∈ s.regions.lookup base,
          RangeIn base bytes lpAddress dwSize ∧ (dwSize = 0 → lpAddress = base) then
        some s.regions
      else none
  | .memRelease =>
      if dwSize = 0 ∧ lpAddress ∈ s.regions then some (s.regions.remove lpAddress) else none

def virtualFree (s : MemoryManagerSystem) (lpAddress : PVOID) (dwSize : SIZE_T)
    (dwFreeType : FreeType) : MemoryManagerSystem :=
  match s.winVirtualFree lpAddress dwSize dwFreeType with
  | some regions => { s with regions, host := (s.host.onMemoryRelease lpAddress).1 }
  | none => s

/-- The constructor of `SHMalloc`; `HeapCreate` returns a new handle. -/
def createMalloc (s : MemoryManagerSystem) (hHeap : HANDLE) :
    Except MallocFault MemoryManagerSystem :=
  if hHeap ≠ 0 ∧ hHeap ∉ s.heaps then .ok { s with heaps := s.heaps.set hHeap ∅ }
  else .error .disabled

/-- `InternalAlloc`; `HeapAlloc` returns nothing or an address that is not in use. -/
def internalAlloc (s : MemoryManagerSystem) (hHeap : HANDLE) (dwThreadId : DWORD)
    (cbSize : SIZE_T) (eCriticalLevel : EMemoryCriticalLevel) (ppMem : Option PVOID) :
    Except MallocFault MemoryManagerSystem :=
  match s.heaps.lookup hHeap with
  | none => .error .disabled
  | some blocks =>
      if s.passes dwThreadId cbSize eCriticalLevel then
        match ppMem with
        | none => .ok s
        | some address =>
            if address ≠ 0 ∧ ¬ s.Allocated address ∧ ¬ s.Reserved address then
              .ok { s with
                heaps := s.heaps.set hHeap (insert address blocks)
                host := s.host.onMemoryAcquire dwThreadId cbSize.toLONG address }
            else .error .disabled
      else .ok s

/-- `Free`, of a block of this heap or of a null pointer. -/
def free (s : MemoryManagerSystem) (hHeap : HANDLE) (pMem : PVOID) :
    Except MallocFault MemoryManagerSystem :=
  match s.heaps.lookup hHeap with
  | none => .error .disabled
  | some blocks =>
      if pMem = 0 ∨ pMem ∈ blocks then
        .ok { s with
          heaps := s.heaps.set hHeap (blocks.erase pMem)
          host := (s.host.onMemoryRelease pMem).1 }
      else .error .disabled

/-- The destructor of `SHMalloc`, whose `HeapDestroy` frees the blocks. -/
def destroyMalloc (s : MemoryManagerSystem) (hHeap : HANDLE) :
    Except MallocFault MemoryManagerSystem :=
  if hHeap ∈ s.heaps then .ok { s with heaps := s.heaps.remove hHeap }
  else .error .disabled

def step (s : MemoryManagerSystem) :
    MemoryAction → Except MallocFault MemoryManagerSystem
  | .virtualAlloc dwThreadId pAddress dwSize flAllocationType eCriticalLevel ppMem =>
      s.virtualAlloc dwThreadId pAddress dwSize flAllocationType eCriticalLevel ppMem
  | .virtualFree lpAddress dwSize dwFreeType =>
      .ok (s.virtualFree lpAddress dwSize dwFreeType)
  | .createMalloc hHeap => s.createMalloc hHeap
  | .alloc hHeap dwThreadId cbSize eCriticalLevel ppMem =>
      s.internalAlloc hHeap dwThreadId cbSize eCriticalLevel ppMem
  | .free hHeap pMem => s.free hHeap pMem
  | .destroyMalloc hHeap => s.destroyMalloc hHeap

/-! What each step can do. -/

theorem reserved_iff {s : MemoryManagerSystem} {address : PVOID} :
    s.Reserved address ↔
      ∃ base bytes, s.regions.lookup base = some bytes ∧ InRegion base bytes address := by
  constructor
  · rintro ⟨base, -, bytes, hbytes, hin⟩
    exact ⟨base, bytes, hbytes, hin⟩
  · rintro ⟨base, bytes, hbytes, hin⟩
    exact ⟨base, Finmap.mem_keys.mpr (Finmap.mem_of_lookup_eq_some hbytes), bytes, hbytes, hin⟩

theorem allocated_iff {s : MemoryManagerSystem} {address : PVOID} :
    s.Allocated address ↔
      ∃ hHeap blocks, s.heaps.lookup hHeap = some blocks ∧ address ∈ blocks := by
  constructor
  · rintro ⟨hHeap, -, blocks, hblocks, hmem⟩
    exact ⟨hHeap, blocks, hblocks, hmem⟩
  · rintro ⟨hHeap, blocks, hblocks, hmem⟩
    exact ⟨hHeap, Finmap.mem_keys.mpr (Finmap.mem_of_lookup_eq_some hblocks), blocks, hblocks,
      hmem⟩

theorem virtualAlloc_ok {s next : MemoryManagerSystem} {thread : DWORD} {pAddress : PVOID}
    {dwSize : SIZE_T} {type : AllocationType} {level : EMemoryCriticalLevel}
    {ppMem : Option PVOID}
    (h : s.virtualAlloc thread pAddress dwSize type level ppMem = .ok next) :
    next = s ∨ ∃ address, s.passes thread dwSize level = true ∧ ppMem = some address ∧
      s.Grants pAddress dwSize type address ∧
      next = { s with
        regions :=
          if type.reserves then s.regions.set address (reservedBytes pAddress dwSize address)
          else s.regions
        host := s.host.onMemoryAcquire thread dwSize.toLONG address } := by
  simp only [virtualAlloc] at h
  split at h
  next hpasses =>
    cases ppMem with
    | none =>
        cases h
        exact Or.inl rfl
    | some address =>
        simp only at h
        split at h
        next hgrants =>
          cases h
          exact Or.inr ⟨address, hpasses, rfl, hgrants, rfl⟩
        next => cases h
  next =>
    cases h
    exact Or.inl rfl

theorem virtualFree_eq (s : MemoryManagerSystem) (lpAddress : PVOID) (dwSize : SIZE_T)
    (type : FreeType) :
    s.virtualFree lpAddress dwSize type = s ∨
      (s.Reserved lpAddress ∧
        s.virtualFree lpAddress dwSize type =
          { s with host := (s.host.onMemoryRelease lpAddress).1 }) ∨
      ∃ bytes, type = .memRelease ∧ dwSize = 0 ∧ s.regions.lookup lpAddress = some bytes ∧
        s.virtualFree lpAddress dwSize type =
          { s with
            regions := s.regions.remove lpAddress
            host := (s.host.onMemoryRelease lpAddress).1 } := by
  simp only [virtualFree]
  cases type with
  | memDecommit =>
      simp only [winVirtualFree]
      split_ifs with hrange
      · obtain ⟨base, hbase, bytes, hbytes, ⟨hin, -⟩, -⟩ := hrange
        exact Or.inr (Or.inl ⟨⟨base, hbase, bytes, hbytes, hin⟩, rfl⟩)
      · exact Or.inl rfl
  | memRelease =>
      simp only [winVirtualFree]
      split_ifs with hbase
      · obtain ⟨bytes, hbytes⟩ := Finmap.mem_iff.mp hbase.2
        exact Or.inr (Or.inr ⟨bytes, trivial, hbase.1, hbytes, rfl⟩)
      · exact Or.inl rfl

theorem createMalloc_ok {s next : MemoryManagerSystem} {hHeap : HANDLE}
    (h : s.createMalloc hHeap = .ok next) :
    s.heaps.lookup hHeap = none ∧ next = { s with heaps := s.heaps.set hHeap ∅ } := by
  simp only [createMalloc] at h
  split at h
  next hnew =>
    cases h
    exact ⟨Finmap.lookup_eq_none.mpr hnew.2, rfl⟩
  next => cases h

theorem internalAlloc_ok {s next : MemoryManagerSystem} {hHeap : HANDLE} {thread : DWORD}
    {cbSize : SIZE_T} {level : EMemoryCriticalLevel} {ppMem : Option PVOID}
    (h : s.internalAlloc hHeap thread cbSize level ppMem = .ok next) :
    next = s ∨ ∃ blocks address, s.heaps.lookup hHeap = some blocks ∧
      s.passes thread cbSize level = true ∧ ppMem = some address ∧ address ≠ 0 ∧
      next = { s with
        heaps := s.heaps.set hHeap (insert address blocks)
        host := s.host.onMemoryAcquire thread cbSize.toLONG address } := by
  simp only [internalAlloc] at h
  split at h
  next => cases h
  next blocks hblocks =>
    split at h
    next hpasses =>
      cases ppMem with
      | none =>
          cases h
          exact Or.inl rfl
      | some address =>
          simp only at h
          split at h
          next hfresh =>
            cases h
            exact Or.inr ⟨blocks, address, hblocks, hpasses, rfl, hfresh.1, rfl⟩
          next => cases h
    next =>
      cases h
      exact Or.inl rfl

theorem free_ok {s next : MemoryManagerSystem} {hHeap : HANDLE} {pMem : PVOID}
    (h : s.free hHeap pMem = .ok next) :
    ∃ blocks, s.heaps.lookup hHeap = some blocks ∧ (pMem = 0 ∨ pMem ∈ blocks) ∧
      next = { s with
        heaps := s.heaps.set hHeap (blocks.erase pMem)
        host := (s.host.onMemoryRelease pMem).1 } := by
  simp only [free] at h
  split at h
  next => cases h
  next blocks hblocks =>
    split at h
    next hpMem =>
      cases h
      exact ⟨blocks, hblocks, hpMem, rfl⟩
    next => cases h

theorem destroyMalloc_ok {s next : MemoryManagerSystem} {hHeap : HANDLE}
    (h : s.destroyMalloc hHeap = .ok next) :
    next = { s with heaps := s.heaps.remove hHeap } := by
  simp only [destroyMalloc] at h
  split at h
  next =>
    cases h
    rfl
  next => cases h

end MemoryManagerSystem

end HostedPumpkin
