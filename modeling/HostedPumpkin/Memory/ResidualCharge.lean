import HostedPumpkin.Memory.MemoryManager

/-!
What a domain is still charged for when all its memory has gone back. A charge
that finds an entry at its address is counted and not recorded, and a region that
is released as a whole or a heap that is destroyed takes back at most the charge
at the address the host is told of. Where neither happens, the counters are back
where they were once no region and no block is left.
-/

namespace HostedPumpkin

open Runs Win32

namespace MemoryManagerSystem

/-- The address belongs to a region or is that of a block. -/
def InUse (s : MemoryManagerSystem) (address : PVOID) : Prop :=
  s.Reserved address ∨ s.Allocated address

instance (s : MemoryManagerSystem) (address : PVOID) : Decidable (s.InUse address) := by
  unfold InUse
  infer_instance

/-- The domain is charged for no region and no block; what it is charged for, if
anything, lies elsewhere. -/
def Elsewhere (domain : DWORD) (s : MemoryManagerSystem) : Prop :=
  ∀ address ∈ s.host.chargedAt domain, address ≠ 0 ∧ ¬ s.InUse address

instance (domain : DWORD) (s : MemoryManagerSystem) : Decidable (s.Elsewhere domain) :=
  Finset.decidableDforallFinset

/-- A charge to the domain finds no entry at its address. A region or a block is
placed where the domain is charged for nothing; a region is released when the
domain is charged for it at its base only, and a heap is destroyed when the
domain is charged for none of its blocks. -/
def KeepsCharges (domain : DWORD) (s : MemoryManagerSystem) : MemoryAction → Prop
  | .virtualAlloc dwThreadId pAddress dwSize flAllocationType eCriticalLevel ppMem =>
      s.passes dwThreadId dwSize eCriticalLevel = true → ∀ address ∈ ppMem,
        (s.host.chargedDomain dwThreadId = some domain →
          s.host.memoryAppDomain.lookup address = none) ∧
        (flAllocationType.reserves = true → ¬ ∃ charged ∈ s.host.chargedAt domain,
          InRegion address (reservedBytes pAddress dwSize address) charged)
  | .alloc _ dwThreadId cbSize eCriticalLevel ppMem =>
      s.passes dwThreadId cbSize eCriticalLevel = true → ∀ address ∈ ppMem,
        (s.host.chargedDomain dwThreadId = some domain →
          s.host.memoryAppDomain.lookup address = none) ∧
        address ∉ s.host.chargedAt domain
  | .virtualFree lpAddress dwSize .memRelease =>
      dwSize = 0 → ∀ bytes ∈ s.regions.lookup lpAddress,
        ¬ ∃ charged ∈ s.host.chargedAt domain,
          InRegion lpAddress bytes charged ∧ charged ≠ lpAddress
  | .destroyMalloc hHeap =>
      ∀ blocks ∈ s.heaps.lookup hHeap, ¬ ∃ address ∈ blocks, address ∈ s.host.chargedAt domain
  | .virtualFree _ _ .memDecommit | .createMalloc _ | .free _ _ => True

instance (domain : DWORD) (s : MemoryManagerSystem) (action : MemoryAction) :
    Decidable (s.KeepsCharges domain action) :=
  match action with
  | .virtualAlloc .. => @instDecidableForall _ _ _ (Option.decidableForallMem _)
  | .alloc .. => @instDecidableForall _ _ _ (Option.decidableForallMem _)
  | .virtualFree _ _ .memRelease => @instDecidableForall _ _ _ (Option.decidableForallMem _)
  | .destroyMalloc _ => Option.decidableForallMem _
  | .virtualFree _ _ .memDecommit | .createMalloc _ | .free _ _ => isTrue trivial

/-- Once no region and no block is left, the domain's bytes and allocations are
what they were. -/
def Settled (domain : DWORD) (start s : MemoryManagerSystem) : Prop :=
  s.regions = ∅ → s.heaps.AllValues (fun blocks => blocks = ∅) →
    s.host.memoryRecord domain = start.host.memoryRecord domain

/-- What a domain is charged for is in use, or was there from the start and is
untouched; its counters have moved by what its entries add up to. -/
structure Outstanding (domain : DWORD) (start : DomainData) (inUse : PVOID → Prop)
    (c : DomainData) : Prop where
  same : start.SameDomains c
  entries : ∀ address ∈ c.chargedAt domain, inUse address ∨ address ∈ start.chargedAt domain
  kept : ∀ address ∈ start.chargedAt domain,
    c.memoryAppDomain.lookup address = start.memoryAppDomain.lookup address ∧ ¬ inUse address
  nonNull : 0 ∉ c.chargedAt domain
  counted : ∀ before, start.memoryRecord domain = some before →
    c.UsageCounted (before - start.entryUsage domain) domain

theorem chargedAt_congr {c c' : DomainData} {domain : DWORD} {address : PVOID}
    (h : c.memoryAppDomain.lookup address = c'.memoryAppDomain.lookup address) :
    address ∈ c.chargedAt domain ↔ address ∈ c'.chargedAt domain := by
  rw [DomainData.mem_chargedAt, DomainData.mem_chargedAt, h]

theorem Elsewhere.outstanding {domain : DWORD} {start : MemoryManagerSystem}
    (h : start.Elsewhere domain) :
    Outstanding domain start.host start.InUse start.host := by
  refine ⟨DomainData.SameDomains.refl _, ?_, ?_, ?_, ?_⟩
  · intro address hcharged
    exact Or.inr hcharged
  · intro address hcharged
    exact ⟨rfl, (h address hcharged).2⟩
  · intro hnull
    exact (h 0 hnull).1 rfl
  · intro before hbefore used hused
    rw [hbefore] at hused
    cases hused
    rw [sub_add_cancel]

/-- Nothing is in use, and every entry of the domain is one it started with. -/
theorem Outstanding.settled {domain : DWORD} {start s : MemoryManagerSystem}
    (h : Outstanding domain start.host s.InUse s.host) : Settled domain start s := by
  intro hregions hheaps
  have hfree : ∀ address, ¬ s.InUse address := by
    rintro address (hreserved | hallocated)
    · obtain ⟨base, bytes, hbytes, -⟩ := reserved_iff.mp hreserved
      rw [hregions] at hbytes
      cases hbytes
    · obtain ⟨hHeap, blocks, hblocks, hmem⟩ := allocated_iff.mp hallocated
      rw [StdMap.allValues_iff.mp hheaps hHeap blocks hblocks] at hmem
      cases hmem
  have hentries : s.host.entryUsage domain = start.host.entryUsage domain := by
    refine DomainData.entryUsage_congr ?_
    rintro address (hcharged | hcharged)
    · have hstart := (h.entries address hcharged).resolve_left (hfree address)
      exact (h.kept address hstart).1
    · exact (h.kept address hcharged).1
  cases hbefore : start.host.memoryRecord domain with
  | none => exact (h.same.present domain).mpr hbefore
  | some before =>
      have hpresent : s.host.memoryRecord domain ≠ none := by
        rw [Ne, h.same.present, hbefore]
        simp
      obtain ⟨used, hused⟩ := Option.ne_none_iff_exists'.mp hpresent
      rw [hused, h.counted before hbefore used hused, hentries, sub_add_cancel]

/-- Memory may come into use or go out of use where the domain is charged for
nothing. -/
theorem Outstanding.inUse_congr {domain : DWORD} {start c : DomainData}
    {inUse inUse' : PVOID → Prop} (h : Outstanding domain start inUse c)
    (hsame : ∀ address ∈ c.chargedAt domain, inUse' address ↔ inUse address) :
    Outstanding domain start inUse' c := by
  refine ⟨h.same, ?_, ?_, h.nonNull, h.counted⟩
  · intro address hcharged
    rw [hsame address hcharged]
    exact h.entries address hcharged
  · intro address hstart
    obtain ⟨hlookup, hfree⟩ := h.kept address hstart
    have hcharged : address ∈ c.chargedAt domain := (chargedAt_congr hlookup).mpr hstart
    rw [hsame address hcharged]
    exact ⟨hlookup, hfree⟩

theorem Outstanding.acquire {domain : DWORD} {start c : DomainData} {inUse : PVOID → Prop}
    (h : Outstanding domain start inUse c) {thread : DWORD} {address : PVOID}
    (hne : address ≠ 0) (hused : inUse address)
    (hfree : c.chargedDomain thread = some domain → c.memoryAppDomain.lookup address = none)
    (bytes : LONG) : Outstanding domain start inUse (c.onMemoryAcquire thread bytes address) := by
  refine ⟨h.same.trans (DomainData.sameDomains_acquire c thread bytes address), ?_, ?_, ?_, ?_⟩
  · intro a hcharged
    rcases DomainData.chargedAt_acquire hcharged with rfl | hcharged
    · exact Or.inl hused
    · exact h.entries a hcharged
  · intro a hstart
    obtain ⟨hlookup, hunused⟩ := h.kept a hstart
    refine ⟨?_, hunused⟩
    rw [DomainData.entries_acquire, if_neg, hlookup]
    rintro ⟨rfl, -⟩
    exact hunused hused
  · intro hnull
    rcases DomainData.chargedAt_acquire hnull with heq | hnull
    · exact hne heq.symm
    · exact h.nonNull hnull
  · intro before hbefore
    exact (h.counted before hbefore).acquire hfree bytes

theorem Outstanding.release {domain : DWORD} {start c : DomainData} {inUse : PVOID → Prop}
    (h : Outstanding domain start inUse c) (hlive : c.memoryRecord domain ≠ none)
    {address : PVOID} (hused : address = 0 ∨ inUse address) :
    Outstanding domain start inUse (c.onMemoryRelease address).1 := by
  have hsub : ∀ a ∈ (c.onMemoryRelease address).1.chargedAt domain, a ∈ c.chargedAt domain := by
    intro a hcharged
    exact (DomainData.chargedAt_release hlive hcharged).2
  refine ⟨h.same.trans (DomainData.sameDomains_release c address), ?_, ?_, ?_, ?_⟩
  · intro a hcharged
    exact h.entries a (hsub a hcharged)
  · intro a hstart
    obtain ⟨hlookup, hunused⟩ := h.kept a hstart
    refine ⟨?_, hunused⟩
    rw [DomainData.entries_release, hlookup]
    rintro rfl
    rcases hused with rfl | hused
    · exact h.nonNull ((chargedAt_congr hlookup).mpr hstart)
    · exact hunused hused
  · intro hnull
    exact h.nonNull (hsub 0 hnull)
  · intro before hbefore
    exact (h.counted before hbefore).release address

/-! Where a call changes what is in use. -/

theorem inUse_set_region {s : MemoryManagerSystem} {base a : PVOID} {bytes : ℕ+}
    (hpages : s.FreePages base bytes) (hout : ¬ InRegion base bytes a) :
    ({ s with regions := s.regions.set base bytes } : MemoryManagerSystem).InUse a ↔
      s.InUse a := by
  refine or_congr ?_ Iff.rfl
  rw [reserved_iff, reserved_iff]
  refine StdMap.exists_lookup_congr (k := base) ?_ ?_
  · intro other hother
    rw [StdMap.lookup_set, if_neg hother]
  · constructor
    · rintro ⟨size, hsize, hin⟩
      rw [StdMap.lookup_set, if_pos rfl] at hsize
      cases hsize
      exact absurd hin hout
    · rintro ⟨size, hsize, -⟩
      have hbase := Finmap.mem_keys.mpr (Finmap.mem_of_lookup_eq_some hsize)
      have hpos := size.pos
      have hpos' := bytes.pos
      refine absurd (Or.inl ⟨base, hbase, size, hsize, ?_, ?_⟩) hpages.2
      · omega
      · omega

theorem inUse_remove_region {s : MemoryManagerSystem} {base a : PVOID} {bytes : ℕ+}
    (hbytes : s.regions.lookup base = some bytes) (hout : ¬ InRegion base bytes a) :
    ({ s with regions := s.regions.remove base } : MemoryManagerSystem).InUse a ↔
      s.InUse a := by
  refine or_congr ?_ Iff.rfl
  rw [reserved_iff, reserved_iff]
  refine StdMap.exists_lookup_congr (k := base) ?_ ?_
  · intro other hother
    rw [StdMap.lookup_remove, if_neg hother]
  · constructor
    · rintro ⟨size, hsize, -⟩
      exact absurd rfl (StdMap.lookup_remove_eq_some.mp hsize).1
    · rintro ⟨size, hsize, hin⟩
      rw [hbytes] at hsize
      cases hsize
      exact absurd hin hout

theorem inUse_set_heap {s : MemoryManagerSystem} {hHeap : HANDLE} {blocks : Finset PVOID}
    {a : PVOID} (hsame : a ∈ blocks ↔ ∃ old, s.heaps.lookup hHeap = some old ∧ a ∈ old) :
    ({ s with heaps := s.heaps.set hHeap blocks } : MemoryManagerSystem).InUse a ↔
      s.InUse a := by
  refine or_congr Iff.rfl ?_
  rw [allocated_iff, allocated_iff]
  refine StdMap.exists_lookup_congr (k := hHeap) ?_ ?_
  · intro other hother
    rw [StdMap.lookup_set, if_neg hother]
  · rw [← hsame, StdMap.lookup_set, if_pos rfl]
    simp

theorem inUse_remove_heap {s : MemoryManagerSystem} {hHeap : HANDLE} {a : PVOID}
    (hout : ∀ blocks, s.heaps.lookup hHeap = some blocks → a ∉ blocks) :
    ({ s with heaps := s.heaps.remove hHeap } : MemoryManagerSystem).InUse a ↔ s.InUse a := by
  refine or_congr Iff.rfl ?_
  rw [allocated_iff, allocated_iff]
  refine StdMap.exists_lookup_congr (k := hHeap) ?_ ?_
  · intro other hother
    rw [StdMap.lookup_remove, if_neg hother]
  · constructor
    · rintro ⟨blocks, hblocks, -⟩
      exact absurd rfl (StdMap.lookup_remove_eq_some.mp hblocks).1
    · rintro ⟨blocks, hblocks, hmem⟩
      exact absurd hmem (hout blocks hblocks)

/-! One lemma for each call. -/

section Calls

variable {domain : DWORD} {start : DomainData} {s next : MemoryManagerSystem}

theorem Outstanding.virtualAlloc {thread : DWORD} {pAddress : PVOID} {dwSize : SIZE_T}
    {type : AllocationType} {level : EMemoryCriticalLevel} {ppMem : Option PVOID}
    (h : Outstanding domain start s.InUse s.host)
    (hcond : s.KeepsCharges domain (.virtualAlloc thread pAddress dwSize type level ppMem))
    (hstep : s.virtualAlloc thread pAddress dwSize type level ppMem = .ok next) :
    Outstanding domain start next.InUse next.host := by
  obtain rfl | ⟨address, hpasses, rfl, ⟨hne, -, hgrants⟩, rfl⟩ := virtualAlloc_ok hstep
  · exact h
  obtain ⟨hfree, hplace⟩ := hcond hpasses address rfl
  cases hreserves : type.reserves with
  | false =>
      simp only [hreserves, Bool.false_eq_true, if_false] at hgrants ⊢
      obtain ⟨-, base, hbase, bytes, hbytes, hin, -⟩ := hgrants
      have hused : s.InUse address := Or.inl ⟨base, hbase, bytes, hbytes, hin⟩
      exact h.acquire hne hused hfree dwSize.toLONG
  | true =>
      simp only [hreserves, if_true] at hgrants ⊢
      let bytes := reservedBytes pAddress dwSize address
      have hset : (s.regions.set address bytes).lookup address = some bytes := by
        rw [StdMap.lookup_set, if_pos rfl]
      have hused : ({ s with regions := s.regions.set address bytes } :
          MemoryManagerSystem).InUse address :=
        Or.inl (reserved_iff.mpr ⟨address, bytes, hset, le_refl _, by simp⟩)
      have hplaced := h.inUse_congr (fun a ha => inUse_set_region hgrants.2
        (fun hin => hplace hreserves ⟨a, ha, hin⟩))
      exact hplaced.acquire hne hused hfree dwSize.toLONG

theorem Outstanding.virtualFree {lpAddress : PVOID} {dwSize : SIZE_T} {type : FreeType}
    (h : Outstanding domain start s.InUse s.host) (hlive : s.host.memoryRecord domain ≠ none)
    (hcond : s.KeepsCharges domain (.virtualFree lpAddress dwSize type)) :
    Outstanding domain start (s.virtualFree lpAddress dwSize type).InUse
      (s.virtualFree lpAddress dwSize type).host := by
  obtain heq | ⟨hreserved, heq⟩ | ⟨bytes, rfl, rfl, hbytes, heq⟩ :=
    s.virtualFree_eq lpAddress dwSize type
  · rw [heq]
    exact h
  · rw [heq]
    exact h.release hlive (Or.inr (Or.inl hreserved))
  · rw [heq]
    have hbase : s.InUse lpAddress :=
      Or.inl (reserved_iff.mpr ⟨lpAddress, bytes, hbytes, le_refl _, by simp⟩)
    refine (h.release hlive (Or.inr hbase)).inUse_congr ?_
    intro a hcharged
    obtain ⟨hne, hcharged⟩ := DomainData.chargedAt_release hlive hcharged
    refine inUse_remove_region hbytes ?_
    intro hin
    exact hcond rfl bytes hbytes ⟨a, hcharged, hin, hne⟩

theorem Outstanding.createMalloc {hHeap : HANDLE}
    (h : Outstanding domain start s.InUse s.host) (hstep : s.createMalloc hHeap = .ok next) :
    Outstanding domain start next.InUse next.host := by
  obtain ⟨hnew, rfl⟩ := createMalloc_ok hstep
  refine h.inUse_congr ?_
  intro a _
  apply inUse_set_heap
  simp [hnew]

theorem Outstanding.internalAlloc {hHeap : HANDLE} {thread : DWORD} {cbSize : SIZE_T}
    {level : EMemoryCriticalLevel} {ppMem : Option PVOID}
    (h : Outstanding domain start s.InUse s.host)
    (hcond : s.KeepsCharges domain (.alloc hHeap thread cbSize level ppMem))
    (hstep : s.internalAlloc hHeap thread cbSize level ppMem = .ok next) :
    Outstanding domain start next.InUse next.host := by
  obtain rfl | ⟨blocks, address, hblocks, hpasses, rfl, hne, rfl⟩ := internalAlloc_ok hstep
  · exact h
  obtain ⟨hfree, hplace⟩ := hcond hpasses address rfl
  have hset : (s.heaps.set hHeap (insert address blocks)).lookup hHeap =
      some (insert address blocks) := by
    rw [StdMap.lookup_set, if_pos rfl]
  have hused : ({ s with heaps := s.heaps.set hHeap (insert address blocks) } :
      MemoryManagerSystem).InUse address :=
    Or.inr (allocated_iff.mpr ⟨hHeap, _, hset, Finset.mem_insert_self address blocks⟩)
  have hplaced : Outstanding domain start
      ({ s with heaps := s.heaps.set hHeap (insert address blocks) } :
        MemoryManagerSystem).InUse s.host := by
    refine h.inUse_congr ?_
    intro a hcharged
    have hother : a ≠ address := by
      rintro rfl
      exact hplace hcharged
    apply inUse_set_heap
    simp [hblocks, hother]
  exact hplaced.acquire hne hused hfree cbSize.toLONG

theorem Outstanding.free {hHeap : HANDLE} {pMem : PVOID}
    (h : Outstanding domain start s.InUse s.host) (hlive : s.host.memoryRecord domain ≠ none)
    (hstep : s.free hHeap pMem = .ok next) :
    Outstanding domain start next.InUse next.host := by
  obtain ⟨blocks, hblocks, hpMem, rfl⟩ := free_ok hstep
  have hused : pMem = 0 ∨ s.InUse pMem :=
    hpMem.imp_right (fun hmem => Or.inr (allocated_iff.mpr ⟨hHeap, blocks, hblocks, hmem⟩))
  refine (h.release hlive hused).inUse_congr ?_
  intro a hcharged
  have hother := (DomainData.chargedAt_release hlive hcharged).1
  apply inUse_set_heap
  simp [hblocks, hother]

theorem Outstanding.destroyMalloc {hHeap : HANDLE}
    (h : Outstanding domain start s.InUse s.host)
    (hcond : s.KeepsCharges domain (.destroyMalloc hHeap))
    (hstep : s.destroyMalloc hHeap = .ok next) :
    Outstanding domain start next.InUse next.host := by
  rw [destroyMalloc_ok hstep]
  refine h.inUse_congr ?_
  intro a hcharged
  apply inUse_remove_heap
  intro blocks hblocks hmem
  exact hcond blocks hblocks ⟨a, hmem, hcharged⟩

end Calls

theorem step_outstanding {domain : DWORD} {start : DomainData}
    (hlive : start.memoryRecord domain ≠ none) (s : MemoryManagerSystem)
    (action : MemoryAction) (next : MemoryManagerSystem)
    (h : Outstanding domain start s.InUse s.host) (hcond : s.KeepsCharges domain action)
    (hstep : s.step action = .ok next) : Outstanding domain start next.InUse next.host := by
  have hlive : s.host.memoryRecord domain ≠ none := by
    rw [Ne, h.same.present]
    exact hlive
  cases action with
  | virtualAlloc thread pAddress dwSize type level ppMem => exact h.virtualAlloc hcond hstep
  | virtualFree lpAddress dwSize type =>
      cases hstep
      exact h.virtualFree hlive hcond
  | createMalloc hHeap => exact h.createMalloc hstep
  | alloc hHeap thread cbSize level ppMem => exact h.internalAlloc hcond hstep
  | free hHeap pMem => exact h.free hlive hstep
  | destroyMalloc hHeap => exact h.destroyMalloc hcond hstep

/-- For a domain that is there and is charged for no region and no block: in
every run of calls that keep its charges, whichever threads make them, its
counters are what they were whenever no region and no block is left. -/
theorem no_residual_charge {domain : DWORD} {start : MemoryManagerSystem}
    {actions : List MemoryAction} (hlive : start.host.memoryRecord domain ≠ none)
    (hstart : start.Elsewhere domain)
    (hcond : Meets step (KeepsCharges domain) start actions) :
    Always step (Settled domain start) start actions :=
  (always_of_meets (step_outstanding hlive) hstart.outstanding hcond).imp
    (fun _ h => h.settled)

/-- A default domain and a snippet with one thread. -/
def snippet : List HostOp :=
  [.onDomainCreate 1 10 (some 0) 0, .onDomainCreate 2 20 (some 1) 0]

/-- A process in which nothing is reserved and no heap is there. -/
def fresh (host : HostContext) : MemoryManagerSystem := ⟨host.toDomainData, ∅, ∅⟩

/-- The snippet reserves a region, commits and decommits its second page and
releases it, and frees its block before the heap goes. -/
def tidyCalls : List MemoryAction :=
  [.virtualAlloc 20 0 65536 .memReserve .eTaskCritical (some 65536),
    .virtualAlloc 20 69632 4096 .memCommit .eTaskCritical (some 69632),
    .createMalloc 7, .alloc 7 20 100 .eTaskCritical (some 1048576),
    .virtualFree 69632 4096 .memDecommit, .free 7 1048576, .destroyMalloc 7,
    .virtualFree 65536 0 .memRelease]

theorem no_residual_charge_tidy :
    ∃ host, run HostContext.step HostContext.initial snippet = .ok host ∧
      Reaches step (fun s => s.regions = ∅ ∧ s.heaps = ∅) (fresh host) tidyCalls ∧
      Always step (Settled 2 (fresh host)) (fresh host) tidyCalls := by
  have hstart : Reaches HostContext.step (fun host =>
      (fresh host).host.memoryRecord 2 ≠ none ∧ (fresh host).Elsewhere 2)
      HostContext.initial snippet := by decide
  have hmeets : Reaches HostContext.step (fun host =>
      Meets step (KeepsCharges 2) (fresh host) tidyCalls)
      HostContext.initial snippet := by decide
  have hend : Reaches HostContext.step (fun host =>
      Reaches step (fun s => s.regions = ∅ ∧ s.heaps = ∅) (fresh host) tidyCalls)
      HostContext.initial snippet := by decide
  obtain ⟨host, hrun, ⟨hlive, helsewhere⟩, hcond, hreached⟩ :=
    reaches_iff.mp (hstart.and (hmeets.and hend))
  exact ⟨host, hrun, hreached, no_residual_charge hlive helsewhere hcond⟩

/-- A page is committed at the base of its region, and the region released. -/
def committedAtBase : List MemoryAction :=
  [.virtualAlloc 20 0 65536 .memReserve .eTaskCritical (some 65536),
    .virtualAlloc 20 65536 4096 .memCommit .eTaskCritical (some 65536),
    .virtualFree 65536 0 .memRelease]

/-- A heap is destroyed with a block in it. -/
def destroyedInUse : List MemoryAction :=
  [.createMalloc 7, .alloc 7 20 100 .eTaskCritical (some 1048576), .destroyMalloc 7]

/-- The second charge of the base was counted and not recorded, and the block of
the heap was never given back to the host. -/
theorem charge_remains :
    ∃ host, run HostContext.step HostContext.initial snippet = .ok host ∧
      (fresh host).Elsewhere 2 ∧ host.memoryRecord 2 = some (0, 0) ∧
      host.chargedDomain 20 = some 2 ∧
      Reaches step (fun s => s.regions = ∅ ∧ s.heaps = ∅ ∧
        s.host.memoryRecord 2 = some (4096, 1)) (fresh host) committedAtBase ∧
      Reaches step (fun s => s.regions = ∅ ∧ s.heaps = ∅ ∧
        s.host.memoryRecord 2 = some (100, 1)) (fresh host) destroyedInUse ∧
      ¬ Always step (Settled 2 (fresh host)) (fresh host) committedAtBase ∧
      ¬ Always step (Settled 2 (fresh host)) (fresh host) destroyedInUse := by
  have hstart : Reaches HostContext.step (fun host =>
      (fresh host).Elsewhere 2 ∧ host.memoryRecord 2 = some (0, 0) ∧
        host.chargedDomain 20 = some 2) HostContext.initial snippet := by decide
  have hcommitted : Reaches HostContext.step (fun host =>
      Reaches step (fun s => s.regions = ∅ ∧ s.heaps = ∅ ∧
        s.host.memoryRecord 2 = some (4096, 1)) (fresh host) committedAtBase)
      HostContext.initial snippet := by decide
  have hdestroyed : Reaches HostContext.step (fun host =>
      Reaches step (fun s => s.regions = ∅ ∧ s.heaps = ∅ ∧
        s.host.memoryRecord 2 = some (100, 1)) (fresh host) destroyedInUse)
      HostContext.initial snippet := by decide
  obtain ⟨host, hrun, ⟨helsewhere, hbefore, hthread⟩, hbase, hheap⟩ :=
    reaches_iff.mp (hstart.and (hcommitted.and hdestroyed))
  have hunsettled : ∀ actions used, used ≠ (0, 0) →
      Reaches step (fun s => s.regions = ∅ ∧ s.heaps = ∅ ∧
        s.host.memoryRecord 2 = some used) (fresh host) actions →
      ¬ Always step (Settled 2 (fresh host)) (fresh host) actions := by
    intro actions used hused hreached halways
    obtain ⟨s, hs, hregions, hheaps, hafter⟩ := reaches_iff.mp hreached
    have hback := halways.last hs hregions (by rw [hheaps]; decide)
    rw [hafter] at hback
    exact hused (Option.some.inj (hback.trans hbefore))
  exact ⟨host, hrun, helsewhere, hbefore, hthread, hbase, hheap,
    hunsettled committedAtBase (4096, 1) (by decide) hbase,
    hunsettled destroyedInUse (100, 1) (by decide) hheap⟩

end MemoryManagerSystem

end HostedPumpkin
