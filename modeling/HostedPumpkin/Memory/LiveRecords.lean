import HostedPumpkin.Memory.Malloc

/-!
The records of live blocks while threads allocate and free at once. `Free` gives
the block back to the heap before it tells the host, so another thread may get
the address while the old record is still there: its charge then records
nothing, and the late release takes the old record away. Where no block is
charged at an address whose release is still to come, the records are those of
the live blocks whenever no call is in progress, and an empty heap leaves every
counter where it was.
-/

namespace HostedPumpkin

open Runs

namespace MallocSystem

/-- Nothing is allocated, and what entries there are belong to domains that are
gone. -/
structure NothingLive (s : MallocSystem) : Prop where
  heap : s.heap = ∅
  calls : s.calls = ∅
  entries : s.host.memoryAppDomain.AllValues
    (fun memoryInfo => s.host.memoryRecord memoryInfo.appDomainId = none)

/-- The calls of `Alloc` and `Free`, where only threads of domains that have a
record allocate. -/
def AllocOrFree (s : MallocSystem) : MallocAction → Prop
  | .onMemoryAcquiring thread _ _ =>
      ∃ domain ∈ s.host.threadAppDomain.lookup thread, s.host.memoryRecord domain ≠ none
  | .heapAlloc _ _ | .onMemoryAcquire _ | .heapFree _ _ | .onMemoryRelease _ => True
  | .host _ => False

/-- A block that is charged finds no entry at its address and no release of the
address that is still to come. -/
def ChargesFresh (s : MallocSystem) (thread : DWORD) : MallocCall → Prop
  | .allocated _ address => s.host.chargedDomain thread ≠ none →
      s.host.memoryAppDomain.lookup address = none ∧
        s.calls.AllValues (fun call => call ≠ .freed address)
  | .requested _ | .freed _ => True

/-- The steps that keep the records of live blocks. -/
def KeepsRecords (s : MallocSystem) : MallocAction → Prop
  | .onMemoryAcquire thread => ∀ call ∈ s.calls.lookup thread, s.ChargesFresh thread call
  | _ => True

instance (s : MallocSystem) : Decidable s.NothingLive :=
  decidable_of_iff (s.heap = ∅ ∧ s.calls = ∅ ∧ s.host.memoryAppDomain.AllValues
      (fun memoryInfo => s.host.memoryRecord memoryInfo.appDomainId = none))
    ⟨fun h => ⟨h.1, h.2.1, h.2.2⟩, fun h => ⟨h.heap, h.calls, h.entries⟩⟩

instance (s : MallocSystem) (action : MallocAction) : Decidable (s.AllocOrFree action) :=
  match action with
  | .onMemoryAcquiring thread _ _ => inferInstanceAs (Decidable (∃ domain ∈
      s.host.threadAppDomain.lookup thread, s.host.memoryRecord domain ≠ none))
  | .heapAlloc .. | .onMemoryAcquire .. | .heapFree .. | .onMemoryRelease .. => isTrue trivial
  | .host .. => isFalse not_false

instance (s : MallocSystem) (thread : DWORD) (call : MallocCall) :
    Decidable (s.ChargesFresh thread call) :=
  match call with
  | .allocated .. => inferInstanceAs (Decidable (_ → _))
  | .requested .. | .freed .. => isTrue trivial

instance (s : MallocSystem) (action : MallocAction) : Decidable (s.KeepsRecords action) :=
  match action with
  | .onMemoryAcquire _ => Option.decidableForallMem _
  | .onMemoryAcquiring .. | .heapAlloc .. | .heapFree .. | .onMemoryRelease .. | .host .. =>
      isTrue trivial

/-- When no call is in progress, each live block is recorded with its own size
and domain, the blocks of the default domain apart, which are not tracked. When
no block is left either, every counter is where it was. -/
structure Balanced (start s : MallocSystem) : Prop where
  recorded : s.calls = ∅ → ∀ address block, s.heap.lookup address = some block →
    ∃ domain, block.request.domain = some domain ∧
      (domain = s.host.defaultDomainId ∨
        s.host.memoryAppDomain.lookup address = some ⟨domain, block.request.cbSize⟩)
  returned : s.calls = ∅ → s.heap = ∅ → ∀ domain,
    s.host.rawGetMemoryUsage domain = start.host.rawGetMemoryUsage domain

/-- A request was made by a thread of a domain that has a record. -/
def LiveRequest (c : DomainData) (thread : DWORD) (request : Request) : Prop :=
  ∃ domain, request.domain = some domain ∧ c.memoryRecord domain ≠ none ∧
    c.threadAppDomain.lookup thread = some domain

/-- A block that `Alloc` has returned is recorded as its own, unless it belongs
to the default domain. -/
def OwnRecord (c : DomainData) (address : PVOID) (block : HeapBlock) : Prop :=
  ∃ domain, block.request.domain = some domain ∧
    (domain = c.defaultDomainId ∧ block.charge = none ∨
      block.charge = some ⟨domain, true⟩ ∧
        c.memoryAppDomain.lookup address = some ⟨domain, block.request.cbSize⟩)

/-- What is true at every moment. An entry of a domain that is there belongs to a
live block, or its release is still to come; in the latter case no live block at
the address has an entry. A counter has moved by what the entries add up to. -/
structure Tracked (start s : MallocSystem) : Prop extends HeldBlocks s where
  same : start.host.toDomainData.SameDomains s.host.toDomainData
  requested : ∀ thread request, s.calls.lookup thread = some (.requested request) →
    LiveRequest s.host.toDomainData thread request
  allocated : ∀ thread request address,
    s.calls.lookup thread = some (.allocated request address) →
      LiveRequest s.host.toDomainData thread request
  blocks : ∀ address block, s.heap.lookup address = some block →
    (∃ thread, s.calls.lookup thread = some (.allocated block.request address)) ∨
      OwnRecord s.host.toDomainData address block
  entries : ∀ address memoryInfo, s.host.memoryAppDomain.lookup address = some memoryInfo →
    s.host.memoryRecord memoryInfo.appDomainId ≠ none →
      (∃ block, s.heap.lookup address = some block ∧
        block.charge = some ⟨memoryInfo.appDomainId, true⟩) ∨
      ∃ thread, s.calls.lookup thread = some (.freed address)
  settled : ∀ address block charge, s.heap.lookup address = some block →
    block.charge = some charge → ∀ thread, s.calls.lookup thread ≠ some (.freed address)
  counted : ∀ domain before, start.host.memoryRecord domain = some before →
    s.host.toDomainData.UsageCounted before domain

theorem rawGetMemoryUsage_eq (c : DomainData) (domain : DWORD) :
    c.rawGetMemoryUsage domain = (c.memoryRecord domain).map Prod.fst := by
  simp only [DomainData.rawGetMemoryUsage, DomainData.memoryRecord, Option.map_map]
  rfl

theorem Tracked.balanced {start s : MallocSystem} (hs : Tracked start s) : Balanced start s := by
  have hidle : s.calls = ∅ → ∀ thread, s.calls.lookup thread = none := by
    intro hcalls thread
    rw [hcalls]
    exact Finmap.lookup_empty thread
  refine ⟨?_, ?_⟩
  · intro hcalls address block hblock
    rcases hs.blocks address block hblock with
      ⟨thread, hcall⟩ | ⟨domain, hdomain, ⟨hdefault, -⟩ | ⟨-, hentry⟩⟩
    · rw [hidle hcalls] at hcall
      cases hcall
    · exact ⟨domain, hdomain, Or.inl hdefault⟩
    · exact ⟨domain, hdomain, Or.inr hentry⟩
  · intro hcalls hheap domain
    have hnone : ∀ address memoryInfo,
        s.host.memoryAppDomain.lookup address = some memoryInfo →
          s.host.memoryRecord memoryInfo.appDomainId = none := by
      intro address memoryInfo hentry
      by_contra hpresent
      rcases hs.entries address memoryInfo hentry hpresent with
        ⟨block, hblock, -⟩ | ⟨thread, hcall⟩
      · rw [hheap] at hblock
        cases hblock
      · rw [hidle hcalls] at hcall
        cases hcall
    rw [rawGetMemoryUsage_eq, rawGetMemoryUsage_eq]
    cases hused : s.host.memoryRecord domain with
    | none => rw [(hs.same.present domain).mp hused]
    | some used =>
        have hbefore : start.host.memoryRecord domain ≠ none := by
          rw [Ne, ← hs.same.present, hused]
          simp
        obtain ⟨before, hbefore⟩ := Option.ne_none_iff_exists'.mp hbefore
        have hzero : s.host.entryUsage domain = 0 := by
          refine DomainData.entryUsage_eq_zero ?_
          rintro address memoryInfo hentry rfl
          rw [hnone address memoryInfo hentry] at hused
          cases hused
        rw [hs.counted domain before hbefore used hused, hzero, add_zero, hbefore]

theorem NothingLive.tracked {start : MallocSystem} (h : start.NothingLive) :
    Tracked start start := by
  have hentries := StdMap.allValues_iff.mp h.entries
  have hidle : ∀ thread, start.calls.lookup thread = none := by
    intro thread
    rw [h.calls]
    exact Finmap.lookup_empty thread
  have hempty : ∀ address, start.heap.lookup address = none := by
    intro address
    rw [h.heap]
    exact Finmap.lookup_empty address
  have hblocks : start.HeldBlocks := by
    refine ⟨?_, ?_⟩
    · intro thread request address hcall
      rw [hidle] at hcall
      cases hcall
    · intro thread thread' request request' address hcall
      rw [hidle] at hcall
      cases hcall
  refine ⟨hblocks, DomainData.SameDomains.refl _, ?_, ?_, ?_, ?_, ?_, ?_⟩
  · intro thread request hcall
    rw [hidle] at hcall
    cases hcall
  · intro thread request address hcall
    rw [hidle] at hcall
    cases hcall
  · intro address block hblock
    rw [hempty] at hblock
    cases hblock
  · intro address memoryInfo hentry hpresent
    exact absurd (hentries address memoryInfo hentry) hpresent
  · intro address block charge hblock
    rw [hempty] at hblock
    cases hblock
  · intro domain before hbefore used hused
    have hzero : start.host.entryUsage domain = 0 := by
      refine DomainData.entryUsage_eq_zero ?_
      rintro address memoryInfo hentry rfl
      rw [hentries address memoryInfo hentry] at hbefore
      cases hbefore
    rw [hbefore] at hused
    cases hused
    rw [hzero, add_zero]

/-! One lemma for each step. -/

/-- A step that leaves the host and the heap alone and gives the thread a call
that holds no block. The call it leaves was no release, or its release is done. -/
theorem Tracked.of_calls {start s : MallocSystem} {calls : StdMap DWORD MallocCall}
    (hs : Tracked start s) (hblocks : HeldBlocks { s with calls }) (thread : DWORD)
    (hothers : ∀ t, t ≠ thread → calls.lookup t = s.calls.lookup t)
    (hbefore : ∀ address, (∀ request, s.calls.lookup thread ≠ some (.allocated request address)) ∧
      s.calls.lookup thread ≠ some (.freed address))
    (hafter : ∀ address, (∀ request, calls.lookup thread ≠ some (.allocated request address)) ∧
      calls.lookup thread ≠ some (.freed address))
    (hrequest : ∀ request, calls.lookup thread = some (.requested request) →
      LiveRequest s.host.toDomainData thread request) :
    Tracked start { s with calls } := by
  have hkept : ∀ t call, s.calls.lookup t = some call → t ≠ thread →
      calls.lookup t = some call := by
    intro t call ht hne
    rw [hothers t hne, ht]
  refine ⟨hblocks, hs.same, ?_, ?_, ?_, ?_, ?_, hs.counted⟩
  · intro t r ht
    by_cases hne : t = thread
    · subst hne
      exact hrequest r ht
    · rw [hothers t hne] at ht
      exact hs.requested t r ht
  · intro t r a ht
    by_cases hne : t = thread
    · subst hne
      exact absurd ht ((hafter a).1 r)
    · rw [hothers t hne] at ht
      exact hs.allocated t r a ht
  · intro a block ha
    rcases hs.blocks a block ha with ⟨t, ht⟩ | hown
    · refine Or.inl ⟨t, hkept t _ ht ?_⟩
      rintro rfl
      exact (hbefore a).1 _ ht
    · exact Or.inr hown
  · intro a memoryInfo ha hpresent
    rcases hs.entries a memoryInfo ha hpresent with hblock | ⟨t, ht⟩
    · exact Or.inl hblock
    · refine Or.inr ⟨t, hkept t _ ht ?_⟩
      rintro rfl
      exact (hbefore a).2 ht
  · intro a block charge ha hcharge t ht
    by_cases hne : t = thread
    · subst hne
      exact (hafter a).2 ht
    · rw [hothers t hne] at ht
      exact hs.settled a block charge ha hcharge t ht

theorem Tracked.check {start s : MallocSystem} {thread : DWORD} {cbSize : LONG}
    {level : EMemoryCriticalLevel} (hs : Tracked start s)
    (hlive : s.AllocOrFree (.onMemoryAcquiring thread cbSize level))
    (hidle : s.calls.lookup thread = none)
    (hblocks : HeldBlocks { s with calls := s.calls.set thread (.requested
      ⟨cbSize, level, s.host.threadAppDomain.lookup thread⟩) }) :
    Tracked start { s with calls := s.calls.set thread (.requested
      ⟨cbSize, level, s.host.threadAppDomain.lookup thread⟩) } := by
  obtain ⟨domain, hdomain, hpresent⟩ := hlive
  have hnew : (s.calls.set thread (.requested
      ⟨cbSize, level, s.host.threadAppDomain.lookup thread⟩)).lookup thread =
        some (.requested ⟨cbSize, level, s.host.threadAppDomain.lookup thread⟩) := by
    rw [StdMap.lookup_set, if_pos rfl]
  apply hs.of_calls hblocks thread
  · intro t ht
    rw [StdMap.lookup_set, if_neg ht]
  · intro address
    simp [hidle]
  · intro address
    simp [hnew]
  · intro request hrequest
    rw [hnew] at hrequest
    cases hrequest
    exact ⟨domain, hdomain, hpresent, hdomain⟩

/-- The heap has nothing left, and the request ends. -/
theorem Tracked.giveUp {start s : MallocSystem} {thread : DWORD} {request : Request}
    (hs : Tracked start s) (hcall : s.calls.lookup thread = some (.requested request))
    (hblocks : HeldBlocks { s with calls := s.calls.remove thread }) :
    Tracked start { s with calls := s.calls.remove thread } := by
  have hnew : (s.calls.remove thread).lookup thread = none := by
    rw [StdMap.lookup_remove, if_pos rfl]
  apply hs.of_calls hblocks thread
  · intro t ht
    rw [StdMap.lookup_remove, if_neg ht]
  · intro address
    simp [hcall]
  · intro address
    simp [hnew]
  · intro request hrequest
    rw [hnew] at hrequest
    cases hrequest

theorem Tracked.alloc {start s : MallocSystem} {thread : DWORD} {request : Request}
    {address : PVOID} (hs : Tracked start s)
    (hcall : s.calls.lookup thread = some (.requested request))
    (hfresh : s.heap.lookup address = none)
    (hblocks : HeldBlocks { s with
      heap := s.heap.set address ⟨request, none⟩
      calls := s.calls.set thread (.allocated request address) }) :
    Tracked start { s with
      heap := s.heap.set address ⟨request, none⟩
      calls := s.calls.set thread (.allocated request address) } := by
  refine ⟨hblocks, hs.same, ?_, ?_, ?_, ?_, ?_, hs.counted⟩
  · intro t r ht
    rcases StdMap.lookup_set_eq_some.mp ht with ⟨-, hr⟩ | ⟨-, ht⟩
    · cases hr
    · exact hs.requested t r ht
  · intro t r a ht
    rcases StdMap.lookup_set_eq_some.mp ht with ⟨rfl, hr⟩ | ⟨-, ht⟩
    · cases hr
      exact hs.requested t request hcall
    · exact hs.allocated t r a ht
  · intro a block ha
    rcases StdMap.lookup_set_eq_some.mp ha with ⟨rfl, rfl⟩ | ⟨-, ha⟩
    · exact Or.inl ⟨thread, StdMap.lookup_set_eq_some.mpr (Or.inl ⟨rfl, rfl⟩)⟩
    · rcases hs.blocks a block ha with ⟨t, ht⟩ | hown
      · have hne : t ≠ thread := by
          rintro rfl
          cases hcall.symm.trans ht
        exact Or.inl ⟨t, StdMap.lookup_set_eq_some.mpr (Or.inr ⟨hne, ht⟩)⟩
      · exact Or.inr hown
  · intro a memoryInfo ha hpresent
    rcases hs.entries a memoryInfo ha hpresent with ⟨block, hblock, hcharge⟩ | ⟨t, ht⟩
    · refine Or.inl ⟨block, StdMap.lookup_set_eq_some.mpr (Or.inr ⟨?_, hblock⟩), hcharge⟩
      rintro rfl
      rw [hfresh] at hblock
      cases hblock
    · refine Or.inr ⟨t, StdMap.lookup_set_eq_some.mpr (Or.inr ⟨?_, ht⟩)⟩
      rintro rfl
      cases hcall.symm.trans ht
  · intro a block charge ha hcharge t ht
    rcases StdMap.lookup_set_eq_some.mp ha with ⟨-, rfl⟩ | ⟨-, ha⟩
    · cases hcharge
    · rcases StdMap.lookup_set_eq_some.mp ht with ⟨-, hfreed⟩ | ⟨-, ht⟩
      · cases hfreed
      · exact hs.settled a block charge ha hcharge t ht

theorem Tracked.free {start s : MallocSystem} {thread : DWORD} {pMem : PVOID}
    (hs : Tracked start s) (hidle : s.calls.lookup thread = none)
    (hblocks : HeldBlocks { s with
      heap := s.heap.remove pMem
      calls := s.calls.set thread (.freed pMem) }) :
    Tracked start { s with
      heap := s.heap.remove pMem
      calls := s.calls.set thread (.freed pMem) } := by
  have hkept : ∀ t call, s.calls.lookup t = some call →
      (s.calls.set thread (.freed pMem)).lookup t = some call := by
    intro t call ht
    refine StdMap.lookup_set_eq_some.mpr (Or.inr ⟨?_, ht⟩)
    rintro rfl
    rw [hidle] at ht
    cases ht
  refine ⟨hblocks, hs.same, ?_, ?_, ?_, ?_, ?_, hs.counted⟩
  · intro t r ht
    rcases StdMap.lookup_set_eq_some.mp ht with ⟨-, hr⟩ | ⟨-, ht⟩
    · cases hr
    · exact hs.requested t r ht
  · intro t r a ht
    rcases StdMap.lookup_set_eq_some.mp ht with ⟨-, hr⟩ | ⟨-, ht⟩
    · cases hr
    · exact hs.allocated t r a ht
  · intro a block ha
    rcases hs.blocks a block (StdMap.lookup_remove_eq_some.mp ha).2 with ⟨t, ht⟩ | hown
    · exact Or.inl ⟨t, hkept t _ ht⟩
    · exact Or.inr hown
  · intro a memoryInfo ha hpresent
    by_cases hpMem : a = pMem
    · subst hpMem
      exact Or.inr ⟨thread, StdMap.lookup_set_eq_some.mpr (Or.inl ⟨rfl, rfl⟩)⟩
    · rcases hs.entries a memoryInfo ha hpresent with ⟨block, hblock, hcharge⟩ | ⟨t, ht⟩
      · exact Or.inl ⟨block, StdMap.lookup_remove_eq_some.mpr ⟨hpMem, hblock⟩, hcharge⟩
      · exact Or.inr ⟨t, hkept t _ ht⟩
  · intro a block charge ha hcharge t ht
    obtain ⟨hne, ha⟩ := StdMap.lookup_remove_eq_some.mp ha
    rcases StdMap.lookup_set_eq_some.mp ht with ⟨-, hfreed⟩ | ⟨-, ht⟩
    · cases hfreed
      exact hne rfl
    · exact hs.settled a block charge ha hcharge t ht

theorem liveRequest_of_same {c c' : DomainData} (h : c.SameDomains c') {thread : DWORD}
    {request : Request} (hlive : LiveRequest c thread request) :
    LiveRequest c' thread request := by
  obtain ⟨domain, hdomain, hpresent, hthread⟩ := hlive
  refine ⟨domain, hdomain, ?_, ?_⟩
  · rw [Ne, h.present]
    exact hpresent
  · rw [h.threads, hthread]

/-- What the charge of a block makes of it. -/
theorem ownRecord_charged {c : DomainData} {thread : DWORD} {request : Request}
    {address : PVOID} (hlive : LiveRequest c thread request)
    (hfree : c.chargedDomain thread ≠ none → c.memoryAppDomain.lookup address = none) :
    OwnRecord (c.onMemoryAcquire thread request.cbSize address) address
      ⟨request, chargeOf c thread address⟩ := by
  obtain ⟨domain, hdomain, hpresent, hthread⟩ := hlive
  refine ⟨domain, hdomain, ?_⟩
  rw [DomainData.onMemoryAcquire_default, DomainData.entries_acquire]
  by_cases hdefault : domain = c.defaultDomainId
  · refine Or.inl ⟨hdefault, ?_⟩
    simp [chargeOf, DomainData.chargedDomain, hthread, hdefault]
  · have hcharged : c.chargedDomain thread = some domain :=
      DomainData.chargedDomain_eq_some.mpr ⟨hthread, hdefault, hpresent⟩
    have hnone := hfree (by simp [hcharged])
    refine Or.inr ⟨?_, ?_⟩
    · simp [chargeOf, hcharged, hnone]
    · simp [hcharged, hnone]

theorem Tracked.charge {start s next : MallocSystem} {thread : DWORD} {request : Request}
    {address : PVOID} (hs : Tracked start s)
    (hcall : s.calls.lookup thread = some (.allocated request address))
    (hcond : s.KeepsRecords (.onMemoryAcquire thread))
    (hhost : next.host.toDomainData =
      s.host.toDomainData.onMemoryAcquire thread request.cbSize address)
    (hheap : next.heap =
      s.heap.set address ⟨request, chargeOf s.host.toDomainData thread address⟩)
    (hcalls : next.calls = s.calls.remove thread) (hblocks : next.HeldBlocks) :
    Tracked start next := by
  have hfree : s.host.chargedDomain thread ≠ none →
      s.host.memoryAppDomain.lookup address = none ∧
        ∀ t, s.calls.lookup t ≠ some (.freed address) := by
    intro hcharged
    obtain ⟨hnone, hpending⟩ := hcond _ hcall hcharged
    exact ⟨hnone, fun t ht => StdMap.allValues_iff.mp hpending t _ ht rfl⟩
  have hstep : s.host.toDomainData.SameDomains next.host.toDomainData := by
    rw [hhost]
    exact DomainData.sameDomains_acquire _ thread request.cbSize address
  have hsub : ∀ t call, next.calls.lookup t = some call →
      t ≠ thread ∧ s.calls.lookup t = some call := by
    intro t call ht
    rw [hcalls] at ht
    exact StdMap.lookup_remove_eq_some.mp ht
  have hkept : ∀ t call, s.calls.lookup t = some call → call ≠ .allocated request address →
      next.calls.lookup t = some call := by
    intro t call ht hne
    rw [hcalls]
    exact StdMap.lookup_remove_of_value_ne hcall ht hne
  have hheaps : ∀ a block, next.heap.lookup a = some block →
      a = address ∧ block = ⟨request, chargeOf s.host.toDomainData thread address⟩ ∨
        a ≠ address ∧ s.heap.lookup a = some block := by
    intro a block ha
    rw [hheap] at ha
    exact StdMap.lookup_set_eq_some.mp ha
  refine ⟨hblocks, hs.same.trans hstep, ?_, ?_, ?_, ?_, ?_, ?_⟩
  · intro t r ht
    exact liveRequest_of_same hstep (hs.requested t r (hsub t _ ht).2)
  · intro t r a ht
    exact liveRequest_of_same hstep (hs.allocated t r a (hsub t _ ht).2)
  · intro a block ha
    rcases hheaps a block ha with ⟨rfl, rfl⟩ | ⟨hne, ha⟩
    · refine Or.inr ?_
      rw [hhost]
      exact ownRecord_charged (hs.allocated thread request a hcall) (fun h => (hfree h).1)
    · rcases hs.blocks a block ha with ⟨t, ht⟩ | ⟨domain, hdomain, hown⟩
      · refine Or.inl ⟨t, hkept t _ ht ?_⟩
        intro heq
        cases heq
        exact hne rfl
      · refine Or.inr ⟨domain, hdomain, ?_⟩
        rw [hstep.default, hhost, DomainData.entries_acquire, if_neg (fun h => hne h.1)]
        exact hown
  · intro a memoryInfo ha hpresent
    rw [Ne, hstep.present] at hpresent
    rw [hhost, DomainData.entries_acquire] at ha
    split at ha
    next hnew =>
      obtain ⟨domain, hcharged, rfl⟩ := Option.map_eq_some_iff.mp ha
      refine Or.inl ⟨⟨request, chargeOf s.host.toDomainData thread address⟩, ?_, ?_⟩
      · rw [hheap]
        exact StdMap.lookup_set_eq_some.mpr (Or.inl ⟨hnew.1, rfl⟩)
      · simp [chargeOf, hcharged, hnew.2]
    next =>
      rcases hs.entries a memoryInfo ha hpresent with ⟨block, hblock, hcharge⟩ | ⟨t, ht⟩
      · refine Or.inl ⟨block, ?_, hcharge⟩
        rw [hheap]
        refine StdMap.lookup_set_eq_some.mpr (Or.inr ⟨?_, hblock⟩)
        -- the block that is charged had no entry of its own
        rintro rfl
        rw [hs.held thread request a hcall] at hblock
        cases hblock
        cases hcharge
      · exact Or.inr ⟨t, hkept t _ ht (by simp)⟩
  · intro a block charge ha hcharge t ht
    have ht := (hsub t _ ht).2
    rcases hheaps a block ha with ⟨rfl, rfl⟩ | ⟨-, ha⟩
    · obtain ⟨domain, hcharged, -⟩ := Option.map_eq_some_iff.mp hcharge
      exact (hfree (by simp [hcharged])).2 t ht
    · exact hs.settled a block charge ha hcharge t ht
  · intro domain before hbefore
    rw [hhost]
    refine (hs.counted domain before hbefore).acquire ?_ request.cbSize
    intro hcharged
    exact (hfree (by simp [hcharged])).1

theorem Tracked.release {start s next : MallocSystem} {thread : DWORD} {pMem : PVOID}
    (hs : Tracked start s) (hcall : s.calls.lookup thread = some (.freed pMem))
    (hhost : next.host.toDomainData = (s.host.toDomainData.onMemoryRelease pMem).1)
    (hheap : next.heap = s.heap) (hcalls : next.calls = s.calls.remove thread)
    (hblocks : next.HeldBlocks) : Tracked start next := by
  have hstep : s.host.toDomainData.SameDomains next.host.toDomainData := by
    rw [hhost]
    exact DomainData.sameDomains_release _ pMem
  have hsub : ∀ t call, next.calls.lookup t = some call → s.calls.lookup t = some call := by
    intro t call ht
    rw [hcalls] at ht
    exact (StdMap.lookup_remove_eq_some.mp ht).2
  have hkept : ∀ t call, s.calls.lookup t = some call → call ≠ .freed pMem →
      next.calls.lookup t = some call := by
    intro t call ht hne
    rw [hcalls]
    exact StdMap.lookup_remove_of_value_ne hcall ht hne
  refine ⟨hblocks, hs.same.trans hstep, ?_, ?_, ?_, ?_, ?_, ?_⟩
  · intro t r ht
    exact liveRequest_of_same hstep (hs.requested t r (hsub t _ ht))
  · intro t r a ht
    exact liveRequest_of_same hstep (hs.allocated t r a (hsub t _ ht))
  · intro a block ha
    rw [hheap] at ha
    rcases hs.blocks a block ha with ⟨t, ht⟩ | ⟨domain, hdomain, hown⟩
    · exact Or.inl ⟨t, hkept t _ ht (by simp)⟩
    · refine Or.inr ⟨domain, hdomain, ?_⟩
      rw [hstep.default, hhost]
      rcases hown with hdefault | ⟨hcharge, hentry⟩
      · exact Or.inl hdefault
      · refine Or.inr ⟨hcharge, ?_⟩
        rw [DomainData.entries_release, hentry]
        rintro rfl
        exact hs.settled a block _ ha hcharge thread hcall
  · intro a memoryInfo ha hpresent
    rw [Ne, hstep.present] at hpresent
    rw [hhost] at ha
    have hcharged : a ∈ (s.host.toDomainData.onMemoryRelease pMem).1.chargedAt
        memoryInfo.appDomainId := DomainData.mem_chargedAt.mpr ⟨memoryInfo, ha, rfl⟩
    have hne : a ≠ pMem := (DomainData.chargedAt_release hpresent hcharged).1
    rw [DomainData.entries_release hne] at ha
    rw [hheap]
    rcases hs.entries a memoryInfo ha hpresent with hblock | ⟨t, ht⟩
    · exact Or.inl hblock
    · refine Or.inr ⟨t, hkept t _ ht ?_⟩
      intro heq
      cases heq
      exact hne rfl
  · intro a block charge ha hcharge t ht
    rw [hheap] at ha
    exact hs.settled a block charge ha hcharge t (hsub t _ ht)
  · intro domain before hbefore
    rw [hhost]
    exact (hs.counted domain before hbefore).release pMem

theorem step_tracked (start s : MallocSystem) (action : MallocAction) (next : MallocSystem)
    (hs : Tracked start s) (hcond : s.AllocOrFree action ∧ s.KeepsRecords action)
    (h : s.step action = .ok next) : Tracked start next := by
  obtain ⟨hlive, hkeeps⟩ := hcond
  have hblocks : next.HeldBlocks := hs.toHeldBlocks.step h
  cases action with
  | onMemoryAcquiring thread cbSize level =>
      obtain ⟨hidle, rfl | ⟨-, rfl⟩⟩ := onMemoryAcquiring_ok h
      · exact hs
      · exact hs.check hlive hidle hblocks
  | heapAlloc thread ppMem =>
      obtain ⟨request, hcall, rfl | ⟨address, hfresh, -, rfl⟩⟩ := heapAlloc_ok h
      · exact hs.giveUp hcall hblocks
      · exact hs.alloc hcall hfresh hblocks
  | onMemoryAcquire thread =>
      obtain ⟨request, address, hcall, hhost, hheap, hcalls⟩ := onMemoryAcquire_ok h
      exact hs.charge hcall hkeeps hhost hheap hcalls hblocks
  | heapFree thread pMem =>
      obtain ⟨hidle, -, rfl⟩ := heapFree_ok h
      exact hs.free hidle hblocks
  | onMemoryRelease thread =>
      obtain ⟨pMem, hcall, hhost, hheap, hcalls⟩ := onMemoryRelease_ok h
      exact hs.release hcall hhost hheap hcalls hblocks
  | host op => exact absurd hlive id

/-- From any host in which nothing is live: in every run of `Alloc` and `Free`
that charges no block at an address whose release is still to come, the books
are balanced whenever no call is in progress. -/
theorem records_balanced {start : MallocSystem} {actions : List MallocAction}
    (hstart : start.NothingLive) (hlive : Meets step AllocOrFree start actions)
    (hcond : Meets step KeepsRecords start actions) :
    Always step (Balanced start) start actions :=
  (always_of_meets (step_tracked start) hstart.tracked (hlive.and hcond)).imp
    (fun _ hs => hs.balanced)

/-- A default domain and a snippet with two threads. -/
def snippet : List MallocAction :=
  [.host (.onDomainCreate 1 10 (some 0) 0), .host (.onDomainCreate 2 20 (some 1) 0),
    .host (.onThreadAcquire 20 21)]

/-- Two threads take turns at one address; the second charge comes after the
late release. -/
def lateRelease : List MallocAction :=
  [.onMemoryAcquiring 20 100 .eTaskCritical, .heapAlloc 20 (some 4096), .onMemoryAcquire 20,
    .heapFree 20 4096, .onMemoryAcquiring 21 200 .eTaskCritical, .heapAlloc 21 (some 4096),
    .onMemoryRelease 20, .onMemoryAcquire 21, .heapFree 21 4096, .onMemoryRelease 21]

theorem records_balanced_late_release :
    ∃ start, run step initial snippet = .ok start ∧
      Always step (Balanced start) start lateRelease := by
  have hstart : Reaches step (fun s => s.NothingLive ∧ Meets step AllocOrFree s lateRelease ∧
      Meets step KeepsRecords s lateRelease) initial snippet := by decide
  obtain ⟨start, hrun, hnothing, hlive, hcond⟩ := reaches_iff.mp hstart
  exact ⟨start, hrun, records_balanced hnothing hlive hcond⟩

/-- The same calls, with the charge before the late release. -/
def lostRecord : List MallocAction :=
  [.onMemoryAcquiring 20 100 .eTaskCritical, .heapAlloc 20 (some 4096), .onMemoryAcquire 20,
    .heapFree 20 4096, .onMemoryAcquiring 21 200 .eTaskCritical, .heapAlloc 21 (some 4096),
    .onMemoryAcquire 21, .onMemoryRelease 20, .heapFree 21 4096, .onMemoryRelease 21]

/-- The second block is not recorded, and its 200 bytes are never taken back. -/
theorem late_release_loses_record :
    ∃ start, run step initial snippet = .ok start ∧ start.NothingLive ∧
      Meets step AllocOrFree start lostRecord ∧ start.host.rawGetMemoryUsage 2 = some 0 ∧
      (∃ s, run step start lostRecord = .ok s ∧ s.calls = ∅ ∧ s.heap = ∅ ∧
        s.host.rawGetMemoryUsage 2 = some 200) ∧
      ¬ Always step (Balanced start) start lostRecord := by
  have hstart : Reaches step (fun start => start.NothingLive ∧
      Meets step AllocOrFree start lostRecord ∧ start.host.rawGetMemoryUsage 2 = some 0 ∧
      Reaches step (fun s => s.calls = ∅ ∧ s.heap = ∅ ∧
        s.host.rawGetMemoryUsage 2 = some 200) start lostRecord) initial snippet := by decide
  obtain ⟨start, hrun, hnothing, hlive, hbefore, hreached⟩ := reaches_iff.mp hstart
  obtain ⟨s, hlost, hcalls, hheap, hafter⟩ := reaches_iff.mp hreached
  refine ⟨start, hrun, hnothing, hlive, hbefore, ⟨s, hlost, hcalls, hheap, hafter⟩, ?_⟩
  intro halways
  have hback := (halways.last hlost).returned hcalls hheap 2
  rw [hbefore, hafter] at hback
  cases hback

end MallocSystem

end HostedPumpkin
