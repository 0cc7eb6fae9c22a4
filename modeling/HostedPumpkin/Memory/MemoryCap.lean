import HostedPumpkin.Memory.Malloc

/-!
The memory cap. What is granted to the threads of a snippet domain below the
critical levels should never exceed `MAX_BYTES_PER_DOMAIN`. The host checks its
counter and charges it in two critical sections with the allocation between
them, so the cap holds as long as a domain has one such request on its way at a
time, keeps its record while its threads ask, and loses no charge to a release
that comes after the address was handed out again.
-/

namespace HostedPumpkin

open Runs

/-- A request below the critical levels by a thread of this domain. -/
def Request.GrantedTo (request : Request) (domain : DWORD) : Prop :=
  request.eCriticalLevel.aboveTask = false ∧ request.domain = some domain

instance (request : Request) (domain : DWORD) : Decidable (request.GrantedTo domain) := by
  unfold Request.GrantedTo
  infer_instance

theorem Request.GrantedTo.unique {request : Request} {d d' : DWORD}
    (h : request.GrantedTo d) (h' : request.GrantedTo d') : d = d' :=
  Option.some.inj (h.2.symm.trans h'.2)

namespace MallocSystem

def blockBytes (domain : DWORD) (block : HeapBlock) : LONG :=
  if block.request.GrantedTo domain then block.request.cbSize else 0

/-- Blocks that were charged but have no entry of their own. -/
def unrecordedBytes (domain : DWORD) (block : HeapBlock) : LONG :=
  if block.request.GrantedTo domain ∧ block.charge = some ⟨domain, false⟩ then
    block.request.cbSize
  else 0

/-- Requests that passed the check and have no block yet. -/
def pendingBytes (domain : DWORD) : MallocCall → LONG
  | .requested request => if request.GrantedTo domain then request.cbSize else 0
  | _ => 0

/-- A request of this domain between its check and its charge. -/
def InFlight (domain : DWORD) : MallocCall → Prop
  | .requested request => request.GrantedTo domain
  | .allocated request _ => request.GrantedTo domain
  | .freed _ => False

instance (domain : DWORD) (call : MallocCall) : Decidable (InFlight domain call) :=
  match call with
  | .requested request => inferInstanceAs (Decidable (request.GrantedTo domain))
  | .allocated request _ => inferInstanceAs (Decidable (request.GrantedTo domain))
  | .freed _ => isFalse not_false

/-- The total size of the live blocks granted to the threads of a domain. -/
def granted (s : MallocSystem) (domain : DWORD) : LONG := s.heap.total (blockBytes domain)

def unrecorded (s : MallocSystem) (domain : DWORD) : LONG :=
  s.heap.total (unrecordedBytes domain)

def pending (s : MallocSystem) (domain : DWORD) : LONG := s.calls.total (pendingBytes domain)

/-- No domain but the default one holds more than its cap. -/
def MemoryCapped (s : MallocSystem) : Prop :=
  ∀ domain, domain ≠ s.host.defaultDomainId → s.granted domain ≤ maxBytesPerDomain

/-- Sizes are below 2^31. -/
def LegalRequest (_ : MallocSystem) : MallocAction → Prop
  | .onMemoryAcquiring _ cbSize _ => 0 ≤ cbSize ∧ cbSize < 2 ^ 31
  | _ => True

/-- No live block was granted to the domain and no request of it is in flight. -/
def NoGrants (s : MallocSystem) (domain : DWORD) : Prop :=
  s.heap.AllValues (fun block => ¬ block.request.GrantedTo domain) ∧
    s.calls.AllValues (fun call => ¬ InFlight domain call)

/-- The steps that keep the cap. A request below the critical levels passes the
check only while its domain has a record and no other such request in flight; its
thread is still mapped to that domain when the block is charged; a late
`OnMemoryRelease` does not meet a newer block that is recorded at the address; a
domain is created when nothing of an earlier domain of that id is left, and it
replaces the default domain only if that one has no grants. -/
def KeepsCap (s : MallocSystem) : MallocAction → Prop
  | .onMemoryAcquiring thread cbSize level =>
      level.aboveTask = false → s.host.onMemoryAcquiring thread cbSize = true →
        ∀ domain ∈ s.host.threadAppDomain.lookup thread, domain ≠ s.host.defaultDomainId →
          s.host.memoryRecord domain ≠ none ∧
            s.calls.AllValues (fun call => ¬ InFlight domain call)
  | .onMemoryAcquire thread =>
      match s.calls.lookup thread with
      | some (.allocated request _) =>
          request.eCriticalLevel.aboveTask = false → ∀ domain ∈ request.domain,
            domain ≠ s.host.defaultDomainId → s.host.memoryRecord domain ≠ none →
              s.host.threadAppDomain.lookup thread = some domain
      | _ => True
  | .onMemoryRelease thread =>
      match s.calls.lookup thread with
      | some (.freed pMem) =>
          ∀ block ∈ s.heap.lookup pMem, ∀ charge ∈ block.charge, charge.recorded = false
      | _ => True
  | .host (.onDomainCreate domain _ _ _) =>
      (s.host.memoryRecord domain = none → s.NoGrants domain ∧ s.host.NoEntries domain) ∧
        (s.host.defaultDomainManager = none → domain ≠ s.host.defaultDomainId →
          s.NoGrants s.host.defaultDomainId)
  | _ => True

instance (s : MallocSystem) (action : MallocAction) : Decidable (s.LegalRequest action) := by
  cases action <;> unfold LegalRequest <;> infer_instance

instance (s : MallocSystem) (domain : DWORD) : Decidable (s.NoGrants domain) := by
  unfold NoGrants
  infer_instance

instance (s : MallocSystem) (action : MallocAction) : Decidable (s.KeepsCap action) := by
  unfold KeepsCap
  split
  -- the domain is looked up: the finite type `DWORD` is too large to go through
  next =>
      refine @instDecidableForall _ _ _ (@instDecidableForall _ _ _ ?_)
      exact Option.decidableForallMem _
  next =>
      split
      next => exact @instDecidableForall _ _ _ (Option.decidableForallMem _)
      next => infer_instance
  next => split <;> infer_instance
  next => infer_instance
  next => infer_instance

/-- A block is charged to the domain it was granted to, and an entry says so
unless another entry was in the way, or it is still in the hands of `Alloc`. -/
def Charged (s : MallocSystem) (domain : DWORD) (address : PVOID) (block : HeapBlock) : Prop :=
  block.charge = some ⟨domain, false⟩ ∨
    s.host.memoryAppDomain.lookup address = some ⟨domain, block.request.cbSize⟩ ∧
      block.charge = some ⟨domain, true⟩ ∨
    ∃ thread, s.calls.lookup thread = some (.allocated block.request address)

/-- No domain but the default one has two requests in flight, and with the one
that has no block yet it is below its cap. A counter is at least what the
entries of the domain and its blocks without an entry add up to. -/
structure Capped (s : MallocSystem) : Prop where
  single : ∀ domain, domain ≠ s.host.defaultDomainId → ∀ thread thread' call call',
    s.calls.lookup thread = some call → s.calls.lookup thread' = some call' →
      InFlight domain call → InFlight domain call' → thread = thread'
  capped : ∀ domain, domain ≠ s.host.defaultDomainId →
    s.granted domain + s.pending domain ≤ maxBytesPerDomain
  counted : ∀ domain used, s.host.memoryRecord domain = some used →
    s.host.entryBytes domain + s.unrecorded domain ≤ used.1
  charged : ∀ domain address block, s.heap.lookup address = some block →
    block.request.GrantedTo domain → domain ≠ s.host.defaultDomainId →
      s.host.memoryRecord domain ≠ none → s.Charged domain address block
  held : ∀ thread request address,
    s.calls.lookup thread = some (.allocated request address) →
      s.heap.lookup address = some ⟨request, none⟩
  apart : ∀ thread thread' request request' address,
    s.calls.lookup thread = some (.allocated request address) →
      s.calls.lookup thread' = some (.allocated request' address) → thread = thread'
  requestSizes : ∀ thread request, s.calls.lookup thread = some (.requested request) →
    0 ≤ request.cbSize
  blockSizes : ∀ address block, s.heap.lookup address = some block → 0 ≤ block.request.cbSize
  entrySizes : ∀ address memoryInfo, s.host.memoryAppDomain.lookup address = some memoryInfo →
    0 ≤ memoryInfo.dwBytes

theorem pendingBytes_of_not_inFlight {domain : DWORD} {call : MallocCall}
    (h : ¬ InFlight domain call) : pendingBytes domain call = 0 := by
  cases call with
  | requested request => exact if_neg h
  | allocated | freed => rfl

theorem Capped.pendingBytes_nonneg {s : MallocSystem} (hs : s.Capped) {thread : DWORD}
    {call : MallocCall} (hcall : s.calls.lookup thread = some call) (domain : DWORD) :
    0 ≤ pendingBytes domain call := by
  cases call with
  | requested request =>
      simp only [pendingBytes]
      split
      next => exact hs.requestSizes thread request hcall
      next => exact le_refl 0
  | allocated | freed => exact le_refl 0

theorem Capped.pending_nonneg {s : MallocSystem} (hs : s.Capped) (domain : DWORD) :
    0 ≤ s.pending domain :=
  StdMap.total_nonneg (fun _ _ hcall => hs.pendingBytes_nonneg hcall domain)

theorem Capped.memoryCapped {s : MallocSystem} (hs : s.Capped) : s.MemoryCapped := by
  intro domain hdefault
  have hcapped := hs.capped domain hdefault
  have hpending := hs.pending_nonneg domain
  linarith

theorem capped_initial : initial.Capped := by
  refine ⟨?_, ?_, ?_, ?_, ?_, ?_, ?_, ?_, ?_⟩
  · intro domain _ thread thread' call call' hcall
    cases hcall
  · intro domain _
    have hgranted : initial.granted domain = 0 := StdMap.total_empty _
    have hpending : initial.pending domain = 0 := StdMap.total_empty _
    rw [hgranted, hpending]
    decide
  · intro domain used hrecord
    cases hrecord
  · intro domain address block hblock
    cases hblock
  · intro thread request address hcall
    cases hcall
  · intro thread thread' request request' address hcall
    cases hcall
  · intro thread request hcall
    cases hcall
  · intro address block hblock
    cases hblock
  · intro address memoryInfo hentry
    cases hentry

/-- When no request of a domain is in flight, its counter covers everything
that was granted to it. -/
theorem Capped.granted_le_counter {s : MallocSystem} (hs : s.Capped) {domain : DWORD}
    {used : LONG × LONG} (hdefault : domain ≠ s.host.defaultDomainId)
    (hrecord : s.host.memoryRecord domain = some used)
    (hidle : ∀ thread call, s.calls.lookup thread = some call → ¬ InFlight domain call) :
    s.granted domain ≤ used.1 := by
  refine le_trans (StdMap.total_le_total_add ?_) (hs.counted domain used hrecord)
  intro address
  simp only [StdMap.weightAt]
  have hentry : 0 ≤ (s.host.memoryAppDomain.lookup address).elim 0
      (MemoryInfo.bytesFor domain) := by
    cases hlookup : s.host.memoryAppDomain.lookup address with
    | none => exact le_refl 0
    | some memoryInfo =>
        simp only [Option.elim_some, MemoryInfo.bytesFor]
        split
        next => exact hs.entrySizes address memoryInfo hlookup
        next => exact le_refl 0
  cases hblock : s.heap.lookup address with
  | none => simpa using hentry
  | some block =>
      have hsize := hs.blockSizes address block hblock
      simp only [Option.elim_some, blockBytes, unrecordedBytes]
      by_cases hgranted : block.request.GrantedTo domain
      · rcases hs.charged domain address block hblock hgranted hdefault (by simp [hrecord])
          with hcharge | ⟨hlookup, hcharge⟩ | ⟨thread, hcall⟩
        · rw [if_pos hgranted, if_pos ⟨hgranted, hcharge⟩]
          linarith
        · rw [if_pos hgranted, hlookup]
          simp [MemoryInfo.bytesFor, hcharge]
        · exact absurd hgranted (hidle thread _ hcall)
      · rw [if_neg hgranted, if_neg (fun h => hgranted h.1)]
        linarith

/-! One lemma for each step. -/

theorem Capped.check {s : MallocSystem} {thread : DWORD} {cbSize : LONG}
    {level : EMemoryCriticalLevel} (hs : s.Capped)
    (hlegal : s.LegalRequest (.onMemoryAcquiring thread cbSize level))
    (hcond : s.KeepsCap (.onMemoryAcquiring thread cbSize level))
    (hidle : s.calls.lookup thread = none)
    (hpass : level.aboveTask = true ∨ s.host.onMemoryAcquiring thread cbSize = true)
    (hblocks : HeldBlocks { s with calls := s.calls.set thread (.requested
      ⟨cbSize, level, s.host.threadAppDomain.lookup thread⟩) }) :
    Capped { s with calls := s.calls.set thread (.requested
      ⟨cbSize, level, s.host.threadAppDomain.lookup thread⟩) } := by
  let request : Request := ⟨cbSize, level, s.host.threadAppDomain.lookup thread⟩
  -- what the condition and the answer say of a request below the critical levels
  have hgrant : ∀ domain, request.GrantedTo domain → domain ≠ s.host.defaultDomainId →
      (∀ t call, s.calls.lookup t = some call → ¬ InFlight domain call) ∧
        s.granted domain + cbSize ≤ maxBytesPerDomain := by
    rintro domain ⟨hlevel, hthread⟩ hdefault
    have hanswer : s.host.onMemoryAcquiring thread cbSize = true := by
      rcases hpass with habove | hanswer
      · have hfalse : level.aboveTask = false := hlevel
        rw [hfalse] at habove
        cases habove
      · exact hanswer
    obtain ⟨hpresent, hnone⟩ := hcond hlevel hanswer domain hthread hdefault
    rw [StdMap.allValues_iff] at hnone
    obtain ⟨used, hused⟩ := Option.ne_none_iff_exists'.mp hpresent
    rw [DomainData.onMemoryAcquiring_limited hthread hdefault hused, decide_eq_true_iff]
      at hanswer
    have hcounter := hs.granted_le_counter hdefault hused hnone
    exact ⟨hnone, by linarith [hanswer.1]⟩
  refine ⟨?_, ?_, hs.counted, ?_, hblocks.held, hblocks.apart, ?_, hs.blockSizes,
    hs.entrySizes⟩
  · intro domain hdefault t t' call call' hcall hcall' hin hin'
    simp only [StdMap.lookup_set] at hcall hcall'
    split at hcall <;> split at hcall'
    next ht ht' => rw [ht, ht']
    next =>
      cases hcall
      exact absurd hin' ((hgrant domain hin hdefault).1 t' call' hcall')
    next =>
      cases hcall'
      exact absurd hin ((hgrant domain hin' hdefault).1 t call hcall)
    next => exact hs.single domain hdefault t t' call call' hcall hcall' hin hin'
  · intro domain hdefault
    have hpending : (s.calls.set thread (.requested request)).total (pendingBytes domain) =
        s.pending domain + if request.GrantedTo domain then cbSize else 0 := by
      simp [StdMap.total_set, StdMap.weightAt, hidle, pending, pendingBytes, request]
    have hcapped := hs.capped domain hdefault
    simp only [granted, pending] at hcapped ⊢
    rw [hpending]
    split
    next hgranted =>
      obtain ⟨hnone, hroom⟩ := hgrant domain hgranted hdefault
      have hzero : s.pending domain = 0 :=
        StdMap.total_eq_zero (fun t call hcall => pendingBytes_of_not_inFlight (hnone t call hcall))
      simp only [granted] at hroom
      linarith
    next => simpa [pending] using hcapped
  · intro domain address block hblock hgranted hdefault hpresent
    rcases hs.charged domain address block hblock hgranted hdefault hpresent
      with hcharge | hcharge | ⟨t, hcall⟩
    · exact Or.inl hcharge
    · exact Or.inr (Or.inl hcharge)
    · refine Or.inr (Or.inr ⟨t, ?_⟩)
      have hne : t ≠ thread := by
        rintro rfl
        rw [hidle] at hcall
        cases hcall
      simpa [StdMap.lookup_set, hne] using hcall
  · intro t r hcall
    simp only [StdMap.lookup_set] at hcall
    split at hcall
    next =>
      cases hcall
      exact hlegal.1
    next => exact hs.requestSizes t r hcall

/-- A call ends; it holds no block, or its block has been charged. -/
theorem Capped.finish {s : MallocSystem} {thread : DWORD} {call : MallocCall} (hs : s.Capped)
    (hcall : s.calls.lookup thread = some call) (hheld : ∀ address, ¬ Held address call) :
    Capped { s with calls := s.calls.remove thread } := by
  have hsub : ∀ t c, (s.calls.remove thread).lookup t = some c → s.calls.lookup t = some c := by
    intro t c hc
    rw [StdMap.lookup_remove] at hc
    split at hc
    next => cases hc
    next => exact hc
  refine ⟨?_, ?_, hs.counted, ?_, ?_, ?_, ?_, hs.blockSizes, hs.entrySizes⟩
  · intro domain hdefault t t' c c' hc hc'
    exact hs.single domain hdefault t t' c c' (hsub t c hc) (hsub t' c' hc')
  · intro domain hdefault
    have hcapped := hs.capped domain hdefault
    have hweight := hs.pendingBytes_nonneg hcall domain
    simp only [granted, pending, StdMap.total_remove, StdMap.weightAt, hcall,
      Option.elim_some] at hcapped ⊢
    linarith
  · intro domain address block hblock hgranted hdefault hpresent
    rcases hs.charged domain address block hblock hgranted hdefault hpresent
      with hcharge | hcharge | ⟨t, ht⟩
    · exact Or.inl hcharge
    · exact Or.inr (Or.inl hcharge)
    · refine Or.inr (Or.inr ⟨t, ?_⟩)
      have hne : t ≠ thread := by
        rintro rfl
        cases hcall.symm.trans ht
        exact hheld address rfl
      simpa [StdMap.lookup_remove, hne] using ht
  · intro t r address hc
    exact hs.held t r address (hsub t _ hc)
  · intro t t' r r' address hc hc'
    exact hs.apart t t' r r' address (hsub t _ hc) (hsub t' _ hc')
  · intro t r hc
    exact hs.requestSizes t r (hsub t _ hc)

theorem Capped.alloc {s : MallocSystem} {thread : DWORD} {request : Request}
    {address : PVOID} (hs : s.Capped)
    (hcall : s.calls.lookup thread = some (.requested request))
    (hfresh : s.heap.lookup address = none)
    (hblocks : HeldBlocks { s with
      heap := s.heap.set address ⟨request, none⟩
      calls := s.calls.set thread (.allocated request address) }) :
    Capped { s with
      heap := s.heap.set address ⟨request, none⟩
      calls := s.calls.set thread (.allocated request address) } := by
  refine ⟨?_, ?_, ?_, ?_, hblocks.held, hblocks.apart, ?_, ?_, hs.entrySizes⟩
  · intro domain hdefault t t' call call' ht ht' hin hin'
    -- the thread had this request in flight already
    have hold : ∀ t call, (s.calls.set thread (.allocated request address)).lookup t = some call →
        InFlight domain call → ∃ before, s.calls.lookup t = some before ∧
          InFlight domain before := by
      intro t call ht hin
      rw [StdMap.lookup_set] at ht
      split at ht
      next heq =>
        cases ht
        exact ⟨.requested request, by rw [heq, hcall], hin⟩
      next => exact ⟨call, ht, hin⟩
    obtain ⟨before, hbefore, hbin⟩ := hold t call ht hin
    obtain ⟨before', hbefore', hbin'⟩ := hold t' call' ht' hin'
    exact hs.single domain hdefault t t' before before' hbefore hbefore' hbin hbin'
  · intro domain hdefault
    have hcapped := hs.capped domain hdefault
    simp only [granted, pending, StdMap.total_set, StdMap.weightAt, hcall, hfresh,
      Option.elim_some, Option.elim_none, pendingBytes, blockBytes] at hcapped ⊢
    linarith
  · intro domain used hrecord
    have hcounted := hs.counted domain used hrecord
    simp only [unrecorded, StdMap.total_set, StdMap.weightAt, hfresh, Option.elim_none,
      unrecordedBytes] at hcounted ⊢
    simpa using hcounted
  · intro domain a block hblock hgranted hdefault hpresent
    simp only [StdMap.lookup_set] at hblock
    split at hblock
    next ha =>
      cases hblock
      exact Or.inr (Or.inr ⟨thread, by simp [StdMap.lookup_set, ha]⟩)
    next =>
      rcases hs.charged domain a block hblock hgranted hdefault hpresent
        with hcharge | hcharge | ⟨t, ht⟩
      · exact Or.inl hcharge
      · exact Or.inr (Or.inl hcharge)
      · have hne : t ≠ thread := by
          rintro rfl
          cases hcall.symm.trans ht
        exact Or.inr (Or.inr ⟨t, by simpa [StdMap.lookup_set, hne] using ht⟩)
  · intro t r ht
    simp only [StdMap.lookup_set] at ht
    split at ht
    next => cases ht
    next => exact hs.requestSizes t r ht
  · intro a block hblock
    simp only [StdMap.lookup_set] at hblock
    split at hblock
    next =>
      cases hblock
      exact hs.requestSizes thread request hcall
    next => exact hs.blockSizes a block hblock

/-- What a charge adds to the entries and to the blocks without an entry, it
adds to the counter of its domain. -/
theorem Capped.counted_acquire {s next : MallocSystem} {thread : DWORD} {request : Request}
    {address : PVOID} (hs : s.Capped)
    (hblock : s.heap.lookup address = some ⟨request, none⟩)
    (hhost : next.host.toDomainData =
      s.host.toDomainData.onMemoryAcquire thread request.cbSize address)
    (hheap : next.heap =
      s.heap.set address ⟨request, chargeOf s.host.toDomainData thread address⟩)
    {domain : DWORD} {used : LONG × LONG} (hrecord : next.host.memoryRecord domain = some used) :
    next.host.entryBytes domain + next.unrecorded domain ≤ used.1 := by
  have hsize : 0 ≤ request.cbSize := hs.blockSizes address _ hblock
  have hunrecorded : next.unrecorded domain = s.unrecorded domain +
      unrecordedBytes domain ⟨request, chargeOf s.host.toDomainData thread address⟩ := by
    rw [unrecorded, hheap, StdMap.total_set, StdMap.weightAt, hblock]
    simp [unrecorded, unrecordedBytes]
  rw [hunrecorded, hhost]
  rw [hhost] at hrecord
  cases hcharged : s.host.chargedDomain thread with
  | none =>
      rw [DomainData.onMemoryAcquire_uncharged hcharged] at hrecord ⊢
      have hcounted := hs.counted domain used hrecord
      simpa [unrecordedBytes, chargeOf, hcharged] using hcounted
  | some owner =>
      rw [DomainData.memoryRecord_acquire hcharged] at hrecord
      cases hentry : s.host.memoryAppDomain.lookup address with
      | none =>
          have hweight : unrecordedBytes domain
              ⟨request, chargeOf s.host.toDomainData thread address⟩ = 0 := by
            simp [unrecordedBytes, chargeOf, hcharged, hentry]
          rw [hweight, DomainData.entryBytes_acquire hcharged hentry]
          split at hrecord
          next heq =>
            obtain ⟨old, hold, rfl⟩ := Option.map_eq_some_iff.mp hrecord
            have hcounted := hs.counted owner old hold
            rw [if_pos heq, heq]
            linarith
          next hne =>
            have hcounted := hs.counted domain used hrecord
            rw [if_neg hne]
            linarith
      | some memoryInfo =>
          rw [DomainData.entryBytes_acquire_present (by simp [hentry])]
          split at hrecord
          next heq =>
            obtain ⟨old, hold, rfl⟩ := Option.map_eq_some_iff.mp hrecord
            have hcounted := hs.counted owner old hold
            have hweight : unrecordedBytes domain
                ⟨request, chargeOf s.host.toDomainData thread address⟩ ≤ request.cbSize := by
              simp only [unrecordedBytes]
              split
              next => exact le_refl _
              next => exact hsize
            rw [heq] at hweight ⊢
            linarith
          next hne =>
            have hcounted := hs.counted domain used hrecord
            have hweight : unrecordedBytes domain
                ⟨request, chargeOf s.host.toDomainData thread address⟩ = 0 := by
              refine if_neg ?_
              simp [chargeOf, hcharged, Ne.symm hne]
            rw [hweight]
            linarith

theorem Capped.charge {s next : MallocSystem} {thread : DWORD} {request : Request}
    {address : PVOID} (hs : s.Capped)
    (hcall : s.calls.lookup thread = some (.allocated request address))
    (hcond : s.KeepsCap (.onMemoryAcquire thread))
    (hhost : next.host.toDomainData =
      s.host.toDomainData.onMemoryAcquire thread request.cbSize address)
    (hheap : next.heap =
      s.heap.set address ⟨request, chargeOf s.host.toDomainData thread address⟩)
    (hcalls : next.calls = s.calls.remove thread) (hblocks : next.HeldBlocks) :
    next.Capped := by
  have hblock := hs.held thread request address hcall
  have hdefaults : next.host.defaultDomainId = s.host.defaultDomainId := by
    rw [hhost, DomainData.onMemoryAcquire_default]
  have hsub : ∀ t c, next.calls.lookup t = some c → t ≠ thread ∧ s.calls.lookup t = some c := by
    intro t c hc
    rw [hcalls, StdMap.lookup_remove] at hc
    split at hc
    next => cases hc
    next hne => exact ⟨hne, hc⟩
  refine ⟨?_, ?_, ?_, ?_, hblocks.held, hblocks.apart, ?_, ?_, ?_⟩
  · intro domain hdefault t t' c c' hc hc'
    rw [hdefaults] at hdefault
    exact hs.single domain hdefault t t' c c' (hsub t c hc).2 (hsub t' c' hc').2
  · intro domain hdefault
    rw [hdefaults] at hdefault
    have hcapped := hs.capped domain hdefault
    simp only [granted, pending, hheap, hcalls, StdMap.total_set, StdMap.total_remove,
      StdMap.weightAt, hcall, hblock, Option.elim_some, pendingBytes, blockBytes] at hcapped ⊢
    linarith
  · intro domain used hrecord
    exact hs.counted_acquire hblock hhost hheap hrecord
  · intro domain a block ha hgranted hdefault hpresent
    rw [hdefaults] at hdefault
    rw [hhost, Ne, DomainData.memoryRecord_acquire_eq_none] at hpresent
    rw [hheap, StdMap.lookup_set] at ha
    rw [Charged, hhost, DomainData.entries_acquire]
    split at ha
    next heq =>
      cases ha
      subst heq
      -- the block is charged to the domain it was granted to
      simp only [KeepsCap, hcall] at hcond
      have hthread := hcond hgranted.1 domain hgranted.2 hdefault hpresent
      have hcharged := DomainData.chargedDomain_eq_some.mpr ⟨hthread, hdefault, hpresent⟩
      simp only [chargeOf, hcharged]
      cases s.host.memoryAppDomain.lookup a <;> simp
    next hne =>
      rw [if_neg (fun h => hne h.1)]
      rcases hs.charged domain a block ha hgranted hdefault hpresent
        with hcharge | hcharge | ⟨t, ht⟩
      · exact Or.inl hcharge
      · exact Or.inr (Or.inl hcharge)
      · refine Or.inr (Or.inr ⟨t, ?_⟩)
        have ht' : t ≠ thread := by
          rintro rfl
          cases hcall.symm.trans ht
          exact hne rfl
        rw [hcalls, StdMap.lookup_remove, if_neg ht', ht]
  · intro t r ht
    exact hs.requestSizes t r (hsub t _ ht).2
  · intro a block ha
    rw [hheap, StdMap.lookup_set] at ha
    split at ha
    next =>
      cases ha
      exact hs.blockSizes address ⟨request, none⟩ hblock
    next => exact hs.blockSizes a block ha
  · intro a memoryInfo ha
    rw [hhost, DomainData.entries_acquire] at ha
    split at ha
    next =>
      obtain ⟨domain, -, rfl⟩ := Option.map_eq_some_iff.mp ha
      exact hs.blockSizes address _ hblock
    next => exact hs.entrySizes a memoryInfo ha

theorem Capped.free {s : MallocSystem} {thread : DWORD} {pMem : PVOID} (hs : s.Capped)
    (hidle : s.calls.lookup thread = none)
    (hheld : HeldBlocks { s with
      heap := s.heap.remove pMem
      calls := s.calls.set thread (.freed pMem) }) :
    Capped { s with
      heap := s.heap.remove pMem
      calls := s.calls.set thread (.freed pMem) } := by
  have hsub : ∀ t c, (s.calls.set thread (.freed pMem)).lookup t = some c →
      c = .freed pMem ∨ s.calls.lookup t = some c := by
    intro t c hc
    rw [StdMap.lookup_set] at hc
    split at hc
    next =>
      cases hc
      exact Or.inl rfl
    next => exact Or.inr hc
  have hblocks : ∀ a block, (s.heap.remove pMem).lookup a = some block →
      s.heap.lookup a = some block := by
    intro a block ha
    rw [StdMap.lookup_remove] at ha
    split at ha
    next => cases ha
    next => exact ha
  refine ⟨?_, ?_, ?_, ?_, hheld.held, hheld.apart, ?_, ?_, hs.entrySizes⟩
  · intro domain hdefault t t' c c' hc hc' hin hin'
    rcases hsub t c hc with rfl | hc
    · cases hin
    · rcases hsub t' c' hc' with rfl | hc'
      · cases hin'
      · exact hs.single domain hdefault t t' c c' hc hc' hin hin'
  · intro domain hdefault
    have hcapped := hs.capped domain hdefault
    have hweight : 0 ≤ s.heap.weightAt (blockBytes domain) pMem := by
      rw [StdMap.weightAt]
      cases hblock : s.heap.lookup pMem with
      | none => exact le_refl 0
      | some block =>
          simp only [Option.elim_some, blockBytes]
          split
          next => exact hs.blockSizes pMem block hblock
          next => exact le_refl 0
    have hpending : (s.calls.set thread (.freed pMem)).total (pendingBytes domain) =
        s.pending domain := by
      simp [StdMap.total_set, StdMap.weightAt, hidle, pending, pendingBytes]
    simp only [granted, pending, StdMap.total_remove] at hcapped hpending ⊢
    linarith
  · intro domain used hrecord
    have hcounted := hs.counted domain used hrecord
    have hweight : 0 ≤ s.heap.weightAt (unrecordedBytes domain) pMem := by
      rw [StdMap.weightAt]
      cases hblock : s.heap.lookup pMem with
      | none => exact le_refl 0
      | some block =>
          simp only [Option.elim_some, unrecordedBytes]
          split
          next => exact hs.blockSizes pMem block hblock
          next => exact le_refl 0
    simp only [unrecorded, StdMap.total_remove] at hcounted ⊢
    linarith
  · intro domain a block ha hgranted hdefault hpresent
    rcases hs.charged domain a block (hblocks a block ha) hgranted hdefault hpresent
      with hcharge | hcharge | ⟨t, ht⟩
    · exact Or.inl hcharge
    · exact Or.inr (Or.inl hcharge)
    · refine Or.inr (Or.inr ⟨t, ?_⟩)
      have hne : t ≠ thread := by
        rintro rfl
        rw [hidle] at ht
        cases ht
      simpa [StdMap.lookup_set, hne] using ht
  · intro t r ht
    rcases hsub t _ ht with hfreed | ht
    · cases hfreed
    · exact hs.requestSizes t r ht
  · intro a block ha
    exact hs.blockSizes a block (hblocks a block ha)

/-- A release changes the host only. -/
theorem Capped.release {s next : MallocSystem} {pMem : PVOID} (hs : s.Capped)
    (hcond : ∀ block ∈ s.heap.lookup pMem, ∀ charge ∈ block.charge, charge.recorded = false)
    (hhost : next.host.toDomainData = (s.host.toDomainData.onMemoryRelease pMem).1)
    (hheap : next.heap = s.heap) (hcalls : next.calls = s.calls) : next.Capped := by
  have hdefaults : next.host.defaultDomainId = s.host.defaultDomainId := by
    rw [hhost, DomainData.onMemoryRelease_default]
  refine ⟨?_, ?_, ?_, ?_, ?_, ?_, ?_, ?_, ?_⟩
  · rw [hdefaults, hcalls]
    exact hs.single
  · simp only [granted, pending, hdefaults, hheap, hcalls]
    exact hs.capped
  · intro domain used hrecord
    rw [unrecorded, hheap]
    cases hreleased : s.host.releasedEntry pMem with
    | none =>
        rw [hhost, DomainData.onMemoryRelease_kept hreleased] at *
        exact hs.counted domain used hrecord
    | some memoryInfo =>
        rw [hhost, DomainData.memoryRecord_release hreleased] at hrecord
        rw [hhost, DomainData.entryBytes_release hreleased]
        split at hrecord
        next heq =>
          obtain ⟨old, hold, rfl⟩ := Option.map_eq_some_iff.mp hrecord
          have hcounted := hs.counted memoryInfo.appDomainId old hold
          rw [if_pos heq, heq]
          simp only [unrecorded] at hcounted
          linarith
        next hne =>
          rw [if_neg hne, sub_zero]
          exact hs.counted domain used hrecord
  · intro domain a block ha hgranted hdefault hpresent
    rw [hdefaults] at hdefault
    rw [hhost, Ne, DomainData.memoryRecord_release_eq_none] at hpresent
    rw [hheap] at ha
    rw [Charged, hcalls, hhost]
    rcases hs.charged domain a block ha hgranted hdefault hpresent
      with hcharge | ⟨hentry, hcharge⟩ | hcall
    · exact Or.inl hcharge
    · have hne : a ≠ pMem := by
        rintro rfl
        cases hcond block ha _ hcharge
      exact Or.inr (Or.inl ⟨by rw [DomainData.entries_release hne, hentry], hcharge⟩)
    · exact Or.inr (Or.inr hcall)
  · rw [hcalls, hheap]
    exact hs.held
  · rw [hcalls]
    exact hs.apart
  · rw [hcalls]
    exact hs.requestSizes
  · rw [hheap]
    exact hs.blockSizes
  · intro a memoryInfo ha
    by_cases hne : a = pMem
    · cases hreleased : s.host.releasedEntry pMem with
      | none =>
          rw [hhost, DomainData.onMemoryRelease_kept hreleased] at ha
          exact hs.entrySizes a memoryInfo ha
      | some released =>
          rw [hhost, DomainData.onMemoryRelease_released hreleased, StdMap.lookup_remove,
            if_pos hne] at ha
          cases ha
    · rw [hhost, DomainData.entries_release hne] at ha
      exact hs.entrySizes a memoryInfo ha

/-- A call of the host by someone else: no entry changes, and a domain that has
a record or is not the default one had one before, or was not, unless nothing was
granted to it. -/
theorem Capped.of_host {s next : MallocSystem} (hs : s.Capped)
    (hentries : next.host.memoryAppDomain = s.host.memoryAppDomain)
    (hdefault : ∀ domain, domain ≠ next.host.defaultDomainId →
      domain ≠ s.host.defaultDomainId ∨ s.NoGrants domain)
    (hpresent : ∀ domain, next.host.memoryRecord domain ≠ none →
      s.host.memoryRecord domain ≠ none ∨ s.NoGrants domain)
    (hcounted : ∀ domain used, next.host.memoryRecord domain = some used →
      s.host.entryBytes domain + s.unrecorded domain ≤ used.1)
    (hheap : next.heap = s.heap) (hcalls : next.calls = s.calls) : next.Capped := by
  refine ⟨?_, ?_, ?_, ?_, ?_, ?_, ?_, ?_, ?_⟩
  · intro domain hd t t' call call' ht ht' hin hin'
    rw [hcalls] at ht ht'
    rcases hdefault domain hd with hold | hnone
    · exact hs.single domain hold t t' call call' ht ht' hin hin'
    · exact absurd hin (StdMap.allValues_iff.mp hnone.2 t call ht)
  · intro domain hd
    rw [granted, pending, hheap, hcalls]
    rcases hdefault domain hd with hold | ⟨hnone, hidle⟩
    · exact hs.capped domain hold
    · rw [StdMap.allValues_iff] at hnone hidle
      have hgranted : s.heap.total (blockBytes domain) = 0 :=
        StdMap.total_eq_zero (fun a block ha => if_neg (hnone a block ha))
      have hpending : s.calls.total (pendingBytes domain) = 0 :=
        StdMap.total_eq_zero (fun t call ht => pendingBytes_of_not_inFlight (hidle t call ht))
      rw [hgranted, hpending]
      decide
  · intro domain used hrecord
    rw [DomainData.entryBytes, unrecorded, hentries, hheap]
    exact hcounted domain used hrecord
  · intro domain a block ha hgranted hd hp
    rw [hheap] at ha
    rw [Charged, hentries, hcalls]
    rcases hdefault domain hd with hold | hnone
    · rcases hpresent domain hp with hpold | hnone
      · exact hs.charged domain a block ha hgranted hold hpold
      · exact absurd hgranted (StdMap.allValues_iff.mp hnone.1 a block ha)
    · exact absurd hgranted (StdMap.allValues_iff.mp hnone.1 a block ha)
  · rw [hcalls, hheap]
    exact hs.held
  · rw [hcalls]
    exact hs.apart
  · rw [hcalls]
    exact hs.requestSizes
  · rw [hheap]
    exact hs.blockSizes
  · rw [hentries]
    exact hs.entrySizes

theorem Capped.host {s next : MallocSystem} {op : HostOp} (hs : s.Capped)
    (hcond : s.KeepsCap (.host op)) (h : s.step (.host op) = .ok next) : next.Capped := by
  obtain ⟨houtside, hstep, hheap, hcalls⟩ := host_ok h
  cases op with
  | onMemoryAcquire | onMemoryRelease | rawResetCountersForAppDomain => exact absurd houtside id
  | onDomainCreate domain thread manager uninitialised =>
      obtain ⟨c, hcall, hnext⟩ := HostContext.withDomainData_ok hstep
      have hdata : next.host.toDomainData = c := by rw [hnext]
      rw [← hdata] at hcall
      have hrecords := DomainData.memoryRecord_create hcall
      obtain ⟨hnew, hreplaced⟩ := hcond
      refine hs.of_host (DomainData.onDomainCreate_ok hcall).1 ?_ ?_ ?_ hheap hcalls
      · intro d hd
        rw [DomainData.onDomainCreate_default hcall] at hd
        cases hmanager : s.host.defaultDomainManager with
        | some old =>
            rw [hmanager, Option.isNone_some, if_neg Bool.false_ne_true] at hd
            exact Or.inl hd
        | none =>
            rw [hmanager, Option.isNone_none, if_pos rfl] at hd
            by_cases hold : d = s.host.defaultDomainId
            · refine Or.inr ?_
              rw [hold] at hd ⊢
              exact hreplaced hmanager hd.symm
            · exact Or.inl hold
      · intro d hd
        rw [hrecords] at hd
        split at hd
        next hcreated =>
          rw [hcreated.1]
          exact Or.inr (hnew hcreated.2).1
        next => exact Or.inl hd
      · intro d used hd
        rw [hrecords] at hd
        split at hd
        next hcreated =>
          cases hd
          obtain ⟨⟨hnone, -⟩, hentries⟩ := hnew hcreated.2
          have hunrecorded : s.unrecorded domain = 0 := by
            refine StdMap.total_eq_zero ?_
            intro a block ha
            exact if_neg (fun h => StdMap.allValues_iff.mp hnone a block ha h.1)
          rw [hcreated.1, hentries.entryBytes_eq_zero, hunrecorded]
          exact le_refl 0
        next => exact hs.counted d used hd
  | postHostMessage | onDomainRudeUnload | rawGetLastMessage | onDomainUnload
  | onThreadAcquiring | onThreadAcquire | onThreadRelease =>
      have hsame := HostContext.step_sameMemory hstep trivial
      refine hs.of_host hsame.entries ?_ ?_ ?_ hheap hcalls
      · intro d hd
        rw [hsame.default] at hd
        exact Or.inl hd
      · intro d hd
        exact Or.inl (hsame.present hd)
      · intro d used hd
        exact hs.counted d used (hsame.records d used hd)

theorem step_capped (s : MallocSystem) (action : MallocAction) (next : MallocSystem)
    (hs : s.Capped) (hcond : s.LegalRequest action ∧ s.KeepsCap action)
    (h : s.step action = .ok next) : next.Capped := by
  obtain ⟨hlegal, hkeeps⟩ := hcond
  have hblocks : next.HeldBlocks := HeldBlocks.step ⟨hs.held, hs.apart⟩ h
  cases action with
  | onMemoryAcquiring thread cbSize level =>
      obtain ⟨hidle, rfl | ⟨hpass, rfl⟩⟩ := onMemoryAcquiring_ok h
      · exact hs
      · exact hs.check hlegal hkeeps hidle hpass hblocks
  | heapAlloc thread ppMem =>
      obtain ⟨request, hcall, rfl | ⟨address, hfresh, -, rfl⟩⟩ := heapAlloc_ok h
      · exact hs.finish hcall (fun _ => id)
      · exact hs.alloc hcall hfresh hblocks
  | onMemoryAcquire thread =>
      obtain ⟨request, address, hcall, hhost, hheap, hcalls⟩ := onMemoryAcquire_ok h
      exact hs.charge hcall hkeeps hhost hheap hcalls hblocks
  | heapFree thread pMem =>
      obtain ⟨hidle, -, rfl⟩ := heapFree_ok h
      exact hs.free hidle hblocks
  | onMemoryRelease thread =>
      obtain ⟨pMem, hcall, hhost, hheap, hcalls⟩ := onMemoryRelease_ok h
      simp only [KeepsCap, hcall] at hkeeps
      have hreleased : Capped { next with calls := s.calls } :=
        hs.release hkeeps hhost hheap rfl
      have hfinished := hreleased.finish hcall (fun _ => id)
      rwa [← hcalls] at hfinished
  | host op => exact hs.host hkeeps h

/-- In every run that meets the condition no snippet domain is granted more
than its cap below the critical levels. -/
theorem memory_capped {actions : List MallocAction}
    (hlegal : Meets step LegalRequest initial actions)
    (hcond : Meets step KeepsCap initial actions) :
    Always step MemoryCapped initial actions := by
  have halways : Always step Capped initial actions :=
    always_of_meets step_capped capped_initial (hlegal.and hcond)
  exact halways.imp (fun s hs => hs.memoryCapped)

/-- The requests of two domains are under way together, and a thread frees a block of the
domain before its own request. -/
def twoDomains : List MallocAction :=
  [.host (.onDomainCreate 1 10 (some 0) 0), .host (.onDomainCreate 2 20 (some 1) 0),
    .host (.onDomainCreate 3 30 (some 1) 0), .host (.onThreadAcquire 20 21),
    .onMemoryAcquiring 20 6000000 .eTaskCritical, .onMemoryAcquiring 30 7000000 .eTaskCritical,
    .heapAlloc 30 (some 8192), .heapAlloc 20 (some 4096), .onMemoryAcquire 20,
    .onMemoryAcquire 30, .onMemoryAcquiring 30 6000000 .eTaskCritical, .heapFree 21 4096,
    .onMemoryRelease 21, .onMemoryAcquiring 21 5000000 .eTaskCritical,
    .heapAlloc 21 (some 4096), .onMemoryAcquire 21]

theorem memory_capped_two_domains :
    Always step MemoryCapped initial twoDomains ∧
      Reaches step (fun s => s.granted 2 = 5000000 ∧ s.granted 3 = 7000000) initial twoDomains :=
  ⟨memory_capped (by decide) (by decide), by decide⟩

/-- Two threads pass the check before either of them is charged. -/
theorem concurrent_requests_exceed_cap :
    ¬ ∀ actions, Meets step LegalRequest initial actions →
      Always step MemoryCapped initial actions := by
  intro hall
  let actions : List MallocAction := [.host (.onDomainCreate 1 10 (some 0) 0),
    .host (.onDomainCreate 2 20 (some 1) 0), .host (.onThreadAcquire 20 21),
    .onMemoryAcquiring 20 6000000 .eTaskCritical, .onMemoryAcquiring 21 6000000 .eTaskCritical,
    .heapAlloc 20 (some 4096), .heapAlloc 21 (some 8192)]
  have hrun : ∃ s, run step initial actions = .ok s ∧ s.host.defaultDomainId = 1 ∧
      s.granted 2 = 12000000 :=
    ⟨_, rfl, by decide, by decide⟩
  obtain ⟨s, hrun, hdefault, hgranted⟩ := hrun
  have hcapped := (hall actions (by decide)).last hrun 2 (by simp [hdefault])
  rw [hgranted] at hcapped
  exact absurd hcapped (by decide)

end MallocSystem

end HostedPumpkin
