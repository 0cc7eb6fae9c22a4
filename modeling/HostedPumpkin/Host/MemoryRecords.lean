import HostedPumpkin.Host.References

/-!
What each operation of `HostContext` does to the memory counters of the domains
and to `memoryAppDomain`. Memory accounting, the budget of a snippet and the
memory cap all start from these lemmas.
-/

namespace HostedPumpkin

/-- The bytes an entry charges to a domain. -/
def MemoryInfo.bytesFor (domain : DWORD) (memoryInfo : MemoryInfo) : LONG :=
  if memoryInfo.appDomainId = domain then memoryInfo.dwBytes else 0

/-- What an entry charges to a domain: its bytes and one allocation. -/
def MemoryInfo.usageFor (domain : DWORD) (memoryInfo : MemoryInfo) : LONG × LONG :=
  if memoryInfo.appDomainId = domain then (memoryInfo.dwBytes, 1) else 0

namespace DomainData

/-- The bytes the entries of `memoryAppDomain` charge to a domain. -/
def entryBytes (c : DomainData) (domain : DWORD) : LONG :=
  c.memoryAppDomain.total (MemoryInfo.bytesFor domain)

/-- No entry of `memoryAppDomain` names this domain. -/
def NoEntries (c : DomainData) (domain : DWORD) : Prop :=
  c.memoryAppDomain.AllValues (fun memoryInfo => memoryInfo.appDomainId ≠ domain)

instance (c : DomainData) (domain : DWORD) : Decidable (c.NoEntries domain) := by
  unfold NoEntries
  infer_instance

theorem NoEntries.entryBytes_eq_zero {c : DomainData} {domain : DWORD}
    (h : c.NoEntries domain) : c.entryBytes domain = 0 := by
  refine StdMap.total_eq_zero ?_
  intro address memoryInfo hlookup
  exact if_neg (StdMap.allValues_iff.mp h address memoryInfo hlookup)

/-- What memory accounting reads of a domain: bytes and allocations. -/
def memoryRecord (c : DomainData) (domain : DWORD) : Option (LONG × LONG) :=
  (c.appDomains.lookup domain).map
    (fun info => (info.bytesInAppDomain, info.allocsInAppDomain))

theorem memoryRecord_eq_none {c : DomainData} {domain : DWORD} :
    c.memoryRecord domain = none ↔ c.appDomains.lookup domain = none := by
  simp [memoryRecord]

theorem memoryRecord_of_lookup {c : DomainData} {domain : DWORD} {info : AppDomainInfo}
    (h : c.appDomains.lookup domain = some info) :
    c.memoryRecord domain = some (info.bytesInAppDomain, info.allocsInAppDomain) := by
  simp [memoryRecord, h]

/-- The domain an acquire by this thread is charged to, if it is charged. -/
def chargedDomain (c : DomainData) (thread : DWORD) : Option DWORD :=
  (c.threadAppDomain.lookup thread).filter
    (fun domain => domain ≠ c.defaultDomainId ∧ c.memoryRecord domain ≠ none)

theorem chargedDomain_eq_some {c : DomainData} {thread domain : DWORD} :
    c.chargedDomain thread = some domain ↔
      c.threadAppDomain.lookup thread = some domain ∧ domain ≠ c.defaultDomainId ∧
        c.memoryRecord domain ≠ none := by
  simp [chargedDomain, Option.filter_eq_some_iff]

/-- The entry a release of this address takes back, if it takes one back. -/
def releasedEntry (c : DomainData) (address : PVOID) : Option MemoryInfo :=
  (c.memoryAppDomain.lookup address).filter
    (fun memoryInfo => c.memoryRecord memoryInfo.appDomainId ≠ none)

theorem releasedEntry_eq_some {c : DomainData} {address : PVOID} {memoryInfo : MemoryInfo} :
    c.releasedEntry address = some memoryInfo ↔
      c.memoryAppDomain.lookup address = some memoryInfo ∧
        c.memoryRecord memoryInfo.appDomainId ≠ none := by
  simp [releasedEntry, Option.filter_eq_some_iff]

/-- An update of one record, seen from the memory counters. -/
theorem memoryRecord_modify {c next : DomainData} {domain : DWORD}
    {f : AppDomainInfo → AppDomainInfo} {g : LONG × LONG → LONG × LONG}
    (happ : next.appDomains = c.appDomains.modify domain f)
    (hf : ∀ info, ((f info).bytesInAppDomain, (f info).allocsInAppDomain) =
      g (info.bytesInAppDomain, info.allocsInAppDomain)) (d : DWORD) :
    next.memoryRecord d =
      if d = domain then (c.memoryRecord domain).map g else c.memoryRecord d := by
  simp only [memoryRecord, happ, StdMap.lookup_modify]
  split
  next => cases c.appDomains.lookup domain <;> simp [hf]
  next => rfl

/-- An update of one record that leaves its memory counters alone. -/
theorem memoryRecord_modify_same {c next : DomainData} {domain : DWORD}
    {f : AppDomainInfo → AppDomainInfo}
    (happ : next.appDomains = c.appDomains.modify domain f)
    (hf : ∀ info, (f info).bytesInAppDomain = info.bytesInAppDomain ∧
      (f info).allocsInAppDomain = info.allocsInAppDomain) (d : DWORD) :
    next.memoryRecord d = c.memoryRecord d := by
  rw [memoryRecord_modify (g := id) happ (fun info => by simp [hf info])]
  split
  next hd => simp [hd]
  next => rfl

/-- Nobody is charged for a thread that is unknown, of the default domain or of a domain
without a record. -/
theorem chargedDomain_eq_none {c : DomainData} {thread : DWORD} :
    c.chargedDomain thread = none ↔ ∀ domain, c.threadAppDomain.lookup thread = some domain →
      domain = c.defaultDomainId ∨ c.appDomains.lookup domain = none := by
  rw [Option.eq_none_iff_forall_ne_some]
  apply forall_congr'
  intro domain
  rw [ne_eq, chargedDomain_eq_some, not_and, not_and_or, not_not, not_not, memoryRecord_eq_none]

theorem onMemoryAcquire_uncharged {c : DomainData} {thread : DWORD}
    (h : c.chargedDomain thread = none) (bytes : LONG) (address : PVOID) :
    c.onMemoryAcquire thread bytes address = c := by
  have hnobody := chargedDomain_eq_none.mp h
  cases hthread : c.threadAppDomain.lookup thread with
  | none => simp only [onMemoryAcquire, hthread]
  | some domain =>
      obtain hdefault | hrecord := hnobody domain hthread
      · simp only [onMemoryAcquire, hthread, hdefault, if_true]
      · simp only [onMemoryAcquire, hthread, hrecord, ite_self]

theorem onMemoryAcquire_charged {c : DomainData} {thread domain : DWORD}
    (h : c.chargedDomain thread = some domain) (bytes : LONG) (address : PVOID) :
    c.onMemoryAcquire thread bytes address =
      { c with
        appDomains := c.appDomains.modify domain (fun appDomainInfo =>
          { appDomainInfo with
            bytesInAppDomain := appDomainInfo.bytesInAppDomain + bytes
            allocsInAppDomain := appDomainInfo.allocsInAppDomain + 1 })
        memoryAppDomain := c.memoryAppDomain.insertNew address ⟨domain, bytes⟩ } := by
  obtain ⟨hthread, hdefault, hrecord⟩ := chargedDomain_eq_some.mp h
  obtain ⟨info, hinfo⟩ := Option.ne_none_iff_exists'.mp
    (fun hnone => hrecord (memoryRecord_eq_none.mpr hnone))
  simp [onMemoryAcquire, hthread, hdefault, hinfo]

theorem memoryRecord_acquire {c : DomainData} {thread domain : DWORD}
    (h : c.chargedDomain thread = some domain) (bytes : LONG) (address : PVOID) (d : DWORD) :
    (c.onMemoryAcquire thread bytes address).memoryRecord d =
      if d = domain then (c.memoryRecord domain).map (fun r => (r.1 + bytes, r.2 + 1))
      else c.memoryRecord d := by
  rw [onMemoryAcquire_charged h]
  exact memoryRecord_modify rfl (fun _ => rfl) d

theorem onMemoryAcquire_default (c : DomainData) (thread : DWORD) (bytes : LONG)
    (address : PVOID) :
    (c.onMemoryAcquire thread bytes address).defaultDomainId = c.defaultDomainId := by
  cases hcharged : c.chargedDomain thread with
  | none => rw [onMemoryAcquire_uncharged hcharged]
  | some domain => rw [onMemoryAcquire_charged hcharged]

/-- The entries after an acquire: `insert` keeps what is there. -/
theorem entries_acquire (c : DomainData) (thread : DWORD) (bytes : LONG) (address a : PVOID) :
    (c.onMemoryAcquire thread bytes address).memoryAppDomain.lookup a =
      if a = address ∧ c.memoryAppDomain.lookup address = none then
        (c.chargedDomain thread).map (fun domain => ⟨domain, bytes⟩)
      else c.memoryAppDomain.lookup a := by
  cases hcharged : c.chargedDomain thread with
  | none =>
      rw [onMemoryAcquire_uncharged hcharged]
      split
      next h => rw [h.1, h.2, Option.map_none]
      next => rfl
  | some domain => rw [onMemoryAcquire_charged hcharged, StdMap.lookup_insertNew, Option.map_some]

/-- A charge that finds no entry at its address adds one. -/
theorem entryBytes_acquire {c : DomainData} {thread domain : DWORD} {address : PVOID}
    (h : c.chargedDomain thread = some domain) (hnone : c.memoryAppDomain.lookup address = none)
    (bytes : LONG) (d : DWORD) :
    (c.onMemoryAcquire thread bytes address).entryBytes d =
      c.entryBytes d + if d = domain then bytes else 0 := by
  simp only [onMemoryAcquire_charged h, entryBytes, StdMap.total_insertNew_of_none hnone,
    MemoryInfo.bytesFor, eq_comm]

/-- One that finds an entry there changes none. -/
theorem entryBytes_acquire_present {c : DomainData} {address : PVOID}
    (hsome : c.memoryAppDomain.lookup address ≠ none) (thread : DWORD) (bytes : LONG)
    (d : DWORD) : (c.onMemoryAcquire thread bytes address).entryBytes d = c.entryBytes d := by
  have hsame : (c.onMemoryAcquire thread bytes address).memoryAppDomain =
      c.memoryAppDomain := by
    refine Finmap.ext_lookup ?_
    intro a
    rw [entries_acquire, if_neg (fun h => hsome h.2)]
  rw [entryBytes, hsame]
  rfl

/-- An acquire neither adds nor removes a record. -/
theorem memoryRecord_acquire_eq_none {c : DomainData} {thread : DWORD} {bytes : LONG}
    {address : PVOID} {d : DWORD} :
    (c.onMemoryAcquire thread bytes address).memoryRecord d = none ↔
      c.memoryRecord d = none := by
  cases hcharged : c.chargedDomain thread with
  | none => rw [onMemoryAcquire_uncharged hcharged]
  | some domain =>
      rw [memoryRecord_acquire hcharged]
      split
      next heq => simp [heq]
      next => rfl

theorem onMemoryRelease_kept {c : DomainData} {address : PVOID}
    (h : c.releasedEntry address = none) : (c.onMemoryRelease address).1 = c := by
  simp only [onMemoryRelease]
  split
  next => rfl
  next memoryInfo hmemory =>
    split
    next => rfl
    next info hinfo =>
      have hreleased : c.releasedEntry address = some memoryInfo :=
        releasedEntry_eq_some.mpr ⟨hmemory, by simp [memoryRecord, hinfo]⟩
      rw [h] at hreleased
      cases hreleased

theorem onMemoryRelease_released {c : DomainData} {address : PVOID} {memoryInfo : MemoryInfo}
    (h : c.releasedEntry address = some memoryInfo) :
    (c.onMemoryRelease address).1 =
      { c with
        appDomains := c.appDomains.modify memoryInfo.appDomainId (fun appDomainInfo =>
          { appDomainInfo with
            bytesInAppDomain := appDomainInfo.bytesInAppDomain - memoryInfo.dwBytes
            allocsInAppDomain := appDomainInfo.allocsInAppDomain - 1 })
        memoryAppDomain := c.memoryAppDomain.remove address } := by
  obtain ⟨hmemory, hrecord⟩ := releasedEntry_eq_some.mp h
  obtain ⟨info, hinfo⟩ := Option.ne_none_iff_exists'.mp
    (fun hnone => hrecord (memoryRecord_eq_none.mpr hnone))
  simp [onMemoryRelease, hmemory, hinfo]

theorem memoryRecord_release {c : DomainData} {address : PVOID} {memoryInfo : MemoryInfo}
    (h : c.releasedEntry address = some memoryInfo) (d : DWORD) :
    (c.onMemoryRelease address).1.memoryRecord d =
      if d = memoryInfo.appDomainId then
        (c.memoryRecord memoryInfo.appDomainId).map
          (fun r => (r.1 - memoryInfo.dwBytes, r.2 - 1))
      else c.memoryRecord d := by
  rw [onMemoryRelease_released h]
  exact memoryRecord_modify rfl (fun _ => rfl) d

theorem onMemoryRelease_default (c : DomainData) (address : PVOID) :
    (c.onMemoryRelease address).1.defaultDomainId = c.defaultDomainId := by
  cases hreleased : c.releasedEntry address with
  | none => rw [onMemoryRelease_kept hreleased]
  | some memoryInfo => rw [onMemoryRelease_released hreleased]

/-- A release leaves the entries at other addresses alone. -/
theorem entries_release {c : DomainData} {address a : PVOID} (h : a ≠ address) :
    (c.onMemoryRelease address).1.memoryAppDomain.lookup a = c.memoryAppDomain.lookup a := by
  cases hreleased : c.releasedEntry address with
  | none => rw [onMemoryRelease_kept hreleased]
  | some memoryInfo =>
      rw [onMemoryRelease_released hreleased, StdMap.lookup_remove, if_neg h]

/-- A release that takes an entry back removes it. -/
theorem entryBytes_release {c : DomainData} {address : PVOID} {memoryInfo : MemoryInfo}
    (h : c.releasedEntry address = some memoryInfo) (d : DWORD) :
    (c.onMemoryRelease address).1.entryBytes d =
      c.entryBytes d - if d = memoryInfo.appDomainId then memoryInfo.dwBytes else 0 := by
  simp only [onMemoryRelease_released h, entryBytes, StdMap.total_remove, StdMap.weightAt,
    (releasedEntry_eq_some.mp h).1, Option.elim_some, MemoryInfo.bytesFor, eq_comm]

theorem memoryRecord_release_eq_none {c : DomainData} {address : PVOID} {d : DWORD} :
    (c.onMemoryRelease address).1.memoryRecord d = none ↔ c.memoryRecord d = none := by
  cases hreleased : c.releasedEntry address with
  | none => rw [onMemoryRelease_kept hreleased]
  | some memoryInfo =>
      rw [memoryRecord_release hreleased]
      split
      next heq => simp [heq]
      next => rfl

theorem memoryRecord_reset (c : DomainData) (domain d : DWORD) :
    (c.rawResetCountersForAppDomain domain).memoryRecord d =
      if d = domain then (c.memoryRecord domain).map (fun r => (0, r.2))
      else c.memoryRecord d :=
  memoryRecord_modify (g := fun r => (0, r.2)) rfl (fun _ => rfl) d

/-- A created domain starts with no bytes and an arbitrary number of
allocations; if it has a record already, nothing changes. -/
theorem memoryRecord_create {c next : DomainData} {domain thread : DWORD}
    {manager : Option DomainManager} {uninitialised : LONG}
    (h : c.onDomainCreate domain thread manager uninitialised = .ok next) (d : DWORD) :
    next.memoryRecord d =
      if d = domain ∧ c.memoryRecord domain = none then some (0, uninitialised)
      else c.memoryRecord d := by
  let info := AppDomainInfo.new thread manager uninitialised
  let mid : DomainData := { c with appDomains := c.appDomains.insertNew domain info }
  have hmid : ∀ d, mid.memoryRecord d =
      if d = domain ∧ c.memoryRecord domain = none then some (0, uninitialised)
      else c.memoryRecord d := by
    intro d
    simp only [mid, memoryRecord_eq_none]
    simp only [memoryRecord, StdMap.lookup_insertNew]
    split <;> rfl
  obtain ⟨-, ⟨old, -, -, happ, -⟩ | ⟨-, happ, -⟩⟩ := onDomainCreate_ok h
  · rw [memoryRecord_modify_same (c := mid) happ (fun _ => ⟨rfl, rfl⟩), hmid]
  · rw [← hmid d, memoryRecord, happ]
    rfl

/-- The default domain and its manager are set once, by the first manager. -/
theorem onDomainCreate_defaults {c next : DomainData} {domain thread : DWORD}
    {manager : Option DomainManager} {uninitialised : LONG}
    (h : c.onDomainCreate domain thread manager uninitialised = .ok next) :
    (next.defaultDomainId, next.defaultDomainManager) =
      if c.defaultDomainManager.isNone then (domain, manager)
      else (c.defaultDomainId, c.defaultDomainManager) := by
  simp only [onDomainCreate] at h
  cases hthread : c.threadAppDomain.lookup thread with
  | none =>
      simp only [hthread] at h
      cases h
      split <;> rfl
  | some old =>
      simp only [hthread] at h
      split at h
      next => cases h
      next =>
        cases h
        split <;> rfl

theorem onDomainCreate_default {c next : DomainData} {domain thread : DWORD}
    {manager : Option DomainManager} {uninitialised : LONG}
    (h : c.onDomainCreate domain thread manager uninitialised = .ok next) :
    next.defaultDomainId =
      if c.defaultDomainManager.isNone then domain else c.defaultDomainId := by
  have hdefault := congrArg Prod.fst (onDomainCreate_defaults h)
  rw [apply_ite Prod.fst] at hdefault
  exact hdefault

theorem onDomainCreate_manager {c next : DomainData} {domain thread : DWORD}
    {manager : Option DomainManager} {uninitialised : LONG}
    (h : c.onDomainCreate domain thread manager uninitialised = .ok next) :
    next.defaultDomainManager =
      if c.defaultDomainManager.isNone then manager else c.defaultDomainManager := by
  have hmanager := congrArg Prod.snd (onDomainCreate_defaults h)
  rw [apply_ite Prod.snd] at hmanager
  exact hmanager

/-- The answer given to a thread of a domain with a budget. -/
theorem onMemoryAcquiring_limited {c : DomainData} {thread domain : DWORD} {used : LONG × LONG}
    (hthread : c.threadAppDomain.lookup thread = some domain)
    (hdefault : domain ≠ c.defaultDomainId) (hrecord : c.memoryRecord domain = some used)
    (bytes : LONG) :
    c.onMemoryAcquiring thread bytes =
      decide (used.1 + bytes ≤ maxBytesPerDomain ∧ used.2 + 1 ≤ maxAllocsPerDomain) := by
  obtain ⟨info, hinfo, rfl⟩ := Option.map_eq_some_iff.mp hrecord
  simp only [onMemoryAcquiring, hthread, if_neg hdefault, hinfo]
  split
  next h => simp [not_le.mpr h]
  next h =>
    rw [not_lt] at h
    split
    next h' => simp [not_le.mpr h']
    next h' => simp [h, not_lt.mp h']

/-- What the entries of `memoryAppDomain` charge to a domain: bytes and
allocations. -/
def entryUsage (c : DomainData) (domain : DWORD) : LONG × LONG :=
  c.memoryAppDomain.total (MemoryInfo.usageFor domain)

/-- The counters of a domain, if it has a record, have moved away from `before` by
what its entries charge. -/
def UsageCounted (before : LONG × LONG) (c : DomainData) (domain : DWORD) : Prop :=
  ∀ used, c.memoryRecord domain = some used → used = before + c.entryUsage domain

/-- Entries of other domains are nothing on a domain's account. -/
theorem entryUsage_eq_zero {c : DomainData} {domain : DWORD}
    (h : ∀ address memoryInfo, c.memoryAppDomain.lookup address = some memoryInfo →
      memoryInfo.appDomainId ≠ domain) : c.entryUsage domain = 0 := by
  refine StdMap.total_eq_zero ?_
  intro address memoryInfo hentry
  exact if_neg (h address memoryInfo hentry)

/-- The addresses a domain is charged for. -/
def chargedAt (c : DomainData) (domain : DWORD) : Finset PVOID :=
  c.memoryAppDomain.keys.filter (fun address =>
    ∃ memoryInfo ∈ c.memoryAppDomain.lookup address, memoryInfo.appDomainId = domain)

@[simp] theorem mem_chargedAt {c : DomainData} {domain : DWORD} {address : PVOID} :
    address ∈ c.chargedAt domain ↔
      ∃ memoryInfo, c.memoryAppDomain.lookup address = some memoryInfo ∧
        memoryInfo.appDomainId = domain := by
  simp only [chargedAt, Finset.mem_filter, Finmap.mem_keys, Option.mem_def,
    and_iff_right_iff_imp]
  rintro ⟨memoryInfo, hentry, -⟩
  exact Finmap.mem_of_lookup_eq_some hentry

theorem chargedAt_acquire {c : DomainData} {thread : DWORD} {bytes : LONG} {address a : PVOID}
    {domain : DWORD} (h : a ∈ (c.onMemoryAcquire thread bytes address).chargedAt domain) :
    a = address ∨ a ∈ c.chargedAt domain := by
  obtain ⟨memoryInfo, hentry, howner⟩ := mem_chargedAt.mp h
  rw [entries_acquire] at hentry
  split at hentry
  next hnew => exact Or.inl hnew.1
  next => exact Or.inr (mem_chargedAt.mpr ⟨memoryInfo, hentry, howner⟩)

/-- A release leaves a domain that is there nothing at its address. -/
theorem chargedAt_release {c : DomainData} {address a : PVOID} {domain : DWORD}
    (hlive : c.memoryRecord domain ≠ none)
    (h : a ∈ (c.onMemoryRelease address).1.chargedAt domain) :
    a ≠ address ∧ a ∈ c.chargedAt domain := by
  obtain ⟨memoryInfo, hentry, rfl⟩ := mem_chargedAt.mp h
  have hne : a ≠ address := by
    rintro rfl
    cases hreleased : c.releasedEntry a with
    | none =>
        rw [onMemoryRelease_kept hreleased] at hentry
        have hsome := releasedEntry_eq_some.mpr ⟨hentry, hlive⟩
        rw [hreleased] at hsome
        cases hsome
    | some released =>
        rw [onMemoryRelease_released hreleased] at hentry
        exact (StdMap.lookup_remove_eq_some.mp hentry).1 rfl
  rw [entries_release hne] at hentry
  exact ⟨hne, mem_chargedAt.mpr ⟨memoryInfo, hentry, rfl⟩⟩

/-- The usage is a matter of the domain's own entries. -/
theorem entryUsage_congr {c c' : DomainData} {domain : DWORD}
    (h : ∀ address, address ∈ c.chargedAt domain ∨ address ∈ c'.chargedAt domain →
      c.memoryAppDomain.lookup address = c'.memoryAppDomain.lookup address) :
    c.entryUsage domain = c'.entryUsage domain := by
  have hother : ∀ (b : DomainData) address, address ∉ b.chargedAt domain →
      b.memoryAppDomain.weightAt (MemoryInfo.usageFor domain) address = 0 := by
    intro b address hmem
    rw [StdMap.weightAt]
    cases hentry : b.memoryAppDomain.lookup address with
    | none => rfl
    | some memoryInfo => exact if_neg (fun howner => hmem (mem_chargedAt.mpr ⟨_, hentry, howner⟩))
  refine StdMap.total_congr ?_
  intro address
  by_cases hmem : address ∈ c.chargedAt domain ∨ address ∈ c'.chargedAt domain
  · rw [StdMap.weightAt, StdMap.weightAt, h address hmem]
  · rw [not_or] at hmem
    rw [hother c address hmem.1, hother c' address hmem.2]

/-- A charge that records itself moves counter and entries alike, and another
domain's charge moves neither. -/
theorem UsageCounted.acquire {before : LONG × LONG} {c : DomainData} {domain : DWORD}
    (h : c.UsageCounted before domain) {thread : DWORD} {address : PVOID}
    (hfree : c.chargedDomain thread = some domain → c.memoryAppDomain.lookup address = none)
    (bytes : LONG) : (c.onMemoryAcquire thread bytes address).UsageCounted before domain := by
  intro used hused
  cases hcharged : c.chargedDomain thread with
  | none =>
      rw [onMemoryAcquire_uncharged hcharged] at hused ⊢
      exact h used hused
  | some owner =>
      rw [memoryRecord_acquire hcharged] at hused
      split at hused
      next heq =>
        subst heq
        have hentries : (c.onMemoryAcquire thread bytes address).entryUsage domain =
            c.entryUsage domain + (bytes, 1) := by
          simp only [onMemoryAcquire_charged hcharged, entryUsage,
            StdMap.total_insertNew_of_none (hfree hcharged), MemoryInfo.usageFor, if_pos]
        obtain ⟨old, hold, rfl⟩ := Option.map_eq_some_iff.mp hused
        rw [hentries, ← add_assoc, ← h old hold]
        rfl
      next hne =>
        have hentries : (c.onMemoryAcquire thread bytes address).entryUsage domain =
            c.entryUsage domain := by
          refine entryUsage_congr ?_
          simp only [mem_chargedAt, entries_acquire, hcharged, Option.map_some]
          rintro a hmem
          split_ifs at hmem ⊢ with hnew
          · rw [hnew.1, hnew.2] at hmem
            rcases hmem with ⟨memoryInfo, hentry, howner⟩ | ⟨memoryInfo, hentry, -⟩
            · cases hentry
              exact absurd howner.symm hne
            · cases hentry
          · rfl
        rw [hentries]
        exact h used hused

theorem UsageCounted.release {before : LONG × LONG} {c : DomainData} {domain : DWORD}
    (h : c.UsageCounted before domain) (address : PVOID) :
    (c.onMemoryRelease address).1.UsageCounted before domain := by
  intro used hused
  cases hreleased : c.releasedEntry address with
  | none =>
      rw [onMemoryRelease_kept hreleased] at hused ⊢
      exact h used hused
  | some memoryInfo =>
      have hentries : (c.onMemoryRelease address).1.entryUsage domain =
          c.entryUsage domain -
            if memoryInfo.appDomainId = domain then (memoryInfo.dwBytes, 1) else 0 := by
        simp only [onMemoryRelease_released hreleased, entryUsage, StdMap.total_remove,
          StdMap.weightAt, (releasedEntry_eq_some.mp hreleased).1, Option.elim_some,
          MemoryInfo.usageFor]
      rw [memoryRecord_release hreleased] at hused
      rw [hentries]
      split at hused
      next heq =>
        subst heq
        obtain ⟨old, hold, rfl⟩ := Option.map_eq_some_iff.mp hused
        rw [if_pos rfl, ← add_sub_assoc, ← h old hold]
        rfl
      next hne =>
        rw [if_neg (Ne.symm hne), sub_zero]
        exact h used hused

/-- Threads belong to the domains they belonged to, and the same domains have a
record. -/
structure SameDomains (start c : DomainData) : Prop where
  threads : c.threadAppDomain = start.threadAppDomain
  default : c.defaultDomainId = start.defaultDomainId
  present : ∀ domain, c.memoryRecord domain = none ↔ start.memoryRecord domain = none

theorem SameDomains.refl (c : DomainData) : SameDomains c c := ⟨rfl, rfl, fun _ => Iff.rfl⟩

theorem SameDomains.trans {c c' c'' : DomainData} (h : SameDomains c c')
    (h' : SameDomains c' c'') : SameDomains c c'' := by
  refine ⟨h'.threads.trans h.threads, h'.default.trans h.default, ?_⟩
  intro domain
  rw [h'.present, h.present]

theorem sameDomains_acquire (c : DomainData) (thread : DWORD) (bytes : LONG)
    (address : PVOID) : SameDomains c (c.onMemoryAcquire thread bytes address) :=
  ⟨(onMemoryAcquire_sameThreads thread bytes address c).threads,
    onMemoryAcquire_default c thread bytes address, fun _ => memoryRecord_acquire_eq_none⟩

theorem sameDomains_release (c : DomainData) (address : PVOID) :
    SameDomains c (c.onMemoryRelease address).1 :=
  ⟨(onMemoryRelease_sameThreads address c).threads, onMemoryRelease_default c address,
    fun _ => memoryRecord_release_eq_none⟩

/-- No counter and no entry changes; records may be erased. -/
structure SameMemory (c next : DomainData) : Prop where
  entries : next.memoryAppDomain = c.memoryAppDomain
  default : next.defaultDomainId = c.defaultDomainId
  records : ∀ domain used, next.memoryRecord domain = some used →
    c.memoryRecord domain = some used

theorem SameMemory.refl (c : DomainData) : SameMemory c c := ⟨rfl, rfl, fun _ _ h => h⟩

theorem SameMemory.present {c next : DomainData} (h : SameMemory c next) {domain : DWORD}
    (hdomain : next.memoryRecord domain ≠ none) : c.memoryRecord domain ≠ none := by
  obtain ⟨used, hused⟩ := Option.ne_none_iff_exists'.mp hdomain
  rw [h.records domain used hused]
  simp

theorem eraseDomain_sameMemory (domain : DWORD) (c : DomainData) :
    SameMemory c (c.eraseDomain domain) := by
  refine ⟨rfl, rfl, ?_⟩
  intro d used hrecord
  simp only [memoryRecord, eraseDomain, StdMap.lookup_remove] at hrecord
  split at hrecord
  next => cases hrecord
  next => exact hrecord

theorem onThreadAcquire_sameMemory {c next : DomainData} {parent thread : DWORD}
    {answer : Bool} (h : c.onThreadAcquire parent thread = .ok (next, answer)) :
    SameMemory c next := by
  obtain ⟨-, rfl, -⟩ | ⟨domain, info, -, -, -, hnext⟩ := onThreadAcquire_ok h
  · exact SameMemory.refl _
  · refine ⟨by rw [hnext], by rw [hnext], ?_⟩
    intro d used hrecord
    rwa [memoryRecord_modify_same (congrArg appDomains hnext) (fun _ => ⟨rfl, rfl⟩)]
      at hrecord

theorem onThreadRelease_sameMemory {c next : DomainData} {thread : DWORD}
    {exit : Option MainThreadExit} {answer : Bool}
    (h : c.onThreadRelease thread = .ok (next, exit, answer)) : SameMemory c next := by
  rcases onThreadRelease_ok h with ⟨-, rfl, -⟩ | ⟨domain, -, -, hmemory, -, hdefault, hcases⟩
  · exact SameMemory.refl _
  · refine ⟨hmemory, hdefault, ?_⟩
    intro d used hrecord
    rcases hcases with ⟨-, happ, -⟩ | ⟨info, -, -, happ, -⟩ | ⟨info, -, -, happ, -⟩
    · rwa [memoryRecord, happ] at hrecord
    · rw [memoryRecord, happ] at hrecord
      split at hrecord
      next => cases hrecord
      next => exact hrecord
    · rwa [memoryRecord_modify_same happ (fun _ => ⟨rfl, rfl⟩)] at hrecord

end DomainData

namespace HostOp

/-- The calls that neither create a domain nor touch a memory counter. -/
def Quiet : HostOp → Prop
  | .onDomainCreate _ _ _ _ | .onMemoryAcquire _ _ _ | .onMemoryRelease _
  | .rawResetCountersForAppDomain _ => False
  | _ => True

end HostOp

namespace HostContext

theorem step_sameMemory {s next : HostContext} {op : HostOp}
    (h : s.step op = .ok next) (hquiet : op.Quiet) :
    s.toDomainData.SameMemory next.toDomainData := by
  cases op with
  | onDomainCreate | onMemoryAcquire | onMemoryRelease | rawResetCountersForAppDomain =>
      cases hquiet
  | postHostMessage | onDomainRudeUnload =>
      cases h
      exact DomainData.SameMemory.refl _
  | rawGetLastMessage =>
      obtain ⟨hostEvent, hread⟩ := map_fst_ok h
      rw [(rawGetLastMessage_ok hread).2]
      exact DomainData.SameMemory.refl _
  | onDomainUnload domain =>
      cases h
      exact DomainData.eraseDomain_sameMemory domain _
  | onThreadAcquiring parent =>
      obtain ⟨answer, hcall⟩ := map_fst_ok h
      obtain rfl | ⟨domain, -, rfl⟩ := onThreadAcquiring_ok hcall <;>
        exact DomainData.SameMemory.refl _
  | onThreadAcquire parent thread =>
      obtain ⟨c, hcall, rfl⟩ := withDomainData_ok h
      obtain ⟨answer, hcall⟩ := map_fst_ok hcall
      exact DomainData.onThreadAcquire_sameMemory hcall
  | onThreadRelease thread =>
      obtain ⟨c, hcall, rfl⟩ := withDomainData_ok h
      obtain ⟨⟨exit, answer⟩, hcall⟩ := map_fst_ok hcall
      exact DomainData.onThreadRelease_sameMemory hcall

end HostContext

end HostedPumpkin
