import HostedPumpkin.Host.LongCounters

/-!
Memory accounting. `bytesInAppDomain` should be the size of the live blocks the
threads of a domain have acquired. Which blocks are live is not something the
host knows, so a run carries them beside the host's state: every acquire makes
its address live, every release ends that. The counter agrees with the live
blocks as long as no entry of `memoryAppDomain` outlives its block: a release
in a domain that is gone returns before it erases the entry, and the next
`insert` at that address is then without effect. The counter is a `LONG`, so the
sizes also have to fit in it.
-/

namespace HostedPumpkin

open Runs

/-- A block that was acquired and not released, with the domain its thread was
mapped to at the time of the acquire. -/
structure LiveBlock where
  owner : Option DWORD
  dwBytes : LONG
deriving DecidableEq

/-- The host together with the blocks that are live. -/
structure MemoryAudit where
  host : HostContext
  live : StdMap PVOID LiveBlock

namespace MemoryAudit

def initial : MemoryAudit := ⟨HostContext.initial, ∅⟩

/-- The blocks that are live after a call. -/
def track (s : MemoryAudit) : HostOp → StdMap PVOID LiveBlock
  | .onMemoryAcquire thread bytes address =>
      s.live.set address ⟨s.host.threadAppDomain.lookup thread, bytes⟩
  | .onMemoryRelease address => s.live.remove address
  | _ => s.live

def step (s : MemoryAudit) (op : HostOp) : Except HostFault MemoryAudit :=
  match s.host.step op with
  | .ok host => .ok ⟨host, s.track op⟩
  | .error fault => .error fault

theorem step_ok {s next : MemoryAudit} {op : HostOp} (h : s.step op = .ok next) :
    s.host.step op = .ok next.host ∧ next.live = s.track op := by
  simp only [step] at h
  split at h
  next host hhost =>
    cases h
    exact ⟨hhost, rfl⟩
  next => cases h

/-- The same on the Win32 build. -/
def longStep (s : MemoryAudit) (op : HostOp) : Except HostFault MemoryAudit :=
  match s.host.longStep op with
  | .ok host => .ok ⟨host, s.track op⟩
  | .error fault => .error fault

theorem longStep_ok {s next : MemoryAudit} {op : HostOp} (h : s.longStep op = .ok next) :
    s.host.longStep op = .ok next.host ∧ next.live = s.track op := by
  simp only [longStep] at h
  split at h
  next host hhost =>
    cases h
    exact ⟨hhost, rfl⟩
  next => cases h

def blockBytes (domain : DWORD) (block : LiveBlock) : LONG :=
  if block.owner = some domain then block.dwBytes else 0

/-- The total size of the live blocks acquired by the threads of a domain. -/
def liveBytes (s : MemoryAudit) (domain : DWORD) : LONG := s.live.total (blockBytes domain)

/-- Every domain but the default one counts its live blocks. -/
def MemoryAccounted (s : MemoryAudit) : Prop :=
  ∀ domain info, s.host.appDomains.lookup domain = some info →
    domain ≠ s.host.defaultDomainId → info.bytesInAppDomain = s.liveBytes domain

/-- The calls memory is accounted for: an address is acquired only while it is
not live, and no counter is reset. What memory held before a record was built is a
`LONG`. -/
def LegalMemoryOp (s : MemoryAudit) : HostOp → Prop
  | .onMemoryAcquire _ _ address => s.live.lookup address = none
  | .onDomainCreate _ _ _ uninitialised => LONG.InRange uninitialised
  | .rawResetCountersForAppDomain _ => False
  | _ => True

/-- No live block was acquired by a thread of this domain. -/
def NoBlocks (s : MemoryAudit) (domain : DWORD) : Prop :=
  s.live.AllValues (fun block => block.owner ≠ some domain)

/-- An acquire that is charged finds no entry at its address. -/
def AcquiresFresh (s : MemoryAudit) (thread : DWORD) (address : PVOID) : Prop :=
  s.host.chargedDomain thread = none ∨ s.host.memoryAppDomain.lookup address = none

/-- The sum of a counter and of the block charged to it is a `LONG`. -/
def RoomToAcquire (s : MemoryAudit) (thread : DWORD) (bytes : LONG) : Prop :=
  ∀ domain ∈ s.host.chargedDomain thread, ∀ used ∈ s.host.memoryRecord domain,
    LONG.InRange (used.1 + bytes)

/-- So is what a release leaves of it. -/
def RoomToRelease (s : MemoryAudit) (address : PVOID) : Prop :=
  ∀ memoryInfo ∈ s.host.releasedEntry address,
    ∀ used ∈ s.host.memoryRecord memoryInfo.appDomainId,
      LONG.InRange (used.1 - memoryInfo.dwBytes)

/-- The steps that keep counters and blocks in agreement: a charged acquire
finds no entry at its address, no `bytesInAppDomain` overflows, a domain is created
when nothing of an earlier domain of that id is left, and it replaces the default
domain only if no block of that one is live. -/
def KeepsBalance (s : MemoryAudit) : HostOp → Prop
  | .onMemoryAcquire thread bytes address =>
      s.AcquiresFresh thread address ∧ s.RoomToAcquire thread bytes
  | .onMemoryRelease address => s.RoomToRelease address
  | .onDomainCreate domain _ _ _ =>
      (s.host.memoryRecord domain = none → s.NoBlocks domain ∧ s.host.NoEntries domain) ∧
        (s.host.defaultDomainManager = none → domain ≠ s.host.defaultDomainId →
          s.NoBlocks s.host.defaultDomainId)
  | _ => True

instance (s : MemoryAudit) (op : HostOp) : Decidable (s.LegalMemoryOp op) := by
  cases op <;> unfold LegalMemoryOp <;> infer_instance

instance (s : MemoryAudit) (thread : DWORD) (bytes : LONG) :
    Decidable (s.RoomToAcquire thread bytes) :=
  -- the domain is looked up: the finite type `DWORD` is too large to go through
  Option.decidableForallMem _

instance (s : MemoryAudit) (address : PVOID) : Decidable (s.RoomToRelease address) :=
  Option.decidableForallMem _

instance (s : MemoryAudit) (op : HostOp) : Decidable (s.KeepsBalance op) := by
  cases op <;> unfold KeepsBalance <;> unfold AcquiresFresh NoBlocks <;>
    infer_instance

/-- Entries and live blocks correspond, and a counter sums up the entries of
its domain. Nothing is said of the entries of a domain that is gone. -/
structure Balanced (s : MemoryAudit) : Prop where
  counted : ∀ domain used, s.host.memoryRecord domain = some used →
    used.1 = s.host.entryBytes domain
  entries : ∀ address memoryInfo, s.host.memoryAppDomain.lookup address = some memoryInfo →
    s.host.memoryRecord memoryInfo.appDomainId ≠ none →
      s.live.lookup address = some ⟨some memoryInfo.appDomainId, memoryInfo.dwBytes⟩
  blocks : ∀ address block domain, s.live.lookup address = some block →
    block.owner = some domain → domain ≠ s.host.defaultDomainId →
      s.host.memoryRecord domain ≠ none →
        s.host.memoryAppDomain.lookup address = some ⟨domain, block.dwBytes⟩

/-- Entry by entry, a domain that is not the default one is charged for exactly
its live blocks. -/
theorem Balanced.entryBytes_eq_liveBytes {s : MemoryAudit} (hs : s.Balanced) {domain : DWORD}
    (hdefault : domain ≠ s.host.defaultDomainId)
    (hrecord : s.host.memoryRecord domain ≠ none) :
    s.host.entryBytes domain = s.liveBytes domain := by
  refine StdMap.total_congr ?_
  intro address
  simp only [StdMap.weightAt]
  by_cases hentry : ∃ dwBytes,
      s.host.memoryAppDomain.lookup address = some ⟨domain, dwBytes⟩
  · obtain ⟨dwBytes, hentry⟩ := hentry
    rw [hentry, hs.entries address _ hentry hrecord]
    simp [MemoryInfo.bytesFor, blockBytes]
  · have hweight : (s.host.memoryAppDomain.lookup address).elim 0
        (MemoryInfo.bytesFor domain) = 0 := by
      cases hlookup : s.host.memoryAppDomain.lookup address with
      | none => rfl
      | some memoryInfo =>
          refine if_neg ?_
          rintro rfl
          exact hentry ⟨memoryInfo.dwBytes, hlookup⟩
    rw [hweight]
    cases hlookup : s.live.lookup address with
    | none => rfl
    | some block =>
        refine (if_neg ?_).symm
        intro howner
        exact hentry ⟨_, hs.blocks address block domain hlookup howner hdefault hrecord⟩

theorem Balanced.memoryAccounted {s : MemoryAudit} (hs : s.Balanced) : s.MemoryAccounted := by
  intro domain info hinfo hdefault
  have hrecord := DomainData.memoryRecord_of_lookup hinfo
  rw [← hs.entryBytes_eq_liveBytes hdefault (by simp [hrecord])]
  exact hs.counted domain _ hrecord

theorem balanced_initial : initial.Balanced := by
  refine ⟨?_, ?_, ?_⟩
  · intro domain used hrecord
    cases hrecord
  · intro address memoryInfo hlookup
    cases hlookup
  · intro address block domain hlookup
    cases hlookup

/-- A call that leaves counters, entries and blocks alone. -/
theorem Balanced.of_sameMemory {s next : MemoryAudit} (hs : s.Balanced)
    (hsame : s.host.toDomainData.SameMemory next.host.toDomainData)
    (hlive : next.live = s.live) : next.Balanced := by
  refine ⟨?_, ?_, ?_⟩
  · intro domain used hrecord
    rw [DomainData.entryBytes, hsame.entries]
    exact hs.counted domain used (hsame.records domain used hrecord)
  · intro address memoryInfo hlookup hpresent
    rw [hsame.entries] at hlookup
    rw [hlive]
    exact hs.entries address memoryInfo hlookup (hsame.present hpresent)
  · intro address block domain hlookup howner hdefault hpresent
    rw [hlive] at hlookup
    rw [hsame.default] at hdefault
    rw [hsame.entries]
    exact hs.blocks address block domain hlookup howner hdefault (hsame.present hpresent)

theorem Balanced.acquire {s next : MemoryAudit} {thread : DWORD} {bytes : LONG}
    {address : PVOID} (hs : s.Balanced) (hlegal : s.live.lookup address = none)
    (hfresh : s.AcquiresFresh thread address) (hroom : s.RoomToAcquire thread bytes)
    (hhost : next.host.toDomainData =
      Win32.onMemoryAcquire thread bytes address s.host.toDomainData)
    (hlive : next.live =
      s.live.set address ⟨s.host.threadAppDomain.lookup thread, bytes⟩) :
    next.Balanced := by
  cases hcharged : s.host.chargedDomain thread with
  | none =>
      have hsame : next.host.toDomainData = s.host.toDomainData := by
        rw [hhost, Win32.onMemoryAcquire_uncharged hcharged]
      refine ⟨?_, ?_, ?_⟩ <;> rw [hsame]
      · exact hs.counted
      · intro a memoryInfo hlookup hpresent
        rw [hlive, StdMap.lookup_set]
        have hentry := hs.entries a memoryInfo hlookup hpresent
        split
        next ha =>
          rw [ha, hlegal] at hentry
          cases hentry
        next => exact hentry
      · intro a block domain hlookup howner hdefault hpresent
        rw [hlive, StdMap.lookup_set] at hlookup
        split at hlookup
        next =>
          cases hlookup
          have hsome := DomainData.chargedDomain_eq_some.mpr ⟨howner, hdefault, hpresent⟩
          rw [hcharged] at hsome
          cases hsome
        next => exact hs.blocks a block domain hlookup howner hdefault hpresent
  | some domain =>
      have hnone : s.host.memoryAppDomain.lookup address = none := by
        rcases hfresh with hfresh | hfresh
        · rw [hcharged] at hfresh
          cases hfresh
        · exact hfresh
      obtain ⟨hthread, -, -⟩ := DomainData.chargedDomain_eq_some.mp hcharged
      obtain ⟨hexact, -, hsame⟩ :=
        Win32.acquire_exact s.host.toDomainData thread bytes address
      have hrecords := Win32.memoryRecord_acquire hcharged bytes address
      rw [← hhost] at hrecords hexact
      have htotal : ∀ d, next.host.entryBytes d =
          s.host.entryBytes d + if d = domain then bytes else 0 := by
        intro d
        rw [DomainData.entryBytes, hexact]
        exact DomainData.entryBytes_acquire hcharged hnone bytes d
      have hpresent : ∀ d, next.host.memoryRecord d ≠ none → s.host.memoryRecord d ≠ none := by
        intro d hd
        rwa [hhost, Ne, hsame] at hd
      rw [Win32.onMemoryAcquire_charged hcharged] at hhost
      have hentries : next.host.memoryAppDomain =
          s.host.memoryAppDomain.insertNew address ⟨domain, bytes⟩ := by rw [hhost]
      have hdefaults : next.host.defaultDomainId = s.host.defaultDomainId := by rw [hhost]
      refine ⟨?_, ?_, ?_⟩
      · intro d used hrecord
        rw [hrecords] at hrecord
        rw [htotal]
        split at hrecord
        next heq =>
          obtain ⟨old, hold, rfl⟩ := Option.map_eq_some_iff.mp hrecord
          rw [if_pos heq, heq, ← hs.counted domain old hold]
          exact LONG.wrap_of_inRange (hroom domain hcharged old hold)
        next hne => rw [if_neg hne, add_zero, hs.counted d used hrecord]
      · intro a memoryInfo hlookup hd
        rw [hentries, StdMap.lookup_insertNew_of_none hnone] at hlookup
        rw [hlive, StdMap.lookup_set]
        split at hlookup
        next ha =>
          cases hlookup
          rw [if_pos ha, hthread]
        next ha =>
          rw [if_neg ha]
          exact hs.entries a memoryInfo hlookup (hpresent _ hd)
      · intro a block d hlookup howner hdefault hd
        rw [hlive, StdMap.lookup_set] at hlookup
        rw [hentries, StdMap.lookup_insertNew_of_none hnone]
        split at hlookup
        next ha =>
          cases hlookup
          have heq : domain = d := Option.some.inj (hthread.symm.trans howner)
          rw [if_pos ha, heq]
        next ha =>
          rw [if_neg ha]
          exact hs.blocks a block d hlookup howner (hdefaults ▸ hdefault) (hpresent d hd)

theorem Balanced.release {s next : MemoryAudit} {address : PVOID} (hs : s.Balanced)
    (hroom : s.RoomToRelease address)
    (hhost : next.host.toDomainData = (Win32.onMemoryRelease address s.host.toDomainData).1)
    (hlive : next.live = s.live.remove address) : next.Balanced := by
  cases hreleased : s.host.releasedEntry address with
  | none =>
      have hsame : next.host.toDomainData = s.host.toDomainData := by
        rw [hhost, Win32.onMemoryRelease_kept hreleased]
      refine ⟨?_, ?_, ?_⟩ <;> rw [hsame]
      · exact hs.counted
      · intro a memoryInfo hlookup hpresent
        rw [hlive, StdMap.lookup_remove]
        split
        next ha =>
          have hsome := DomainData.releasedEntry_eq_some.mpr ⟨ha ▸ hlookup, hpresent⟩
          rw [hreleased] at hsome
          cases hsome
        next => exact hs.entries a memoryInfo hlookup hpresent
      · intro a block domain hlookup
        rw [hlive, StdMap.lookup_remove] at hlookup
        split at hlookup
        next => cases hlookup
        next => exact hs.blocks a block domain hlookup
  | some memoryInfo =>
      obtain ⟨hexact, -, hsame⟩ := Win32.release_exact s.host.toDomainData address
      have hrecords := Win32.memoryRecord_release hreleased
      rw [← hhost] at hrecords hexact
      have htotal : ∀ d, next.host.entryBytes d = s.host.entryBytes d -
          if d = memoryInfo.appDomainId then memoryInfo.dwBytes else 0 := by
        intro d
        rw [DomainData.entryBytes, hexact]
        exact DomainData.entryBytes_release hreleased d
      have hpresent : ∀ d, next.host.memoryRecord d ≠ none → s.host.memoryRecord d ≠ none := by
        intro d hd
        rwa [hhost, Ne, hsame] at hd
      rw [Win32.onMemoryRelease_released hreleased] at hhost
      have hentries : next.host.memoryAppDomain =
          s.host.memoryAppDomain.remove address := by rw [hhost]
      have hdefaults : next.host.defaultDomainId = s.host.defaultDomainId := by rw [hhost]
      refine ⟨?_, ?_, ?_⟩
      · intro d used hrecord
        rw [hrecords] at hrecord
        rw [htotal]
        split at hrecord
        next heq =>
          obtain ⟨old, hold, rfl⟩ := Option.map_eq_some_iff.mp hrecord
          rw [if_pos heq, heq, ← hs.counted _ old hold]
          exact LONG.wrap_of_inRange (hroom memoryInfo hreleased old hold)
        next hne => rw [if_neg hne, sub_zero, hs.counted d used hrecord]
      · intro a entry hlookup hd
        rw [hentries, StdMap.lookup_remove] at hlookup
        rw [hlive, StdMap.lookup_remove]
        split at hlookup
        next => cases hlookup
        next ha =>
          rw [if_neg ha]
          exact hs.entries a entry hlookup (hpresent _ hd)
      · intro a block d hlookup howner hdefault hd
        rw [hlive, StdMap.lookup_remove] at hlookup
        rw [hentries, StdMap.lookup_remove]
        split at hlookup
        next => cases hlookup
        next ha =>
          rw [if_neg ha]
          exact hs.blocks a block d hlookup howner (hdefaults ▸ hdefault) (hpresent d hd)

theorem Balanced.create {s next : MemoryAudit} {domain thread : DWORD}
    {manager : Option DomainManager} {uninitialised : LONG} (hs : s.Balanced)
    (hnew : s.host.memoryRecord domain = none → s.NoBlocks domain ∧ s.host.NoEntries domain)
    (hreplaced : s.host.defaultDomainManager = none → domain ≠ s.host.defaultDomainId →
      s.NoBlocks s.host.defaultDomainId)
    (hhost : s.host.toDomainData.onDomainCreate domain thread manager uninitialised =
      .ok next.host.toDomainData)
    (hlive : next.live = s.live) : next.Balanced := by
  have hrecords := DomainData.memoryRecord_create hhost
  have hentries := (DomainData.onDomainCreate_ok hhost).1
  have hpresent : ∀ d, next.host.memoryRecord d ≠ none →
      s.host.memoryRecord d ≠ none ∨ (d = domain ∧ s.host.memoryRecord domain = none) := by
    intro d hd
    rw [hrecords] at hd
    split at hd
    next hcreated => exact Or.inr hcreated
    next => exact Or.inl hd
  refine ⟨?_, ?_, ?_⟩
  · intro d used hrecord
    rw [hrecords] at hrecord
    rw [DomainData.entryBytes, hentries]
    split at hrecord
    next hcreated =>
      cases hrecord
      rw [hcreated.1]
      exact (hnew hcreated.2).2.entryBytes_eq_zero.symm
    next => exact hs.counted d used hrecord
  · intro address memoryInfo hlookup hd
    rw [hentries] at hlookup
    rw [hlive]
    rcases hpresent _ hd with hold | ⟨hdomain, hnone⟩
    · exact hs.entries address memoryInfo hlookup hold
    · exact absurd hdomain
        (StdMap.allValues_iff.mp (hnew hnone).2 address memoryInfo hlookup)
  · intro address block d hlookup howner hdefault hd
    rw [hlive] at hlookup
    rw [hentries]
    rcases hpresent d hd with hold | ⟨rfl, hnone⟩
    · by_cases hd' : d = s.host.defaultDomainId
      · -- the domain was the default one, and the new domain has replaced it
        rw [DomainData.onDomainCreate_default hhost] at hdefault
        cases hmanager : s.host.defaultDomainManager with
        | none =>
            rw [hmanager, Option.isNone_none, if_pos rfl] at hdefault
            have hnone := hreplaced hmanager (fun heq => hdefault (hd'.trans heq.symm))
            rw [← hd'] at hnone
            exact absurd howner (StdMap.allValues_iff.mp hnone address block hlookup)
        | some old =>
            rw [hmanager, Option.isNone_some, if_neg Bool.false_ne_true] at hdefault
            exact absurd hd' hdefault
      · exact hs.blocks address block d hlookup howner hd' hold
    · exact absurd howner (StdMap.allValues_iff.mp (hnew hnone).1 address block hlookup)

theorem longStep_balanced {s next : MemoryAudit} {op : HostOp} (hs : s.Balanced)
    (hlegal : s.LegalMemoryOp op) (hkeeps : s.KeepsBalance op) (h : s.longStep op = .ok next) :
    next.Balanced := by
  obtain ⟨hhost, hlive⟩ := longStep_ok h
  cases op with
  | onMemoryAcquire thread bytes address =>
      exact hs.acquire hlegal hkeeps.1 hkeeps.2 (by rw [← Except.ok.inj hhost]) hlive
  | onMemoryRelease address => exact hs.release hkeeps (by rw [← Except.ok.inj hhost]) hlive
  | onDomainCreate domain thread manager uninitialised =>
      obtain ⟨c, hcall, hnext⟩ := HostContext.withDomainData_ok hhost
      exact hs.create hkeeps.1 hkeeps.2 (by rw [hnext, hcall]) hlive
  | rawResetCountersForAppDomain domain => exact absurd hlegal id
  | postHostMessage | onDomainRudeUnload | rawGetLastMessage | onDomainUnload
  | onThreadAcquiring | onThreadAcquire | onThreadRelease =>
      exact hs.of_sameMemory (HostContext.longStep_sameMemory hhost trivial) hlive

/-- The counters are `LONG`s. -/
def InRange (s : MemoryAudit) : Prop :=
  ∀ domain used, s.host.memoryRecord domain = some used →
    LONG.InRange used.1 ∧ LONG.InRange used.2

theorem longStep_inRange {s next : MemoryAudit} {op : HostOp} (hs : s.InRange)
    (hlegal : s.LegalMemoryOp op) (h : s.longStep op = .ok next) : next.InRange := by
  have hhost := (longStep_ok h).1
  intro d used hrecord
  cases op with
  | onMemoryAcquire thread bytes address =>
      rw [← Except.ok.inj hhost] at hrecord
      cases hcharged : s.host.chargedDomain thread with
      | none =>
          rw [Win32.onMemoryAcquire_uncharged hcharged] at hrecord
          exact hs d used hrecord
      | some domain =>
          rw [Win32.memoryRecord_acquire hcharged] at hrecord
          split at hrecord
          next =>
            obtain ⟨old, -, rfl⟩ := Option.map_eq_some_iff.mp hrecord
            exact ⟨LONG.inRange_wrap _, LONG.inRange_wrap _⟩
          next => exact hs d used hrecord
  | onMemoryRelease address =>
      rw [← Except.ok.inj hhost] at hrecord
      cases hreleased : s.host.releasedEntry address with
      | none =>
          rw [Win32.onMemoryRelease_kept hreleased] at hrecord
          exact hs d used hrecord
      | some memoryInfo =>
          rw [Win32.memoryRecord_release hreleased] at hrecord
          split at hrecord
          next =>
            obtain ⟨old, -, rfl⟩ := Option.map_eq_some_iff.mp hrecord
            exact ⟨LONG.inRange_wrap _, LONG.inRange_wrap _⟩
          next => exact hs d used hrecord
  | onDomainCreate domain thread manager uninitialised =>
      obtain ⟨c, hcall, hnext⟩ := HostContext.withDomainData_ok hhost
      rw [hnext, DomainData.memoryRecord_create hcall] at hrecord
      split at hrecord
      next =>
        cases hrecord
        exact ⟨(by decide : LONG.InRange 0), hlegal⟩
      next => exact hs d used hrecord
  | rawResetCountersForAppDomain domain => exact absurd hlegal id
  | postHostMessage | onDomainRudeUnload | rawGetLastMessage | onDomainUnload
  | onThreadAcquiring | onThreadAcquire | onThreadRelease =>
      exact hs d used ((HostContext.longStep_sameMemory hhost trivial).records d used hrecord)

/-- Releasing a block that was just acquired restores every counter. -/
def ReleaseRestores (s : MemoryAudit) : Prop :=
  ∀ thread bytes address, s.live.lookup address = none → s.AcquiresFresh thread address →
    ∀ domain, (Win32.onMemoryRelease address (Win32.onMemoryAcquire thread bytes address
      s.host.toDomainData)).1.memoryRecord domain = s.host.memoryRecord domain

theorem Balanced.releaseRestores {s : MemoryAudit} (hs : s.Balanced) (hrange : s.InRange) :
    s.ReleaseRestores := by
  intro thread bytes address hlive hfresh domain
  cases hcharged : s.host.chargedDomain thread with
  | none =>
      have hkept : s.host.releasedEntry address = none := by
        rw [Option.eq_none_iff_forall_ne_some]
        intro memoryInfo hreleased
        obtain ⟨hentry, hrecord⟩ := DomainData.releasedEntry_eq_some.mp hreleased
        have hblock := hs.entries address memoryInfo hentry hrecord
        rw [hlive] at hblock
        cases hblock
      rw [Win32.onMemoryAcquire_uncharged hcharged, Win32.onMemoryRelease_kept hkept]
  | some owner =>
      have hnone : s.host.memoryAppDomain.lookup address = none := by
        rcases hfresh with hfresh | hfresh
        · rw [hcharged] at hfresh
          cases hfresh
        · exact hfresh
      have hreleased : (Win32.onMemoryAcquire thread bytes address
          s.host.toDomainData).releasedEntry address = some ⟨owner, bytes⟩ := by
        refine DomainData.releasedEntry_eq_some.mpr ⟨?_, ?_⟩
        · rw [Win32.onMemoryAcquire_charged hcharged]
          simp [StdMap.lookup_insertNew_of_none hnone]
        · rw [Ne, (Win32.acquire_exact s.host.toDomainData thread bytes address).2.2]
          exact (DomainData.chargedDomain_eq_some.mp hcharged).2.2
      rw [Win32.memoryRecord_release hreleased]
      simp only [Win32.memoryRecord_acquire hcharged, if_true]
      split
      next heq =>
        rw [heq]
        cases hrecord : s.host.memoryRecord owner with
        | none => rfl
        | some used =>
            obtain ⟨hbytes, hallocs⟩ := hrange owner used hrecord
            simp only [Option.map_some, LONG.wrap_add_sub hbytes, LONG.wrap_add_sub hallocs]
      next => rfl

/-- In every run of legal calls that meets the condition, every domain but the
default one counts exactly its live blocks, and a block that is acquired and
released leaves no trace in the counters. -/
theorem memory_accounted {ops : List HostOp} (hlegal : Meets longStep LegalMemoryOp initial ops)
    (hcond : Meets longStep KeepsBalance initial ops) :
    Always longStep (fun s => s.MemoryAccounted ∧ s.ReleaseRestores) initial ops := by
  have hinitial : initial.Balanced ∧ initial.InRange := ⟨balanced_initial, nofun⟩
  have halways : Always longStep (fun s => s.Balanced ∧ s.InRange) initial ops := by
    refine always_of_meets ?_ hinitial (hlegal.and hcond)
    rintro s op next ⟨hs, hrange⟩ ⟨hlegal, hkeeps⟩ h
    exact ⟨longStep_balanced hs hlegal hkeeps h, longStep_inRange hrange hlegal h⟩
  exact halways.imp (fun s hs => ⟨hs.1.memoryAccounted, hs.1.releaseRestores hs.2⟩)

/-- A snippet domain acquires a block, releases it and acquires it again, and another
one acquires as much as a `LONG` holds. -/
theorem memory_accounted_reused :
    Always longStep (fun s => s.MemoryAccounted ∧ s.ReleaseRestores) initial
      [.onDomainCreate 1 10 (some 0) 0, .onDomainCreate 2 20 (some 1) 0,
        .onDomainCreate 3 30 (some 2) 0, .onMemoryAcquire 20 100 4096,
        .onMemoryAcquire 30 2147483647 8192, .onMemoryRelease 4096,
        .onMemoryAcquire 20 300 4096] :=
  memory_accounted (by decide) (by decide)

/-- Domain 2 is unloaded before its block is released, so the entry stays. The
same address is then used by domain 3, and the release takes nothing back. -/
theorem unloaded_domain_keeps_entry :
    ¬ ∀ ops, Meets longStep LegalMemoryOp initial ops →
      Always longStep MemoryAccounted initial ops := by
  intro hall
  let ops : List HostOp := [.onDomainCreate 1 10 (some 0) 0, .onDomainCreate 2 20 (some 1) 0,
    .onMemoryAcquire 20 100 4096, .onDomainUnload 2, .onMemoryRelease 4096,
    .onDomainCreate 3 30 (some 2) 0, .onMemoryAcquire 30 500 4096, .onMemoryRelease 4096]
  have hrun : ∃ s, run longStep initial ops = .ok s ∧ s.live = ∅ ∧ s.host.defaultDomainId = 1 ∧
      (s.host.appDomains.lookup 3).map AppDomainInfo.bytesInAppDomain = some 500 :=
    ⟨_, rfl, by decide, by decide, by decide⟩
  obtain ⟨s, hrun, hlive, hdefault, hbytes⟩ := hrun
  obtain ⟨info, hinfo, hinfo500⟩ := Option.map_eq_some_iff.mp hbytes
  have haccounted := (hall ops (by decide)).last hrun 3 info hinfo (by simp [hdefault])
  rw [liveBytes, hlive, StdMap.total_empty, hinfo500] at haccounted
  cases haccounted

/-- Two blocks of a gigabyte and more each: the counter shows what is left modulo
`2 ^ 32`. -/
example : Reaches longStep (fun s => s.host.rawGetMemoryUsage 2 = some (-2)) initial
    [.onDomainCreate 1 10 (some 0) 0, .onDomainCreate 2 20 (some 1) 0,
      .onMemoryAcquire 20 2147483647 4096, .onMemoryAcquire 20 2147483647 8192] := by decide

end MemoryAudit

end HostedPumpkin
