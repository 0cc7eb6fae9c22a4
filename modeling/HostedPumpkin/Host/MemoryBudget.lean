import HostedPumpkin.Host.LongCounters

/-!
The budget of a snippet. A domain runs many snippets one after the other and
its counters are reset in between, so each snippet should be granted memory on
the strength of its own requests. A run carries, for every domain, what its
threads have acquired since the last reset and which of these blocks have been
released. The answers of `OnMemoryAcquiring` are a function of that record
alone as long as no release takes back a block of an earlier snippet, no
acquire finds a stale entry, no allocation is left on the counter the reset
does not touch, and the counters, which are `LONG`s, do not overflow.
-/

namespace HostedPumpkin

open Runs

/-- What counts against the budget of a domain since its last reset. -/
inductive BudgetEvent where
  | acquired (address : PVOID) (bytes : LONG)
  | released (address : PVOID)
deriving DecidableEq

namespace BudgetEvent

def apply (blocks : StdMap PVOID LONG) : BudgetEvent → StdMap PVOID LONG
  | .acquired address bytes => blocks.set address bytes
  | .released address => blocks.remove address

/-- The blocks acquired and not released. -/
def outstanding (events : List BudgetEvent) : StdMap PVOID LONG := events.foldl apply ∅

def bytesUsed (events : List BudgetEvent) : LONG := (outstanding events).total id

def allocsUsed (events : List BudgetEvent) : LONG := (outstanding events).total (fun _ => 1)

/-- The answer a fresh budget of `MAX_BYTES_PER_DOMAIN` bytes and
`MAX_ALLOCS_PER_DOMAIN` allocations gives, in the arithmetic of the build. -/
def grants (events : List BudgetEvent) (bytes : Int32) : Bool :=
  !Win32.aboveByteLimit (Int32.ofInt (bytesUsed events)) bytes &&
    !Win32.aboveAllocLimit (Int32.ofInt (allocsUsed events))

/-- That is the whole budget and not more, for a request whose sum with it is a
`LONG`. -/
theorem grants_iff {events : List BudgetEvent} {bytes : Int32}
    (hbytes : LONG.InRange (bytesUsed events)) (hallocs : LONG.InRange (allocsUsed events))
    (hsum : LONG.InRange (bytesUsed events + bytes.toInt))
    (hcount : LONG.InRange (allocsUsed events + 1)) :
    grants events bytes = true ↔ bytesUsed events + bytes.toInt ≤ maxBytesPerDomain ∧
      allocsUsed events + 1 ≤ maxAllocsPerDomain := by
  rw [grants, Win32.limits_exact hbytes hallocs hsum hcount, decide_eq_true_iff]

@[simp] theorem outstanding_nil : outstanding [] = ∅ := rfl

@[simp] theorem outstanding_concat (events : List BudgetEvent) (event : BudgetEvent) :
    outstanding (events ++ [event]) = apply (outstanding events) event := by
  simp [outstanding]

theorem used_acquired {events : List BudgetEvent} {address : PVOID}
    (h : (outstanding events).lookup address = none) (bytes : LONG) :
    bytesUsed (events ++ [.acquired address bytes]) = bytesUsed events + bytes ∧
      allocsUsed (events ++ [.acquired address bytes]) = allocsUsed events + 1 := by
  simp [bytesUsed, allocsUsed, apply, StdMap.total_set, StdMap.weightAt, h]

theorem used_released {events : List BudgetEvent} {address : PVOID} {bytes : LONG}
    (h : (outstanding events).lookup address = some bytes) :
    bytesUsed (events ++ [.released address]) = bytesUsed events - bytes ∧
      allocsUsed (events ++ [.released address]) = allocsUsed events - 1 := by
  simp [bytesUsed, allocsUsed, apply, StdMap.total_remove, StdMap.weightAt, h]

end BudgetEvent

/-- The host together with the record of every running budget. -/
structure MemoryBudget where
  host : HostContext
  events : DWORD → Option (List BudgetEvent)

namespace MemoryBudget

open BudgetEvent

def initial : MemoryBudget := ⟨HostContext.initial, fun _ => none⟩

/-- Add a release to a record that holds the block. -/
def recordRelease (address : PVOID) (events : List BudgetEvent) : List BudgetEvent :=
  if address ∈ outstanding events then events ++ [.released address] else events

/-- The records after a call: an acquire counts for the domain of its thread, a
release for the record that holds the block, a reset starts a record and the
creation of a domain ends the one of an earlier domain of that id. -/
def track (s : MemoryBudget) : HostOp → DWORD → Option (List BudgetEvent)
  | .onMemoryAcquire thread bytes address => fun domain =>
      if s.host.threadAppDomain.lookup thread = some domain then
        (s.events domain).map (fun events => events ++ [.acquired address bytes])
      else s.events domain
  | .onMemoryRelease address => fun domain => (s.events domain).map (recordRelease address)
  | .rawResetCountersForAppDomain appDomainId => fun domain =>
      if domain = appDomainId then some [] else s.events domain
  | .onDomainCreate dwAppDomainID _ _ _ => fun domain =>
      if domain = dwAppDomainID ∧ s.host.memoryRecord dwAppDomainID = none then none
      else s.events domain
  | _ => s.events

def step (s : MemoryBudget) (op : HostOp) : Except HostFault MemoryBudget :=
  match s.host.longStep op with
  | .ok host => .ok ⟨host, s.track op⟩
  | .error fault => .error fault

theorem step_ok {s next : MemoryBudget} {op : HostOp} (h : s.step op = .ok next) :
    s.host.longStep op = .ok next.host ∧ next.events = s.track op := by
  simp only [step] at h
  split at h
  next host hhost =>
    cases h
    exact ⟨hhost, rfl⟩
  next => cases h

/-- The domains whose threads the host holds to a budget. -/
def Limited (s : MemoryBudget) (domain : DWORD) : Prop :=
  domain ≠ s.host.defaultDomainId ∧ s.host.memoryRecord domain ≠ none

instance (s : MemoryBudget) (domain : DWORD) : Decidable (s.Limited domain) := by
  unfold Limited
  infer_instance

/-- The record of a domain that is held to it. -/
def running (s : MemoryBudget) (domain : DWORD) : Option (List BudgetEvent) :=
  if s.Limited domain then s.events domain else none

theorem running_eq_some {s : MemoryBudget} {domain : DWORD} {events : List BudgetEvent} :
    s.running domain = some events ↔ s.Limited domain ∧ s.events domain = some events := by
  by_cases h : s.Limited domain <;> simp [running, h]

/-- After a reset the answers to a domain's threads follow from the record of
that domain alone; its counters are those of the record, are not negative, and grant
the whole budget and not more. -/
def BudgetIsolated (s : MemoryBudget) : Prop :=
  ∀ domain events, s.events domain = some events →
    (∀ thread, s.host.threadAppDomain.lookup thread = some domain → ∀ bytes,
      Win32.onMemoryAcquiring thread bytes s.host.toDomainData =
        if s.Limited domain then grants events bytes else true) ∧
    (s.Limited domain → s.host.memoryRecord domain =
      some (bytesUsed events, allocsUsed events) ∧
        0 ≤ bytesUsed events ∧ 0 ≤ allocsUsed events ∧
        ∀ bytes : Int32, LONG.InRange (bytesUsed events + bytes.toInt) →
          LONG.InRange (allocsUsed events + 1) →
            (grants events bytes = true ↔ bytesUsed events + bytes.toInt ≤ maxBytesPerDomain ∧
              allocsUsed events + 1 ≤ maxAllocsPerDomain))

/-- The steps that keep the budgets apart: a charged acquire under a running
budget is of no negative size, finds no entry at its address and makes no counter
overflow, a release takes back no block acquired before the last reset of its domain,
a reset finds no allocation counted, and the default domain is not replaced once its
counters have been reset. -/
def KeepsBudget (s : MemoryBudget) : HostOp → Prop
  | .onMemoryAcquire thread bytes address =>
      ∀ domain ∈ s.host.chargedDomain thread, s.running domain ≠ none →
        0 ≤ bytes ∧ s.host.memoryAppDomain.lookup address = none ∧
          ∀ used ∈ s.host.memoryRecord domain,
            LONG.InRange (used.1 + bytes) ∧ LONG.InRange (used.2 + 1)
  | .onMemoryRelease address =>
      ∀ memoryInfo ∈ s.host.releasedEntry address,
        ∀ events ∈ s.running memoryInfo.appDomainId, address ∈ outstanding events
  | .rawResetCountersForAppDomain domain =>
      domain ≠ s.host.defaultDomainId → ∀ used ∈ s.host.memoryRecord domain, used.2 = 0
  | .onDomainCreate domain _ _ _ =>
      s.host.defaultDomainManager = none → domain ≠ s.host.defaultDomainId →
        s.events s.host.defaultDomainId = none
  | _ => True

instance (s : MemoryBudget) (op : HostOp) : Decidable (s.KeepsBudget op) :=
  match op with
  -- the domain is looked up: the finite type `DWORD` is too large to go through
  | .onMemoryAcquire .. => @Option.decidableForallMem _ _ (fun _ =>
      @instDecidableForall _ _ _ (@instDecidableAnd _ _ _
        (@instDecidableAnd _ _ _ (Option.decidableForallMem _)))) _
  | .onMemoryRelease .. => inferInstanceAs (Decidable (∀ _ ∈ _, ∀ _ ∈ _, _ ∈ _))
  | .rawResetCountersForAppDomain .. => inferInstanceAs (Decidable (_ ≠ _ → ∀ _ ∈ _, _ = _))
  | .onDomainCreate .. => inferInstanceAs (Decidable (_ = _ → _ ≠ _ → _ = _))
  | .postHostMessage .. | .onDomainRudeUnload .. | .rawGetLastMessage .. | .onDomainUnload ..
  | .onThreadAcquiring .. | .onThreadAcquire .. | .onThreadRelease .. => isTrue trivial

/-- Under a running budget the counters are those of the record and fit in a `LONG`,
and every block of the record has its entry. -/
def Budgeted (s : MemoryBudget) : Prop :=
  ∀ domain events, s.running domain = some events →
    s.host.memoryRecord domain = some (bytesUsed events, allocsUsed events) ∧
      (∀ address bytes, (outstanding events).lookup address = some bytes →
        s.host.memoryAppDomain.lookup address = some ⟨domain, bytes⟩ ∧ 0 ≤ bytes) ∧
      bytesUsed events < 2 ^ 31 ∧ allocsUsed events < 2 ^ 31

/-- Sizes that are not negative add up to a counter that is not. -/
theorem used_nonneg {events : List BudgetEvent}
    (h : ∀ address bytes, (outstanding events).lookup address = some bytes → 0 ≤ bytes) :
    0 ≤ bytesUsed events ∧ 0 ≤ allocsUsed events :=
  ⟨StdMap.total_nonneg h, StdMap.total_nonneg (fun _ _ _ => zero_le_one)⟩

theorem inRange_of_nonneg {n : Int} (h : 0 ≤ n) (hlt : n < 2 ^ 31) : LONG.InRange n :=
  ⟨le_trans (by decide) h, hlt⟩

theorem Budgeted.budgetIsolated {s : MemoryBudget} (hs : s.Budgeted) : s.BudgetIsolated := by
  intro domain events hevents
  by_cases hlimited : s.Limited domain
  · obtain ⟨hrecord, hblocks, hbytes, hallocs⟩ :=
      hs domain events (running_eq_some.mpr ⟨hlimited, hevents⟩)
    obtain ⟨hbytes', hallocs'⟩ := used_nonneg (fun address bytes h => (hblocks address bytes h).2)
    refine ⟨?_, fun _ => ⟨hrecord, hbytes', hallocs', ?_⟩⟩
    · intro thread hthread bytes
      rw [if_pos hlimited, Win32.onMemoryAcquiring_limited hthread hlimited.1 hrecord, grants]
    · intro bytes hsum hcount
      exact grants_iff (inRange_of_nonneg hbytes' hbytes) (inRange_of_nonneg hallocs' hallocs)
        hsum hcount
  · refine ⟨?_, fun h => absurd h hlimited⟩
    intro thread hthread bytes
    rw [if_neg hlimited]
    refine Win32.onMemoryAcquiring_unlimited ?_ bytes
    rw [Option.eq_none_iff_forall_ne_some]
    intro d hcharged
    obtain ⟨hd, hdefault, hrecord⟩ := DomainData.chargedDomain_eq_some.mp hcharged
    cases hthread.symm.trans hd
    exact hlimited ⟨hdefault, hrecord⟩

theorem budgeted_initial : initial.Budgeted := by
  intro domain events hrunning
  cases (running_eq_some.mp hrunning).2

theorem Budgeted.of_sameMemory {s next : MemoryBudget} (hs : s.Budgeted)
    (hsame : s.host.toDomainData.SameMemory next.host.toDomainData)
    (hevents : next.events = s.events) : next.Budgeted := by
  intro domain events hrunning
  obtain ⟨⟨hdefault, hpresent⟩, hrecorded⟩ := running_eq_some.mp hrunning
  obtain ⟨used, hused⟩ := Option.ne_none_iff_exists'.mp hpresent
  have hold := hsame.records domain used hused
  rw [hsame.default] at hdefault
  rw [hevents] at hrecorded
  rw [hused, hsame.entries, ← hold]
  exact hs domain events (running_eq_some.mpr ⟨⟨hdefault, by simp [hold]⟩, hrecorded⟩)

theorem Budgeted.acquire {s next : MemoryBudget} {thread : DWORD} {bytes : LONG}
    {address : PVOID} (hs : s.Budgeted)
    (hkeeps : s.KeepsBudget (.onMemoryAcquire thread bytes address))
    (hhost : next.host.toDomainData =
      Win32.onMemoryAcquire thread bytes address s.host.toDomainData)
    (hevents : next.events = s.track (.onMemoryAcquire thread bytes address)) :
    next.Budgeted := by
  intro domain events hrunning
  obtain ⟨⟨hdefault, hpresent⟩, hrecorded⟩ := running_eq_some.mp hrunning
  rw [hhost, Ne, (Win32.acquire_exact s.host.toDomainData thread bytes address).2.2] at hpresent
  simp only [hevents, track] at hrecorded
  cases hcharged : s.host.chargedDomain thread with
  | none =>
      rw [Win32.onMemoryAcquire_uncharged hcharged] at hhost
      rw [hhost] at hdefault ⊢
      split at hrecorded
      next hthread =>
        have hsome := DomainData.chargedDomain_eq_some.mpr ⟨hthread, hdefault, hpresent⟩
        rw [hcharged] at hsome
        cases hsome
      next => exact hs domain events (running_eq_some.mpr ⟨⟨hdefault, hpresent⟩, hrecorded⟩)
  | some owner =>
      obtain ⟨howner, -, -⟩ := DomainData.chargedDomain_eq_some.mp hcharged
      have hrecords := Win32.memoryRecord_acquire hcharged bytes address domain
      rw [← hhost] at hrecords
      rw [Win32.onMemoryAcquire_charged hcharged] at hhost
      have hentries : next.host.memoryAppDomain =
          s.host.memoryAppDomain.insertNew address ⟨owner, bytes⟩ := by rw [hhost]
      have hdefaults : next.host.defaultDomainId = s.host.defaultDomainId := by rw [hhost]
      rw [hdefaults] at hdefault
      rw [hrecords, hentries]
      rw [howner] at hrecorded
      split at hrecorded
      next heq =>
        -- the block joins the record of its domain
        cases heq
        obtain ⟨old, hold, rfl⟩ := Option.map_eq_some_iff.mp hrecorded
        have hrun : s.running domain = some old :=
          running_eq_some.mpr ⟨⟨hdefault, hpresent⟩, hold⟩
        obtain ⟨hrecord, hblocks, -⟩ := hs domain old hrun
        obtain ⟨hsize, hnone, hroom⟩ := hkeeps domain hcharged (by simp [hrun])
        obtain ⟨hsum, hcount⟩ := hroom _ hrecord
        have hnew : (outstanding old).lookup address = none := by
          rw [Option.eq_none_iff_forall_ne_some]
          intro n hn
          have hentry := (hblocks address n hn).1
          rw [hnone] at hentry
          cases hentry
        obtain ⟨hbytes, hallocs⟩ := used_acquired hnew bytes
        refine ⟨?_, ?_, hbytes ▸ hsum.2, hallocs ▸ hcount.2⟩
        · rw [if_pos rfl, hrecord, hbytes, hallocs, Option.map_some,
            LONG.wrap_of_inRange hsum, LONG.wrap_of_inRange hcount]
        · intro a n hlookup
          rw [outstanding_concat, apply, StdMap.lookup_set] at hlookup
          rw [StdMap.lookup_insertNew_of_none hnone]
          split at hlookup
          next ha =>
            cases hlookup
            exact ⟨if_pos ha, hsize⟩
          next ha =>
            rw [if_neg ha]
            exact hblocks a n hlookup
      next hne =>
        have hother : domain ≠ owner := by
          rintro rfl
          exact hne rfl
        obtain ⟨hrecord, hblocks, hbounds⟩ :=
          hs domain events (running_eq_some.mpr ⟨⟨hdefault, hpresent⟩, hrecorded⟩)
        refine ⟨by rw [if_neg hother, hrecord], ?_, hbounds⟩
        intro a n hlookup
        obtain ⟨hentry, hn⟩ := hblocks a n hlookup
        refine ⟨?_, hn⟩
        rw [StdMap.lookup_insertNew, if_neg, hentry]
        rintro ⟨rfl, hnone⟩
        rw [hnone] at hentry
        cases hentry

theorem Budgeted.release {s next : MemoryBudget} {address : PVOID} (hs : s.Budgeted)
    (hcurrent : s.KeepsBudget (.onMemoryRelease address))
    (hhost : next.host.toDomainData = (Win32.onMemoryRelease address s.host.toDomainData).1)
    (hevents : next.events = s.track (.onMemoryRelease address)) : next.Budgeted := by
  intro domain events hrunning
  obtain ⟨⟨hdefault, hpresent⟩, hrecorded⟩ := running_eq_some.mp hrunning
  rw [hhost, Ne, (Win32.release_exact s.host.toDomainData address).2.2] at hpresent
  simp only [hevents, track] at hrecorded
  obtain ⟨old, hold, rfl⟩ := Option.map_eq_some_iff.mp hrecorded
  cases hreleased : s.host.releasedEntry address with
  | none =>
      rw [Win32.onMemoryRelease_kept hreleased] at hhost
      rw [hhost] at hdefault ⊢
      obtain ⟨hrecord, hblocks, hbounds⟩ :=
        hs domain old (running_eq_some.mpr ⟨⟨hdefault, hpresent⟩, hold⟩)
      have hnot : address ∉ outstanding old := by
        intro hmem
        obtain ⟨n, hn⟩ := Finmap.mem_iff.mp hmem
        have hsome := DomainData.releasedEntry_eq_some.mpr
          ⟨(hblocks address n hn).1, hpresent⟩
        rw [hreleased] at hsome
        cases hsome
      rw [recordRelease, if_neg hnot]
      exact ⟨hrecord, hblocks, hbounds⟩
  | some memoryInfo =>
      obtain ⟨hentry, -⟩ := DomainData.releasedEntry_eq_some.mp hreleased
      have hrecords := Win32.memoryRecord_release hreleased domain
      rw [← hhost] at hrecords
      rw [Win32.onMemoryRelease_released hreleased] at hhost
      have hentries : next.host.memoryAppDomain =
          s.host.memoryAppDomain.remove address := by rw [hhost]
      have hdefaults : next.host.defaultDomainId = s.host.defaultDomainId := by rw [hhost]
      rw [hdefaults] at hdefault
      have hrun : s.running domain = some old :=
        running_eq_some.mpr ⟨⟨hdefault, hpresent⟩, hold⟩
      obtain ⟨hrecord, hblocks, hbounds⟩ := hs domain old hrun
      rw [hrecords, hentries]
      by_cases hdomain : domain = memoryInfo.appDomainId
      · have hmem := hcurrent memoryInfo hreleased old (hdomain ▸ hrun)
        obtain ⟨n, hn⟩ := Finmap.mem_iff.mp hmem
        have hsize : memoryInfo = ⟨domain, n⟩ :=
          Option.some.inj (hentry.symm.trans (hblocks address n hn).1)
        obtain ⟨hbytes, hallocs⟩ := used_released hn
        have hleft : ∀ a m, (outstanding (old ++ [.released address])).lookup a = some m →
            a ≠ address ∧ (outstanding old).lookup a = some m := by
          intro a m hlookup
          rw [outstanding_concat, apply, StdMap.lookup_remove] at hlookup
          split at hlookup
          next => cases hlookup
          next ha => exact ⟨ha, hlookup⟩
        -- what is left of the record is neither negative nor more than it was
        obtain ⟨hbytes', hallocs'⟩ :=
          used_nonneg (fun a m h => (hblocks a m (hleft a m h).2).2)
        have hfits : LONG.InRange (bytesUsed old - n) ∧ LONG.InRange (allocsUsed old - 1) := by
          have hn' := (hblocks address n hn).2
          rw [hbytes] at hbytes'
          rw [hallocs] at hallocs'
          exact ⟨inRange_of_nonneg hbytes' (by linarith [hbounds.1]),
            inRange_of_nonneg hallocs' (by linarith [hbounds.2])⟩
        rw [recordRelease, if_pos hmem, hsize]
        refine ⟨?_, ?_, hbytes ▸ hfits.1.2, hallocs ▸ hfits.2.2⟩
        · rw [if_pos rfl, hrecord, hbytes, hallocs, Option.map_some,
            LONG.wrap_of_inRange hfits.1, LONG.wrap_of_inRange hfits.2]
        · intro a m hlookup
          obtain ⟨ha, hlookup⟩ := hleft a m hlookup
          rw [StdMap.lookup_remove, if_neg ha]
          exact hblocks a m hlookup
      · have hother : ∀ a n, (outstanding old).lookup a = some n → a ≠ address := by
          rintro a n hn rfl
          have heq := hentry.symm.trans (hblocks a n hn).1
          cases heq
          exact hdomain rfl
        have hnot : address ∉ outstanding old := by
          intro hmem
          obtain ⟨n, hn⟩ := Finmap.mem_iff.mp hmem
          exact hother address n hn rfl
        rw [recordRelease, if_neg hnot, if_neg hdomain]
        refine ⟨hrecord, ?_, hbounds⟩
        intro a n hn
        rw [StdMap.lookup_remove, if_neg (hother a n hn)]
        exact hblocks a n hn

theorem Budgeted.reset {s next : MemoryBudget} {domain : DWORD} (hs : s.Budgeted)
    (hzero : s.KeepsBudget (.rawResetCountersForAppDomain domain))
    (hhost : next.host.toDomainData = s.host.toDomainData.rawResetCountersForAppDomain domain)
    (hevents : next.events = s.track (.rawResetCountersForAppDomain domain)) :
    next.Budgeted := by
  intro d events hrunning
  obtain ⟨⟨hdefault, hpresent⟩, hrecorded⟩ := running_eq_some.mp hrunning
  have hrecords := DomainData.memoryRecord_reset s.host.toDomainData domain d
  rw [← hhost] at hrecords
  have hentries : next.host.memoryAppDomain = s.host.memoryAppDomain := by rw [hhost]; rfl
  have hdefaults : next.host.defaultDomainId = s.host.defaultDomainId := by rw [hhost]; rfl
  rw [hdefaults] at hdefault
  simp only [hevents, track] at hrecorded
  rw [hrecords] at hpresent ⊢
  rw [hentries]
  by_cases hd : d = domain
  · subst hd
    rw [if_pos rfl] at hrecorded hpresent ⊢
    cases hrecorded
    obtain ⟨used, hused⟩ := Option.ne_none_iff_exists'.mp (by simpa using hpresent)
    refine ⟨?_, ?_, by decide, by decide⟩
    · simp [hused, hzero hdefault used hused, bytesUsed, allocsUsed]
    · intro address bytes hlookup
      cases hlookup
  · rw [if_neg hd] at hrecorded hpresent ⊢
    exact hs d events (running_eq_some.mpr ⟨⟨hdefault, hpresent⟩, hrecorded⟩)

theorem Budgeted.create {s next : MemoryBudget} {domain thread : DWORD}
    {manager : Option DomainManager} {uninitialised : LONG} (hs : s.Budgeted)
    (hreplaced : s.KeepsBudget (.onDomainCreate domain thread manager uninitialised))
    (hhost : s.host.toDomainData.onDomainCreate domain thread manager uninitialised =
      .ok next.host.toDomainData)
    (hevents : next.events = s.track (.onDomainCreate domain thread manager uninitialised)) :
    next.Budgeted := by
  intro d events hrunning
  obtain ⟨⟨hdefault, hpresent⟩, hrecorded⟩ := running_eq_some.mp hrunning
  have hrecords := DomainData.memoryRecord_create hhost d
  simp only [hevents, track] at hrecorded
  rw [hrecords] at hpresent ⊢
  rw [(DomainData.onDomainCreate_ok hhost).1]
  split at hrecorded
  next => cases hrecorded
  next hold =>
    rw [if_neg hold] at hpresent ⊢
    have hdefault' : d ≠ s.host.defaultDomainId := by
      rintro rfl
      rw [DomainData.onDomainCreate_default hhost] at hdefault
      cases hmanager : s.host.defaultDomainManager with
      | none =>
          rw [hmanager, Option.isNone_none, if_pos rfl] at hdefault
          rw [hreplaced hmanager hdefault.symm] at hrecorded
          cases hrecorded
      | some old =>
          rw [hmanager, Option.isNone_some, if_neg Bool.false_ne_true] at hdefault
          exact hdefault rfl
    exact hs d events (running_eq_some.mpr ⟨⟨hdefault', hpresent⟩, hrecorded⟩)

theorem step_budgeted (s : MemoryBudget) (op : HostOp) (next : MemoryBudget)
    (hs : s.Budgeted) (hkeeps : s.KeepsBudget op) (h : s.step op = .ok next) :
    next.Budgeted := by
  obtain ⟨hhost, hevents⟩ := step_ok h
  cases op with
  | onMemoryAcquire thread bytes address =>
      exact hs.acquire hkeeps (by rw [← Except.ok.inj hhost]) hevents
  | onMemoryRelease address => exact hs.release hkeeps (by rw [← Except.ok.inj hhost]) hevents
  | rawResetCountersForAppDomain domain =>
      exact hs.reset hkeeps (by rw [← Except.ok.inj hhost]) hevents
  | onDomainCreate domain thread manager uninitialised =>
      obtain ⟨c, hcall, hnext⟩ := HostContext.withDomainData_ok hhost
      exact hs.create hkeeps (by rw [hnext, hcall]) hevents
  | postHostMessage | onDomainRudeUnload | rawGetLastMessage | onDomainUnload
  | onThreadAcquiring | onThreadAcquire | onThreadRelease =>
      exact hs.of_sameMemory (HostContext.longStep_sameMemory hhost trivial) hevents

/-- In every run that meets the condition the answers given to a domain after a
reset follow from what was acquired since and which of these blocks have been
released. So two runs that agree on that give the same answers, whatever came
before the resets. -/
theorem budget_isolated {ops ops' : List HostOp} {s s' : MemoryBudget}
    (hcond : Meets step KeepsBudget initial ops) (hcond' : Meets step KeepsBudget initial ops')
    (hrun : run step initial ops = .ok s) (hrun' : run step initial ops' = .ok s') :
    Always step BudgetIsolated initial ops ∧
      ∀ domain events, s.events domain = some events → s'.events domain = some events →
        (s.Limited domain ↔ s'.Limited domain) → ∀ thread thread',
          s.host.threadAppDomain.lookup thread = some domain →
          s'.host.threadAppDomain.lookup thread' = some domain → ∀ bytes,
            Win32.onMemoryAcquiring thread bytes s.host.toDomainData =
              Win32.onMemoryAcquiring thread' bytes s'.host.toDomainData := by
  have halways : Always step Budgeted initial ops :=
    always_of_meets step_budgeted budgeted_initial hcond
  have halways' : Always step Budgeted initial ops' :=
    always_of_meets step_budgeted budgeted_initial hcond'
  refine ⟨halways.imp (fun s hs => hs.budgetIsolated), ?_⟩
  intro domain events hevents hevents' hlimited thread thread' hthread hthread' bytes
  have hanswer := ((halways.last hrun).budgetIsolated domain events hevents).1 thread hthread
  have hanswer' :=
    ((halways'.last hrun').budgetIsolated domain events hevents').1 thread' hthread'
  rw [hanswer, hanswer']
  simp only [hlimited]

/-- A snippet that released its block, and one that never acquired any. -/
theorem budget_isolated_second_snippet :
    ∃ s s', run step initial [.onDomainCreate 1 10 (some 0) 0, .onDomainCreate 2 20 (some 1) 0,
        .rawResetCountersForAppDomain 2, .onMemoryAcquire 20 100 4096, .onMemoryRelease 4096,
        .rawResetCountersForAppDomain 2] = .ok s ∧
      run step initial [.onDomainCreate 1 10 (some 0) 0, .onDomainCreate 2 20 (some 1) 0,
        .rawResetCountersForAppDomain 2] = .ok s' ∧
      Win32.onMemoryAcquiring 20 300 s.host.toDomainData =
        Win32.onMemoryAcquiring 20 300 s'.host.toDomainData := by
  let first : List HostOp := [.onDomainCreate 1 10 (some 0) 0, .onDomainCreate 2 20 (some 1) 0,
    .rawResetCountersForAppDomain 2, .onMemoryAcquire 20 100 4096, .onMemoryRelease 4096,
    .rawResetCountersForAppDomain 2]
  let second : List HostOp := [.onDomainCreate 1 10 (some 0) 0,
    .onDomainCreate 2 20 (some 1) 0, .rawResetCountersForAppDomain 2]
  have hruns : ∃ s s', run step initial first = .ok s ∧ run step initial second = .ok s' ∧
      s.events 2 = some [] ∧ s'.events 2 = some [] ∧ (s.Limited 2 ↔ s'.Limited 2) ∧
      s.host.threadAppDomain.lookup 20 = some 2 ∧
      s'.host.threadAppDomain.lookup 20 = some 2 :=
    ⟨_, _, rfl, rfl, by decide, by decide, by decide, by decide, by decide⟩
  obtain ⟨s, s', hrun, hrun', hevents, hevents', hlimited, hthread, hthread'⟩ := hruns
  refine ⟨s, s', hrun, hrun', ?_⟩
  exact (budget_isolated (by decide) (by decide) hrun hrun').2
    2 [] hevents hevents' hlimited 20 20 hthread hthread' 300

/-- A block of the last snippet is released after the reset, or it is not: the
snippet that runs now is granted more than its budget, or it is refused. -/
theorem late_release_raises_budget :
    ¬ ∀ ops ops' s s', run step initial ops = .ok s → run step initial ops' = .ok s' →
      ∀ domain events, s.events domain = some events → s'.events domain = some events →
        (s.Limited domain ↔ s'.Limited domain) → ∀ thread,
          s.host.threadAppDomain.lookup thread = some domain →
          s'.host.threadAppDomain.lookup thread = some domain → ∀ bytes,
            Win32.onMemoryAcquiring thread bytes s.host.toDomainData =
              Win32.onMemoryAcquiring thread bytes s'.host.toDomainData := by
  intro hall
  let ops : List HostOp := [.onDomainCreate 1 10 (some 0) 0, .onDomainCreate 2 20 (some 1) 0,
    .onMemoryAcquire 20 100 4096, .rawResetCountersForAppDomain 2]
  have hruns : ∃ s s', run step initial ops = .ok s ∧
      run step initial (ops ++ [.onMemoryRelease 4096]) = .ok s' ∧
      s.events 2 = some [] ∧ s'.events 2 = some [] ∧ (s.Limited 2 ↔ s'.Limited 2) ∧
      s.host.threadAppDomain.lookup 20 = some 2 ∧
      s'.host.threadAppDomain.lookup 20 = some 2 ∧
      Win32.onMemoryAcquiring 20 10485761 s.host.toDomainData = false ∧
      Win32.onMemoryAcquiring 20 10485761 s'.host.toDomainData = true :=
    ⟨_, _, rfl, rfl, by decide, by decide, by decide, by decide, by decide, by decide,
      by decide⟩
  obtain ⟨s, s', hrun, hrun', hevents, hevents', hlimited, hthread, hthread', hno, hyes⟩ := hruns
  have hsame := hall _ _ s s' hrun hrun' 2 [] hevents hevents' hlimited 20 hthread hthread'
    10485761
  rw [hno, hyes] at hsame
  cases hsame

end MemoryBudget

end HostedPumpkin
