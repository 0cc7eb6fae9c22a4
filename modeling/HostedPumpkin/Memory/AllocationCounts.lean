import HostedPumpkin.Host.MemoryRecords
import HostedPumpkin.Threading.ThreadCap

/-!
The number of allocations of a domain. `allocsInAppDomain` goes up and down with
the entries the domain has in `memoryAppDomain`, and the second limit of
`OnMemoryAcquiring` is put to it. Its first value is what the memory of the new
record held, so the count is right, and a refusal deserved, exactly in the runs
in which every domain that is created happens to find the right number there.
-/

namespace HostedPumpkin

open Runs

namespace DomainData

/-- Every domain but the default one counts its entries. -/
def AllocsCounted (c : DomainData) : Prop :=
  ∀ domain info, c.appDomains.lookup domain = some info → domain ≠ c.defaultDomainId →
    info.allocsInAppDomain = (c.chargedAt domain).card

/-- A thread is refused for the number of allocations only in a domain that
holds that many blocks. -/
def RefusalsDeserved (c : DomainData) : Prop :=
  ∀ thread domain info, c.threadAppDomain.lookup thread = some domain →
    domain ≠ c.defaultDomainId → c.appDomains.lookup domain = some info →
      info.allocsInAppDomain + 1 > maxAllocsPerDomain →
        maxAllocsPerDomain ≤ (c.chargedAt domain).card

theorem AllocsCounted.refusalsDeserved {c : DomainData} (hc : c.AllocsCounted) :
    c.RefusalsDeserved := by
  intro thread domain info _ hdefault hinfo hrefused
  rw [← hc domain info hinfo hdefault]
  exact Int.lt_add_one_iff.mp hrefused

theorem allocsCounted_iff {c : DomainData} :
    c.AllocsCounted ↔ ∀ domain used, c.memoryRecord domain = some used →
      domain ≠ c.defaultDomainId → used.2 = (c.chargedAt domain).card := by
  constructor
  · intro hc domain used hrecord hdefault
    obtain ⟨info, hinfo, rfl⟩ := Option.map_eq_some_iff.mp hrecord
    exact hc domain info hinfo hdefault
  · intro hc domain info hinfo hdefault
    exact hc domain _ (memoryRecord_of_lookup hinfo) hdefault

theorem chargedAt_eq {c next : DomainData} (h : next.memoryAppDomain = c.memoryAppDomain)
    (domain : DWORD) : next.chargedAt domain = c.chargedAt domain := by
  simp only [chargedAt, h]

/-- A charge that finds no entry at its address adds one to its domain. -/
theorem chargedAt_acquire_fresh {c : DomainData} {thread owner : DWORD} {address : PVOID}
    (hcharged : c.chargedDomain thread = some owner)
    (hnone : c.memoryAppDomain.lookup address = none) (bytes : LONG) (domain : DWORD) :
    (c.onMemoryAcquire thread bytes address).chargedAt domain =
      if domain = owner then insert address (c.chargedAt domain) else c.chargedAt domain := by
  ext a
  rw [mem_chargedAt]
  simp only [entries_acquire, hnone, hcharged, Option.map_some, and_true]
  by_cases ha : a = address
  · subst ha
    by_cases howner : domain = owner
    · simp [howner]
    · simp [howner, Ne.symm howner, hnone]
  · by_cases howner : domain = owner
    · simp [ha, howner]
    · simp [ha, howner]

theorem chargedAt_acquire_present {c : DomainData} {address : PVOID}
    (hsome : c.memoryAppDomain.lookup address ≠ none) (thread : DWORD) (bytes : LONG)
    (domain : DWORD) :
    (c.onMemoryAcquire thread bytes address).chargedAt domain = c.chargedAt domain := by
  refine chargedAt_eq ?_ domain
  refine Finmap.ext_lookup ?_
  intro a
  rw [entries_acquire, if_neg (fun h => hsome h.2)]

/-- A release that takes an entry back takes it from its domain. -/
theorem chargedAt_released {c : DomainData} {address : PVOID} {memoryInfo : MemoryInfo}
    (h : c.releasedEntry address = some memoryInfo) (domain : DWORD) :
    (c.onMemoryRelease address).1.chargedAt domain = (c.chargedAt domain).erase address := by
  ext a
  rw [Finset.mem_erase, mem_chargedAt, mem_chargedAt, onMemoryRelease_released h]
  simp only [StdMap.lookup_remove_eq_some]
  tauto

/-- What the creation of a domain must find for the counts to be right after
it. The memory of a new record holds the number of entries left under its
domain's id; where the created domain becomes the default one, the domain that
was taken for it is counted right instead. -/
def CreatesCounted (c : DomainData) (domain : DWORD) (uninitialised : LONG) : Prop :=
  if c.defaultDomainManager.isNone then
    domain ≠ c.defaultDomainId → ∀ used ∈ c.memoryRecord c.defaultDomainId,
      used.2 = (c.chargedAt c.defaultDomainId).card
  else
    domain ≠ c.defaultDomainId → c.memoryRecord domain = none →
      uninitialised = (c.chargedAt domain).card

theorem onDomainCreate_allocsCounted_iff {c next : DomainData} {domain thread : DWORD}
    {manager : Option DomainManager} {uninitialised : LONG} (hc : c.AllocsCounted)
    (h : c.onDomainCreate domain thread manager uninitialised = .ok next) :
    next.AllocsCounted ↔ c.CreatesCounted domain uninitialised := by
  have hdefault := onDomainCreate_default h
  have hrecord := memoryRecord_create h
  have hcharged := chargedAt_eq (onDomainCreate_ok h).1
  rw [allocsCounted_iff] at hc
  simp only [allocsCounted_iff, hrecord, hcharged]
  by_cases hmanager : c.defaultDomainManager.isNone
  · rw [if_pos hmanager] at hdefault
    rw [CreatesCounted, if_pos hmanager, hdefault]
    constructor
    · intro hnext hne used hused
      refine hnext c.defaultDomainId used ?_ (Ne.symm hne)
      rw [if_neg (fun hcond => hne hcond.1.symm)]
      exact hused
    · intro hold d used hused hd
      rw [if_neg (fun hcond => hd hcond.1)] at hused
      by_cases hsame : d = c.defaultDomainId
      · subst hsame
        exact hold (Ne.symm hd) used hused
      · exact hc d used hused hsame
  · rw [if_neg hmanager] at hdefault
    rw [CreatesCounted, if_neg hmanager, hdefault]
    constructor
    · intro hnext hne hnone
      exact hnext domain (0, uninitialised) (if_pos ⟨rfl, hnone⟩) hne
    · intro hnew d used hused hd
      split at hused
      next hcond =>
        obtain ⟨rfl, hnone⟩ := hcond
        cases hused
        exact hnew hd hnone
      next => exact hc d used hused hd

theorem onMemoryAcquire_allocsCounted_iff {c : DomainData} (hc : c.AllocsCounted)
    (thread : DWORD) (bytes : LONG) (address : PVOID) :
    (c.onMemoryAcquire thread bytes address).AllocsCounted ↔
      (c.chargedDomain thread ≠ none → c.memoryAppDomain.lookup address = none) := by
  cases hcharged : c.chargedDomain thread with
  | none => simp [onMemoryAcquire_uncharged hcharged, hc]
  | some owner =>
      obtain ⟨-, howner, hpresent⟩ := chargedDomain_eq_some.mp hcharged
      obtain ⟨used, hused⟩ := Option.ne_none_iff_exists'.mp hpresent
      rw [allocsCounted_iff] at hc
      have hcount := hc owner used hused howner
      have hdefault := onMemoryAcquire_default c thread bytes address
      have hrecord := memoryRecord_acquire hcharged bytes address
      simp only [allocsCounted_iff, hrecord, hdefault]
      constructor
      · intro hnext _
        by_contra hsome
        -- the counter goes up, the entry stays another's
        have hraised := hnext owner (used.1 + bytes, used.2 + 1)
          (by rw [if_pos rfl, hused]; rfl) howner
        rw [chargedAt_acquire_present hsome, ← hcount] at hraised
        exact absurd hraised (by simp)
      · intro hfresh d used' hused' hd
        have hnone := hfresh (by simp)
        rw [chargedAt_acquire_fresh hcharged hnone]
        split at hused'
        next heq =>
          subst heq
          rw [hused] at hused'
          cases hused'
          have hnotMem : address ∉ c.chargedAt d := by
            intro hmem
            obtain ⟨memoryInfo, hentry, -⟩ := mem_chargedAt.mp hmem
            rw [hnone] at hentry
            cases hentry
          rw [if_pos rfl, Finset.card_insert_of_notMem hnotMem, Nat.cast_succ, ← hcount]
        next hne =>
          rw [if_neg hne]
          exact hc d used' hused' hd

theorem AllocsCounted.release {c : DomainData} (hc : c.AllocsCounted) (address : PVOID) :
    (c.onMemoryRelease address).1.AllocsCounted := by
  cases hreleased : c.releasedEntry address with
  | none =>
      rw [onMemoryRelease_kept hreleased]
      exact hc
  | some memoryInfo =>
      obtain ⟨hentry, -⟩ := releasedEntry_eq_some.mp hreleased
      rw [allocsCounted_iff] at hc ⊢
      intro d used hused hd
      rw [onMemoryRelease_default] at hd
      rw [memoryRecord_release hreleased] at hused
      rw [chargedAt_released hreleased]
      split at hused
      next heq =>
        obtain ⟨old, hold, rfl⟩ := Option.map_eq_some_iff.mp hused
        rw [← heq] at hold
        have hmem : address ∈ c.chargedAt d :=
          mem_chargedAt.mpr ⟨memoryInfo, hentry, heq.symm⟩
        rw [Finset.card_erase_of_mem hmem, Nat.cast_pred (Finset.card_pos.mpr ⟨address, hmem⟩),
          ← hc d old hold hd]
      next hne =>
        have hnotMem : address ∉ c.chargedAt d := by
          intro hmem
          obtain ⟨info, hinfo, howner⟩ := mem_chargedAt.mp hmem
          rw [hentry] at hinfo
          cases hinfo
          exact hne howner.symm
        rw [Finset.erase_eq_of_notMem hnotMem]
        exact hc d used hused hd

theorem AllocsCounted.reset {c : DomainData} (hc : c.AllocsCounted) (domain : DWORD) :
    (c.rawResetCountersForAppDomain domain).AllocsCounted := by
  rw [allocsCounted_iff] at hc ⊢
  intro d used hused hd
  rw [memoryRecord_reset] at hused
  split at hused
  next heq =>
    subst heq
    obtain ⟨old, hold, rfl⟩ := Option.map_eq_some_iff.mp hused
    exact hc d old hold hd
  next => exact hc d used hused hd

theorem AllocsCounted.of_sameMemory {c next : DomainData} (hc : c.AllocsCounted)
    (hsame : c.SameMemory next) : next.AllocsCounted := by
  rw [allocsCounted_iff] at hc ⊢
  intro d used hused hd
  rw [hsame.default] at hd
  rw [chargedAt_eq hsame.entries]
  exact hc d used (hsame.records d used hused) hd

end DomainData

namespace HostContext

/-- The counts are right, and with them the refusals. -/
def NoSpuriousRefusal (s : HostContext) : Prop :=
  s.toDomainData.AllocsCounted ∧ s.toDomainData.RefusalsDeserved

theorem noSpuriousRefusal_iff {s : HostContext} :
    s.NoSpuriousRefusal ↔ s.toDomainData.AllocsCounted :=
  ⟨fun h => h.1, fun h => ⟨h, h.refusalsDeserved⟩⟩

/-- The steps that keep the counts right: a domain whose creation does not throw
finds the number it needs, and a charge finds no entry at its address. -/
def KeepsCount (s : HostContext) : HostOp → Prop
  | .onDomainCreate domain thread _ uninitialised =>
      ¬ s.toDomainData.CreateThrows domain thread →
        s.toDomainData.CreatesCounted domain uninitialised
  | .onMemoryAcquire thread _ address =>
      s.chargedDomain thread ≠ none → s.memoryAppDomain.lookup address = none
  | _ => True

theorem step_noSpuriousRefusal_iff (s : HostContext) (op : HostOp)
    (hs : s.NoSpuriousRefusal) :
    s.KeepsCount op ↔ ∀ next, s.step op = .ok next → next.NoSpuriousRefusal := by
  simp only [noSpuriousRefusal_iff] at hs ⊢
  cases op with
  | onDomainCreate domain thread manager uninitialised =>
      constructor
      · intro hcond next h
        obtain ⟨c, hcall, rfl⟩ := withDomainData_ok h
        exact (DomainData.onDomainCreate_allocsCounted_iff hs hcall).mpr
          (hcond (DomainData.not_createThrows hcall))
      · intro hnext hthrows
        obtain ⟨c, hcall⟩ :=
          DomainData.onDomainCreate_ok_of_not_throws hthrows manager uninitialised
        refine (DomainData.onDomainCreate_allocsCounted_iff hs hcall).mp ?_
        exact hnext { s with toDomainData := c } (by simp [step, withDomainData, hcall])
  | onMemoryAcquire thread bytes address =>
      rw [KeepsCount, ← DomainData.onMemoryAcquire_allocsCounted_iff hs thread bytes address]
      constructor
      · rintro hcounted next ⟨⟩
        exact hcounted
      · intro hnext
        exact hnext _ rfl
  | onMemoryRelease address =>
      simp only [KeepsCount, true_iff]
      rintro next ⟨⟩
      exact hs.release address
  | rawResetCountersForAppDomain domain =>
      simp only [KeepsCount, true_iff]
      rintro next ⟨⟩
      exact hs.reset domain
  | postHostMessage | rawGetLastMessage | onDomainUnload | onDomainRudeUnload
  | onThreadAcquiring | onThreadAcquire | onThreadRelease =>
      simp only [KeepsCount, true_iff]
      intro next h
      exact hs.of_sameMemory (step_sameMemory h trivial)

/-- The counts are right throughout a run, if and only if every domain created in
it finds the right number in the memory of its record and no charge meets an
entry at its address. -/
theorem no_spurious_refusal_iff (ops : List HostOp) :
    Always step NoSpuriousRefusal initial ops ↔ Meets step KeepsCount initial ops := by
  refine always_iff_meets step_noSpuriousRefusal_iff ?_
  rw [noSpuriousRefusal_iff]
  rintro domain info ⟨⟩

/-- The memory of domain 2's record held 1000. -/
def uninitialisedCount : List HostOp :=
  [.onDomainCreate 1 10 (some 0) 0, .onDomainCreate 2 20 (some 1) 1000]

/-- Its first request of one byte is refused. -/
theorem first_allocation_refused :
    (∃ s, run step initial uninitialisedCount = .ok s ∧
      s.onMemoryAcquiring 20 1 = false ∧ s.chargedAt 2 = ∅) ∧
    ¬ ∀ ops, Always step NoSpuriousRefusal initial ops := by
  have hrun : Reaches step (fun s => s.onMemoryAcquiring 20 1 = false ∧ s.chargedAt 2 = ∅ ∧
      (2 : DWORD) ≠ s.defaultDomainId ∧ s.memoryRecord 2 = some (0, 1000))
      initial uninitialisedCount := by decide
  obtain ⟨s, hrun, hrefused, hnone, hdefault, hrecord⟩ := reaches_iff.mp hrun
  refine ⟨⟨s, hrun, hrefused, hnone⟩, ?_⟩
  intro hall
  have hcounted := DomainData.allocsCounted_iff.mp ((hall uninitialisedCount).last hrun).1
  have hzero := hcounted 2 (0, 1000) hrecord hdefault
  rw [hnone] at hzero
  cases hzero

end HostContext

end HostedPumpkin
