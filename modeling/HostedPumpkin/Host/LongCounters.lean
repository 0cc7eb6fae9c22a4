import HostedPumpkin.Host.MemoryRecords

/-!
The memory counters as the Win32 build keeps them. `bytesInAppDomain` and
`allocsInAppDomain` are `LONG`s: a sum or a difference that does not fit is taken
modulo `2 ^ 32`, in `OnMemoryAcquire` and `OnMemoryRelease` as in the limit tests of
`OnMemoryAcquiring`. Every other operation is that of the exact model, from which
these two differ in nothing but the counters, and there only by a multiple of
`2 ^ 32`.
-/

namespace HostedPumpkin

namespace LONG

/-- What a `LONG` keeps of an exact number. -/
def wrap (n : Int) : LONG := n.bmod (2 ^ 32)

/-- The numbers a `LONG` can hold. -/
def InRange (n : Int) : Prop := -2 ^ 31 ≤ n ∧ n < 2 ^ 31

instance (n : Int) : Decidable (InRange n) := inferInstanceAs (Decidable (_ ∧ _))

theorem inRange_wrap (n : Int) : InRange (wrap n) := by
  simp only [InRange, wrap]
  have hle := Int.le_bmod (x := n) (m := 2 ^ 32) (by decide)
  have hlt := Int.bmod_lt (x := n) (m := 2 ^ 32) (by decide)
  omega

theorem wrap_of_inRange {n : Int} (h : InRange n) : wrap n = n := by
  simp only [InRange] at h
  have hbmod : n.bmod (2 ^ 32) = n := by
    rw [Int.bmod_eq_emod]
    split <;> omega
  exact hbmod

/-- To add and then to take away the same restores a counter, whether the sum fits or
not. -/
theorem wrap_add_sub {n : Int} (h : InRange n) (m : Int) : wrap (wrap (n + m) - m) = n := by
  rw [wrap, wrap, Int.bmod_sub_bmod, add_sub_cancel_right]
  exact wrap_of_inRange h

end LONG

namespace Win32

/-- The byte test, on the counter of the record and the request as a `LONG`. -/
def aboveByteLimit (bytesInAppDomain bytes : Int32) : Bool :=
  bytesInAppDomain + bytes > Int32.ofInt maxBytesPerDomain

def aboveAllocLimit (allocsInAppDomain : Int32) : Bool :=
  allocsInAppDomain + 1 > Int32.ofInt maxAllocsPerDomain

/-- `OnMemoryAcquiring` with the counters of the record kept in 32 bits. -/
def onMemoryAcquiring (dwThreadId : DWORD) (bytes : Int32) (c : DomainData) : Bool :=
  match c.threadAppDomain.lookup dwThreadId with
  | none => true
  | some appDomainId =>
      if appDomainId = c.defaultDomainId then true
      else
        match c.appDomains.lookup appDomainId with
        | none => true
        | some appDomainInfo =>
            if aboveByteLimit (Int32.ofInt appDomainInfo.bytesInAppDomain) bytes then false
            else if aboveAllocLimit (Int32.ofInt appDomainInfo.allocsInAppDomain) then false
            else true

def onMemoryAcquire (dwThreadId : DWORD) (bytes : LONG) (address : PVOID)
    (c : DomainData) : DomainData :=
  match c.threadAppDomain.lookup dwThreadId with
  | none => c
  | some appDomainId =>
      if appDomainId = c.defaultDomainId then c
      else
        match c.appDomains.lookup appDomainId with
        | none => c
        | some _ =>
            { c with
              appDomains := c.appDomains.modify appDomainId (fun appDomainInfo =>
                { appDomainInfo with
                  bytesInAppDomain := LONG.wrap (appDomainInfo.bytesInAppDomain + bytes)
                  allocsInAppDomain := LONG.wrap (appDomainInfo.allocsInAppDomain + 1) })
              memoryAppDomain := c.memoryAppDomain.insertNew address ⟨appDomainId, bytes⟩ }

/-- The size in an entry is a `DWORD`; taken away from a `LONG`, it is worth what the
`LONG` it came from is worth. -/
def onMemoryRelease (address : PVOID) (c : DomainData) : DomainData × LONG :=
  match c.memoryAppDomain.lookup address with
  | none => (c, 0)
  | some memoryInfo =>
      match c.appDomains.lookup memoryInfo.appDomainId with
      | none => (c, 0)
      | some _ =>
          ({ c with
            appDomains := c.appDomains.modify memoryInfo.appDomainId (fun appDomainInfo =>
              { appDomainInfo with
                bytesInAppDomain := LONG.wrap (appDomainInfo.bytesInAppDomain - memoryInfo.dwBytes)
                allocsInAppDomain := LONG.wrap (appDomainInfo.allocsInAppDomain - 1) })
            memoryAppDomain := c.memoryAppDomain.remove address }, memoryInfo.dwBytes)

theorem aboveByteLimit_iff (bytesInAppDomain bytes : Int32) :
    aboveByteLimit bytesInAppDomain bytes = true ↔
      (bytesInAppDomain.toInt + bytes.toInt).bmod (2 ^ 32) > maxBytesPerDomain := by
  have hlimit : (Int32.ofInt maxBytesPerDomain).toInt = maxBytesPerDomain := by decide
  rw [aboveByteLimit, decide_eq_true_iff, gt_iff_lt, Int32.lt_iff_toInt_lt, hlimit,
    Int32.toInt_add, gt_iff_lt]

theorem aboveAllocLimit_iff (allocsInAppDomain : Int32) :
    aboveAllocLimit allocsInAppDomain = true ↔
      (allocsInAppDomain.toInt + 1).bmod (2 ^ 32) > maxAllocsPerDomain := by
  have hlimit : (Int32.ofInt maxAllocsPerDomain).toInt = maxAllocsPerDomain := by decide
  have hone : (1 : Int32).toInt = 1 := by decide
  rw [aboveAllocLimit, decide_eq_true_iff, gt_iff_lt, Int32.lt_iff_toInt_lt, hlimit,
    Int32.toInt_add, hone, gt_iff_lt]

variable {c : DomainData} {thread domain d : DWORD} {bytes : LONG} {address : PVOID}
  {memoryInfo : MemoryInfo}

theorem onMemoryAcquire_uncharged (h : c.chargedDomain thread = none) (bytes : LONG)
    (address : PVOID) : onMemoryAcquire thread bytes address c = c := by
  have hnobody := DomainData.chargedDomain_eq_none.mp h
  cases hthread : c.threadAppDomain.lookup thread with
  | none => simp only [onMemoryAcquire, hthread]
  | some domain =>
      obtain hdefault | hrecord := hnobody domain hthread
      · simp only [onMemoryAcquire, hthread, hdefault, if_true]
      · simp only [onMemoryAcquire, hthread, hrecord, ite_self]

theorem onMemoryAcquire_charged (h : c.chargedDomain thread = some domain) (bytes : LONG)
    (address : PVOID) :
    onMemoryAcquire thread bytes address c =
      { c with
        appDomains := c.appDomains.modify domain (fun appDomainInfo =>
          { appDomainInfo with
            bytesInAppDomain := LONG.wrap (appDomainInfo.bytesInAppDomain + bytes)
            allocsInAppDomain := LONG.wrap (appDomainInfo.allocsInAppDomain + 1) })
        memoryAppDomain := c.memoryAppDomain.insertNew address ⟨domain, bytes⟩ } := by
  obtain ⟨hthread, hdefault, hrecord⟩ := DomainData.chargedDomain_eq_some.mp h
  obtain ⟨info, hinfo⟩ := Option.ne_none_iff_exists'.mp
    (fun hnone => hrecord (DomainData.memoryRecord_eq_none.mpr hnone))
  simp [onMemoryAcquire, hthread, hdefault, hinfo]

theorem memoryRecord_acquire (h : c.chargedDomain thread = some domain) (bytes : LONG)
    (address : PVOID) (d : DWORD) :
    (onMemoryAcquire thread bytes address c).memoryRecord d =
      if d = domain then
        (c.memoryRecord domain).map (fun r => (LONG.wrap (r.1 + bytes), LONG.wrap (r.2 + 1)))
      else c.memoryRecord d := by
  rw [onMemoryAcquire_charged h]
  exact DomainData.memoryRecord_modify rfl (fun _ => rfl) d

theorem onMemoryRelease_kept (h : c.releasedEntry address = none) :
    (onMemoryRelease address c).1 = c := by
  simp only [onMemoryRelease]
  split
  next => rfl
  next memoryInfo hmemory =>
    split
    next => rfl
    next info hinfo =>
      have hreleased : c.releasedEntry address = some memoryInfo :=
        DomainData.releasedEntry_eq_some.mpr
          ⟨hmemory, by simp [DomainData.memoryRecord, hinfo]⟩
      rw [h] at hreleased
      cases hreleased

theorem onMemoryRelease_released (h : c.releasedEntry address = some memoryInfo) :
    (onMemoryRelease address c).1 =
      { c with
        appDomains := c.appDomains.modify memoryInfo.appDomainId (fun appDomainInfo =>
          { appDomainInfo with
            bytesInAppDomain := LONG.wrap (appDomainInfo.bytesInAppDomain - memoryInfo.dwBytes)
            allocsInAppDomain := LONG.wrap (appDomainInfo.allocsInAppDomain - 1) })
        memoryAppDomain := c.memoryAppDomain.remove address } := by
  obtain ⟨hmemory, hrecord⟩ := DomainData.releasedEntry_eq_some.mp h
  obtain ⟨info, hinfo⟩ := Option.ne_none_iff_exists'.mp
    (fun hnone => hrecord (DomainData.memoryRecord_eq_none.mpr hnone))
  simp [onMemoryRelease, hmemory, hinfo]

theorem memoryRecord_release (h : c.releasedEntry address = some memoryInfo) (d : DWORD) :
    (onMemoryRelease address c).1.memoryRecord d =
      if d = memoryInfo.appDomainId then
        (c.memoryRecord memoryInfo.appDomainId).map
          (fun r => (LONG.wrap (r.1 - memoryInfo.dwBytes), LONG.wrap (r.2 - 1)))
      else c.memoryRecord d := by
  rw [onMemoryRelease_released h]
  exact DomainData.memoryRecord_modify rfl (fun _ => rfl) d

/-- The exact acquire leaves the same entries, and the same records but for the
counters. -/
theorem acquire_exact (c : DomainData) (thread : DWORD) (bytes : LONG) (address : PVOID) :
    (onMemoryAcquire thread bytes address c).memoryAppDomain =
        (c.onMemoryAcquire thread bytes address).memoryAppDomain ∧
      (onMemoryAcquire thread bytes address c).defaultDomainId = c.defaultDomainId ∧
      ∀ d, (onMemoryAcquire thread bytes address c).memoryRecord d = none ↔
        c.memoryRecord d = none := by
  cases hcharged : c.chargedDomain thread with
  | none =>
      rw [onMemoryAcquire_uncharged hcharged, DomainData.onMemoryAcquire_uncharged hcharged]
      exact ⟨rfl, rfl, fun _ => Iff.rfl⟩
  | some domain =>
      refine ⟨?_, ?_, ?_⟩
      · rw [onMemoryAcquire_charged hcharged, DomainData.onMemoryAcquire_charged hcharged]
      · rw [onMemoryAcquire_charged hcharged]
      · intro d
        rw [memoryRecord_acquire hcharged]
        split
        next heq => simp [heq]
        next => rfl

theorem release_exact (c : DomainData) (address : PVOID) :
    (onMemoryRelease address c).1.memoryAppDomain =
        (c.onMemoryRelease address).1.memoryAppDomain ∧
      (onMemoryRelease address c).1.defaultDomainId = c.defaultDomainId ∧
      ∀ d, (onMemoryRelease address c).1.memoryRecord d = none ↔ c.memoryRecord d = none := by
  cases hreleased : c.releasedEntry address with
  | none =>
      rw [onMemoryRelease_kept hreleased, DomainData.onMemoryRelease_kept hreleased]
      exact ⟨rfl, rfl, fun _ => Iff.rfl⟩
  | some memoryInfo =>
      refine ⟨?_, ?_, ?_⟩
      · rw [onMemoryRelease_released hreleased, DomainData.onMemoryRelease_released hreleased]
      · rw [onMemoryRelease_released hreleased]
      · intro d
        rw [memoryRecord_release hreleased]
        split
        next heq => simp [heq]
        next => rfl

/-- The answer given to a thread of a domain with a budget. -/
theorem onMemoryAcquiring_limited {used : LONG × LONG}
    (hthread : c.threadAppDomain.lookup thread = some domain)
    (hdefault : domain ≠ c.defaultDomainId) (hrecord : c.memoryRecord domain = some used)
    (bytes : Int32) :
    onMemoryAcquiring thread bytes c =
      (!aboveByteLimit (Int32.ofInt used.1) bytes && !aboveAllocLimit (Int32.ofInt used.2)) := by
  obtain ⟨info, hinfo, rfl⟩ := Option.map_eq_some_iff.mp hrecord
  simp only [onMemoryAcquiring, hthread, if_neg hdefault, hinfo]
  cases aboveByteLimit (Int32.ofInt info.bytesInAppDomain) bytes with
  | true => rfl
  | false =>
      cases aboveAllocLimit (Int32.ofInt info.allocsInAppDomain) with
      | true => rfl
      | false => rfl

theorem onMemoryAcquiring_unlimited (h : c.chargedDomain thread = none) (bytes : Int32) :
    onMemoryAcquiring thread bytes c = true := by
  have hnobody := DomainData.chargedDomain_eq_none.mp h
  cases hthread : c.threadAppDomain.lookup thread with
  | none => simp only [onMemoryAcquiring, hthread]
  | some domain =>
      obtain hdefault | hrecord := hnobody domain hthread
      · simp only [onMemoryAcquiring, hthread, hdefault, if_true]
      · simp only [onMemoryAcquiring, hthread, hrecord, ite_self]

/-- Where neither sum leaves the range of a `LONG`, the tests are those of the exact
model. -/
theorem limits_exact {b n : Int} {bytes : Int32} (hb : LONG.InRange b) (hn : LONG.InRange n)
    (hsum : LONG.InRange (b + bytes.toInt)) (hcount : LONG.InRange (n + 1)) :
    (!aboveByteLimit (Int32.ofInt b) bytes && !aboveAllocLimit (Int32.ofInt n)) =
      decide (b + bytes.toInt ≤ maxBytesPerDomain ∧ n + 1 ≤ maxAllocsPerDomain) := by
  have hb' : (Int32.ofInt b).toInt = b := Int32.toInt_ofInt_of_le hb.1 hb.2
  have hn' : (Int32.ofInt n).toInt = n := Int32.toInt_ofInt_of_le hn.1 hn.2
  have hbytes := aboveByteLimit_iff (Int32.ofInt b) bytes
  have hallocs := aboveAllocLimit_iff (Int32.ofInt n)
  have hwrap : (b + bytes.toInt).bmod (2 ^ 32) = b + bytes.toInt := LONG.wrap_of_inRange hsum
  have hwrap' : (n + 1).bmod (2 ^ 32) = n + 1 := LONG.wrap_of_inRange hcount
  rw [hb', hwrap] at hbytes
  rw [hn', hwrap'] at hallocs
  rw [Bool.eq_iff_iff, Bool.and_eq_true, Bool.not_eq_true', Bool.not_eq_true',
    ← Bool.not_eq_true, ← Bool.not_eq_true, hbytes, hallocs, decide_eq_true_iff, gt_iff_lt,
    gt_iff_lt, not_lt, not_lt]

end Win32

namespace HostContext

/-- One call on the Win32 build. -/
def longStep (s : HostContext) : HostOp → Except HostFault HostContext
  | .onMemoryAcquire dwThreadId bytes address =>
      .ok { s with toDomainData := Win32.onMemoryAcquire dwThreadId bytes address s.toDomainData }
  | .onMemoryRelease address =>
      .ok { s with toDomainData := (Win32.onMemoryRelease address s.toDomainData).1 }
  | op => s.step op

/-- The calls that leave the counters alone are the same on both. -/
theorem longStep_of_quiet {s : HostContext} {op : HostOp} (hquiet : op.Quiet) :
    s.longStep op = s.step op := by
  cases op with
  | onMemoryAcquire | onMemoryRelease => cases hquiet
  | onDomainCreate | rawResetCountersForAppDomain | postHostMessage | onDomainRudeUnload
  | rawGetLastMessage | onDomainUnload | onThreadAcquiring | onThreadAcquire
  | onThreadRelease => rfl

theorem longStep_sameMemory {s next : HostContext} {op : HostOp} (h : s.longStep op = .ok next)
    (hquiet : op.Quiet) : s.toDomainData.SameMemory next.toDomainData := by
  rw [longStep_of_quiet hquiet] at h
  exact step_sameMemory h hquiet

end HostContext

end HostedPumpkin
