import HostedPumpkin.Host.MemoryRecords

/-!
The account of one domain: its record, its threads, what it is charged for by
address, and the default domain. Every operation of `HostContext` acts on an
account by itself; all it needs of the other domains is whether the thread or the
address it is given is new to the host.
-/

namespace HostedPumpkin

@[ext] structure Account where
  appDomainId : DWORD
  record : Option AppDomainInfo
  threads : Finset DWORD
  charges : PVOID → Option LONG
  defaultDomainId : DWORD
  defaultDomainManager : Option DomainManager

/-- The bytes an entry charges to a domain, if it is the domain's. -/
def MemoryInfo.chargeTo (domain : DWORD) (memoryInfo : MemoryInfo) : Option LONG :=
  if memoryInfo.appDomainId = domain then some memoryInfo.dwBytes else none

/-- What the host knows of one domain. -/
def DomainData.account (c : DomainData) (domain : DWORD) : Account where
  appDomainId := domain
  record := c.appDomains.lookup domain
  threads := c.threadAppDomain.fiber domain
  charges := fun address =>
    (c.memoryAppDomain.lookup address).bind (MemoryInfo.chargeTo domain)
  defaultDomainId := c.defaultDomainId
  defaultDomainManager := c.defaultDomainManager

/-- The thread that is acquired, or the address, is new to the host. -/
def DomainData.isNew (c : DomainData) : HostOp → Bool
  | .onThreadAcquire _ dwThreadId => (c.threadAppDomain.lookup dwThreadId).isNone
  | .onMemoryAcquire _ _ address => (c.memoryAppDomain.lookup address).isNone
  | _ => true

namespace Account

def onDomainCreate (acc : Account) (dwAppDomainID dwCurrentThreadId : DWORD)
    (domainManager : Option DomainManager) (uninitialised : LONG) : Account :=
  let created :=
    if acc.appDomainId = dwAppDomainID then
      some (acc.record.getD (AppDomainInfo.new dwCurrentThreadId domainManager uninitialised))
    else acc.record
  { acc with
    record :=
      if dwCurrentThreadId ∈ acc.threads then
        created.map (fun info => { info with threadsInAppDomain := info.threadsInAppDomain - 1 })
      else created
    threads :=
      if acc.appDomainId = dwAppDomainID then insert dwCurrentThreadId acc.threads
      else acc.threads.erase dwCurrentThreadId
    defaultDomainId :=
      if acc.defaultDomainManager.isNone then dwAppDomainID else acc.defaultDomainId
    defaultDomainManager :=
      if acc.defaultDomainManager.isNone then domainManager else acc.defaultDomainManager }

def onThreadAcquire (acc : Account) (dwParentThreadId dwThreadId : DWORD) (isNew : Bool) :
    Account :=
  if dwParentThreadId ∈ acc.threads then
    { acc with
      record := acc.record.map (fun info =>
        { info with threadsInAppDomain := info.threadsInAppDomain + 1 })
      threads := if isNew then insert dwThreadId acc.threads else acc.threads }
  else acc

def onThreadRelease (acc : Account) (dwThreadId : DWORD) : Account :=
  if dwThreadId ∈ acc.threads then
    { acc with
      record := acc.record.bind (fun info =>
        if info.mainThreadId = dwThreadId then none
        else some { info with threadsInAppDomain := info.threadsInAppDomain - 1 })
      threads := acc.threads.erase dwThreadId }
  else acc

/-- An acquire by this thread is charged to the account. -/
def Charged (acc : Account) (dwThreadId : DWORD) : Prop :=
  dwThreadId ∈ acc.threads ∧ acc.appDomainId ≠ acc.defaultDomainId ∧ acc.record ≠ none

instance (acc : Account) (dwThreadId : DWORD) : Decidable (acc.Charged dwThreadId) := by
  unfold Charged
  infer_instance

def onMemoryAcquire (acc : Account) (dwThreadId : DWORD) (bytes : LONG) (address : PVOID)
    (isNew : Bool) : Account :=
  if acc.Charged dwThreadId then
    { acc with
      record := acc.record.map (fun info =>
        { info with
          bytesInAppDomain := info.bytesInAppDomain + bytes
          allocsInAppDomain := info.allocsInAppDomain + 1 })
      charges :=
        if isNew then Function.update acc.charges address (some bytes) else acc.charges }
  else acc

def onMemoryRelease (acc : Account) (address : PVOID) : Account :=
  match acc.record, acc.charges address with
  | some info, some dwBytes =>
      { acc with
        record := some { info with
          bytesInAppDomain := info.bytesInAppDomain - dwBytes
          allocsInAppDomain := info.allocsInAppDomain - 1 }
        charges := Function.update acc.charges address none }
  | _, _ => acc

/-- One call, as the account sees it. -/
def step (acc : Account) (isNew : Bool) : HostOp → Account
  | .onDomainUnload domainId =>
      if acc.appDomainId = domainId then { acc with record := none } else acc
  | .onDomainCreate dwAppDomainID dwCurrentThreadId domainManager uninitialised =>
      acc.onDomainCreate dwAppDomainID dwCurrentThreadId domainManager uninitialised
  | .onThreadAcquire dwParentThreadId dwThreadId =>
      acc.onThreadAcquire dwParentThreadId dwThreadId isNew
  | .onThreadRelease dwThreadId => acc.onThreadRelease dwThreadId
  | .onMemoryAcquire dwThreadId bytes address =>
      acc.onMemoryAcquire dwThreadId bytes address isNew
  | .onMemoryRelease address => acc.onMemoryRelease address
  | .rawResetCountersForAppDomain appDomainId =>
      if acc.appDomainId = appDomainId then
        { acc with record := acc.record.map (fun info =>
            { info with bytesInAppDomain := 0, threadsInAppDomain := 1 }) }
      else acc
  | .postHostMessage _ _ _ | .rawGetLastMessage | .onDomainRudeUnload
  | .onThreadAcquiring _ => acc

/-- The answer of `OnMemoryAcquiring` to a thread of the domain. -/
def onMemoryAcquiring (acc : Account) (bytes : LONG) : Bool :=
  if acc.appDomainId = acc.defaultDomainId then true
  else
    match acc.record with
    | none => true
    | some info =>
        if info.bytesInAppDomain + bytes > maxBytesPerDomain then false
        else if info.allocsInAppDomain + 1 > maxAllocsPerDomain then false
        else true

/-- Only an operation of the domain itself depends on what the host knows of the
others. -/
def ReadsOthers (acc : Account) : HostOp → Prop
  | .onThreadAcquire dwParentThreadId _ => dwParentThreadId ∈ acc.threads
  | .onMemoryAcquire dwThreadId _ _ => acc.Charged dwThreadId
  | _ => False

theorem step_congr {acc : Account} {op : HostOp} {isNew isNew' : Bool}
    (h : acc.ReadsOthers op → isNew = isNew') : acc.step isNew op = acc.step isNew' op := by
  cases op with
  | onThreadAcquire parent thread =>
      simp only [step, onThreadAcquire]
      split
      next hparent => rw [h hparent]
      next => rfl
  | onMemoryAcquire thread bytes address =>
      simp only [step, onMemoryAcquire]
      split
      next hcharged => rw [h hcharged]
      next => rfl
  | postHostMessage | rawGetLastMessage | onDomainUnload | onDomainRudeUnload | onDomainCreate
  | onThreadAcquiring | onThreadRelease | onMemoryRelease | rawResetCountersForAppDomain => rfl

theorem onMemoryRelease_of_none {acc : Account} {address : PVOID}
    (h : acc.charges address = none) : acc.onMemoryRelease address = acc := by
  simp only [onMemoryRelease, h]
  cases acc.record <;> rfl

theorem onMemoryRelease_of_some {acc : Account} {address : PVOID} {info : AppDomainInfo}
    {dwBytes : LONG} (hrecord : acc.record = some info)
    (hcharge : acc.charges address = some dwBytes) :
    acc.onMemoryRelease address =
      { acc with
        record := some { info with
          bytesInAppDomain := info.bytesInAppDomain - dwBytes
          allocsInAppDomain := info.allocsInAppDomain - 1 }
        charges := Function.update acc.charges address none } := by
  simp only [onMemoryRelease, hrecord, hcharge]

end Account

namespace DomainData

theorem mem_account_threads {c : DomainData} {domain thread : DWORD} :
    thread ∈ (c.account domain).threads ↔ c.threadAppDomain.lookup thread = some domain :=
  StdMap.mem_fiber

theorem account_charged {c : DomainData} {domain thread : DWORD} :
    (c.account domain).Charged thread ↔ c.chargedDomain thread = some domain := by
  rw [chargedDomain_eq_some, Account.Charged, mem_account_threads]
  refine and_congr_right (fun _ => and_congr_right (fun _ => ?_))
  rw [Ne, Ne, memoryRecord_eq_none]
  exact Iff.rfl

/-! Each operation moves every account as the account's own operation says. -/

theorem account_create {c next : DomainData} {domain thread : DWORD}
    {manager : Option DomainManager} {uninitialised : LONG}
    (h : c.onDomainCreate domain thread manager uninitialised = .ok next) (d : DWORD) :
    next.account d = (c.account d).onDomainCreate domain thread manager uninitialised := by
  have hcreated : (c.appDomains.insertNew domain
      (AppDomainInfo.new thread manager uninitialised)).lookup d =
        if d = domain then
          some ((c.appDomains.lookup d).getD (AppDomainInfo.new thread manager uninitialised))
        else c.appDomains.lookup d := StdMap.lookup_insertNew_getD _ _ _ _
  have hmemory := (onDomainCreate_ok h).1
  ext1
  · rfl
  · simp only [account, Account.onDomainCreate, StdMap.mem_fiber]
    obtain ⟨-, ⟨old, hold, -, happ, -⟩ | ⟨hnone, happ, -⟩⟩ := onDomainCreate_ok h
    · rw [happ, StdMap.lookup_modify, hold]
      by_cases hd : d = old
      · subst hd
        rw [if_pos rfl, if_pos rfl, hcreated]
        rfl
      · rw [if_neg hd, if_neg (by simpa [eq_comm] using hd), hcreated]
        rfl
    · rw [happ, hnone, if_neg (by simp), hcreated]
      rfl
  · simp only [account, onDomainCreate_threads h, StdMap.fiber_set]
    rfl
  · simp only [account, Account.onDomainCreate, hmemory]
  · exact onDomainCreate_default h
  · exact onDomainCreate_manager h

theorem account_threadAcquire {c next : DomainData} {parent thread : DWORD} {answer : Bool}
    (h : c.onThreadAcquire parent thread = .ok (next, answer)) (d : DWORD) :
    next.account d =
      (c.account d).onThreadAcquire parent thread (c.threadAppDomain.lookup thread).isNone := by
  obtain ⟨hparent, rfl, -⟩ | ⟨domain, info, hparent, -, -, rfl⟩ := onThreadAcquire_ok h
  · have hout : parent ∉ (next.account d).threads := by
      rw [mem_account_threads, hparent]
      simp
    rw [Account.onThreadAcquire, if_neg hout]
  · by_cases hd : d = domain
    · subst hd
      have hin : parent ∈ (c.account d).threads := mem_account_threads.mpr hparent
      rw [Account.onThreadAcquire, if_pos hin]
      ext1 <;> simp [account, StdMap.lookup_modify, StdMap.fiber_insertNew]
    · have hout : parent ∉ (c.account d).threads := by
        rw [mem_account_threads, hparent]
        simpa [eq_comm] using hd
      rw [Account.onThreadAcquire, if_neg hout]
      ext1 <;> simp [account, StdMap.lookup_modify, StdMap.fiber_insertNew, hd]

theorem account_threadRelease {c next : DomainData} {thread : DWORD}
    {exit : Option MainThreadExit} {answer : Bool}
    (h : c.onThreadRelease thread = .ok (next, exit, answer)) (d : DWORD) :
    next.account d = (c.account d).onThreadRelease thread := by
  rcases onThreadRelease_ok h with
    ⟨hthread, rfl, -⟩ | ⟨domain, hthread, hmap, hmemory, hmanager, hdefault, hcases⟩
  · have hout : thread ∉ (next.account d).threads := by
      rw [mem_account_threads, hthread]
      simp
    rw [Account.onThreadRelease, if_neg hout]
  · have hcharges : (next.account d).charges = (c.account d).charges := by
      simp only [account, hmemory]
    have hthreads : (next.account d).threads = (c.account d).threads.erase thread := by
      simp only [account, hmap, StdMap.fiber_remove]
    by_cases hd : d = domain
    · subst hd
      have hin : thread ∈ (c.account d).threads := mem_account_threads.mpr hthread
      rw [Account.onThreadRelease, if_pos hin]
      refine Account.ext rfl ?_ hthreads hcharges hdefault hmanager
      simp only [account]
      rcases hcases with ⟨hnone, happ, -⟩ | ⟨info, ⟨-, hinfo, hmain⟩, -, happ, -⟩ |
        ⟨info, hinfo, hmain, happ, -⟩
      · rw [happ, hnone, Option.bind_none]
      · rw [happ, if_pos rfl, hinfo, Option.bind_some, if_pos hmain]
      · rw [happ, StdMap.lookup_modify, if_pos rfl, hinfo, Option.bind_some, if_neg hmain,
          Option.map_some]
    · have hout : thread ∉ (c.account d).threads := by
        rw [mem_account_threads, hthread]
        simpa [eq_comm] using hd
      rw [Account.onThreadRelease, if_neg hout]
      rw [Finset.erase_eq_of_notMem hout] at hthreads
      refine Account.ext rfl ?_ hthreads hcharges hdefault hmanager
      simp only [account]
      rcases hcases with ⟨-, happ, -⟩ | ⟨info, -, -, happ, -⟩ | ⟨info, -, -, happ, -⟩
      · rw [happ]
      · rw [happ, if_neg hd]
      · rw [happ, StdMap.lookup_modify, if_neg hd]

theorem account_memoryAcquire (c : DomainData) (thread : DWORD) (bytes : LONG)
    (address : PVOID) (d : DWORD) :
    (c.onMemoryAcquire thread bytes address).account d =
      (c.account d).onMemoryAcquire thread bytes address
        (c.memoryAppDomain.lookup address).isNone := by
  by_cases hcharged : c.chargedDomain thread = some d
  · rw [Account.onMemoryAcquire, if_pos (account_charged.mpr hcharged),
      onMemoryAcquire_charged hcharged]
    refine Account.ext rfl ?_ rfl ?_ rfl rfl
    · simp only [account, StdMap.lookup_modify, if_pos]
    · funext a
      simp only [account, StdMap.lookup_insertNew]
      by_cases ha : a = address
      · subst ha
        cases hentry : c.memoryAppDomain.lookup a <;> simp [hentry, MemoryInfo.chargeTo]
      · cases hentry : c.memoryAppDomain.lookup address <;> simp [ha]
  · rw [Account.onMemoryAcquire, if_neg (fun h => hcharged (account_charged.mp h))]
    cases howner : c.chargedDomain thread with
    | none => rw [onMemoryAcquire_uncharged howner]
    | some owner =>
        have hne : owner ≠ d := by
          rintro rfl
          exact hcharged howner
        rw [onMemoryAcquire_charged howner]
        refine Account.ext rfl ?_ rfl ?_ rfl rfl
        · simp only [account, StdMap.lookup_modify, if_neg (Ne.symm hne)]
        · funext a
          simp only [account, StdMap.lookup_insertNew]
          split
          next hnew =>
            obtain ⟨rfl, hnone⟩ := hnew
            simp [hnone, MemoryInfo.chargeTo, hne]
          next => rfl

theorem account_memoryRelease (c : DomainData) (address : PVOID) (d : DWORD) :
    (c.onMemoryRelease address).1.account d = (c.account d).onMemoryRelease address := by
  cases hreleased : c.releasedEntry address with
  | none =>
      rw [onMemoryRelease_kept hreleased, Account.onMemoryRelease]
      split
      next info dwBytes hinfo hcharge =>
        -- an entry of a domain that is there would have been released
        obtain ⟨memoryInfo, hentry, hd⟩ := Option.bind_eq_some_iff.mp hcharge
        simp only [MemoryInfo.chargeTo, Option.ite_none_right_eq_some] at hd
        have hpresent : c.memoryRecord memoryInfo.appDomainId ≠ none := by
          rw [hd.1, Ne, memoryRecord_eq_none]
          exact Option.ne_none_iff_exists'.mpr ⟨info, hinfo⟩
        rw [releasedEntry_eq_some.mpr ⟨hentry, hpresent⟩] at hreleased
        cases hreleased
      next => rfl
  | some memoryInfo =>
      obtain ⟨hentry, hpresent⟩ := releasedEntry_eq_some.mp hreleased
      rw [onMemoryRelease_released hreleased]
      have hcharge : (c.account d).charges address = memoryInfo.chargeTo d := by
        simp only [account, hentry, Option.bind_some]
      by_cases hd : memoryInfo.appDomainId = d
      · subst hd
        obtain ⟨info, hinfo⟩ := Option.ne_none_iff_exists'.mp
          (fun hnone => hpresent (memoryRecord_eq_none.mpr hnone))
        have hrecord : (c.account memoryInfo.appDomainId).record = some info := hinfo
        rw [MemoryInfo.chargeTo, if_pos rfl] at hcharge
        rw [Account.onMemoryRelease_of_some hrecord hcharge]
        refine Account.ext rfl ?_ rfl ?_ rfl rfl
        · simp only [account, StdMap.lookup_modify, if_pos, hinfo, Option.map_some]
        · funext a
          by_cases ha : a = address <;> simp [account, StdMap.lookup_remove, ha]
      · rw [MemoryInfo.chargeTo, if_neg hd] at hcharge
        rw [Account.onMemoryRelease_of_none hcharge]
        refine Account.ext rfl ?_ rfl ?_ rfl rfl
        · simp only [account, StdMap.lookup_modify, if_neg (Ne.symm hd)]
        · funext a
          simp only [account, StdMap.lookup_remove]
          split
          next ha =>
            subst ha
            exact hcharge.symm
          next => rfl

/-- A call that changes the record of one domain and nothing else. -/
theorem account_of_record {c : DomainData} {appDomains : StdMap DWORD AppDomainInfo}
    {domain d : DWORD} {record : Option AppDomainInfo}
    (hsame : d = domain → appDomains.lookup d = record)
    (hother : d ≠ domain → appDomains.lookup d = c.appDomains.lookup d) :
    account { c with appDomains } d =
      if d = domain then { c.account d with record } else c.account d := by
  split
  next hd => exact Account.ext rfl (hsame hd) rfl rfl rfl rfl
  next hd => exact Account.ext rfl (hother hd) rfl rfl rfl rfl

theorem account_reset (c : DomainData) (domain d : DWORD) :
    (c.rawResetCountersForAppDomain domain).account d =
      (c.account d).step true (.rawResetCountersForAppDomain domain) := by
  apply account_of_record
  · rintro rfl
    rw [StdMap.lookup_modify, if_pos rfl]
    rfl
  · intro hd
    rw [StdMap.lookup_modify, if_neg hd]

theorem account_erase (c : DomainData) (domain d : DWORD) :
    (c.eraseDomain domain).account d = (c.account d).step true (.onDomainUnload domain) := by
  apply account_of_record
  · rintro rfl
    rw [StdMap.lookup_remove, if_pos rfl]
  · intro hd
    rw [StdMap.lookup_remove, if_neg hd]

theorem account_memoryAcquiring {c : DomainData} {thread d : DWORD}
    (hthread : c.threadAppDomain.lookup thread = some d) (bytes : LONG) :
    c.onMemoryAcquiring thread bytes = (c.account d).onMemoryAcquiring bytes := by
  simp only [onMemoryAcquiring, hthread]
  rfl

end DomainData

namespace HostContext

/-- The host keeps the account of each domain as the domain's own operations do. -/
theorem step_account {s next : HostContext} {op : HostOp} (h : s.step op = .ok next)
    (d : DWORD) :
    next.toDomainData.account d =
      (s.toDomainData.account d).step (s.toDomainData.isNew op) op := by
  cases op with
  | postHostMessage | onDomainRudeUnload =>
      cases h
      rfl
  | rawGetLastMessage =>
      obtain ⟨hostEvent, hread⟩ := map_fst_ok h
      rw [(rawGetLastMessage_ok hread).2]
      rfl
  | onDomainUnload domain =>
      cases h
      exact DomainData.account_erase s.toDomainData domain d
  | onDomainCreate domain thread manager uninitialised =>
      obtain ⟨c, hcall, rfl⟩ := withDomainData_ok h
      exact DomainData.account_create hcall d
  | onThreadAcquiring parent =>
      obtain ⟨answer, hcall⟩ := map_fst_ok h
      obtain rfl | ⟨domain, -, rfl⟩ := onThreadAcquiring_ok hcall <;> rfl
  | onThreadAcquire parent thread =>
      obtain ⟨c, hcall, rfl⟩ := withDomainData_ok h
      obtain ⟨answer, hcall⟩ := map_fst_ok hcall
      exact DomainData.account_threadAcquire hcall d
  | onThreadRelease thread =>
      obtain ⟨c, hcall, rfl⟩ := withDomainData_ok h
      obtain ⟨⟨exit, answer⟩, hcall⟩ := map_fst_ok hcall
      exact DomainData.account_threadRelease hcall d
  | onMemoryAcquire thread bytes address =>
      cases h
      exact DomainData.account_memoryAcquire s.toDomainData thread bytes address d
  | onMemoryRelease address =>
      cases h
      exact DomainData.account_memoryRelease s.toDomainData address d
  | rawResetCountersForAppDomain domain =>
      cases h
      exact DomainData.account_reset s.toDomainData domain d

end HostContext

end HostedPumpkin
