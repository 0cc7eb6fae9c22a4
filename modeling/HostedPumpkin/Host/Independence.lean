import HostedPumpkin.Host.Account
import HostedPumpkin.Host.MemoryAccounting
import HostedPumpkin.Library.Unwinding

/-!
One domain's account in two runs: all the operations, and those that are left
when everything done on behalf of another domain is deleted. The domains share
the maps of threads and of block addresses, so the account comes out the same
where a thread or an address that is new to the host in one run is new to it in
the other. The entry of a block whose domain was unloaded before the block was
released is never erased, and the address is new in the second run only.
-/

namespace HostedPumpkin

open Runs

namespace MemoryAudit

/-- The operation is made on behalf of a domain: its creation and its unload, what
its threads do, and the release of a block that one of them acquired. -/
def OnBehalfOf (domain : DWORD) (s : MemoryAudit) : HostOp → Prop
  | .onDomainCreate dwAppDomainID _ _ _ => dwAppDomainID = domain
  | .onDomainUnload domainId => domainId = domain
  | .onThreadAcquiring thread | .onThreadAcquire thread _ | .onThreadRelease thread
  | .onMemoryAcquire thread _ _ => s.host.threadAppDomain.lookup thread = some domain
  | .onMemoryRelease address => ∃ block ∈ s.live.lookup address, block.owner = some domain
  | .postHostMessage _ _ _ | .rawGetLastMessage | .onDomainRudeUnload
  | .rawResetCountersForAppDomain _ => False

instance (domain : DWORD) (s : MemoryAudit) (op : HostOp) :
    Decidable (OnBehalfOf domain s op) :=
  match op with
  | .onDomainCreate dwAppDomainID _ _ _ => inferInstanceAs (Decidable (dwAppDomainID = domain))
  | .onDomainUnload domainId => inferInstanceAs (Decidable (domainId = domain))
  | .onThreadAcquiring thread | .onThreadAcquire thread _ | .onThreadRelease thread
  | .onMemoryAcquire thread _ _ =>
      inferInstanceAs (Decidable (s.host.threadAppDomain.lookup thread = some domain))
  | .onMemoryRelease address =>
      inferInstanceAs (Decidable (∃ block ∈ s.live.lookup address, block.owner = some domain))
  | .postHostMessage .. | .rawGetLastMessage | .onDomainRudeUnload
  | .rawResetCountersForAppDomain .. => isFalse not_false

/-- An address is acquired only while it is not live, neither domain is created as
the default one, and no thread moves from one of them to the other. -/
def KeepsApart (domain other : DWORD) (s : MemoryAudit) : HostOp → Prop
  | .onMemoryAcquire _ _ address => s.live.lookup address = none
  | .onDomainCreate dwAppDomainID dwCurrentThreadId _ _ =>
      (dwAppDomainID = domain ∨ dwAppDomainID = other → s.host.defaultDomainManager ≠ none) ∧
        (dwAppDomainID = other →
          s.host.threadAppDomain.lookup dwCurrentThreadId ≠ some domain) ∧
        (dwAppDomainID = domain →
          s.host.threadAppDomain.lookup dwCurrentThreadId ≠ some other)
  | _ => True

instance (domain other : DWORD) (s : MemoryAudit) (op : HostOp) :
    Decidable (KeepsApart domain other s op) :=
  match op with
  | .onMemoryAcquire _ _ address => inferInstanceAs (Decidable (s.live.lookup address = none))
  | .onDomainCreate .. => inferInstanceAs (Decidable (_ ∧ _ ∧ _))
  | .postHostMessage .. | .rawGetLastMessage | .onDomainUnload .. | .onDomainRudeUnload
  | .onThreadAcquiring .. | .onThreadAcquire .. | .onThreadRelease .. | .onMemoryRelease ..
  | .rawResetCountersForAppDomain .. => isTrue trivial

/-- A thread that the domain acquires, and the address of a block it is charged
for, are known to the host in both runs or in neither; and the release of a block
of the other domain takes back no charge to the domain. -/
def KnownAlike (domain other : DWORD) (p : MemoryAudit × MemoryAudit) : HostOp → Prop
  | .onThreadAcquire dwParentThreadId dwThreadId =>
      p.1.host.threadAppDomain.lookup dwParentThreadId = some domain →
        (p.1.host.threadAppDomain.lookup dwThreadId).isNone =
          (p.2.host.threadAppDomain.lookup dwThreadId).isNone
  | .onMemoryAcquire dwThreadId _ address =>
      p.1.host.chargedDomain dwThreadId = some domain →
        (p.1.host.memoryAppDomain.lookup address).isNone =
          (p.2.host.memoryAppDomain.lookup address).isNone
  | .onMemoryRelease address =>
      OnBehalfOf other p.1 (.onMemoryRelease address) →
        ∀ memoryInfo ∈ p.1.host.releasedEntry address, memoryInfo.appDomainId ≠ domain
  | _ => True

instance (domain other : DWORD) (p : MemoryAudit × MemoryAudit) (op : HostOp) :
    Decidable (KnownAlike domain other p op) :=
  match op with
  | .onThreadAcquire .. => inferInstanceAs (Decidable (_ → _))
  | .onMemoryAcquire .. => inferInstanceAs (Decidable (_ → _))
  | .onMemoryRelease .. => @instDecidableForall _ _ _ (Option.decidableForallMem _)
  | .postHostMessage .. | .rawGetLastMessage | .onDomainUnload .. | .onDomainRudeUnload
  | .onDomainCreate .. | .onThreadAcquiring .. | .onThreadRelease ..
  | .rawResetCountersForAppDomain .. => isTrue trivial

/-- A domain's counters, and the answers to its threads, are the same. -/
structure SameAccounting (domain : DWORD) (s s' : HostContext) : Prop where
  threads : s'.rawGetThreadCount domain = s.rawGetThreadCount domain
  memory : s'.rawGetMemoryUsage domain = s.rawGetMemoryUsage domain
  answers : ∀ thread bytes, s.threadAppDomain.lookup thread = some domain →
    s'.onMemoryAcquiring thread bytes = s.onMemoryAcquiring thread bytes

theorem sameAccounting_of_account {domain : DWORD} {s s' : HostContext}
    (h : s.toDomainData.account domain = s'.toDomainData.account domain) :
    SameAccounting domain s s' := by
  have hrecord : s.appDomains.lookup domain = s'.appDomains.lookup domain :=
    congrArg Account.record h
  refine ⟨?_, ?_, ?_⟩
  · rw [DomainData.rawGetThreadCount, DomainData.rawGetThreadCount, hrecord]
  · rw [DomainData.rawGetMemoryUsage, DomainData.rawGetMemoryUsage, hrecord]
  · intro thread bytes hthread
    have hthread' : s'.threadAppDomain.lookup thread = some domain := by
      rw [← DomainData.mem_account_threads, ← h]
      exact DomainData.mem_account_threads.mpr hthread
    rw [DomainData.account_memoryAcquiring hthread, DomainData.account_memoryAcquiring hthread', h]

/-- What is done on behalf of another domain leaves the account alone. -/
theorem account_of_onBehalfOf {domain other : DWORD} (hne : domain ≠ other)
    {s s' next : MemoryAudit} {op : HostOp} (hapart : KeepsApart domain other s op)
    (halike : KnownAlike domain other (s, s') op) (hother : OnBehalfOf other s op)
    (h : s.step op = .ok next) :
    next.host.toDomainData.account domain = s.host.toDomainData.account domain := by
  rw [HostContext.step_account (step_ok h).1]
  have hout : ∀ thread, s.host.threadAppDomain.lookup thread = some other →
      thread ∉ (s.host.toDomainData.account domain).threads := by
    intro thread hthread hmem
    rw [DomainData.mem_account_threads, hthread] at hmem
    exact hne (Option.some.inj hmem).symm
  cases op with
  | onDomainCreate created thread manager uninitialised =>
      have hcreated : created = other := hother
      subst hcreated
      obtain ⟨hmanager, hthread, -⟩ := hapart
      have hnone : s.host.defaultDomainManager.isNone = false :=
        Option.isNone_eq_false_iff.mpr (Option.isSome_iff_ne_none.mpr (hmanager (Or.inr rfl)))
      have hthread : thread ∉ (s.host.toDomainData.account domain).threads := by
        rw [DomainData.mem_account_threads]
        exact hthread rfl
      rw [Account.step, Account.onDomainCreate]
      refine Account.ext rfl ?_ ?_ rfl ?_ ?_
      · rw [if_neg hthread]
        exact if_neg hne
      · rw [Finset.erase_eq_of_notMem hthread]
        exact if_neg hne
      · exact if_neg (by simp [DomainData.account, hnone])
      · exact if_neg (by simp [DomainData.account, hnone])
  | onDomainUnload unloaded =>
      have hunloaded : unloaded = other := hother
      subst hunloaded
      exact if_neg hne
  | onThreadAcquiring parent => rfl
  | onThreadAcquire parent thread => exact if_neg (hout parent hother)
  | onThreadRelease thread => exact if_neg (hout thread hother)
  | onMemoryAcquire thread bytes address =>
      exact if_neg (fun hcharged => hout thread hother hcharged.1)
  | onMemoryRelease address =>
      have hother := halike hother
      rw [Account.step]
      cases hreleased : s.host.releasedEntry address with
      | none => rw [← DomainData.account_memoryRelease, DomainData.onMemoryRelease_kept hreleased]
      | some memoryInfo =>
          have hentry := (DomainData.releasedEntry_eq_some.mp hreleased).1
          refine Account.onMemoryRelease_of_none ?_
          simp only [DomainData.account, hentry, Option.bind_some]
          exact if_neg (hother memoryInfo hreleased)
  | postHostMessage | rawGetLastMessage | onDomainRudeUnload | rawResetCountersForAppDomain =>
      cases hother

/-- What both runs do does the same to an account that is the same in both. -/
theorem account_of_kept {domain other : DWORD} {s s' next next' : MemoryAudit} {op : HostOp}
    (hsame : s.host.toDomainData.account domain = s'.host.toDomainData.account domain)
    (halike : KnownAlike domain other (s, s') op) (h : s.step op = .ok next)
    (h' : s'.step op = .ok next') :
    next.host.toDomainData.account domain = next'.host.toDomainData.account domain := by
  rw [HostContext.step_account (step_ok h).1, HostContext.step_account (step_ok h').1, ← hsame]
  refine Account.step_congr ?_
  intro hreads
  cases op with
  | onThreadAcquire parent thread => exact halike (DomainData.mem_account_threads.mp hreads)
  | onMemoryAcquire thread bytes address =>
      exact halike (DomainData.account_charged.mp hreads)
  | postHostMessage | rawGetLastMessage | onDomainUnload | onDomainRudeUnload | onDomainCreate
  | onThreadAcquiring | onThreadRelease | onMemoryRelease | rawResetCountersForAppDomain =>
      cases hreads

/-- For two domains that no thread moves between and that are not created as the
default domain: after every run in which threads and addresses are known alike,
the one domain's counters and the answers to its threads are those of the run
without the other domain's operations. -/
theorem accounting_independent {domain other : DWORD} (hne : domain ≠ other)
    {start s s' : MemoryAudit} {ops : List HostOp}
    (hapart : Meets step (KeepsApart domain other) start ops)
    (halike : Meets (beside step (OnBehalfOf other)) (KnownAlike domain other) (start, start) ops)
    (hrun : run step start ops = .ok s)
    (hwithout : run step start (without step (OnBehalfOf other) start ops) = .ok s') :
    SameAccounting domain s.host s'.host := by
  have hsame : s.host.toDomainData.account domain = s'.host.toDomainData.account domain := by
    refine unwinding (R := fun s s' => s.host.toDomainData.account domain =
      s'.host.toDomainData.account domain) ?_ ?_ rfl hapart halike hrun hwithout
    · intro s s' op next hR hassume hcond hother hstep
      rw [account_of_onBehalfOf hne hassume hcond hother hstep, hR]
    · intro s s' op next next' hR _ hcond _ hstep hstep'
      exact account_of_kept hR hcond hstep hstep'
  exact sameAccounting_of_account hsame

/-- Two snippets side by side. The second one's block is released, or not, before
the snippet is unloaded; then its address goes to the first snippet. -/
def reusedAddress (released : Bool) : List HostOp :=
  let unloads : List HostOp :=
    if released then [.onMemoryRelease 4096, .onDomainUnload 3]
    else [.onDomainUnload 3, .onMemoryRelease 4096]
  [.onDomainCreate 1 10 (some 0) 0, .onDomainCreate 2 20 (some 1) 0,
    .onDomainCreate 3 30 (some 2) 0, .onMemoryAcquire 30 100 4096] ++ unloads ++
    [.onMemoryAcquire 20 200 4096, .onMemoryRelease 4096]

theorem accounting_independent_released_first :
    ∃ s s', run step initial (reusedAddress true) = .ok s ∧
      run step initial (without step (OnBehalfOf 3) initial (reusedAddress true)) = .ok s' ∧
      SameAccounting 2 s.host s'.host := by
  have hruns : Reaches step (fun _ => True) initial (reusedAddress true) ∧
      Reaches step (fun _ => True) initial
        (without step (OnBehalfOf 3) initial (reusedAddress true)) ∧
      Meets step (KeepsApart 2 3) initial (reusedAddress true) ∧
      Meets (beside step (OnBehalfOf 3)) (KnownAlike 2 3) (initial, initial)
        (reusedAddress true) := by decide
  obtain ⟨hfull, hleft, hapart, halike⟩ := hruns
  obtain ⟨s, hrun, -⟩ := reaches_iff.mp hfull
  obtain ⟨s', hwithout, -⟩ := reaches_iff.mp hleft
  exact ⟨s, s', hrun, hwithout,
    accounting_independent (by decide) hapart halike hrun hwithout⟩

/-- The unloaded snippet's entry outlives its block, the other snippet's block at
that address is counted and not recorded, and its release takes nothing back. -/
theorem stale_entry_interferes :
    Meets step (KeepsApart 2 3) initial (reusedAddress false) ∧
      ∃ s s', run step initial (reusedAddress false) = .ok s ∧
        run step initial (without step (OnBehalfOf 3) initial (reusedAddress false)) = .ok s' ∧
        s.host.rawGetMemoryUsage 2 = some 200 ∧ s'.host.rawGetMemoryUsage 2 = some 0 ∧
        s.host.threadAppDomain.lookup 20 = some 2 ∧
        s.host.onMemoryAcquiring 20 maxBytesPerDomain = false ∧
        s'.host.onMemoryAcquiring 20 maxBytesPerDomain = true ∧
        ¬ SameAccounting 2 s.host s'.host := by
  have hruns : Meets step (KeepsApart 2 3) initial (reusedAddress false) ∧
      Reaches step (fun s => s.host.rawGetMemoryUsage 2 = some 200 ∧
        s.host.threadAppDomain.lookup 20 = some 2 ∧
        s.host.onMemoryAcquiring 20 maxBytesPerDomain = false) initial (reusedAddress false) ∧
      Reaches step (fun s' => s'.host.rawGetMemoryUsage 2 = some 0 ∧
        s'.host.onMemoryAcquiring 20 maxBytesPerDomain = true) initial
        (without step (OnBehalfOf 3) initial (reusedAddress false)) := by decide
  obtain ⟨hapart, hfull, hleft⟩ := hruns
  obtain ⟨s, hrun, husage, hthread, hrefused⟩ := reaches_iff.mp hfull
  obtain ⟨s', hwithout, husage', hgranted⟩ := reaches_iff.mp hleft
  refine ⟨hapart, s, s', hrun, hwithout, husage, husage', hthread, hrefused, hgranted, ?_⟩
  intro hsame
  have hequal := hsame.memory
  rw [husage, husage'] at hequal
  cases hequal

end MemoryAudit

end HostedPumpkin
