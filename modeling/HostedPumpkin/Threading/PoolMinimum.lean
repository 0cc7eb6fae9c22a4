import HostedPumpkin.Library.Reservation
import HostedPumpkin.Threading.PortThreads

/-!
The threads of all the ports of a manager, with the number of threads they share.
What one thread does is a step of `PortPool` on the counters of the manager and
the counter of its port. The ports stay open and the minimum is fixed.

A thread reads the number of threads, decides to leave on the counter of its port
and takes itself off the number of threads in the end. The threads that decided
and are still in the number are those the reading of another thread misses.
-/

namespace HostedPumpkin

open Runs

/-- The threads that were created for a port, and the counter they share. -/
structure PortThreads where
  threadsPerPort : DWORD
  threads : List PortThread
deriving DecidableEq

structure PortPools where
  numThreads : DWORD
  numBusyThreads : DWORD
  minThreads : DWORD
  ports : List PortThreads
deriving DecidableEq

inductive PortPoolsAction where
  | createIoCompletionPort
  | onPort (p : Nat) (action : PortPoolAction)
deriving DecidableEq

/-- The port is not closed. -/
def PortPoolsAction.KeepsOpen : PortPoolsAction → Prop
  | .createIoCompletionPort => True
  | .onPort _ action => action.KeepsOpen

instance (action : PortPoolsAction) : Decidable action.KeepsOpen := by
  cases action <;> unfold PortPoolsAction.KeepsOpen <;> infer_instance

namespace PortThread

/-- The thread is in `numThreads`. -/
def counted : PortThread → Nat
  | .countThread | .leaveBusy | .ended => 0
  | _ => 1

/-- The thread decided to leave and is still in `numThreads`. -/
def leaving : PortThread → Nat
  | .leave => 1
  | _ => 0

def running : PortThread → Nat
  | .ended => 0
  | _ => 1

theorem counted_le_running (pc : PortThread) : pc.counted ≤ pc.running := by
  cases pc <;> simp [counted, running]

end PortThread

namespace PortPools

def initial (minThreads : DWORD) : PortPools := ⟨0, 0, minThreads, []⟩

/-- A sum over the threads of all ports. -/
def total (s : PortPools) (weight : PortThread → Nat) : Nat :=
  (s.ports.map (fun port => (port.threads.map weight).sum)).sum

def leaving (s : PortPools) : Nat := s.total PortThread.leaving

/-- What the threads of a port work on. -/
def pool (s : PortPools) (port : PortThreads) : PortPool :=
  ⟨s.numThreads, s.numBusyThreads, s.minThreads, port.threadsPerPort, port.threads⟩

def setPool (s : PortPools) (p : Nat) (pool : PortPool) : PortPools :=
  { s with
    numThreads := pool.numThreads
    numBusyThreads := pool.numBusyThreads
    ports := s.ports.set p ⟨pool.threadsPerPort, pool.threads⟩ }

/-- The actions of a port's own threads. The system runs fewer than `2 ^ 32`
threads at a time: the identifier of a thread is a `DWORD` and is not zero. -/
def Admits (s : PortPools) : PortPoolAction → Prop
  | .createCompletionPortThread created =>
      created = false ∨ s.total PortThread.running + 1 < UInt32.size
  | .otherPorts _ _ | .setMinThreads _ => False
  | _ => True

instance (s : PortPools) : (action : PortPoolAction) → Decidable (s.Admits action)
  | .createCompletionPortThread created => inferInstanceAs
      (Decidable (created = false ∨ s.total PortThread.running + 1 < UInt32.size))
  | .otherPorts _ _ | .setMinThreads _ => inferInstanceAs (Decidable False)
  | .thread _ | .getQueuedCompletionStatus _ _ | .getThreadIOPendingFlag _ _ =>
      inferInstanceAs (Decidable True)

def step (s : PortPools) : PortPoolsAction → Except PortPoolFault PortPools
  | .createIoCompletionPort => .ok { s with ports := s.ports ++ [⟨0, []⟩] }
  | .onPort p action =>
      match s.ports[p]? with
      | none => .error .disabled
      | some port =>
          if s.Admits action then ((s.pool port).step action).map (s.setPool p)
          else .error .disabled

/-- A thread that takes the decision to leave: with those that took it before, the
number of threads stays above the minimum. -/
def Backed (s : PortPools) : PortPoolsAction → Prop
  | .onPort p (.thread i) =>
      ∀ port ∈ s.ports[p]?, port.threads[i]? = some .retire → port.threadsPerPort - 1 > 0 →
        0 < s.minThreads → s.minThreads.toNat + s.leaving < s.numThreads.toNat
  | _ => True

instance (s : PortPools) (action : PortPoolsAction) : Decidable (s.Backed action) := by
  unfold Backed
  split <;> infer_instance

end PortPools

namespace PortPool

/-- What a step on a port that stays open does to the threads of the port and to
the number of threads. -/
inductive Change (s : PortPool) (action : PortPoolAction) : List PortThread → DWORD → Prop where
  | none : Change s action s.threads s.numThreads
  | create (haction : action = .createCompletionPortThread true) :
      Change s action (s.threads ++ [.countThread]) s.numThreads
  | enter {i : Nat} (hi : s.threads[i]? = some .countThread) :
      Change s action (s.threads.set i .countOnPort) (s.numThreads + 1)
  | decide {i : Nat} (hi : s.threads[i]? = some .retire) (haction : action = .thread i)
      (hothers : s.threadsPerPort - 1 > 0) :
      Change s action (s.threads.set i .leave) s.numThreads
  | exit {i : Nat} (hi : s.threads[i]? = some .leave) :
      Change s action (s.threads.set i .leaveBusy) (s.numThreads - 1)
  | other {i : Nat} {old new : PortThread} (hi : s.threads[i]? = some old)
      (hcounted : new.counted = old.counted) (hleaving : new.leaving = old.leaving)
      (hrunning : new.running ≤ old.running) :
      Change s action (s.threads.set i new) s.numThreads

theorem threadStep_change {s next : PortPool} {i : Nat} {pc : PortThread}
    (hi : s.threads[i]? = some pc) (hopen : pc.SawOpen) (hstep : s.threadStep i pc = .ok next) :
    Change s (.thread i) next.threads next.numThreads := by
  cases pc with
  | countThread =>
      cases hstep
      exact .enter hi
  | countOnPort | countBusy | notBusy | busyAgain | rollBack =>
      cases hstep
      exact .other hi rfl rfl (le_refl _)
  | complete status =>
      cases hstep
      rw [if_neg hopen]
      exact .other hi rfl rfl (le_refl _)
  | retire =>
      cases hstep
      split
      next hothers => exact .decide hi rfl hothers
      next => exact .other hi rfl rfl (le_refl _)
  | leave =>
      cases hstep
      exact .exit hi
  | leaveBusy =>
      cases hstep
      exact .other hi rfl rfl (Nat.zero_le _)
  | waiting | askPending | ended => cases hstep

theorem step_change {s next : PortPool} {action : PortPoolAction}
    (hopen : ∀ pc ∈ s.threads, pc.SawOpen) (hstep : s.step action = .ok next)
    (hown : ∀ numThreads numBusyThreads, action ≠ .otherPorts numThreads numBusyThreads) :
    Change s action next.threads next.numThreads := by
  cases action with
  | createCompletionPortThread created =>
      cases hstep
      cases created with
      | false => exact .none
      | true => exact .create rfl
  | thread i =>
      simp only [step] at hstep
      split at hstep
      next => cases hstep
      next pc hi => exact threadStep_change hi (hopen pc (List.mem_of_getElem? hi)) hstep
  | getQueuedCompletionStatus i status =>
      simp only [step] at hstep
      split at hstep
      next hi =>
        cases hstep
        exact .other hi rfl rfl (le_refl _)
      next => cases hstep
  | getThreadIOPendingFlag i ioPending =>
      simp only [step] at hstep
      split at hstep
      next hi =>
        cases hstep
        split
        next => exact .other hi rfl rfl (le_refl _)
        next => exact .other hi rfl rfl (le_refl _)
      next => cases hstep
  | otherPorts numThreads numBusyThreads => exact absurd rfl (hown numThreads numBusyThreads)
  | setMinThreads =>
      cases hstep
      exact .none

/-- The thread reads that others are left on the port. -/
theorem step_retire {s : PortPool} {i : Nat} (hi : s.threads[i]? = some .retire)
    (hothers : s.threadsPerPort - 1 > 0) :
    s.step (.thread i) =
      .ok ({ s with threadsPerPort := s.threadsPerPort - 1 }.goTo i .leave) := by
  simp only [step, hi, threadStep, hothers, if_true]

theorem step_leave {s : PortPool} {i : Nat} (hi : s.threads[i]? = some .leave) :
    s.step (.thread i) = .ok ({ s with numThreads := s.numThreads - 1 }.goTo i .leaveBusy) := by
  simp only [step, hi, threadStep]

theorem step_minThreads {s next : PortPool} {action : PortPoolAction}
    (hstep : s.step action = .ok next) (hown : ∀ n, action ≠ .setMinThreads n) :
    next.minThreads = s.minThreads := by
  cases action with
  | createCompletionPortThread created =>
      cases hstep
      cases created <;> rfl
  | thread i =>
      simp only [step] at hstep
      split at hstep
      next => cases hstep
      next pc hi => cases pc <;> cases hstep <;> rfl
  | getQueuedCompletionStatus | getThreadIOPendingFlag =>
      simp only [step] at hstep
      split at hstep
      next =>
        cases hstep
        rfl
      next => cases hstep
  | otherPorts =>
      cases hstep
      rfl
  | setMinThreads n => exact absurd rfl (hown n)

end PortPool

/-- A sum over a list after a change at one place. -/
theorem sum_map_set {α : Type*} {l : List α} {i : Nat} {old : α} (hi : l[i]? = some old)
    (new : α) (weight : α → Nat) :
    ((l.set i new).map weight).sum + weight old = (l.map weight).sum + weight new := by
  induction l generalizing i with
  | nil => cases hi
  | cons head rest ih =>
      cases i with
      | zero =>
          cases hi
          simp only [List.set_cons_zero, List.map_cons, List.sum_cons]
          omega
      | succ i =>
          have hrest := ih hi
          simp only [List.set_cons_succ, List.map_cons, List.sum_cons]
          omega

namespace PortPools

theorem onPort_ok {s next : PortPools} {p : Nat} {action : PortPoolAction}
    (hstep : s.step (.onPort p action) = .ok next) :
    ∃ port pool, s.ports[p]? = some port ∧ s.Admits action ∧
      (s.pool port).step action = .ok pool ∧ next = s.setPool p pool := by
  simp only [step] at hstep
  split at hstep
  next => cases hstep
  next port hp =>
    split at hstep
    next hadmits =>
      cases hpool : (s.pool port).step action with
      | ok pool =>
          rw [hpool] at hstep
          cases hstep
          exact ⟨port, pool, hp, hadmits, hpool, rfl⟩
      | error fault =>
          rw [hpool] at hstep
          cases hstep
    next => cases hstep

theorem step_onPort {s : PortPools} {p : Nat} {port : PortThreads} {action : PortPoolAction}
    {pool : PortPool} (hp : s.ports[p]? = some port) (hadmits : s.Admits action)
    (hpool : (s.pool port).step action = .ok pool) :
    s.step (.onPort p action) = .ok (s.setPool p pool) := by
  simp only [step, hp, if_pos hadmits, hpool]
  rfl

theorem total_setPool {s : PortPools} {p : Nat} {port : PortThreads}
    (hp : s.ports[p]? = some port) (pool : PortPool) (weight : PortThread → Nat) :
    (s.setPool p pool).total weight + (port.threads.map weight).sum =
      s.total weight + (pool.threads.map weight).sum :=
  sum_map_set hp ⟨pool.threadsPerPort, pool.threads⟩
    (fun port => (port.threads.map weight).sum)

/-- Seen from a port, a step is one of its own or one of the other ports. -/
theorem step_pool {s next : PortPools} {action : PortPoolsAction} {p : Nat} {port : PortThreads}
    (hp : s.ports[p]? = some port) (hopen : action.KeepsOpen)
    (hstep : s.step action = .ok next) :
    ∃ port' poolAction, next.ports[p]? = some port' ∧ poolAction.KeepsOpen ∧
      (s.pool port).step poolAction = .ok (next.pool port') := by
  cases action with
  | createIoCompletionPort =>
      cases hstep
      have hp' : (s.ports ++ [⟨0, []⟩])[p]? = some port := by
        rw [List.getElem?_append_left (List.getElem?_eq_some_iff.mp hp).1]
        exact hp
      exact ⟨port, .otherPorts s.numThreads s.numBusyThreads, hp', trivial, rfl⟩
  | onPort q action =>
      obtain ⟨stepped, pool, hq, hadmits, hpool, rfl⟩ := onPort_ok hstep
      by_cases hpq : q = p
      · subst hpq
        obtain rfl : port = stepped := Option.some.inj (hp.symm.trans hq)
        have hlt := (List.getElem?_eq_some_iff.mp hp).1
        have hfixed : pool.minThreads = s.minThreads := by
          apply PortPool.step_minThreads hpool
          rintro n rfl
          exact hadmits
        refine ⟨⟨pool.threadsPerPort, pool.threads⟩, action, ?_, hopen, ?_⟩
        · exact List.getElem?_set_self hlt
        · rw [hpool, PortPools.pool, setPool, ← hfixed]
      · refine ⟨port, .otherPorts pool.numThreads pool.numBusyThreads, ?_, trivial, rfl⟩
        exact (List.getElem?_set_ne hpq).trans hp

/-- A port that was not there before has no threads. -/
theorem port_created {s next : PortPools} {action : PortPoolsAction} {p : Nat}
    {port : PortThreads} (hstep : s.step action = .ok next) (hbefore : s.ports[p]? = none)
    (hafter : next.ports[p]? = some port) : port = ⟨0, []⟩ := by
  rw [List.getElem?_eq_none_iff] at hbefore
  cases action with
  | createIoCompletionPort =>
      cases hstep
      rw [List.getElem?_append_right hbefore] at hafter
      exact List.mem_singleton.mp (List.mem_of_getElem? hafter)
  | onPort q action =>
      obtain ⟨stepped, pool, -, -, -, rfl⟩ := onPort_ok hstep
      have hlt := (List.getElem?_eq_some_iff.mp hafter).1
      simp only [setPool, List.length_set] at hlt
      omega

/-- Every port counts its threads. -/
def Counted (s : PortPools) : Prop :=
  ∀ (p : Nat) (port : PortThreads), s.ports[p]? = some port → (s.pool port).Counted

theorem Counted.step {s next : PortPools} {action : PortPoolsAction} (hs : s.Counted)
    (hopen : action.KeepsOpen) (hstep : s.step action = .ok next) : next.Counted := by
  intro p port' hp'
  cases hp : s.ports[p]? with
  | some port =>
      obtain ⟨port'', poolAction, hport, hkeeps, hpool⟩ := step_pool hp hopen hstep
      obtain rfl : port' = port'' := Option.some.inj (hp'.symm.trans hport)
      exact (hs p port hp).step hkeeps hpool
  | none =>
      obtain rfl := port_created hstep hp hp'
      have hkeeps : (PortPoolAction.otherPorts next.numThreads next.numBusyThreads).KeepsOpen :=
        trivial
      exact (PortPool.counted_initial next.minThreads).step hkeeps rfl

/-- While no port is closed, every port that a thread entered keeps a thread. -/
theorem ports_served (minThreads : DWORD) (actions : List PortPoolsAction)
    (hopen : ∀ action ∈ actions, action.KeepsOpen) :
    Always step (fun s => ∀ port ∈ s.ports, (s.pool port).Served) (initial minThreads) actions := by
  have hcounted : Always step Counted (initial minThreads) actions :=
    always_of_meets (fun s action next h haction => h.step haction) nofun (meets_of_mem hopen)
  apply hcounted.imp
  intro s hs port hport
  obtain ⟨p, hp⟩ := List.mem_iff_getElem?.mp hport
  exact (hs p port hp).served

/-- What a step does to the number of threads and to the three sums that matter. -/
inductive Effect (s next : PortPools) (action : PortPoolsAction) : Prop where
  | same (hnum : next.numThreads = s.numThreads)
      (hcounted : next.total PortThread.counted = s.total PortThread.counted)
      (hleaving : next.leaving = s.leaving)
      (hrunning : next.total PortThread.running ≤ s.total PortThread.running)
  | create (hnum : next.numThreads = s.numThreads)
      (hcounted : next.total PortThread.counted = s.total PortThread.counted)
      (hleaving : next.leaving = s.leaving)
      (hrunning : next.total PortThread.running < UInt32.size)
  | enter (hnum : next.numThreads = s.numThreads + 1)
      (hcounted : next.total PortThread.counted = s.total PortThread.counted + 1)
      (hleaving : next.leaving = s.leaving)
      (hrunning : next.total PortThread.running = s.total PortThread.running)
  | decide (hnum : next.numThreads = s.numThreads)
      (hcounted : next.total PortThread.counted = s.total PortThread.counted)
      (hleaving : next.leaving = s.leaving + 1)
      (hrunning : next.total PortThread.running = s.total PortThread.running)
      (hbacked : s.Backed action → 0 < s.minThreads →
        s.minThreads.toNat + s.leaving < s.numThreads.toNat)
  | exit (hnum : next.numThreads = s.numThreads - 1)
      (hcounted : next.total PortThread.counted + 1 = s.total PortThread.counted)
      (hleaving : next.leaving + 1 = s.leaving)
      (hrunning : next.total PortThread.running = s.total PortThread.running)

/-- A thread that goes on to another point weighs what that point weighs. -/
theorem total_goTo {s : PortPools} {p i : Nat} {port : PortThreads} {old new : PortThread}
    {pool : PortPool} (hp : s.ports[p]? = some port) (hi : port.threads[i]? = some old)
    (hthreads : port.threads.set i new = pool.threads) (weight : PortThread → Nat) :
    (s.setPool p pool).total weight + weight old = s.total weight + weight new := by
  have hport := total_setPool hp pool weight
  have hthread := sum_map_set hi new weight
  rw [hthreads] at hthread
  omega

theorem onPort_effect {s : PortPools} {p : Nat} {port : PortThreads} {pool : PortPool}
    {action : PortPoolAction} (hp : s.ports[p]? = some port) (hadmits : s.Admits action)
    (hchange : PortPool.Change (s.pool port) action pool.threads pool.numThreads) :
    Effect s (s.setPool p pool) (.onPort p action) := by
  generalize hthreads : pool.threads = threads at hchange
  generalize hnum : pool.numThreads = numThreads at hchange
  cases hchange with
  | none =>
      have htotal := total_setPool hp pool
      simp only [hthreads, PortPools.pool, Nat.add_right_cancel_iff] at htotal
      exact .same hnum (htotal _) (htotal _) (le_of_eq (htotal _))
  | create haction =>
      have htotal := total_setPool hp pool
      simp only [hthreads, PortPools.pool, List.map_append, List.sum_append, List.map_cons,
        List.map_nil, List.sum_singleton] at htotal
      have hroom : s.total PortThread.running + 1 < UInt32.size := by
        subst haction
        exact hadmits.resolve_left Bool.noConfusion
      have hcounted := htotal PortThread.counted
      have hleaving := htotal PortThread.leaving
      have hrunning := htotal PortThread.running
      simp only [PortThread.counted, PortThread.leaving] at hcounted hleaving
      simp only [PortThread.running] at hrunning
      exact .create hnum (by omega) (by unfold leaving; omega) (by omega)
  | enter hi =>
      have htotal := total_goTo hp hi hthreads.symm
      exact .enter hnum (htotal PortThread.counted) (htotal PortThread.leaving)
        (Nat.add_right_cancel (htotal PortThread.running))
  | decide hi haction hothers =>
      have htotal := total_goTo hp hi hthreads.symm
      refine .decide hnum (Nat.add_right_cancel (htotal PortThread.counted))
        (htotal PortThread.leaving) (Nat.add_right_cancel (htotal PortThread.running)) ?_
      intro hbacked
      subst haction
      exact hbacked port hp hi hothers
  | exit hi =>
      have htotal := total_goTo hp hi hthreads.symm
      exact .exit hnum (htotal PortThread.counted) (htotal PortThread.leaving)
        (Nat.add_right_cancel (htotal PortThread.running))
  | other hi hcounted hleaving hrunning =>
      have htotal := total_goTo hp hi hthreads.symm
      have hsum := htotal PortThread.running
      refine .same hnum ?_ ?_ (by omega)
      · have hsum := htotal PortThread.counted
        omega
      · have hsum := htotal PortThread.leaving
        unfold leaving
        omega

theorem toNat_succ {n : DWORD} (hn : n.toNat + 1 < UInt32.size) :
    (n + 1).toNat = n.toNat + 1 := by
  rw [UInt32.toNat_add, UInt32.toNat_one]
  exact Nat.mod_eq_of_lt hn

theorem toNat_pred {n : DWORD} (hn : 0 < n.toNat) : (n - 1).toNat = n.toNat - 1 :=
  UInt32.toNat_sub_of_le n 1 (UInt32.le_iff_toNat_le.mpr hn)

/-- The threads that decided to leave are promised out of the number of threads. -/
def stock (s : PortPools) : Reservation.Stock := ⟨s.numThreads.toNat, s.leaving⟩

/-- The number of threads is exact. -/
structure Exact (s : PortPools) : Prop where
  counts : s.numThreads.toNat = s.total PortThread.counted
  fits : s.total PortThread.running < UInt32.size
  sawOpen : ∀ port ∈ s.ports, ∀ pc ∈ port.threads, pc.SawOpen

theorem counted_le_running (s : PortPools) :
    s.total PortThread.counted ≤ s.total PortThread.running := by
  apply List.sum_le_sum
  intro port _
  apply List.sum_le_sum
  intro pc _
  exact pc.counted_le_running

theorem exact_initial (minThreads : DWORD) : (initial minThreads).Exact :=
  ⟨rfl, Nat.succ_pos _, nofun⟩

theorem step_minThreads {s next : PortPools} {action : PortPoolsAction}
    (hstep : s.step action = .ok next) : next.minThreads = s.minThreads := by
  cases action with
  | createIoCompletionPort =>
      cases hstep
      rfl
  | onPort p action =>
      obtain ⟨port, pool, -, -, -, rfl⟩ := onPort_ok hstep
      rfl

theorem step_effect {s next : PortPools} {action : PortPoolsAction} (hs : s.Exact)
    (hstep : s.step action = .ok next) : Effect s next action := by
  cases action with
  | createIoCompletionPort =>
      cases hstep
      have htotal : ∀ weight, total { s with ports := s.ports ++ [⟨0, []⟩] } weight =
          s.total weight := by
        intro weight
        simp [total]
      exact .same rfl (htotal _) (htotal _) (le_of_eq (htotal _))
  | onPort p action =>
      obtain ⟨port, pool, hp, hadmits, hpool, rfl⟩ := onPort_ok hstep
      have hown : ∀ numThreads numBusyThreads,
          action ≠ .otherPorts numThreads numBusyThreads := by
        rintro numThreads numBusyThreads rfl
        exact hadmits
      have hopen := hs.sawOpen port (List.mem_of_getElem? hp)
      exact onPort_effect hp hadmits (PortPool.step_change hopen hpool hown)

theorem sawOpen_step {s next : PortPools} {action : PortPoolsAction}
    (hs : ∀ port ∈ s.ports, ∀ pc ∈ port.threads, pc.SawOpen) (haction : action.KeepsOpen)
    (hstep : s.step action = .ok next) :
    ∀ port ∈ next.ports, ∀ pc ∈ port.threads, pc.SawOpen := by
  cases action with
  | createIoCompletionPort =>
      cases hstep
      intro port hport
      rcases List.mem_append.mp hport with hold | hnew
      · exact hs port hold
      · rw [List.mem_singleton.mp hnew]
        exact nofun
  | onPort p action =>
      obtain ⟨port, pool, hp, -, hpool, rfl⟩ := onPort_ok hstep
      have hopen := PortPool.sawOpen_step (hs port (List.mem_of_getElem? hp)) haction hpool
      intro port' hport'
      rcases List.mem_or_eq_of_mem_set hport' with hold | rfl
      · exact hs port' hold
      · exact hopen

/-- The running threads fit the number of threads, so no step wraps it around. -/
theorem Exact.step {s next : PortPools} {action : PortPoolsAction} (hs : s.Exact)
    (haction : action.KeepsOpen) (hstep : s.step action = .ok next) : next.Exact := by
  have hopen := sawOpen_step hs.sawOpen haction hstep
  have hcounts := hs.counts
  have hfits := hs.fits
  have hle := s.counted_le_running
  have hle' := next.counted_le_running
  cases step_effect hs hstep with
  | same hnum hcounted hleaving hrunning =>
      rw [← hcounted, ← hnum] at hcounts
      exact ⟨hcounts, by omega, hopen⟩
  | create hnum hcounted hleaving hrunning =>
      rw [← hcounted, ← hnum] at hcounts
      exact ⟨hcounts, hrunning, hopen⟩
  | enter hnum hcounted hleaving hrunning =>
      refine ⟨?_, by omega, hopen⟩
      rw [hnum, hcounted, ← hcounts]
      exact toNat_succ (by omega)
  | decide hnum hcounted hleaving hrunning =>
      rw [← hcounted, ← hnum] at hcounts
      exact ⟨hcounts, by omega, hopen⟩
  | exit hnum hcounted hleaving hrunning =>
      refine ⟨?_, by omega, hopen⟩
      rw [hnum, toNat_pred (by omega)]
      omega

/-- A step whose decision is backed is a step on the stock, or leaves it alone. -/
theorem step_stock {s next : PortPools} {action : PortPoolsAction} (hs : s.Exact)
    (hbacked : s.Backed action) (hnext : next.Exact) (hstep : s.step action = .ok next) :
    next.stock = s.stock ∨ Reservation.Step s.minThreads.toNat s.stock next.stock := by
  have hcounts := hs.counts
  have hcounts' := hnext.counts
  cases step_effect hs hstep with
  | same hnum hcounted hleaving hrunning =>
      left
      simp only [stock, hnum, hleaving]
  | create hnum hcounted hleaving hrunning =>
      left
      simp only [stock, hnum, hleaving]
  | enter hnum hcounted hleaving hrunning =>
      right
      have hstock : next.stock = ⟨s.numThreads.toNat + 1, s.leaving⟩ := by
        rw [stock, hcounts', hcounted, ← hcounts, hleaving]
      rw [hstock]
      exact .add s.stock
  | decide hnum hcounted hleaving hrunning hfloor =>
      right
      have hstock : next.stock = ⟨s.numThreads.toNat, s.leaving + 1⟩ := by
        rw [stock, hnum, hleaving]
      rw [hstock]
      exact .promise s.stock (hfloor hbacked)
  | exit hnum hcounted hleaving hrunning =>
      right
      have hstock : s.stock = ⟨next.numThreads.toNat + 1, next.leaving + 1⟩ := by
        rw [stock, hcounts, ← hcounted, ← hcounts', hleaving]
      rw [hstock]
      exact .take next.stock

/-- The threads that decided to leave can all go without falling below the minimum. -/
structure Covered (minThreads : DWORD) (s : PortPools) : Prop where
  fixed : s.minThreads = minThreads
  exact : s.Exact
  stock : s.stock.Covered minThreads.toNat

theorem Covered.step {minThreads : DWORD} {s next : PortPools} {action : PortPoolsAction}
    (hs : s.Covered minThreads) (hopen : action.KeepsOpen) (hbacked : s.Backed action)
    (hstep : s.step action = .ok next) : next.Covered minThreads := by
  have hnext := hs.exact.step hopen hstep
  have hfixed := (step_minThreads hstep).trans hs.fixed
  refine ⟨hfixed, hnext, ?_⟩
  rcases step_stock hs.exact hbacked hnext hstep with hsame | hmove
  · rw [hsame]
    exact hs.stock
  · rw [hs.fixed] at hmove
    exact hs.stock.step hmove

theorem covered_initial (minThreads : DWORD) : (initial minThreads).Covered minThreads :=
  ⟨rfl, exact_initial minThreads, fun _ hpromised => absurd hpromised (Nat.lt_irrefl 0)⟩

/-- The number of threads has reached the minimum. -/
def Staffed (s : PortPools) : Prop := s.minThreads ≤ s.numThreads

instance (s : PortPools) : Decidable s.Staffed := inferInstanceAs (Decidable (_ ≤ _))

theorem staffed_iff {minThreads : DWORD} {s : PortPools} (hs : s.Covered minThreads) :
    s.Staffed ↔ minThreads.toNat ≤ s.stock.units := by
  rw [Staffed, hs.fixed, UInt32.le_iff_toNat_le]
  rfl

theorem Covered.staffed_step {minThreads : DWORD} {s next : PortPools}
    {action : PortPoolsAction} (hs : s.Covered minThreads) (hopen : action.KeepsOpen)
    (hbacked : s.Backed action) (hstaffed : s.Staffed) (hstep : s.step action = .ok next) :
    next.Staffed := by
  have hnext := hs.step hopen hbacked hstep
  rw [staffed_iff hs] at hstaffed
  rw [staffed_iff hnext]
  rcases step_stock hs.exact hbacked hnext.exact hstep with hsame | hmove
  · rw [hsame]
    exact hstaffed
  · rw [hs.fixed] at hmove
    exact hs.stock.floor_le hmove hstaffed

/-- While no port is closed and every decision to leave is backed, the number of
threads stays at the minimum or above from the moment it has reached it. -/
theorem minimum_kept (minThreads : DWORD) (before after : List PortPoolsAction) {s : PortPools}
    (hopen : ∀ action ∈ before ++ after, action.KeepsOpen)
    (hbefore : Meets step Backed (initial minThreads) before)
    (hrun : run step (initial minThreads) before = .ok s) (hreached : s.Staffed)
    (hafter : Meets step Backed s after) :
    Always step Staffed s after := by
  have hopenBefore : ∀ action ∈ before, action.KeepsOpen :=
    fun action haction => hopen action (List.mem_append_left after haction)
  have hopenAfter : ∀ action ∈ after, action.KeepsOpen :=
    fun action haction => hopen action (List.mem_append_right before haction)
  have hcovered : s.Covered minThreads :=
    invariant_of_meets (fun _ _ _ h hcond => h.step hcond.1 hcond.2)
      (covered_initial minThreads) ((meets_of_mem hopenBefore).and hbefore) hrun
  have hboth : Always step (fun t => t.Covered minThreads ∧ t.Staffed) s after := by
    refine always_of_meets ?_ ⟨hcovered, hreached⟩ ((meets_of_mem hopenAfter).and hafter)
    rintro t action next ⟨ht, hstaffed⟩ ⟨hkeeps, hbacked⟩ hstep
    exact ⟨ht.step hkeeps hbacked hstep, ht.staffed_step hkeeps hbacked hstaffed hstep⟩
  exact hboth.imp (fun t h => h.2)

/-- Two threads and a minimum of one: one of them leaves. -/
theorem minimum_kept_one :
    let enter (i : Nat) : List PortPoolsAction :=
      [.onPort 0 (.thread i), .onPort 0 (.thread i), .onPort 0 (.thread i),
        .onPort 0 (.thread i), .onPort 0 (.getQueuedCompletionStatus i ⟨false, 258⟩),
        .onPort 0 (.thread i), .onPort 0 (.thread i)]
    let before : List PortPoolsAction :=
      [.createIoCompletionPort, .onPort 0 (.createCompletionPortThread true),
        .onPort 0 (.createCompletionPortThread true)] ++ (enter 0 ++ enter 1)
    let s : PortPools := ⟨2, 2, 1, [⟨2, [.askPending, .askPending]⟩]⟩
    run step (initial 1) before = .ok s ∧
      Always step Staffed s [.onPort 0 (.getThreadIOPendingFlag 0 false),
        .onPort 0 (.thread 0), .onPort 0 (.thread 0)] := by
  intro enter before s
  have hrun : run step (initial 1) before = .ok s := rfl
  exact ⟨hrun, minimum_kept 1 before _ (by decide) (by decide) hrun (by decide) (by decide)⟩

/-- Three threads of one port read the number three above the minimum of two. Two
of them decide to leave on that reading, and one thread is left. -/
theorem two_leave_on_one_reading :
    let enter (i : Nat) : List PortPoolsAction :=
      [.onPort 0 (.thread i), .onPort 0 (.thread i), .onPort 0 (.thread i),
        .onPort 0 (.thread i), .onPort 0 (.getQueuedCompletionStatus i ⟨false, 258⟩),
        .onPort 0 (.thread i), .onPort 0 (.thread i)]
    let before : List PortPoolsAction :=
      [.createIoCompletionPort, .onPort 0 (.createCompletionPortThread true),
        .onPort 0 (.createCompletionPortThread true),
        .onPort 0 (.createCompletionPortThread true)] ++ (enter 0 ++ (enter 1 ++ enter 2))
    let after : List PortPoolsAction :=
      [.onPort 0 (.getThreadIOPendingFlag 0 false), .onPort 0 (.getThreadIOPendingFlag 1 false),
        .onPort 0 (.thread 0), .onPort 0 (.thread 1), .onPort 0 (.thread 0),
        .onPort 0 (.thread 1)]
    (∀ action ∈ before ++ after, action.KeepsOpen) ∧
      Reaches step (fun s => s.Staffed ∧ s.numThreads = 3 ∧
        Reaches step (fun t => t.numThreads = 1 ∧ ¬ t.Staffed) s after) (initial 2) before ∧
      ¬ ∀ (minThreads : DWORD) (before after : List PortPoolsAction) (s : PortPools),
        (∀ action ∈ before ++ after, action.KeepsOpen) →
          run step (initial minThreads) before = .ok s → s.Staffed →
            Always step Staffed s after := by
  intro enter before after
  have hopen : ∀ action ∈ before ++ after, action.KeepsOpen := by decide
  have hreaches : Reaches step (fun s => s.Staffed ∧ s.numThreads = 3 ∧
      Reaches step (fun t => t.numThreads = 1 ∧ ¬ t.Staffed) s after) (initial 2) before := by
    decide
  refine ⟨hopen, hreaches, ?_⟩
  intro hall
  obtain ⟨s, hbefore, hstaffed, -, hafter⟩ := reaches_iff.mp hreaches
  obtain ⟨t, hrun, -, hbelow⟩ := reaches_iff.mp hafter
  exact hbelow ((hall 2 before after s hopen hbefore hstaffed).last hrun)

/-- A thread that decided to leave takes itself off the number of threads. -/
def Exits (s : PortPools) : PortPoolsAction → Prop
  | .onPort p (.thread i) => ∃ port ∈ s.ports[p]?, port.threads[i]? = some .leave
  | _ => False

theorem exists_pos_of_sum_pos {α : Type*} {l : List α} {weight : α → Nat}
    (h : 0 < (l.map weight).sum) : ∃ (i : Nat) (a : α), l[i]? = some a ∧ 0 < weight a := by
  by_contra hnone
  push Not at hnone
  apply Nat.ne_of_gt h
  apply List.sum_eq_zero
  intro n hn
  obtain ⟨a, ha, rfl⟩ := List.mem_map.mp hn
  obtain ⟨i, hi⟩ := List.mem_iff_getElem?.mp ha
  exact Nat.eq_zero_of_le_zero (hnone i a hi)

/-- A thread that is leaving can go. -/
theorem exists_exit {s : PortPools} (h : 0 < s.leaving) :
    ∃ action next, s.Exits action ∧ s.step action = .ok next ∧ action.KeepsOpen ∧
      next.numThreads = s.numThreads - 1 ∧ next.leaving + 1 = s.leaving := by
  obtain ⟨p, port, hp, hport⟩ := exists_pos_of_sum_pos h
  obtain ⟨i, pc, hi, hpc⟩ := exists_pos_of_sum_pos hport
  have hleave : pc = .leave := by
    cases pc <;> simp [PortThread.leaving] at hpc ⊢
  subst hleave
  have hpool := PortPool.step_leave (s := s.pool port) hi
  have hadmits : s.Admits (.thread i) := trivial
  have hthreads : port.threads.set i .leaveBusy = (PortPool.goTo
      { s.pool port with numThreads := s.numThreads - 1 } i .leaveBusy).threads := rfl
  refine ⟨.onPort p (.thread i), _, ⟨port, hp, hi⟩, step_onPort hp hadmits hpool, trivial, rfl, ?_⟩
  exact total_goTo hp hi hthreads PortThread.leaving

/-- If more threads decided to leave than the minimum allows, it is enough that they
go. -/
theorem exits_below_minimum {s : PortPools} (hs : s.Exact) (hstaffed : s.Staffed)
    (huncovered : ¬ s.stock.Covered s.minThreads.toNat) :
    ∃ exits, Meets step Exits s exits ∧ Reaches step (fun t => ¬ t.Staffed) s exits := by
  have hreached : s.minThreads.toNat ≤ s.numThreads.toNat :=
    UInt32.le_iff_toNat_le.mp hstaffed
  induction hn : s.leaving generalizing s with
  | zero =>
      obtain ⟨-, hpromised⟩ := Reservation.Stock.promised_of_not_covered huncovered hreached
      simp only [stock, hn] at hpromised
      exact absurd hpromised (Nat.not_lt_zero _)
  | succ n ih =>
      obtain ⟨hpos, hpromised⟩ := Reservation.Stock.promised_of_not_covered huncovered hreached
      obtain ⟨action, next, hexit, hstep, hopen, hnum, hleaving⟩ := exists_exit (s := s) (by omega)
      have hfixed := step_minThreads hstep
      have hpred : next.numThreads.toNat = s.numThreads.toNat - 1 := by
        rw [hnum]
        exact toNat_pred (by omega)
      by_cases hbelow : next.Staffed
      · have hreached' : next.minThreads.toNat ≤ next.numThreads.toNat :=
          UInt32.le_iff_toNat_le.mp hbelow
        have huncovered' : ¬ next.stock.Covered next.minThreads.toNat := by
          intro hcovered
          simp only [Reservation.Stock.Covered, stock] at hcovered hpromised
          rw [hfixed] at hcovered hreached'
          omega
        obtain ⟨exits, hmeets, hreaches⟩ :=
          ih (hs.step hopen hstep) hbelow huncovered' hreached' (by omega)
        refine ⟨action :: exits, ⟨hexit, ?_⟩, next, hstep, hreaches⟩
        intro next' hnext'
        rw [hstep] at hnext'
        cases hnext'
        exact hmeets
      · exact ⟨[action], ⟨hexit, fun _ _ => trivial⟩, next, hstep, hbelow⟩

/-- A decision to leave that is not backed: the exits of those that decided bring the
number of threads below the minimum. -/
theorem exits_after_unbacked {s next : PortPools} {action : PortPoolsAction} (hs : s.Exact)
    (hopen : action.KeepsOpen) (hunbacked : ¬ s.Backed action) (hstaffed : s.Staffed)
    (hstep : s.step action = .ok next) :
    ∃ exits, Meets step Exits next exits ∧ Reaches step (fun t => ¬ t.Staffed) next exits := by
  have hnext := hs.step hopen hstep
  have hfixed := step_minThreads hstep
  obtain ⟨p, i, rfl⟩ : ∃ p i, action = .onPort p (.thread i) := by
    unfold Backed at hunbacked
    split at hunbacked
    next p i => exact ⟨p, i, rfl⟩
    next => exact absurd trivial hunbacked
  simp only [Backed] at hunbacked
  push Not at hunbacked
  obtain ⟨port, hp, hi, hothers, hpos, hle⟩ := hunbacked
  have hpool := PortPool.step_retire (s := s.pool port) hi hothers
  have hadmits : s.Admits (.thread i) := trivial
  have hsame := Except.ok.inj (hstep.symm.trans (step_onPort hp hadmits hpool))
  -- one more thread is leaving and the number of threads is the same
  have hnum : next.numThreads = s.numThreads := by
    rw [hsame]
    rfl
  have hthreads : port.threads.set i .leave = (PortPool.goTo
      { s.pool port with threadsPerPort := port.threadsPerPort - 1 } i .leave).threads := rfl
  have hleaving : next.leaving = s.leaving + 1 := by
    rw [hsame]
    exact total_goTo hp hi hthreads PortThread.leaving
  have hstaffed' : next.Staffed := by
    rw [Staffed, hfixed, hnum]
    exact hstaffed
  apply exits_below_minimum hnext hstaffed'
  rw [hfixed]
  intro hcovered
  have hunits := hcovered (UInt32.lt_iff_toNat_lt.mp hpos)
  simp only [stock, hnum, hleaving] at hunits
  omega

end PortPools

end HostedPumpkin
