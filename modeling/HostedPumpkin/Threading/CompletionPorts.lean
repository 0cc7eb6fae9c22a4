import HostedPumpkin.Host.Context

/-!
The table of I/O completion ports in `SHIoCompletionManager`. A port is entered
where `numberOfPorts` points; `IndexOf` looks for it below that index. Closing a
port is meant to clear its entry, but the entry it compares is the one above the
last port, which is empty or lies behind the table.

The counters of the pool threads are written by those threads; here they change
at any time to any value.
-/

namespace HostedPumpkin

open Runs

/-- `MAX_COMPLETION_PORTS`. -/
def maxCompletionPorts : Nat := 16

/-- An entry of the table; `numThreads` is what the pointer leads to. -/
structure Port where
  hPort : Option HANDLE
  numThreads : Option DWORD
deriving DecidableEq

structure SHIoCompletionManager where
  ports : Vector Port maxCompletionPorts
  numberOfPorts : Nat
  numThreads : DWORD
  numBusyThreads : DWORD
  maxThreads : DWORD
deriving DecidableEq

inductive PortFault where
  | disabled
  | outOfBounds
deriving DecidableEq, Repr

namespace SHIoCompletionManager

def initial (numberOfProcessors : DWORD) : SHIoCompletionManager where
  ports := Vector.replicate maxCompletionPorts ⟨none, none⟩
  numberOfPorts := 0
  numThreads := 0
  numBusyThreads := 0
  maxThreads := numberOfProcessors * 10

/-- The entries `IndexOf` looks at. -/
def usedPorts (m : SHIoCompletionManager) : List Port := m.ports.toList.take m.numberOfPorts

def indexOf (m : SHIoCompletionManager) (hPort : HANDLE) : Int :=
  match m.usedPorts.findIdx? (fun port => port.hPort = some hPort) with
  | some i => i
  | none => -1

/-- The loop of `CreateIoCompletionPort`: it looks for an empty entry and then
fills the one at `numberOfPorts`. -/
def enterPort (m : SHIoCompletionManager) (hPort : HANDLE) :
    List (Fin maxCompletionPorts) → Except PortFault SHIoCompletionManager
  | [] => .ok m
  | i :: rest =>
      if m.ports[i].hPort = none then
        if h : m.numberOfPorts < maxCompletionPorts then
          .ok { m with
            ports := m.ports.set m.numberOfPorts ⟨some hPort, some 0⟩ h
            numberOfPorts := m.numberOfPorts + 1 }
        else .error .outOfBounds
      else m.enterPort hPort rest

/-- `phPort` is what the system returns; null is a failure. -/
def createIoCompletionPort (m : SHIoCompletionManager) (phPort : Option HANDLE) :
    Except PortFault SHIoCompletionManager :=
  match phPort with
  | none => .ok m
  | some hPort => m.enterPort hPort (List.finRange maxCompletionPorts)

/-- The loop of `CloseIoCompletionPort`. The entry it tests is not the one it
clears. -/
def clearPort (m : SHIoCompletionManager) (hPort : HANDLE) :
    List Nat → Except PortFault SHIoCompletionManager
  | [] => .ok m
  | i :: rest =>
      match m.ports[m.numberOfPorts]? with
      | none => .error .outOfBounds
      | some port =>
          if port.hPort = some hPort then
            .ok { m with
              ports := m.ports.setIfInBounds i ⟨none, none⟩
              numberOfPorts := m.numberOfPorts - 1 }
          else m.clearPort hPort rest

/-- `closed` is what `CloseHandle` returns. -/
def closeIoCompletionPort (m : SHIoCompletionManager) (hPort : HANDLE) (closed : Bool) :
    Except PortFault SHIoCompletionManager :=
  if closed then m.clearPort hPort (List.range m.numberOfPorts) else .ok m

def hasCompletionPortThreadpool (m : SHIoCompletionManager) (hPort : HANDLE) : Bool :=
  let idx := m.indexOf hPort
  if idx ≥ 0 then
    match (m.ports[idx.toNat]?).bind Port.numThreads with
    | some p => p > 0
    | none => false
  else false

/-- The entry whose thread counter the new thread gets. -/
def createCompletionPortThread (m : SHIoCompletionManager) (hPort : HANDLE) :
    Except PortFault (Fin maxCompletionPorts) :=
  let idx := m.indexOf hPort
  if h : 0 ≤ idx ∧ idx.toNat < maxCompletionPorts then .ok ⟨idx.toNat, h.2⟩
  else .error .outOfBounds

def growCompletionPortThreadpoolIfNeeded (m : SHIoCompletionManager) (hPort : HANDLE) :
    Except PortFault (Option (Fin maxCompletionPorts)) :=
  if m.numBusyThreads = m.numThreads ∧ m.numBusyThreads < m.maxThreads then
    (m.createCompletionPortThread hPort).map some
  else .ok none

/-- `Bind` on a port that is named, up to the binding of the file handle. The
default port of `Bind` on null comes from `CreateIoCompletionPort`. -/
def bind (m : SHIoCompletionManager) (hPort : HANDLE) :
    Except PortFault (Option (Fin maxCompletionPorts)) :=
  if !m.hasCompletionPortThreadpool hPort then
    (m.createCompletionPortThread hPort).map some
  else m.growCompletionPortThreadpoolIfNeeded hPort

/-- A pool thread counts itself, through the pointer it was given and in the
manager. -/
def poolThread (m : SHIoCompletionManager) (i : Fin maxCompletionPorts)
    (threadsPerPort numThreads numBusyThreads : DWORD) : SHIoCompletionManager :=
  { m with
    ports := m.ports.set i
      { m.ports[i] with numThreads := m.ports[i].numThreads.map (fun _ => threadsPerPort) }
    numThreads
    numBusyThreads }

/-- The ports fill the table from the front without a gap. -/
structure Packed (m : SHIoCompletionManager) : Prop where
  bound : m.numberOfPorts ≤ maxCompletionPorts
  empty : ∀ i : Fin maxCompletionPorts, m.ports[i].hPort = none ↔ m.numberOfPorts ≤ i

/-- With an empty entry in sight the port goes behind the last one. -/
theorem enterPort_of_empty {m : SHIoCompletionManager} {hPort : HANDLE}
    {indices : List (Fin maxCompletionPorts)} (hroom : m.numberOfPorts < maxCompletionPorts)
    (h : ∃ i ∈ indices, m.ports[i].hPort = none) :
    m.enterPort hPort indices = .ok { m with
      ports := m.ports.set m.numberOfPorts ⟨some hPort, some 0⟩ hroom
      numberOfPorts := m.numberOfPorts + 1 } := by
  induction indices with
  | nil =>
      obtain ⟨i, hi, -⟩ := h
      cases hi
  | cons i rest ih =>
      rw [enterPort]
      split
      next => rfl
      next hused =>
        apply ih
        obtain ⟨j, hj, hempty⟩ := h
        rcases List.mem_cons.mp hj with rfl | hj
        · exact absurd hempty hused
        · exact ⟨j, hj, hempty⟩

theorem enterPort_of_full {m : SHIoCompletionManager} {hPort : HANDLE}
    {indices : List (Fin maxCompletionPorts)} (h : ∀ i ∈ indices, m.ports[i].hPort ≠ none) :
    m.enterPort hPort indices = .ok m := by
  induction indices with
  | nil => rfl
  | cons i rest ih =>
      rw [enterPort, if_neg (h i List.mem_cons_self)]
      exact ih (fun j hj => h j (List.mem_cons_of_mem i hj))

/-- A port is entered if the table has room and is dropped otherwise. -/
theorem Packed.createIoCompletionPort_eq {m : SHIoCompletionManager} (hm : m.Packed)
    (hPort : HANDLE) :
    m.createIoCompletionPort (some hPort) =
      if hroom : m.numberOfPorts < maxCompletionPorts then .ok { m with
        ports := m.ports.set m.numberOfPorts ⟨some hPort, some 0⟩ hroom
        numberOfPorts := m.numberOfPorts + 1 }
      else .ok m := by
  rw [createIoCompletionPort]
  split
  next hroom =>
    refine enterPort_of_empty hroom ⟨⟨m.numberOfPorts, hroom⟩, List.mem_finRange _, ?_⟩
    exact (hm.empty _).mpr (le_refl m.numberOfPorts)
  next hfull =>
    apply enterPort_of_full
    intro i _ hempty
    have hle := (hm.empty i).mp hempty
    omega

/-- Closing a port clears nothing, and reads behind a full table. -/
theorem Packed.closeIoCompletionPort_eq {m : SHIoCompletionManager} (hm : m.Packed)
    (hPort : HANDLE) (closed : Bool) :
    m.closeIoCompletionPort hPort closed =
      if closed ∧ m.numberOfPorts = maxCompletionPorts then .error .outOfBounds else .ok m := by
  cases closed with
  | false => simp [closeIoCompletionPort]
  | true =>
      simp only [closeIoCompletionPort, if_true, true_and]
      by_cases hfull : m.numberOfPorts = maxCompletionPorts
      · have hread : m.ports[m.numberOfPorts]? = none :=
          Vector.getElem?_eq_none (le_of_eq hfull.symm)
        have hindices : List.range m.numberOfPorts = 0 :: (List.range 15).map Nat.succ := by
          rw [hfull]
          rfl
        rw [if_pos hfull, hindices, clearPort, hread]
      · rw [if_neg hfull]
        have hroom : m.numberOfPorts < maxCompletionPorts := lt_of_le_of_ne hm.bound hfull
        have hread : m.ports[m.numberOfPorts]? = some m.ports[m.numberOfPorts] :=
          Vector.getElem?_eq_getElem hroom
        have hempty : m.ports[m.numberOfPorts].hPort = none :=
          (hm.empty ⟨m.numberOfPorts, hroom⟩).mpr (le_refl _)
        induction List.range m.numberOfPorts with
        | nil => rfl
        | cons i rest ih =>
            rw [clearPort, hread]
            simpa [hempty] using ih

theorem length_usedPorts {m : SHIoCompletionManager} (h : m.numberOfPorts ≤ maxCompletionPorts) :
    m.usedPorts.length = m.numberOfPorts := by
  rw [usedPorts, List.length_take, Vector.length_toList]
  exact min_eq_left h

/-- `IndexOf` finds the handles of the used entries and no others. -/
theorem indexOf_nonneg_iff {m : SHIoCompletionManager} {hPort : HANDLE} :
    0 ≤ m.indexOf hPort ↔ some hPort ∈ m.usedPorts.map Port.hPort := by
  simp only [indexOf]
  split
  next i hfound =>
    obtain ⟨hi, hport, -⟩ := List.findIdx?_eq_some_iff_getElem.mp hfound
    have hmem : some hPort ∈ m.usedPorts.map Port.hPort := by
      rw [List.mem_map]
      exact ⟨m.usedPorts[i], List.getElem_mem hi, by simpa using hport⟩
    simp [hmem]
  next hnone =>
    rw [List.findIdx?_eq_none_iff] at hnone
    have hnot : some hPort ∉ m.usedPorts.map Port.hPort := by
      rw [List.mem_map]
      rintro ⟨port, hport, heq⟩
      simpa [heq] using hnone port hport
    simp [hnot]

/-- The entry of a port that is found. -/
theorem createCompletionPortThread_ok {m : SHIoCompletionManager} {hPort : HANDLE}
    (h : 0 ≤ m.indexOf hPort) :
    ∃ i : Fin maxCompletionPorts, m.createCompletionPortThread hPort = .ok i ∧
      (i : Nat) < m.numberOfPorts ∧ m.ports[i].hPort = some hPort := by
  simp only [indexOf] at h
  split at h
  next i hfound =>
    obtain ⟨hi, hport, -⟩ := List.findIdx?_eq_some_iff_getElem.mp hfound
    have hindex : m.indexOf hPort = i := by simp only [indexOf, hfound]
    have hbound : i < m.numberOfPorts ∧ i < maxCompletionPorts := by
      rw [usedPorts, List.length_take, Vector.length_toList] at hi
      exact lt_min_iff.mp hi
    refine ⟨⟨i, hbound.2⟩, ?_, hbound.1, ?_⟩
    · simp [createCompletionPortThread, hindex, hbound.2]
    · simpa [usedPorts] using hport
  next => omega

theorem bind_ne_outOfBounds {m : SHIoCompletionManager} {hPort : HANDLE}
    (h : 0 ≤ m.indexOf hPort) : m.bind hPort ≠ .error .outOfBounds := by
  obtain ⟨i, hthread, -⟩ := createCompletionPortThread_ok h
  simp only [bind, growCompletionPortThreadpoolIfNeeded, hthread]
  intro hfault
  split at hfault
  next => cases hfault
  next => split at hfault <;> cases hfault

end SHIoCompletionManager

/-- The manager and the ports that are open in the system, oldest first. -/
structure PortSystem where
  manager : SHIoCompletionManager
  opened : List HANDLE
deriving DecidableEq

inductive PortAction where
  | createIoCompletionPort (phPort : Option HANDLE)
  | closeIoCompletionPort (hPort : HANDLE) (closed : Bool)
  | setMaxThreads (dwMaxIOCompletionThreads : DWORD)
  | poolThread (i : Fin maxCompletionPorts) (threadsPerPort numThreads numBusyThreads : DWORD)
deriving DecidableEq

namespace PortSystem

def initial (numberOfProcessors : DWORD) : PortSystem :=
  ⟨SHIoCompletionManager.initial numberOfProcessors, []⟩

/-- The system returns no handle that is open already. -/
def step (s : PortSystem) : PortAction → Except PortFault PortSystem
  | .createIoCompletionPort phPort =>
      if ∃ hPort ∈ phPort, hPort ∈ s.opened then .error .disabled
      else
        match s.manager.createIoCompletionPort phPort with
        | .ok manager => .ok ⟨manager, s.opened ++ phPort.toList⟩
        | .error fault => .error fault
  | .closeIoCompletionPort hPort closed =>
      match s.manager.closeIoCompletionPort hPort closed with
      | .ok manager => .ok ⟨manager, if closed then s.opened.erase hPort else s.opened⟩
      | .error fault => .error fault
  | .setMaxThreads dwMaxIOCompletionThreads =>
      .ok { s with manager := { s.manager with maxThreads := dwMaxIOCompletionThreads } }
  | .poolThread i threadsPerPort numThreads numBusyThreads =>
      .ok { s with manager :=
        s.manager.poolThread i threadsPerPort numThreads numBusyThreads }

/-- The used entries are the open ports, each once, and so `IndexOf` tells the
open ports from all other handles and every use of its result is an entry. -/
structure Exact (s : PortSystem) : Prop where
  handles : (s.manager.usedPorts.map Port.hPort).Perm (s.opened.map some)
  once : s.opened.Nodup
  index : ∀ hPort, 0 ≤ s.manager.indexOf hPort ↔ hPort ∈ s.opened
  thread : ∀ hPort ∈ s.opened, ∃ i : Fin maxCompletionPorts,
    s.manager.createCompletionPortThread hPort = .ok i ∧
      (i : Nat) < s.manager.numberOfPorts ∧ s.manager.ports[i].hPort = some hPort
  bind : ∀ hPort ∈ s.opened, s.manager.bind hPort ≠ .error .outOfBounds

/-- The rest follows from what the used entries hold. -/
theorem exact_of_handles {s : PortSystem}
    (hhandles : (s.manager.usedPorts.map Port.hPort).Perm (s.opened.map some))
    (honce : s.opened.Nodup) : s.Exact := by
  have hindex : ∀ hPort, 0 ≤ s.manager.indexOf hPort ↔ hPort ∈ s.opened := by
    intro hPort
    rw [SHIoCompletionManager.indexOf_nonneg_iff, hhandles.mem_iff]
    simp
  refine ⟨hhandles, honce, hindex, ?_, ?_⟩
  · intro hPort hopen
    exact SHIoCompletionManager.createCompletionPortThread_ok ((hindex hPort).mpr hopen)
  · intro hPort hopen
    exact SHIoCompletionManager.bind_ne_outOfBounds ((hindex hPort).mpr hopen)

theorem Exact.length_opened {s : PortSystem} (hs : s.Exact) (hpacked : s.manager.Packed) :
    s.opened.length = s.manager.numberOfPorts := by
  have hlength := hs.handles.length_eq
  rw [List.length_map, List.length_map,
    SHIoCompletionManager.length_usedPorts hpacked.bound] at hlength
  exact hlength.symm

/-- The step stays within what the table can do: a created port finds a free
entry, and nothing is closed but a handle that is no port, and that not while
the table is full. -/
def WithinTable (s : PortSystem) : PortAction → Prop
  | .createIoCompletionPort phPort =>
      ∀ hPort ∈ phPort, hPort ∉ s.opened → s.manager.numberOfPorts < maxCompletionPorts
  | .closeIoCompletionPort hPort closed =>
      closed → hPort ∉ s.opened ∧ s.manager.numberOfPorts < maxCompletionPorts
  | .setMaxThreads _ | .poolThread _ _ _ _ => True

theorem usedPorts_enter {m : SHIoCompletionManager} {hPort : HANDLE}
    (hroom : m.numberOfPorts < maxCompletionPorts) :
    (SHIoCompletionManager.usedPorts { m with
        ports := m.ports.set m.numberOfPorts ⟨some hPort, some 0⟩ hroom
        numberOfPorts := m.numberOfPorts + 1 }).map Port.hPort =
      m.usedPorts.map Port.hPort ++ [some hPort] := by
  have hlength : m.numberOfPorts < m.ports.toList.length := by
    rw [Vector.length_toList]
    exact hroom
  simp only [SHIoCompletionManager.usedPorts, Vector.toList_set]
  rw [List.take_add_one, List.take_set_of_le (le_refl _), List.getElem?_set_self hlength]
  simp

theorem packed_enter {m : SHIoCompletionManager} (hm : m.Packed) {hPort : HANDLE}
    (hroom : m.numberOfPorts < maxCompletionPorts) :
    SHIoCompletionManager.Packed { m with
      ports := m.ports.set m.numberOfPorts ⟨some hPort, some 0⟩ hroom
      numberOfPorts := m.numberOfPorts + 1 } := by
  refine ⟨hroom, ?_⟩
  intro i
  have hempty := hm.empty i
  by_cases hi : m.numberOfPorts = i
  · simp [hi]
  · simp only [Fin.getElem_fin, Vector.getElem_set, if_neg hi]
    rw [Fin.getElem_fin] at hempty
    rw [hempty]
    omega

theorem getElem_poolThread (m : SHIoCompletionManager) (i j : Fin maxCompletionPorts)
    (threadsPerPort numThreads numBusyThreads : DWORD) :
    ((m.poolThread i threadsPerPort numThreads numBusyThreads).ports[j]).hPort =
      m.ports[j].hPort := by
  by_cases hij : (i : Nat) = j
  · simp [SHIoCompletionManager.poolThread, hij]
  · simp [SHIoCompletionManager.poolThread, hij]

theorem usedPorts_poolThread (m : SHIoCompletionManager) (i : Fin maxCompletionPorts)
    (threadsPerPort numThreads numBusyThreads : DWORD) :
    (m.poolThread i threadsPerPort numThreads numBusyThreads).usedPorts.map Port.hPort =
      m.usedPorts.map Port.hPort := by
  have hlength : (i : Nat) < (m.ports.toList.map Port.hPort).length := by simp
  have hsame : (m.poolThread i threadsPerPort numThreads numBusyThreads).ports.toList.map
      Port.hPort = (m.ports.toList.map Port.hPort).set i
        (m.ports.toList.map Port.hPort)[(i : Nat)] := by
    simp [SHIoCompletionManager.poolThread, Vector.toList_set, List.map_set]
  rw [SHIoCompletionManager.usedPorts, List.map_take, hsame, List.set_getElem_self,
    SHIoCompletionManager.usedPorts, List.map_take]
  rfl

/-- The ports stay packed whatever is called. -/
theorem step_packed (s : PortSystem) (a : PortAction) (next : PortSystem)
    (hs : s.manager.Packed) (h : s.step a = .ok next) : next.manager.Packed := by
  cases a with
  | createIoCompletionPort phPort =>
      simp only [step] at h
      split at h
      next => cases h
      next =>
        cases phPort with
        | none =>
            cases h
            exact hs
        | some hPort =>
            rw [hs.createIoCompletionPort_eq] at h
            split at h
            next manager hcall =>
              split at hcall
              next hroom =>
                cases hcall
                cases h
                exact packed_enter hs hroom
              next =>
                cases hcall
                cases h
                exact hs
            next => cases h
  | closeIoCompletionPort hPort closed =>
      simp only [step] at h
      rw [hs.closeIoCompletionPort_eq] at h
      split at h
      next manager hcall =>
        split at hcall
        next => cases hcall
        next =>
          cases hcall
          cases h
          exact hs
      next => cases h
  | setMaxThreads maxThreads =>
      cases h
      exact ⟨hs.bound, hs.empty⟩
  | poolThread i threadsPerPort numThreads numBusyThreads =>
      cases h
      refine ⟨hs.bound, ?_⟩
      intro j
      rw [getElem_poolThread]
      exact hs.empty j

theorem create_exact_iff (s : PortSystem) (phPort : Option HANDLE) (hs : s.Exact)
    (hpacked : s.manager.Packed) :
    s.WithinTable (.createIoCompletionPort phPort) ↔
      s.step (.createIoCompletionPort phPort) ≠ .error .outOfBounds ∧
        ∀ next, s.step (.createIoCompletionPort phPort) = .ok next → next.Exact := by
  cases phPort with
  | none =>
      have hstep : s.step (.createIoCompletionPort none) = .ok s := by
        simp [step, SHIoCompletionManager.createIoCompletionPort]
      simp [WithinTable, hstep, hs]
  | some hPort =>
      by_cases hopen : hPort ∈ s.opened
      · have hstep : s.step (.createIoCompletionPort (some hPort)) = .error .disabled := by
          simp [step, hopen]
        simp [WithinTable, hstep, hopen]
      · by_cases hroom : s.manager.numberOfPorts < maxCompletionPorts
        · have hstep : s.step (.createIoCompletionPort (some hPort)) = .ok
              ⟨{ s.manager with
                ports := s.manager.ports.set s.manager.numberOfPorts ⟨some hPort, some 0⟩ hroom
                numberOfPorts := s.manager.numberOfPorts + 1 }, s.opened ++ [hPort]⟩ := by
            simp [step, hopen, hpacked.createIoCompletionPort_eq, hroom]
          rw [hstep]
          refine ⟨fun _ => ⟨by simp, ?_⟩, fun _ _ _ _ => hroom⟩
          rintro next ⟨⟩
          apply exact_of_handles
          · show List.Perm (List.map Port.hPort _) _
            rw [usedPorts_enter hroom, List.map_append]
            exact hs.handles.append_right _
          · refine List.nodup_append.mpr ⟨hs.once, by simp, ?_⟩
            rintro a ha b hb rfl
            rw [List.mem_singleton] at hb
            exact hopen (hb ▸ ha)
        · -- the port is open in the system and in no entry
          have hstep : s.step (.createIoCompletionPort (some hPort)) =
              .ok ⟨s.manager, s.opened ++ [hPort]⟩ := by
            simp [step, hopen, hpacked.createIoCompletionPort_eq, hroom]
          rw [hstep]
          constructor
          · intro hcond
            exact absurd (hcond hPort rfl hopen) hroom
          · rintro ⟨-, hnext⟩
            have hlength : (s.opened ++ [hPort]).length = s.manager.numberOfPorts :=
              (hnext _ rfl).length_opened hpacked
            rw [List.length_append, hs.length_opened hpacked, List.length_singleton] at hlength
            omega

theorem close_exact_iff (s : PortSystem) (hPort : HANDLE) (closed : Bool) (hs : s.Exact)
    (hpacked : s.manager.Packed) :
    s.WithinTable (.closeIoCompletionPort hPort closed) ↔
      s.step (.closeIoCompletionPort hPort closed) ≠ .error .outOfBounds ∧
        ∀ next, s.step (.closeIoCompletionPort hPort closed) = .ok next → next.Exact := by
  cases closed with
  | false =>
      have hstep : s.step (.closeIoCompletionPort hPort false) = .ok s := by
        simp [step, SHIoCompletionManager.closeIoCompletionPort]
      simp [WithinTable, hstep, hs]
  | true =>
      by_cases hfull : s.manager.numberOfPorts = maxCompletionPorts
      · have hstep : s.step (.closeIoCompletionPort hPort true) = .error .outOfBounds := by
          simp [step, hpacked.closeIoCompletionPort_eq, hfull]
        simp [WithinTable, hstep, hfull]
      · have hstep : s.step (.closeIoCompletionPort hPort true) =
            .ok ⟨s.manager, s.opened.erase hPort⟩ := by
          simp [step, hpacked.closeIoCompletionPort_eq, hfull]
        have hroom : s.manager.numberOfPorts < maxCompletionPorts :=
          lt_of_le_of_ne hpacked.bound hfull
        rw [hstep]
        constructor
        · intro hcond
          refine ⟨by simp, ?_⟩
          rintro next ⟨⟩
          rw [List.erase_of_not_mem (hcond rfl).1]
          exact hs
        · rintro ⟨-, hnext⟩ -
          refine ⟨?_, hroom⟩
          -- a closed port would keep its entry
          intro hopen
          have hlength : (s.opened.erase hPort).length = s.manager.numberOfPorts :=
            (hnext _ rfl).length_opened hpacked
          rw [List.length_erase_of_mem hopen, hs.length_opened hpacked] at hlength
          have hpos := List.length_pos_of_mem hopen
          rw [hs.length_opened hpacked] at hpos
          omega

theorem step_exact_iff (s : PortSystem) (a : PortAction) (hs : s.Exact)
    (hpacked : s.manager.Packed) :
    s.WithinTable a ↔
      s.step a ≠ .error .outOfBounds ∧ ∀ next, s.step a = .ok next → next.Exact := by
  cases a with
  | createIoCompletionPort phPort => exact create_exact_iff s phPort hs hpacked
  | closeIoCompletionPort hPort closed => exact close_exact_iff s hPort closed hs hpacked
  | setMaxThreads maxThreads =>
      refine ⟨fun _ => ⟨by simp [step], ?_⟩, fun _ => trivial⟩
      rintro next ⟨⟩
      exact exact_of_handles hs.handles hs.once
  | poolThread i threadsPerPort numThreads numBusyThreads =>
      refine ⟨fun _ => ⟨by simp [step], ?_⟩, fun _ => trivial⟩
      rintro next ⟨⟩
      apply exact_of_handles
      · show List.Perm (List.map Port.hPort _) _
        rw [usedPorts_poolThread]
        exact hs.handles
      · exact hs.once

/-- The table holds the open ports throughout a run, and nothing outside it is
read, if and only if no step asks for more than the table can do. -/
theorem ports_exact_iff (numberOfProcessors : DWORD) (actions : List PortAction) :
    (Always step Exact (initial numberOfProcessors) actions ∧
        run step (initial numberOfProcessors) actions ≠ .error .outOfBounds) ↔
      Meets step WithinTable (initial numberOfProcessors) actions := by
  have hpacked : (initial numberOfProcessors).manager.Packed := by
    refine ⟨Nat.zero_le _, ?_⟩
    intro i
    simp [initial, SHIoCompletionManager.initial]
  have hassume := (always_of_step step_packed hpacked actions).meets
  refine always_safe_iff_meets (fun s a hs hpacked => step_exact_iff s a hs hpacked) ?_ hassume
  exact exact_of_handles (by simp [initial, SHIoCompletionManager.usedPorts,
    SHIoCompletionManager.initial]) List.nodup_nil

/-- A port is created and closed, and stays in the table. -/
theorem closed_port_stays :
    (∃ s, run step (initial 4) [.createIoCompletionPort (some 64),
        .closeIoCompletionPort 64 true] = .ok s ∧
      s.opened = [] ∧ s.manager.numberOfPorts = 1 ∧ s.manager.indexOf 64 = 0) ∧
    ¬ ∀ actions, Always step Exact (initial 4) actions := by
  have hrun : Reaches step (fun s => s.opened = [] ∧ s.manager.numberOfPorts = 1 ∧
      s.manager.indexOf 64 = 0) (initial 4) [.createIoCompletionPort (some 64),
        .closeIoCompletionPort 64 true] := by decide
  obtain ⟨s, hrun, hopened, hnumber, hindex⟩ := reaches_iff.mp hrun
  refine ⟨⟨s, hrun, hopened, hnumber, hindex⟩, ?_⟩
  intro hall
  have hexact := (hall _).last hrun
  have hopen := (hexact.index 64).mp (by rw [hindex])
  rw [hopened] at hopen
  cases hopen

end PortSystem

end HostedPumpkin
