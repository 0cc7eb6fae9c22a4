import HostedPumpkin.Host.Operations

/-!
`HostContext` with `TRACK_THREAD_RELATIONSHIP`: it also records which thread
created which. The relation is changed where a thread is acquired and where it is
released, under the lock of the other maps.

When a thread is released its children should get its parent. The loop that
gives it to them stops at the first child, inserts under a key that is there and
then erases it.
-/

namespace HostedPumpkin

open Runs

/-- The order of the keys of a `std::map<DWORD, _>`. -/
@[reducible] def keyOrder : LinearOrder DWORD :=
  LinearOrder.lift' UInt32.toNat (fun _ _ h => UInt32.toNat_inj.mp h)

namespace Relationship

/-- The entry the loop over `childThreadToParent` stops at: the first one whose
parent is the thread. -/
def firstChild (childThreadToParent : StdMap DWORD DWORD) (dwThreadId : DWORD) : Option DWORD :=
  @Finset.min DWORD keyOrder (childThreadToParent.fiber dwThreadId)

/-- The body of the loop, for a parent that is the released thread. What is inserted
is the key that was found, not the parent stored there. -/
def orphan (childThreadToParent : StdMap DWORD DWORD) (childId parentId : DWORD) :
    StdMap DWORD DWORD :=
  let inserted :=
    if parentId ∈ childThreadToParent then childThreadToParent.insertNew childId parentId
    else childThreadToParent
  inserted.remove childId

def release (childThreadToParent : StdMap DWORD DWORD) (dwThreadId : DWORD) :
    StdMap DWORD DWORD :=
  let left :=
    match firstChild childThreadToParent dwThreadId with
    | some childId => orphan childThreadToParent childId dwThreadId
    | none => childThreadToParent
  left.remove dwThreadId

end Relationship

structure TrackedContext extends HostContext where
  childThreadToParent : StdMap DWORD DWORD
deriving DecidableEq

namespace TrackedContext

def initial : TrackedContext := { HostContext.initial with childThreadToParent := ∅ }

def onThreadAcquire (dwParentThreadId dwThreadId : DWORD) (s : TrackedContext) :
    Except HostFault (TrackedContext × Bool) :=
  match s.toDomainData.onThreadAcquire dwParentThreadId dwThreadId with
  | .ok (c, true) =>
      .ok ({ s with
        toDomainData := c
        childThreadToParent := s.childThreadToParent.insertNew dwThreadId dwParentThreadId }, true)
  | .ok (c, false) => .ok ({ s with toDomainData := c }, false)
  | .error fault => .error fault

def onThreadRelease (dwThreadId : DWORD) (s : TrackedContext) :
    Except HostFault (TrackedContext × Option DomainData.MainThreadExit × Bool) :=
  match s.toDomainData.onThreadRelease dwThreadId with
  | .ok (c, exit, true) =>
      .ok ({ s with
        toDomainData := c
        childThreadToParent := Relationship.release s.childThreadToParent dwThreadId }, exit, true)
  | .ok (c, exit, false) => .ok ({ s with toDomainData := c }, exit, false)
  | .error fault => .error fault

/-- The other calls do not know the relation. -/
def step (s : TrackedContext) : HostOp → Except HostFault TrackedContext
  | .onThreadAcquire dwParentThreadId dwThreadId =>
      (s.onThreadAcquire dwParentThreadId dwThreadId).map Prod.fst
  | .onThreadRelease dwThreadId => (s.onThreadRelease dwThreadId).map Prod.fst
  | op => (s.toHostContext.step op).map (fun c => { s with toHostContext := c })

end TrackedContext

namespace Relationship

variable {m : StdMap DWORD DWORD} {thread : DWORD}

theorem firstChild_eq_none :
    firstChild m thread = none ↔ ∀ child, m.lookup child ≠ some thread := by
  have hempty : firstChild m thread = none ↔ m.fiber thread = ∅ :=
    @Finset.min_eq_top DWORD keyOrder (m.fiber thread)
  rw [hempty, Finset.eq_empty_iff_forall_notMem]
  simp only [StdMap.mem_fiber, ne_eq]

theorem lookup_firstChild {child : DWORD} (h : firstChild m thread = some child) :
    m.lookup child = some thread :=
  StdMap.mem_fiber.mp (@Finset.mem_of_min DWORD keyOrder (m.fiber thread) child h)

/-- The insertion meets an entry for the child and does nothing. -/
theorem lookup_orphan {child : DWORD} (h : m.lookup child = some thread) (key : DWORD) :
    (orphan m child thread).lookup key = if key = child then none else m.lookup key := by
  have hsame : ∀ value, m.insertNew child value = m := by
    intro value
    rw [StdMap.insertNew, if_pos (Finmap.mem_of_lookup_eq_some h)]
  simp only [orphan, hsame, ite_self, StdMap.lookup_remove]

/-- A release takes out the entry of the thread and of its first child. -/
theorem lookup_release (m : StdMap DWORD DWORD) (thread key : DWORD) :
    (release m thread).lookup key =
      if key = thread ∨ firstChild m thread = some key then none else m.lookup key := by
  simp only [release, StdMap.lookup_remove]
  cases hfirst : firstChild m thread with
  | none => simp
  | some child =>
      have hlookup := lookup_orphan (lookup_firstChild hfirst) key
      simp only [hlookup, Option.some.injEq, eq_comm (a := child)]
      by_cases hkey : key = thread <;> simp [hkey]

/-- The released thread is gone and its children have its parent. -/
structure Repaired (m next : StdMap DWORD DWORD) (thread : DWORD) : Prop where
  noChild : next.lookup thread = none
  noParent : ∀ child, next.lookup child ≠ some thread
  children : ∀ child, child ≠ thread → m.lookup child = some thread →
    next.lookup child = m.lookup thread
  others : ∀ child, child ≠ thread → m.lookup child ≠ some thread →
    next.lookup child = m.lookup child

/-- The thread is the parent of no other thread, or it has one child and no
parent. -/
def Mendable (m : StdMap DWORD DWORD) (thread : DWORD) : Prop :=
  (∀ child, m.lookup child = some thread → child = thread) ∨
    m.lookup thread = none ∧ ∃ only, ∀ child, m.lookup child = some thread ↔ child = only

theorem Repaired.mendable (h : Repaired m (release m thread) thread) : Mendable m thread := by
  by_cases hself : ∀ child, m.lookup child = some thread → child = thread
  · exact Or.inl hself
  · right
    push Not at hself
    obtain ⟨only, honly, hne⟩ := hself
    -- a child that keeps its entry would keep the thread as its parent
    have hfirst : ∀ child, m.lookup child = some thread → child ≠ thread →
        firstChild m thread = some child := by
      intro child hchild hother
      by_contra hlater
      apply h.noParent child
      rw [lookup_release, if_neg, hchild]
      rintro (heq | heq)
      · exact hother heq
      · exact hlater heq
    have hparent : m.lookup thread = none := by
      rw [← h.children only hne honly, lookup_release, if_pos (Or.inr (hfirst only honly hne))]
    refine ⟨hparent, only, ?_⟩
    intro child
    constructor
    · intro hchild
      have hother : child ≠ thread := by
        rintro rfl
        rw [hparent] at hchild
        cases hchild
      have hsame := (hfirst child hchild hother).symm.trans (hfirst only honly hne)
      exact Option.some.inj hsame
    · rintro rfl
      exact honly

/-- Only the entry of the thread and of its only child are taken out. -/
theorem Mendable.repaired (h : Mendable m thread) : Repaired m (release m thread) thread := by
  rcases h with hself | ⟨hparent, only, honly⟩
  · have hlookup : ∀ key, (release m thread).lookup key =
        if key = thread then none else m.lookup key := by
      intro key
      rw [lookup_release]
      apply if_congr ?_ rfl rfl
      constructor
      · rintro (heq | hfirst)
        · exact heq
        · exact hself key (lookup_firstChild hfirst)
      · exact Or.inl
    refine ⟨by simp [hlookup], ?_, ?_, ?_⟩
    · intro child hchild
      rw [hlookup] at hchild
      split at hchild
      next => cases hchild
      next hne => exact hne (hself child hchild)
    · intro child hne hchild
      exact absurd (hself child hchild) hne
    · intro child hne _
      rw [hlookup, if_neg hne]
  · have hfirst : firstChild m thread = some only := by
      cases hcase : firstChild m thread with
      | none => exact absurd ((honly only).mpr rfl) (firstChild_eq_none.mp hcase only)
      | some child => rw [(honly child).mp (lookup_firstChild hcase)]
    refine ⟨by simp [lookup_release], ?_, ?_, ?_⟩
    · intro child hchild
      rw [lookup_release, hfirst] at hchild
      split at hchild
      next => cases hchild
      next hkept =>
        obtain rfl := (honly child).mp hchild
        exact hkept (Or.inr rfl)
    · intro child _ hchild
      obtain rfl := (honly child).mp hchild
      rw [lookup_release, hfirst, hparent, if_pos (Or.inr rfl)]
    · intro child hne hchild
      rw [lookup_release, hfirst, if_neg]
      rintro (heq | heq)
      · exact hne heq
      · exact hchild ((honly child).mpr (Option.some.inj heq).symm)

theorem repaired_release_iff (m : StdMap DWORD DWORD) (thread : DWORD) :
    Repaired m (release m thread) thread ↔ Mendable m thread :=
  ⟨Repaired.mendable, Mendable.repaired⟩

end Relationship

namespace TrackedContext

/-- Without the relation the calls are those of `HostContext`. -/
theorem step_toHostContext (s : TrackedContext) (op : HostOp) :
    (s.step op).map toHostContext = s.toHostContext.step op := by
  cases op with
  | onThreadAcquire parent thread =>
      simp only [step, onThreadAcquire, HostContext.step, HostContext.withDomainData]
      cases s.toDomainData.onThreadAcquire parent thread with
      | error fault => rfl
      | ok result =>
          obtain ⟨c, answer⟩ := result
          cases answer <;> rfl
  | onThreadRelease thread =>
      simp only [step, onThreadRelease, HostContext.step, HostContext.withDomainData]
      cases s.toDomainData.onThreadRelease thread with
      | error fault => rfl
      | ok result =>
          obtain ⟨c, exit, answer⟩ := result
          cases answer <;> rfl
  | postHostMessage | rawGetLastMessage | onDomainUnload | onDomainRudeUnload | onDomainCreate
  | onThreadAcquiring | onMemoryAcquire | onMemoryRelease | rawResetCountersForAppDomain =>
      simp only [step]
      cases s.toHostContext.step _ <;> rfl

/-- The call releases the thread: it returns true. -/
def Releases (s : TrackedContext) (thread : DWORD) (next : TrackedContext) : Prop :=
  ∃ exit, s.onThreadRelease thread = .ok (next, exit, true)

/-- What a call should do to the relation when it releases a thread. -/
def Repairs (s : TrackedContext) : HostOp → Prop
  | .onThreadRelease thread => ∀ next, s.Releases thread next →
      Relationship.Repaired s.childThreadToParent next.childThreadToParent thread
  | _ => True

/-- A released thread has no child, or one child and no parent. -/
def ReleasesMendable (s : TrackedContext) : HostOp → Prop
  | .onThreadRelease thread => (∃ next, s.Releases thread next) →
      Relationship.Mendable s.childThreadToParent thread
  | _ => True

theorem releases_relation {s next : TrackedContext} {thread : DWORD}
    (h : s.Releases thread next) :
    next.childThreadToParent = Relationship.release s.childThreadToParent thread := by
  obtain ⟨exit, h⟩ := h
  simp only [onThreadRelease] at h
  split at h
  next =>
    cases h
    rfl
  next => cases h
  next => cases h

theorem repairs_iff (s : TrackedContext) (op : HostOp) : s.Repairs op ↔ s.ReleasesMendable op := by
  cases op with
  | onThreadRelease thread =>
      constructor
      · rintro hrepairs ⟨next, hreleases⟩
        have hrepaired := hrepairs next hreleases
        rw [releases_relation hreleases] at hrepaired
        exact (Relationship.repaired_release_iff _ thread).mp hrepaired
      · intro hmendable next hreleases
        rw [releases_relation hreleases]
        exact (Relationship.repaired_release_iff _ thread).mpr (hmendable ⟨next, hreleases⟩)
  | _ => exact Iff.rfl

/-- In a run every release repairs the relation if and only if no released thread
has a parent and a child, or several children. -/
theorem releases_repair_iff (ops : List HostOp) :
    Meets step Repairs initial ops ↔ Meets step ReleasesMendable initial ops :=
  meets_congr repairs_iff

/-- What `OnThreadRelease` answers, with the parents of two threads afterwards. -/
def afterRelease (s : TrackedContext) (thread child other : DWORD) :
    Option (Option DWORD × Option DWORD × Bool) :=
  (s.onThreadRelease thread).toOption.map (fun result =>
    (result.1.childThreadToParent.lookup child, result.1.childThreadToParent.lookup other,
      result.2.2))

/-- A thread with a parent and two children is released: one child loses its entry
and the other one keeps the thread as its parent. -/
theorem release_breaks_relation :
    let before : List HostOp :=
      [.onDomainCreate 1 100 (some 0) 0, .onThreadAcquire 100 200, .onThreadAcquire 200 300,
        .onThreadAcquire 200 400]
    Reaches step (fun s => s.childThreadToParent.lookup 200 = some 100 ∧
      s.childThreadToParent.lookup 300 = some 200 ∧ s.childThreadToParent.lookup 400 = some 200 ∧
      s.afterRelease 200 300 400 = some (none, some 200, true)) initial before ∧
    ¬ ∀ ops, Meets step Repairs initial ops := by
  intro before
  have hreaches : Reaches step (fun s => s.childThreadToParent.lookup 200 = some 100 ∧
      s.childThreadToParent.lookup 300 = some 200 ∧ s.childThreadToParent.lookup 400 = some 200 ∧
      s.afterRelease 200 300 400 = some (none, some 200, true)) initial before := by decide
  refine ⟨hreaches, ?_⟩
  intro hall
  obtain ⟨s, hrun, hparent, hchild, -, hafter⟩ := reaches_iff.mp hreaches
  have hrepairs : s.Repairs (.onThreadRelease 200) :=
    (hall (before ++ [.onThreadRelease 200])).of_append hrun
  unfold afterRelease at hafter
  cases hcall : s.onThreadRelease 200 with
  | error fault =>
      rw [hcall] at hafter
      cases hafter
  | ok result =>
      obtain ⟨next, exit, answer⟩ := result
      simp only [hcall, Except.toOption, Option.map_some, Option.some.injEq, Prod.mk.injEq]
        at hafter
      obtain ⟨hlost, -, rfl⟩ := hafter
      have hrepaired := hrepairs next ⟨exit, hcall⟩
      have hkept := hrepaired.children 300 (by decide) hchild
      rw [hlost, hparent] at hkept
      cases hkept

end TrackedContext

end HostedPumpkin
