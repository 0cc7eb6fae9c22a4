import HostedPumpkin.Library.CString
import HostedPumpkin.Assembly.HandedOut

/-!
`ProvideAssembly` with all it hands out: the id of the assembly, the file its
image is read from and the file of its debug information. How `_wcsnicmp` folds
case is a parameter, and so is which files can be opened.

The id is the place of the assembly in the list, counted from 10000.
-/

namespace HostedPumpkin

open Utf16

/-- A case folding; nothing but the terminator folds to the terminator. -/
structure CaseFolding where
  fold : CodeUnit → CodeUnit
  terminator : ∀ c, fold c = 0 → c = 0

namespace CaseFolding

/-- Equal up to letter case. -/
def Same (folding : CaseFolding) (name name' : List CodeUnit) : Prop :=
  name.map folding.fold = name'.map folding.fold

instance (folding : CaseFolding) (name name' : List CodeUnit) :
    Decidable (folding.Same name name') := inferInstanceAs (Decidable (_ = _))

theorem Same.length_eq {folding : CaseFolding} {name name' : List CodeUnit}
    (h : folding.Same name name') : name'.length = name.length := by
  simpa using (congrArg List.length h).symm

/-- `_wcsnicmp`: the difference of the first characters that differ, or zero. -/
def wcsnicmp (folding : CaseFolding) : List CodeUnit → List CodeUnit → Nat → Int
  | _, _, 0 => 0
  | string1, string2, count + 1 =>
      let c1 := folding.fold (string1.headD 0)
      let c2 := folding.fold (string2.headD 0)
      if c1 ≠ c2 then (c1.toNat : Int) - c2.toNat
      else if c1 = 0 then 0
      else folding.wcsnicmp string1.tail string2.tail count

end CaseFolding

/-- `S_OK`, and `ERROR_FILE_NOT_FOUND` as an `HRESULT`. -/
inductive ProvideResult where
  | ok
  | fileNotFound
deriving DecidableEq, Repr

/-- What `ProvideAssembly` returns and writes; `none` where it writes nothing. A
stream is the name of the file it was opened on, and `some none` is a null pointer. -/
structure ProvideOutput where
  hr : ProvideResult
  pAssemblyId : Option UInt64
  pContext : Option UInt64
  ppStmAssemblyImage : Option (List CodeUnit)
  ppStmPDB : Option (Option (List CodeUnit))
deriving DecidableEq

/-- The store with the list it was given; every node has an address of its own. -/
structure AssemblyStore where
  hostAssemblies : List AssemblyInfo
  fits : hostAssemblies.length < 2 ^ 32

namespace AssemblyStore

variable (folding : CaseFolding) (opens : List CodeUnit → Bool)

/-- `CreateStreamFromFile` on the C string of a `std::wstring`. -/
def createStreamFromFile (fileName : List CodeUnit) : Option (List CodeUnit) :=
  let name := CString.text 0 fileName
  if opens name then some name else none

def sameAssembly (availableName requiredName : List CodeUnit) : Bool :=
  let requiredNameLen := (CString.text 0 requiredName).length
  requiredNameLen == availableName.length &&
    folding.wcsnicmp availableName requiredName availableName.length == 0

/-- The body of the loop for the assembly that is asked for. -/
def provide (id : UInt64) (it : AssemblyInfo) : ProvideOutput :=
  if it.assemblyLoadPath.isEmpty then ⟨.fileNotFound, some id, some 0, none, none⟩
  else
    match createStreamFromFile opens it.assemblyLoadPath with
    | none => ⟨.fileNotFound, some id, some 0, none, none⟩
    | some image =>
        let ppStmPDB :=
          if it.assemblyDebugInfoPath.isEmpty then none
          else some (createStreamFromFile opens it.assemblyDebugInfoPath)
        ⟨.ok, some id, some 0, some image, ppStmPDB⟩

def search (lpPostPolicyIdentity : List CodeUnit) : UInt64 → List AssemblyInfo → ProvideOutput
  | _, [] => ⟨.fileNotFound, none, some 0, none, none⟩
  | id, it :: rest =>
      if sameAssembly folding it.fullName lpPostPolicyIdentity then provide opens id it
      else search lpPostPolicyIdentity (id + 1) rest

def provideAssembly (store : AssemblyStore) (pBindInfo : AssemblyBindInfo) : ProvideOutput :=
  if pBindInfo.ePolicyLevel = .ePolicyLevelAdmin then ⟨.fileNotFound, none, none, none, none⟩
  else search folding opens pBindInfo.lpPostPolicyIdentity 10000 store.hostAssemblies

variable {folding : CaseFolding} {opens : List CodeUnit → Bool}

/-- As long as the name asked for lasts, no terminator ends the comparison early. -/
theorem wcsnicmp_eq_zero_iff {name required : List CodeUnit}
    (hlength : (CString.text 0 required).length = name.length) :
    folding.wcsnicmp name required name.length = 0 ↔
      folding.Same name (CString.text 0 required) := by
  induction name generalizing required with
  | nil =>
      have hnil : CString.text 0 required = [] := List.eq_nil_of_length_eq_zero hlength
      simp [CaseFolding.wcsnicmp, CaseFolding.Same, hnil]
  | cons c name ih =>
      cases required with
      | nil => simp at hlength
      | cons d required =>
          by_cases hd : d = 0
          · subst hd
            rw [CString.text_cons_nul] at hlength
            cases hlength
          · rw [CString.text_cons_of_ne hd] at hlength ⊢
            have hfold : folding.fold d ≠ 0 := fun h => hd (folding.terminator d h)
            have hrest := ih (Nat.succ.inj hlength)
            simp only [CaseFolding.wcsnicmp, List.length_cons, List.headD_cons, List.tail_cons,
              CaseFolding.Same, List.map_cons, List.cons.injEq]
            by_cases hsame : folding.fold c = folding.fold d
            · simp only [hsame, ne_eq, not_true_eq_false, if_false, if_neg hfold, hrest, true_and]
              rfl
            · have hnat : (folding.fold c).toNat ≠ (folding.fold d).toNat :=
                fun h => hsame (UInt16.toNat_inj.mp h)
              simp only [ne_eq, hsame, not_false_eq_true, if_true, false_and, iff_false]
              omega

theorem sameAssembly_iff {name required : List CodeUnit} :
    sameAssembly folding name required = true ↔ folding.Same name (CString.text 0 required) := by
  simp only [sameAssembly, Bool.and_eq_true, beq_iff_eq]
  constructor
  · rintro ⟨hlength, hcompare⟩
    exact (wcsnicmp_eq_zero_iff hlength).mp hcompare
  · intro hsame
    exact ⟨hsame.length_eq, (wcsnicmp_eq_zero_iff hsame.length_eq).mpr hsame⟩

/-- The first entry of that name, and the place where it stands. -/
structure FirstMatch (folding : CaseFolding) (entries : List AssemblyInfo)
    (identity : List CodeUnit) (i : Nat) (entry : AssemblyInfo) : Prop where
  entry_at : entries[i]? = some entry
  same : folding.Same entry.fullName identity
  first : ∀ j earlier, j < i → entries[j]? = some earlier →
    ¬ folding.Same earlier.fullName identity

/-- The search stops at the first match, having counted the entries before it. -/
theorem search_cases (required : List CodeUnit) (id : UInt64) (entries : List AssemblyInfo) :
    ((∀ entry ∈ entries, ¬ folding.Same entry.fullName (CString.text 0 required)) ∧
        search folding opens required id entries = ⟨.fileNotFound, none, some 0, none, none⟩) ∨
      ∃ i entry, FirstMatch folding entries (CString.text 0 required) i entry ∧
        search folding opens required id entries = provide opens (id + UInt64.ofNat i) entry := by
  induction entries generalizing id with
  | nil => exact Or.inl ⟨nofun, rfl⟩
  | cons it rest ih =>
      by_cases hsame : folding.Same it.fullName (CString.text 0 required)
      · right
        refine ⟨0, it, ⟨rfl, hsame, nofun⟩, ?_⟩
        simp [search, sameAssembly_iff.mpr hsame]
      · have hskip : search folding opens required id (it :: rest) =
            search folding opens required (id + 1) rest := by
          rw [search, if_neg (fun h => hsame (sameAssembly_iff.mp h))]
        rw [hskip]
        rcases ih (id + 1) with ⟨hnone, hsearch⟩ | ⟨i, entry, hmatch, hsearch⟩
        · left
          refine ⟨?_, hsearch⟩
          intro entry hentry
          rcases List.mem_cons.mp hentry with rfl | hentry
          · exact hsame
          · exact hnone entry hentry
        · right
          refine ⟨i + 1, entry, ⟨hmatch.entry_at, hmatch.same, ?_⟩, ?_⟩
          · intro j earlier hj hearlier
            cases j with
            | zero =>
                cases hearlier
                exact hsame
            | succ j => exact hmatch.first j earlier (Nat.lt_of_succ_lt_succ hj) hearlier
          · rw [hsearch]
            congr 1
            rw [UInt64.ofNat_add, UInt64.add_assoc, UInt64.add_comm 1]
            rfl

theorem FirstMatch.lt_length {entries : List AssemblyInfo} {identity : List CodeUnit} {i : Nat}
    {entry : AssemblyInfo} (h : FirstMatch folding entries identity i entry) :
    i < entries.length :=
  (List.getElem?_eq_some_iff.mp h.entry_at).1

/-- Names that are equal up to case have the same first match. -/
theorem FirstMatch.not_lt {entries : List AssemblyInfo} {identity identity' : List CodeUnit}
    {i i' : Nat} {entry entry' : AssemblyInfo} (h : FirstMatch folding entries identity i entry)
    (h' : FirstMatch folding entries identity' i' entry')
    (hsame : folding.Same identity identity') : ¬ i < i' := by
  intro hlt
  exact h'.first i entry hlt h.entry_at (h.same.trans hsame)

theorem FirstMatch.index_eq_iff {entries : List AssemblyInfo} {identity identity' : List CodeUnit}
    {i i' : Nat} {entry entry' : AssemblyInfo} (h : FirstMatch folding entries identity i entry)
    (h' : FirstMatch folding entries identity' i' entry') :
    i = i' ↔ folding.Same identity identity' := by
  constructor
  · rintro rfl
    obtain rfl : entry = entry' := Option.some.inj (h.entry_at.symm.trans h'.entry_at)
    exact h.same.symm.trans h'.same
  · intro hsame
    have hge := h.not_lt h' hsame
    have hle := h'.not_lt h hsame.symm
    omega

/-- The ids do not wrap around. -/
theorem toNat_id {i : Nat} (hi : i < 2 ^ 32) : (10000 + UInt64.ofNat i).toNat = 10000 + i := by
  rw [UInt64.toNat_add, UInt64.toNat_ofNat']
  have hten : (10000 : UInt64).toNat = 10000 := rfl
  omega

theorem provide_pAssemblyId (id : UInt64) (it : AssemblyInfo) :
    (provide opens id it).pAssemblyId = some id := by
  unfold provide
  split
  next => rfl
  next => split <;> rfl

theorem createStreamFromFile_eq_some {fileName stream : List CodeUnit}
    (h : createStreamFromFile opens fileName = some stream) : stream = CString.text 0 fileName := by
  simp only [createStreamFromFile] at h
  split at h
  next => exact (Option.some.inj h).symm
  next => cases h

theorem provide_ok {id : UInt64} {it : AssemblyInfo} (h : (provide opens id it).hr = .ok) :
    (provide opens id it).ppStmAssemblyImage = some (CString.text 0 it.assemblyLoadPath) := by
  unfold provide at h ⊢
  split at h
  next => cases h
  next hpath =>
    rw [if_neg hpath]
    split at h
    next => cases h
    next image himage =>
      exact congrArg some (createStreamFromFile_eq_some himage)

/-- A request either fails without an id, or gets what its first match provides. -/
theorem provideAssembly_cases (store : AssemblyStore) (request : AssemblyBindInfo) :
    ((request.ePolicyLevel = .ePolicyLevelAdmin ∨ ∀ entry ∈ store.hostAssemblies,
        ¬ folding.Same entry.fullName (CString.text 0 request.lpPostPolicyIdentity)) ∧
      (provideAssembly folding opens store request).hr = .fileNotFound ∧
      (provideAssembly folding opens store request).pAssemblyId = none) ∨
    ∃ i entry, request.ePolicyLevel ≠ .ePolicyLevelAdmin ∧
      FirstMatch folding store.hostAssemblies (CString.text 0 request.lpPostPolicyIdentity)
        i entry ∧
      provideAssembly folding opens store request =
        provide opens (10000 + UInt64.ofNat i) entry := by
  unfold provideAssembly
  split
  next hadmin => exact Or.inl ⟨Or.inl hadmin, rfl, rfl⟩
  next hadmin =>
    rcases @search_cases folding opens request.lpPostPolicyIdentity 10000 store.hostAssemblies
      with ⟨hnone, hsearch⟩ | ⟨i, entry, hmatch, hsearch⟩
    · rw [hsearch]
      exact Or.inl ⟨Or.inr hnone, rfl, rfl⟩
    · exact Or.inr ⟨i, entry, hadmin, hmatch, hsearch⟩

/-- The identity a request is for. -/
def identity (request : AssemblyBindInfo) : List CodeUnit :=
  CString.text 0 request.lpPostPolicyIdentity

/-- The id that is written is the place of the first match. -/
theorem exists_firstMatch {store : AssemblyStore} {request : AssemblyBindInfo} {id : UInt64}
    (h : (provideAssembly folding opens store request).pAssemblyId = some id) :
    ∃ i entry, FirstMatch folding store.hostAssemblies (identity request) i entry ∧
      id.toNat = 10000 + i ∧
      provideAssembly folding opens store request = provide opens id entry := by
  rcases @provideAssembly_cases folding opens store request with
    ⟨-, -, hnone⟩ | ⟨i, entry, -, hmatch, hcall⟩
  · rw [hnone] at h
    cases h
  · rw [hcall, provide_pAssemblyId] at h
    obtain rfl := Option.some.inj h
    have hi : i < 2 ^ 32 := lt_trans hmatch.lt_length store.fits
    exact ⟨i, entry, hmatch, toNat_id hi, hcall⟩

/-- A request that succeeds writes an id. -/
theorem exists_id {store : AssemblyStore} {request : AssemblyBindInfo}
    (h : (provideAssembly folding opens store request).hr = .ok) :
    ∃ id, (provideAssembly folding opens store request).pAssemblyId = some id := by
  rcases @provideAssembly_cases folding opens store request with
    ⟨-, hfailed, -⟩ | ⟨i, entry, -, -, hcall⟩
  · rw [hfailed] at h
    cases h
  · rw [hcall, provide_pAssemblyId]
    exact ⟨_, rfl⟩

/-- The ids of two requests that succeed are equal if and only if the identities
are, up to case. No id is zero. The image comes from the load path of the first
match, and without a match or under administrator policy nothing is found. -/
theorem assembly_identity (folding : CaseFolding) (store : AssemblyStore) :
    (∀ (opens opens' : List CodeUnit → Bool) (request request' : AssemblyBindInfo),
      (provideAssembly folding opens store request).hr = .ok →
      (provideAssembly folding opens' store request').hr = .ok →
        ((provideAssembly folding opens store request).pAssemblyId =
            (provideAssembly folding opens' store request').pAssemblyId ↔
          folding.Same (identity request) (identity request'))) ∧
    (∀ (opens : List CodeUnit → Bool) (request : AssemblyBindInfo),
      (provideAssembly folding opens store request).pAssemblyId ≠ some 0) ∧
    (∀ (opens : List CodeUnit → Bool) (request : AssemblyBindInfo),
      (provideAssembly folding opens store request).hr = .ok →
        ∃ i entry, FirstMatch folding store.hostAssemblies (identity request) i entry ∧
          (provideAssembly folding opens store request).ppStmAssemblyImage =
            some (CString.text 0 entry.assemblyLoadPath)) ∧
    (∀ (opens : List CodeUnit → Bool) (request : AssemblyBindInfo),
      request.ePolicyLevel = .ePolicyLevelAdmin ∨
          (∀ entry ∈ store.hostAssemblies, ¬ folding.Same entry.fullName (identity request)) →
        (provideAssembly folding opens store request).hr = .fileNotFound) := by
  refine ⟨?_, ?_, ?_, ?_⟩
  · intro opens opens' request request' hok hok'
    obtain ⟨id, hid⟩ := exists_id hok
    obtain ⟨id', hid'⟩ := exists_id hok'
    obtain ⟨i, entry, hmatch, hplace, -⟩ := exists_firstMatch hid
    obtain ⟨i', entry', hmatch', hplace', -⟩ := exists_firstMatch hid'
    rw [hid, hid', Option.some.injEq, ← hmatch.index_eq_iff hmatch', ← UInt64.toNat_inj]
    omega
  · intro opens request hzero
    obtain ⟨i, entry, -, hplace, -⟩ := exists_firstMatch hzero
    have hnonzero : (0 : UInt64).toNat ≠ 10000 + i := by
      rw [UInt64.toNat_zero]
      omega
    exact hnonzero hplace
  · intro opens request hok
    obtain ⟨id, hid⟩ := exists_id hok
    obtain ⟨i, entry, hmatch, -, hcall⟩ := exists_firstMatch hid
    rw [hcall] at hok ⊢
    exact ⟨i, entry, hmatch, provide_ok hok⟩
  · intro opens request hrefused
    rcases @provideAssembly_cases folding opens store request with
      ⟨-, hfailed, -⟩ | ⟨i, entry, hadmin, hmatch, -⟩
    · exact hfailed
    · rcases hrefused with hpolicy | hnone
      · exact absurd hpolicy hadmin
      · exact absurd hmatch.same (hnone entry (List.mem_of_getElem? hmatch.entry_at))

/-- `towlower` in the C locale folds nothing to the terminator. -/
def cLocale : CaseFolding where
  fold := SHAssemblyStore.towlower
  terminator := by
    intro c h
    unfold SHAssemblyStore.towlower at h
    split at h
    next hupper =>
      have hle : c.toNat ≤ 90 := UInt16.le_iff_toNat_le.mp hupper.2
      have hsum : (c.toNat + 32) % 2 ^ 16 = 0 := congrArg UInt16.toNat h
      omega
    next => exact h

/-- Two entries of one name and two spellings of it: both requests get the id and the
image of the first entry. -/
theorem assembly_identity_cLocale :
    let store : AssemblyStore :=
      ⟨[⟨[67], [1], []⟩, ⟨[65, 66], [2], []⟩, ⟨[97, 66], [3], []⟩], by decide⟩
    let opens (name : List CodeUnit) : Bool := name != [1]
    let upper : AssemblyBindInfo := ⟨[65, 66], .ePolicyLevelNone⟩
    let lower : AssemblyBindInfo := ⟨[97, 98], .ePolicyLevelNone⟩
    (provideAssembly cLocale opens store upper).pAssemblyId =
        (provideAssembly cLocale opens store lower).pAssemblyId ∧
      (provideAssembly cLocale opens store lower).ppStmAssemblyImage = some [2] ∧
      ∃ i entry, FirstMatch cLocale store.hostAssemblies (identity lower) i entry ∧
        (provideAssembly cLocale opens store lower).ppStmAssemblyImage =
          some (CString.text 0 entry.assemblyLoadPath) := by
  intro store opens upper lower
  obtain ⟨hids, -, himage, -⟩ := assembly_identity cLocale store
  refine ⟨?_, by decide, himage opens lower (by decide)⟩
  exact (hids opens opens upper lower (by decide) (by decide)).mpr (by decide)

/-! The objects that are handed out come from the same calls. -/

theorem wcsnicmpEqual_iff {name required : List CodeUnit} (hnul : 0 ∉ required)
    (hlength : required.length = name.length) :
    SHAssemblyStore.wcsnicmpEqual name required name.length = true ↔
      cLocale.Same name required := by
  induction name generalizing required with
  | nil => simp [SHAssemblyStore.wcsnicmpEqual, CaseFolding.Same,
      List.eq_nil_of_length_eq_zero hlength]
  | cons c name ih =>
      cases required with
      | nil => cases hlength
      | cons d required =>
          have hd : d ≠ 0 := fun h => hnul (h ▸ List.mem_cons_self)
          have hrest := ih (fun h => hnul (List.mem_cons_of_mem d h)) (Nat.succ.inj hlength)
          simp only [SHAssemblyStore.wcsnicmpEqual, List.length_cons, Bool.and_eq_true,
            Bool.or_eq_true, beq_iff_eq, hrest, CaseFolding.Same, List.map_cons,
            List.cons.injEq]
          apply and_congr_right
          intro hsame
          constructor
          · rintro (hc | h)
            · subst hc
              exact absurd (cLocale.terminator d hsame.symm) hd
            · exact h
          · exact Or.inr

theorem sameAssembly_cLocale {name required : List CodeUnit} (hnul : 0 ∉ required) :
    SHAssemblyStore.sameAssembly name required = sameAssembly cLocale name required := by
  rw [Bool.eq_iff_iff, sameAssembly_iff, CString.text_eq_self_iff.mpr hnul]
  simp only [SHAssemblyStore.sameAssembly, Bool.and_eq_true, beq_iff_eq]
  constructor
  · rintro ⟨hlength, hcompare⟩
    exact (wcsnicmpEqual_iff hnul hlength).mp hcompare
  · intro hsame
    exact ⟨hsame.length_eq, (wcsnicmpEqual_iff hnul hsame.length_eq).mpr hsame⟩

/-- Which streams a client gets, and under which id. -/
def provided (o : ProvideOutput) : ProvidedAssembly :=
  ⟨o.hr == .ok, o.pAssemblyId, o.ppStmAssemblyImage.isSome, (o.ppStmPDB.getD none).isSome⟩

theorem provided_provide (opens : List CodeUnit → Bool) (id : UInt64) (it : AssemblyInfo) :
    provided (provide opens id it) =
      if it.assemblyLoadPath.isEmpty || !opens (CString.text 0 it.assemblyLoadPath) then
        ⟨false, some id, false, false⟩
      else
        ⟨true, some id, true, !it.assemblyDebugInfoPath.isEmpty &&
          opens (CString.text 0 it.assemblyDebugInfoPath)⟩ := by
  by_cases hpath : it.assemblyLoadPath.isEmpty = true
  · simp [provide, provided, hpath]
  · cases himage : opens (CString.text 0 it.assemblyLoadPath) with
    | false => simp [provide, provided, createStreamFromFile, hpath, himage]
    | true =>
        cases hdebug : it.assemblyDebugInfoPath.isEmpty with
        | true => simp [provide, provided, createStreamFromFile, hpath, himage, hdebug]
        | false =>
            cases hpdb : opens (CString.text 0 it.assemblyDebugInfoPath) <;>
              simp [provide, provided, createStreamFromFile, hpath, himage, hdebug, hpdb]

theorem provideFrom_eq (opens : List CodeUnit → Bool) {required : List CodeUnit}
    (hnul : 0 ∉ required) (id : UInt64) (entries : List AssemblyInfo) :
    SHAssemblyStore.provideFrom (fun path => opens (CString.text 0 path)) required id entries =
      provided (search cLocale opens required id entries) := by
  induction entries generalizing id with
  | nil => rfl
  | cons it rest ih =>
      rw [SHAssemblyStore.provideFrom, search, sameAssembly_cLocale hnul]
      split
      next => rw [provided_provide]
      next => exact ih (id + 1)

/-- In the C locale this is the call whose streams are handed out. -/
theorem provideAssembly_provided (opens : List CodeUnit → Bool) (store : AssemblyStore)
    {request : AssemblyBindInfo} (hnul : 0 ∉ request.lpPostPolicyIdentity) :
    SHAssemblyStore.provideAssembly store.hostAssemblies
        (fun path => opens (CString.text 0 path)) request =
      provided (provideAssembly cLocale opens store request) := by
  unfold SHAssemblyStore.provideAssembly provideAssembly
  split
  next => rfl
  next => exact provideFrom_eq opens hnul 10000 store.hostAssemblies

end AssemblyStore

end HostedPumpkin
