import HostedPumpkin.Assembly.FileStream

/-!
`CopyTo` of a `SHFileStream`: a loop that reads the file through a buffer and writes
what it has read to another stream. Whether `ReadFile` fails is a parameter, and so is
the stream that is written to.
-/

namespace HostedPumpkin.SHFileStream

open FileHandle

/-- `sizeof(buffer)` in `CopyTo`. -/
def copyBuffer : Nat := 4096

/-- The file `CopyTo` reads, the stream it writes to and the two counters, which the
caller may leave out. -/
structure CopyState (δ : Type) where
  m_hFile : FileHandle
  pstm : δ
  pcbRead : Option UInt64
  pcbWritten : Option UInt64

section CopyTo

variable {δ : Type}

-- the error `ReadFile` fails with, if it does
variable (readError : FileHandle → Option DWORD)

-- `IStream::Write` of the destination: its new state, and the bytes it says it wrote
variable (write : δ → List UInt8 → δ × Except StreamFault DWORD)

/-- The loop of `CopyTo`. -/
def copyLoop (bytesToWrite : UInt64) (s : CopyState δ) : CopyState δ × Except StreamFault Unit :=
  if bytesToWrite > 0 then
    match readError s.m_hFile with
    | some error => (s, .error (.win32 error))
    | none =>
        -- the whole buffer is read, however little is left to copy
        let buffer := s.m_hFile.read copyBuffer
        let cbRead := UInt64.ofNat buffer.length
        let pcbRead := s.pcbRead.map (· + cbRead)
        match write s.pstm buffer with
        | (pstm, .error hr) =>
            (⟨s.m_hFile.afterRead copyBuffer, pstm, pcbRead, s.pcbWritten⟩, .error hr)
        | (pstm, .ok cbWritten) =>
            let pcbWritten := s.pcbWritten.map (· + cbWritten.toUInt64)
            if _hshort : buffer.length < copyBuffer then
              (⟨s.m_hFile.afterRead copyBuffer, pstm, pcbRead, pcbWritten⟩, .ok ())
            else
              copyLoop (bytesToWrite - cbRead)
                ⟨s.m_hFile.afterRead copyBuffer, pstm, pcbRead, pcbWritten⟩
  else (s, .ok ())
termination_by s.m_hFile.rest.length
decreasing_by
  have hread : buffer.length = min copyBuffer s.m_hFile.rest.length :=
    length_read copyBuffer s.m_hFile
  change ((s.m_hFile.afterRead copyBuffer).rest).length < s.m_hFile.rest.length
  rw [length_rest_afterRead]
  simp only [copyBuffer] at *
  omega

/-- `CopyTo`. -/
def copyTo (pstm : δ) (cb : UInt64) (pcbRead pcbWritten : Option UInt64) (s : SHFileStream) :
    CopyState δ × Except StreamFault Unit :=
  copyLoop readError write cb ⟨s.m_hFile, pstm, pcbRead, pcbWritten⟩

-- the bytes the destination has
variable (written : δ → List UInt8)

/-- The next `cb` bytes of the file, or all there are, go to the destination and into
the counters, and the pointer moves on by as many. -/
def CopiesExactly (pstm : δ) (cb : UInt64) (pcbRead pcbWritten : Option UInt64)
    (s : SHFileStream) : Prop :=
  let amount := min cb.toNat s.m_hFile.rest.length
  ∃ next, s.copyTo readError write pstm cb pcbRead pcbWritten = (next, .ok ()) ∧
    written next.pstm = written pstm ++ s.m_hFile.rest.take amount ∧
    next.m_hFile.pointer = s.m_hFile.pointer + amount ∧
    next.pcbRead = pcbRead.map (· + UInt64.ofNat amount) ∧
    next.pcbWritten = pcbWritten.map (· + UInt64.ofNat amount)

/-- `Write` takes every byte. -/
def AcceptsAll : Prop :=
  ∀ pstm buffer, (write pstm buffer).2 = .ok (UInt32.ofNat buffer.length) ∧
    written (write pstm buffer).1 = written pstm ++ buffer

/-- A read of so many bytes that went to the destination and into the counters. -/
structure Copied (count : Nat) (s next : CopyState δ) : Prop where
  file : next.m_hFile = s.m_hFile.afterRead count
  appended : written next.pstm = written s.pstm ++ s.m_hFile.read count
  countedRead : next.pcbRead = s.pcbRead.map (· + UInt64.ofNat (s.m_hFile.read count).length)
  countedWritten : next.pcbWritten =
    s.pcbWritten.map (· + UInt64.ofNat (s.m_hFile.read count).length)

/-- The reads of the loop: one for each full buffer that is there, as long as the count
is not used up. It is never used up if it is no multiple of the buffer's size. -/
def ReadsSucceed (bytesToWrite : Nat) (h : FileHandle) : Prop :=
  ∀ round, copyBuffer * round ≤ h.rest.length →
    (bytesToWrite % copyBuffer = 0 → copyBuffer * round < bytesToWrite) →
    readError (h.afterRead (copyBuffer * round)) = none

/-- What the loop copies if nothing fails. -/
def copyCount (bytesToWrite : Nat) (h : FileHandle) : Nat :=
  if bytesToWrite % copyBuffer = 0 then bytesToWrite else h.rest.length

variable {readError write written}

theorem Copied.refl (s : CopyState δ) : Copied written 0 s s where
  file := (afterRead_zero s.m_hFile).symm
  appended := (List.append_nil _).symm
  countedRead := by cases s.pcbRead <;> simp [FileHandle.read]
  countedWritten := by cases s.pcbWritten <;> simp [FileHandle.read]

theorem Copied.trans {first second : Nat} {s middle next : CopyState δ}
    (hfirst : Copied written first s middle) (hsecond : Copied written second middle next) :
    Copied written (first + second) s next where
  file := by rw [hsecond.file, hfirst.file, afterRead_add]
  appended := by
    rw [hsecond.appended, hfirst.appended, hfirst.file, read_add, List.append_assoc]
  countedRead := by
    rw [hsecond.countedRead, hfirst.countedRead, hfirst.file, read_add, List.length_append,
      UInt64.ofNat_add, Option.map_map]
    congr 1
    funext counter
    exact UInt64.add_assoc ..
  countedWritten := by
    rw [hsecond.countedWritten, hfirst.countedWritten, hfirst.file, read_add,
      List.length_append, UInt64.ofNat_add, Option.map_map]
    congr 1
    funext counter
    exact UInt64.add_assoc ..

/-- Past the end of the file it does not matter how much was asked for. -/
theorem Copied.of_short {count other : Nat} {s next : CopyState δ}
    (hcopied : Copied written count s next) (hcount : s.m_hFile.rest.length ≤ count)
    (hother : s.m_hFile.rest.length ≤ other) : Copied written other s next := by
  have hread : s.m_hFile.read count = s.m_hFile.read other := by
    rw [read_of_length_le hcount, read_of_length_le hother]
  have hafter : s.m_hFile.afterRead count = s.m_hFile.afterRead other := by
    simp only [afterRead, hread]
  obtain ⟨hfile, happended, hcountedRead, hcountedWritten⟩ := hcopied
  rw [hread] at happended hcountedRead hcountedWritten
  rw [hafter] at hfile
  exact ⟨hfile, happended, hcountedRead, hcountedWritten⟩

/-- One round: a full buffer is read and written, and the loop goes on unless the file
ended in it. -/
theorem copyLoop_round (haccepts : AcceptsAll write written) {bytesToWrite : UInt64}
    {s : CopyState δ} (hleft : bytesToWrite > 0) (hread : readError s.m_hFile = none) :
    ∃ next, Copied written copyBuffer s next ∧
      copyLoop readError write bytesToWrite s =
        if s.m_hFile.rest.length < copyBuffer then (next, .ok ())
        else copyLoop readError write (bytesToWrite - UInt64.ofNat copyBuffer) next := by
  obtain ⟨hwrite, happended⟩ := haccepts s.pstm (s.m_hFile.read copyBuffer)
  have hlength := length_read copyBuffer s.m_hFile
  have hsmall : (UInt32.ofNat (s.m_hFile.read copyBuffer).length).toUInt64 =
      UInt64.ofNat (s.m_hFile.read copyBuffer).length := by
    apply UInt64.toNat_inj.mp
    simp only [UInt32.toNat_toUInt64, UInt32.toNat_ofNat', UInt64.toNat_ofNat', copyBuffer] at *
    omega
  obtain ⟨pstm, hdone⟩ : ∃ pstm, write s.pstm (s.m_hFile.read copyBuffer) =
      (pstm, .ok (UInt32.ofNat (s.m_hFile.read copyBuffer).length)) :=
    ⟨_, Prod.ext rfl hwrite⟩
  rw [hdone] at happended
  refine ⟨⟨s.m_hFile.afterRead copyBuffer, pstm,
    s.pcbRead.map (· + UInt64.ofNat (s.m_hFile.read copyBuffer).length),
    s.pcbWritten.map (· + UInt64.ofNat (s.m_hFile.read copyBuffer).length)⟩,
    ⟨rfl, happended, rfl, rfl⟩, ?_⟩
  rw [copyLoop, if_pos hleft, hread]
  simp only [hdone, hsmall]
  by_cases hshort : s.m_hFile.rest.length < copyBuffer
  · rw [if_pos hshort, dif_pos (by omega)]
  · have hfull : (s.m_hFile.read copyBuffer).length = copyBuffer := by omega
    rw [if_neg hshort, dif_neg (by omega), hfull]

theorem toNat_sub_copyBuffer {bytesToWrite : UInt64} (hleft : bytesToWrite > 0) :
    (bytesToWrite - UInt64.ofNat copyBuffer).toNat % copyBuffer =
        bytesToWrite.toNat % copyBuffer ∧
      (bytesToWrite.toNat % copyBuffer = 0 →
        (bytesToWrite - UInt64.ofNat copyBuffer).toNat + copyBuffer = bytesToWrite.toNat) := by
  have hpositive : 0 < bytesToWrite.toNat := UInt64.lt_iff_toNat_lt.mp hleft
  have hlt := bytesToWrite.toNat_lt
  have hsub : (bytesToWrite - UInt64.ofNat copyBuffer).toNat =
      (2 ^ 64 - 4096 + bytesToWrite.toNat) % 2 ^ 64 := UInt64.toNat_sub ..
  simp only [copyBuffer] at *
  omega

/-- The reads of a loop are the first one and, after a full buffer, those of the rest. -/
theorem readsSucceed_iff {bytesToWrite : UInt64} {h : FileHandle} (hleft : bytesToWrite > 0) :
    ReadsSucceed readError bytesToWrite.toNat h ↔
      readError h = none ∧ (copyBuffer ≤ h.rest.length →
        ReadsSucceed readError (bytesToWrite - UInt64.ofNat copyBuffer).toNat
          (h.afterRead copyBuffer)) := by
  have hpositive : 0 < bytesToWrite.toNat := UInt64.lt_iff_toNat_lt.mp hleft
  obtain ⟨hmod, hsub⟩ := toNat_sub_copyBuffer hleft
  constructor
  · intro hreads
    refine ⟨?_, ?_⟩
    · have hfirst := hreads 0 (Nat.zero_le _) (fun _ => hpositive)
      rwa [Nat.mul_zero, afterRead_zero] at hfirst
    · intro hfull round hround hcount
      have hnext := hreads (round + 1)
      rw [length_rest_afterRead] at hround
      rw [Nat.mul_succ, Nat.add_comm, afterRead_add] at hnext
      apply hnext
      · omega
      · intro hzero
        have hlast := hcount (hmod.trans hzero)
        have hwhole := hsub hzero
        omega
  · rintro ⟨hfirst, hrest⟩ round hround hcount
    cases round with
    | zero => rwa [Nat.mul_zero, afterRead_zero]
    | succ round =>
        rw [Nat.mul_succ, Nat.add_comm] at hround hcount ⊢
        rw [afterRead_add]
        apply hrest (by omega)
        · rw [length_rest_afterRead]
          omega
        · intro hzero
          have hwhole := hsub (hmod.symm.trans hzero)
          have hlast := hcount (hmod.symm.trans hzero)
          omega

theorem toNat_eq_zero {bytesToWrite : UInt64} (hleft : ¬ bytesToWrite > 0) :
    bytesToWrite.toNat = 0 := by
  rw [gt_iff_lt, UInt64.lt_iff_toNat_lt] at hleft
  simpa using hleft

/-- After a full buffer less of the file is left. -/
theorem Copied.length_rest_lt {s next : CopyState δ} (hcopied : Copied written copyBuffer s next)
    (hfull : copyBuffer ≤ s.m_hFile.rest.length) :
    next.m_hFile.rest.length < s.m_hFile.rest.length := by
  rw [hcopied.file, length_rest_afterRead]
  simp only [copyBuffer] at *
  omega

theorem copyCount_short {bytesToWrite : UInt64} {h : FileHandle} (hleft : bytesToWrite > 0)
    (hshort : h.rest.length < copyBuffer) :
    h.rest.length ≤ copyCount bytesToWrite.toNat h := by
  have hpositive : 0 < bytesToWrite.toNat := UInt64.lt_iff_toNat_lt.mp hleft
  obtain ⟨-, hsub⟩ := toNat_sub_copyBuffer hleft
  rw [copyCount]
  split
  next hzero =>
    have hwhole := hsub hzero
    omega
  next => exact Nat.le_refl _

theorem copyCount_full {bytesToWrite : UInt64} {h : FileHandle} (hleft : bytesToWrite > 0)
    (hfull : copyBuffer ≤ h.rest.length) :
    copyCount bytesToWrite.toNat h = copyBuffer +
      copyCount (bytesToWrite - UInt64.ofNat copyBuffer).toNat (h.afterRead copyBuffer) := by
  obtain ⟨hmod, hsub⟩ := toNat_sub_copyBuffer hleft
  rw [copyCount, copyCount, hmod, length_rest_afterRead]
  split
  next hzero =>
    have hwhole := hsub hzero
    omega
  next => omega

/-- If no read fails, the loop ends with the count copied, or the whole rest of the file
if the count is no multiple of the buffer's size. -/
theorem copyLoop_copied (haccepts : AcceptsAll write written) (bytesToWrite : UInt64)
    (s : CopyState δ) (hreads : ReadsSucceed readError bytesToWrite.toNat s.m_hFile) :
    ∃ next, copyLoop readError write bytesToWrite s = (next, .ok ()) ∧
      Copied written (copyCount bytesToWrite.toNat s.m_hFile) s next := by
  by_cases hleft : bytesToWrite > 0
  · obtain ⟨hread, hrest⟩ := (readsSucceed_iff hleft).mp hreads
    obtain ⟨middle, hcopied, hround⟩ := copyLoop_round haccepts hleft hread
    rw [hround]
    by_cases hshort : s.m_hFile.rest.length < copyBuffer
    · rw [if_pos hshort]
      exact ⟨middle, rfl, hcopied.of_short (by omega) (copyCount_short hleft hshort)⟩
    · rw [if_neg hshort, copyCount_full hleft (by omega), ← hcopied.file]
      have hless := hcopied.length_rest_lt (by omega)
      have hnext := hrest (by omega)
      rw [← hcopied.file] at hnext
      obtain ⟨next, hloop, hfurther⟩ := copyLoop_copied haccepts _ middle hnext
      exact ⟨next, hloop, hcopied.trans hfurther⟩
  · rw [copyLoop, if_neg hleft, toNat_eq_zero hleft]
    exact ⟨s, rfl, Copied.refl s⟩
termination_by s.m_hFile.rest.length

/-- A loop that ends without an error has had no failing read. -/
theorem readsSucceed_of_copyLoop (haccepts : AcceptsAll write written) (bytesToWrite : UInt64)
    (s : CopyState δ) (hok : (copyLoop readError write bytesToWrite s).2 = .ok ()) :
    ReadsSucceed readError bytesToWrite.toNat s.m_hFile := by
  by_cases hleft : bytesToWrite > 0
  · cases hread : readError s.m_hFile with
    | some error =>
        rw [copyLoop, if_pos hleft, hread] at hok
        cases hok
    | none =>
        refine (readsSucceed_iff hleft).mpr ⟨hread, ?_⟩
        intro hfull
        obtain ⟨middle, hcopied, hround⟩ := copyLoop_round haccepts hleft hread
        rw [hround, if_neg (by omega)] at hok
        have hless := hcopied.length_rest_lt hfull
        rw [← hcopied.file]
        exact readsSucceed_of_copyLoop haccepts _ middle hok
  · intro round _ hcount
    rw [toNat_eq_zero hleft] at hcount
    exact absurd (hcount rfl) (Nat.not_lt_zero _)
termination_by s.m_hFile.rest.length

/-- A loop that copies a count copies exactly what is asked if the count is as much of
the file as was asked for. -/
theorem copiesExactly_iff_count {pstm : δ} {cb : UInt64} {pcbRead pcbWritten : Option UInt64}
    {s : SHFileStream} {next : CopyState δ} {count : Nat}
    (hcopy : s.copyTo readError write pstm cb pcbRead pcbWritten = (next, .ok ()))
    (hcopied : Copied written count ⟨s.m_hFile, pstm, pcbRead, pcbWritten⟩ next) :
    s.CopiesExactly readError write written pstm cb pcbRead pcbWritten ↔
      min count s.m_hFile.rest.length = min cb.toNat s.m_hFile.rest.length := by
  have hpointer : next.m_hFile.pointer =
      s.m_hFile.pointer + min count s.m_hFile.rest.length := by
    rw [hcopied.file, pointer_afterRead]
  constructor
  · rintro ⟨other, hother, -, hmoved, -⟩
    rw [hcopy] at hother
    have hsame := (Prod.mk.inj hother).1
    subst hsame
    omega
  · intro hamount
    have hlength : (s.m_hFile.read count).length = min cb.toNat s.m_hFile.rest.length := by
      rw [length_read, hamount]
    have hbytes : s.m_hFile.read count =
        s.m_hFile.rest.take (min cb.toNat s.m_hFile.rest.length) := by
      rw [← hamount, ← List.take_eq_take_min]
      rfl
    refine ⟨next, hcopy, ?_, by rw [hpointer, hamount], ?_, ?_⟩
    · rw [hcopied.appended, hbytes]
    · rw [hcopied.countedRead, hlength]
    · rw [hcopied.countedWritten, hlength]

/-- `CopyTo` copies exactly what is asked if that is whole buffers or at least the rest
of the file, and none of the reads up to there fails. -/
theorem copyTo_iff (haccepts : AcceptsAll write written) (pstm : δ) (cb : UInt64)
    (pcbRead pcbWritten : Option UInt64) (s : SHFileStream) :
    s.CopiesExactly readError write written pstm cb pcbRead pcbWritten ↔
      (cb.toNat % copyBuffer = 0 ∨ s.m_hFile.rest.length ≤ cb.toNat) ∧
        ∀ round, copyBuffer * round ≤ s.m_hFile.rest.length → copyBuffer * round < cb.toNat →
          readError (s.m_hFile.afterRead (copyBuffer * round)) = none := by
  let start : CopyState δ := ⟨s.m_hFile, pstm, pcbRead, pcbWritten⟩
  constructor
  · intro hexact
    have hok : (copyLoop readError write cb start).2 = .ok () := by
      obtain ⟨last, hcopy, -⟩ := hexact
      exact congrArg Prod.snd hcopy
    have hreads := readsSucceed_of_copyLoop haccepts cb start hok
    obtain ⟨next, hloop, hcopied⟩ := copyLoop_copied haccepts cb start hreads
    have hamount := (copiesExactly_iff_count hloop hcopied).mp hexact
    refine ⟨?_, ?_⟩
    · simp only [copyCount, start] at hamount
      split at hamount
      next hzero => exact Or.inl hzero
      next => exact Or.inr (by omega)
    · intro round hround hless
      exact hreads round hround (fun _ => hless)
  · rintro ⟨hcount, hall⟩
    have hreads : ReadsSucceed readError cb.toNat start.m_hFile := by
      intro round hround hless
      apply hall round hround
      obtain hzero | hrest := hcount
      · exact hless hzero
      · by_cases hzero : cb.toNat % copyBuffer = 0
        · exact hless hzero
        · have hround : copyBuffer * round ≤ s.m_hFile.rest.length := hround
          have hmod := Nat.mul_mod_right copyBuffer round
          have hne : copyBuffer * round ≠ cb.toNat := fun heq => hzero (heq ▸ hmod)
          omega
    obtain ⟨next, hloop, hcopied⟩ := copyLoop_copied haccepts cb start hreads
    rw [copiesExactly_iff_count hloop hcopied]
    simp only [copyCount, start]
    split
    next => rfl
    next hnonzero =>
      have hrest := hcount.resolve_left hnonzero
      omega

end CopyTo

/-- A destination that keeps what it gets. -/
def appendWrite (pstm buffer : List UInt8) : List UInt8 × Except StreamFault DWORD :=
  (pstm ++ buffer, .ok (UInt32.ofNat buffer.length))

/-- The last two bytes of a file, with more asked for. -/
theorem copyTo_iff_rest :
    let s : SHFileStream := ⟨⟨[1, 2, 3], 1, 0, by decide, by decide⟩⟩
    s.CopiesExactly (fun _ => none) appendWrite id [9] 5 (some 0) none := by
  intro s
  have haccepts : AcceptsAll appendWrite id := fun _ _ => ⟨rfl, rfl⟩
  exact (copyTo_iff haccepts [9] 5 (some 0) none s).mpr ⟨Or.inr (by decide), fun _ _ _ => rfl⟩

/-- One byte asked for, and the file's two bytes are copied. -/
theorem copyTo_copies_more :
    ¬ ∀ (s : SHFileStream) (pstm : List UInt8) (cb : UInt64) (pcbRead pcbWritten : Option UInt64),
      s.CopiesExactly (fun _ => none) appendWrite id pstm cb pcbRead pcbWritten := by
  intro hall
  let s : SHFileStream := ⟨⟨[1, 2], 0, 0, by decide, by decide⟩⟩
  obtain ⟨next, hcopy, -, hpointer, -⟩ := hall s [] 1 none none
  have hall : (s.copyTo (fun _ => none) appendWrite [] 1 none none).1.m_hFile.pointer = 2 := by
    rw [copyTo, copyLoop]
    rfl
  rw [hcopy] at hall
  rw [hall] at hpointer
  cases hpointer

end HostedPumpkin.SHFileStream
