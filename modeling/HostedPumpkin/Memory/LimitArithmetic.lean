import HostedPumpkin.Host.LongCounters
import HostedPumpkin.Memory.MemoryManager

/-!
The limit tests of `OnMemoryAcquiring` as the Win32 build computes them: the
request is a `SIZE_T` that becomes a `LONG` at the call, and the counter and the
request are added modulo `2 ^ 32`. The byte test never refuses a request that
fits, but it lets through those whose sum with the counter lies between `2 ^ 31`
and the limit above `2 ^ 32`. Below `2 ^ 31` the build agrees with the exact
model.
-/

namespace HostedPumpkin

namespace Win32

/-- A `SIZE_T` from `2 ^ 31` on becomes a negative `LONG`. -/
theorem toInt_toInt32 (dwSize : SIZE_T) :
    dwSize.toInt32.toInt =
      if dwSize.toNat < 2 ^ 31 then (dwSize.toNat : Int) else dwSize.toNat - 2 ^ 32 := by
  have hlt : dwSize.toNat < 2 ^ 32 := dwSize.toNat_lt
  change dwSize.toBitVec.toInt = _
  rw [BitVec.toInt_eq_toNat_cond]
  change (if 2 * dwSize.toNat < 2 ^ 32 then (dwSize.toNat : Int) else dwSize.toNat - 2 ^ 32) = _
  split <;> split <;> omega

theorem maxBytesPerDomain_eq : (maxBytesPerDomain : Int) = 10485760 := rfl

theorem maxAllocsPerDomain_eq : (maxAllocsPerDomain : Int) = 1000 := rfl

/-- The three stretches of the sum of a counter and a request. -/
theorem aboveByteLimit_size_iff {bytesInAppDomain : Int32} (hb : 0 ≤ bytesInAppDomain)
    (dwSize : SIZE_T) :
    aboveByteLimit bytesInAppDomain dwSize.toInt32 = true ↔
      (bytesInAppDomain.toInt + dwSize.toNat > maxBytesPerDomain ∧
          bytesInAppDomain.toInt + dwSize.toNat < 2 ^ 31) ∨
        bytesInAppDomain.toInt + dwSize.toNat > 2 ^ 32 + maxBytesPerDomain := by
  have hnonneg : 0 ≤ bytesInAppDomain.toInt := Int32.le_iff_toInt_le.mp hb
  have hlong : bytesInAppDomain.toInt < 2 ^ 31 := bytesInAppDomain.toInt_lt
  have hsize : dwSize.toNat < 2 ^ 32 := dwSize.toNat_lt
  rw [aboveByteLimit_iff, toInt_toInt32]
  generalize bytesInAppDomain.toInt = b at *
  generalize dwSize.toNat = n at *
  rw [maxBytesPerDomain_eq, Int.bmod_eq_emod]
  split <;> split <;> omega

/-- The byte test is exact when the sum is a `LONG`, or so far above `2 ^ 32`
that what is left of it is above the limit too. -/
theorem byte_limit_exact_iff {bytesInAppDomain : Int32} (hb : 0 ≤ bytesInAppDomain)
    (dwSize : SIZE_T) :
    (aboveByteLimit bytesInAppDomain dwSize.toInt32 = true ↔
        bytesInAppDomain.toInt + dwSize.toNat > maxBytesPerDomain) ↔
      bytesInAppDomain.toInt + dwSize.toNat < 2 ^ 31 ∨
        bytesInAppDomain.toInt + dwSize.toNat > 2 ^ 32 + maxBytesPerDomain := by
  rw [aboveByteLimit_size_iff hb, maxBytesPerDomain_eq]
  omega

theorem byte_limit_exact_iff_one_byte_over :
    (aboveByteLimit 10485760 (1 : SIZE_T).toInt32 = true ↔
        (10485760 : Int32).toInt + (1 : SIZE_T).toNat > maxBytesPerDomain) ↔
      (10485760 : Int32).toInt + (1 : SIZE_T).toNat < 2 ^ 31 ∨
        (10485760 : Int32).toInt + (1 : SIZE_T).toNat > 2 ^ 32 + maxBytesPerDomain :=
  byte_limit_exact_iff (by decide) 1

/-- A domain that holds nothing is let through with a request of two gigabytes. -/
theorem two_gigabytes_let_through :
    ¬(aboveByteLimit 0 (2147483648 : SIZE_T).toInt32 = true ↔
      (0 : Int32).toInt + (2147483648 : SIZE_T).toNat > maxBytesPerDomain) := by
  decide

/-- A refusal is never wrong: what goes wrong is a request let through. -/
theorem above_limit_of_refused {bytesInAppDomain : Int32} (hb : 0 ≤ bytesInAppDomain)
    {dwSize : SIZE_T} (h : aboveByteLimit bytesInAppDomain dwSize.toInt32 = true) :
    bytesInAppDomain.toInt + dwSize.toNat > maxBytesPerDomain := by
  rcases (aboveByteLimit_size_iff hb dwSize).mp h with ⟨habove, -⟩ | habove
  · exact habove
  · rw [maxBytesPerDomain_eq] at habove ⊢
    omega

/-- Below `2 ^ 31` the byte test is that of the exact model. -/
theorem aboveByteLimit_ofInt {b : Int} {dwSize : SIZE_T} (hb : 0 ≤ b)
    (hsum : b + dwSize.toNat < 2 ^ 31) :
    aboveByteLimit (Int32.ofInt b) dwSize.toInt32 =
      decide (b + dwSize.toLONG > maxBytesPerDomain) := by
  have hsize : dwSize.toLONG = dwSize.toNat := by
    rw [SIZE_T.toLONG, toInt_toInt32, if_pos (by omega)]
  have hcounter : (Int32.ofInt b).toInt = b :=
    Int32.toInt_ofInt_of_le (by omega) (by omega)
  have hnonneg : 0 ≤ Int32.ofInt b := by
    rw [Int32.le_iff_toInt_le, hcounter]
    exact hb
  rw [Bool.eq_iff_iff, decide_eq_true_iff, hsize, aboveByteLimit_size_iff hnonneg, hcounter,
    maxBytesPerDomain_eq]
  omega

theorem aboveAllocLimit_ofInt {n : Int} (hn : 0 ≤ n) (hlt : n < 2 ^ 31 - 1) :
    aboveAllocLimit (Int32.ofInt n) = decide (n + 1 > maxAllocsPerDomain) := by
  have hcount : (Int32.ofInt n).toInt = n := Int32.toInt_ofInt_of_le (by omega) (by omega)
  rw [Bool.eq_iff_iff, decide_eq_true_iff, aboveAllocLimit_iff, hcount, maxAllocsPerDomain_eq,
    Int.bmod_eq_emod]
  split <;> omega

end Win32

namespace DomainData

/-- As long as neither the sum nor a counter leaves the range of a `LONG`, the
build answers as the exact model. -/
theorem onMemoryAcquiring_eq_win32 {c : DomainData} {thread : DWORD} {dwSize : SIZE_T}
    (hrange : ∀ domain info, c.threadAppDomain.lookup thread = some domain →
      c.appDomains.lookup domain = some info →
        (0 ≤ info.bytesInAppDomain ∧ info.bytesInAppDomain + dwSize.toNat < 2 ^ 31) ∧
          0 ≤ info.allocsInAppDomain ∧ info.allocsInAppDomain < 2 ^ 31 - 1) :
    Win32.onMemoryAcquiring thread dwSize.toInt32 c =
      c.onMemoryAcquiring thread dwSize.toLONG := by
  simp only [Win32.onMemoryAcquiring, onMemoryAcquiring]
  cases hthread : c.threadAppDomain.lookup thread with
  | none => rfl
  | some domain =>
      cases hrecord : c.appDomains.lookup domain with
      | none => simp only [hrecord]
      | some info =>
          obtain ⟨⟨hbytes, hsum⟩, hallocs, hlt⟩ := hrange domain info hthread hrecord
          simp only [hrecord, Win32.aboveByteLimit_ofInt hbytes hsum,
            Win32.aboveAllocLimit_ofInt hallocs hlt, decide_eq_true_eq]

end DomainData

end HostedPumpkin
