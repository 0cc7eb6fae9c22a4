import Mathlib.Tactic

/-!
UTF-16 strings and their little-endian bytes. A string is a list of code units,
not necessarily well formed. Decoding is total: a surrogate without its partner
and a byte without its partner each become U+FFFD, so decoding a byte sequence
piece by piece can lose what decoding it at once would not. The last theorem says
when it does not.
-/

namespace HostedPumpkin.Utf16

abbrev CodeUnit := UInt16

def isHighSurrogate (u : CodeUnit) : Bool := 0xD800 ≤ u && u < 0xDC00

def isLowSurrogate (u : CodeUnit) : Bool := 0xDC00 ≤ u && u < 0xE000

def isSurrogate (u : CodeUnit) : Bool := isHighSurrogate u || isLowSurrogate u

def replacementCharacter : CodeUnit := 0xFFFD

/-- Strings in which surrogates come in pairs only. -/
inductive WellFormed : List CodeUnit → Prop where
  | nil : WellFormed []
  | scalar {u : CodeUnit} {rest : List CodeUnit} (hu : isSurrogate u = false)
      (hrest : WellFormed rest) : WellFormed (u :: rest)
  | pair {high low : CodeUnit} {rest : List CodeUnit} (hhigh : isHighSurrogate high = true)
      (hlow : isLowSurrogate low = true) (hrest : WellFormed rest) :
      WellFormed (high :: low :: rest)

def replaceSurrogate (u : CodeUnit) : CodeUnit :=
  if isSurrogate u then replacementCharacter else u

/-- Replace each surrogate without a partner. -/
def replaceInvalid : List CodeUnit → List CodeUnit
  | [] => []
  | [u] => [replaceSurrogate u]
  | u :: v :: rest =>
      if isHighSurrogate u && isLowSurrogate v then u :: v :: replaceInvalid rest
      else replaceSurrogate u :: replaceInvalid (v :: rest)

theorem replaceSurrogate_of_scalar {u : CodeUnit} (h : isSurrogate u = false) :
    replaceSurrogate u = u := by
  simp [replaceSurrogate, h]

/-- The replacement character is no surrogate, so nothing replaces itself. -/
theorem replaceSurrogate_eq_self_iff {u : CodeUnit} :
    replaceSurrogate u = u ↔ isSurrogate u = false := by
  constructor
  · intro h
    by_contra hsurrogate
    rw [Bool.not_eq_false] at hsurrogate
    rw [replaceSurrogate, if_pos hsurrogate] at h
    rw [← h] at hsurrogate
    exact absurd hsurrogate (by decide)
  · exact replaceSurrogate_of_scalar

theorem replaceInvalid_pair {high low : CodeUnit} (hhigh : isHighSurrogate high = true)
    (hlow : isLowSurrogate low = true) (rest : List CodeUnit) :
    replaceInvalid (high :: low :: rest) = high :: low :: replaceInvalid rest := by
  simp [replaceInvalid, hhigh, hlow]

theorem replaceInvalid_single_step {u v : CodeUnit} {rest : List CodeUnit}
    (h : ¬ (isHighSurrogate u && isLowSurrogate v) = true) :
    replaceInvalid (u :: v :: rest) = replaceSurrogate u :: replaceInvalid (v :: rest) := by
  simp only [replaceInvalid, if_neg h]

theorem isSurrogate_of_high {u : CodeUnit} (h : isHighSurrogate u = true) :
    isSurrogate u = true := by
  simp [isSurrogate, h]

theorem replaceInvalid_scalar {u : CodeUnit} (hu : isSurrogate u = false)
    (rest : List CodeUnit) : replaceInvalid (u :: rest) = u :: replaceInvalid rest := by
  cases rest with
  | nil => simp [replaceInvalid, replaceSurrogate_of_scalar hu]
  | cons v rest =>
      have hhigh : ¬ (isHighSurrogate u && isLowSurrogate v) = true := by
        intro h
        rw [Bool.and_eq_true] at h
        rw [isSurrogate_of_high h.1] at hu
        cases hu
      rw [replaceInvalid_single_step hhigh, replaceSurrogate_of_scalar hu]

@[simp] theorem length_replaceInvalid (units : List CodeUnit) :
    (replaceInvalid units).length = units.length := by
  induction units using replaceInvalid.induct with
  | case1 => rfl
  | case2 u => rfl
  | case3 u v rest h ih =>
      rw [Bool.and_eq_true] at h
      simp [replaceInvalid_pair h.1 h.2, ih]
  | case4 u v rest h ih => simpa [replaceInvalid_single_step h] using ih

/-- Replacement leaves exactly the well-formed strings alone. -/
theorem replaceInvalid_eq_self_iff {units : List CodeUnit} :
    replaceInvalid units = units ↔ WellFormed units := by
  constructor
  · intro h
    induction units using replaceInvalid.induct with
    | case1 => exact .nil
    | case2 u =>
        rw [replaceInvalid, List.cons.injEq, replaceSurrogate_eq_self_iff] at h
        exact .scalar h.1 .nil
    | case3 u v rest hpair ih =>
        rw [Bool.and_eq_true] at hpair
        rw [replaceInvalid_pair hpair.1 hpair.2] at h
        exact .pair hpair.1 hpair.2 (ih (by simpa using h))
    | case4 u v rest hpair ih =>
        rw [replaceInvalid_single_step hpair, List.cons.injEq,
          replaceSurrogate_eq_self_iff] at h
        exact .scalar h.1 (ih h.2)
  · intro h
    induction h with
    | nil => rfl
    | scalar hu _ ih => rw [replaceInvalid_scalar hu, ih]
    | pair hhigh hlow _ ih => rw [replaceInvalid_pair hhigh hlow, ih]

instance (units : List CodeUnit) : Decidable (WellFormed units) :=
  decidable_of_iff _ replaceInvalid_eq_self_iff

/-- A unit that is no surrogate ends whatever stands before it. -/
theorem replaceInvalid_append_scalar {z : CodeUnit} (hz : isSurrogate z = false)
    (units : List CodeUnit) :
    replaceInvalid (units ++ [z]) = replaceInvalid units ++ [z] := by
  induction units using replaceInvalid.induct with
  | case1 => exact replaceInvalid_scalar hz []
  | case2 u =>
      have hlow : ¬ (isHighSurrogate u && isLowSurrogate z) = true := by
        intro h
        rw [Bool.and_eq_true] at h
        simp [isSurrogate, h.2] at hz
      simp [replaceInvalid_single_step hlow, replaceInvalid, replaceSurrogate_of_scalar hz]
  | case3 u v rest h ih =>
      rw [Bool.and_eq_true] at h
      simp [replaceInvalid_pair h.1 h.2, ih]
  | case4 u v rest h ih =>
      simpa [replaceInvalid_single_step h] using ih

theorem WellFormed.append_scalar {units : List CodeUnit} (h : WellFormed units)
    {z : CodeUnit} (hz : isSurrogate z = false) : WellFormed (units ++ [z]) := by
  rw [← replaceInvalid_eq_self_iff, replaceInvalid_append_scalar hz,
    replaceInvalid_eq_self_iff.mpr h]

/-! Bytes. -/

def unitBytes (u : CodeUnit) : List UInt8 :=
  [UInt8.ofNat (u.toNat % 256), UInt8.ofNat (u.toNat / 256)]

def unitOfBytes (low high : UInt8) : CodeUnit :=
  UInt16.ofNat (low.toNat + 256 * high.toNat)

def toBytes (units : List CodeUnit) : List UInt8 := units.flatMap unitBytes

/-- The complete code units of a byte sequence. -/
def ofBytes : List UInt8 → List CodeUnit
  | [] => []
  | [_] => []
  | low :: high :: rest => unitOfBytes low high :: ofBytes rest

/-- Encode a string; what is not well formed is replaced. -/
def encode (units : List CodeUnit) : List UInt8 := toBytes (replaceInvalid units)

/-- Decode a byte sequence on its own; a byte left over is replaced. -/
def decode (bytes : List UInt8) : List CodeUnit :=
  replaceInvalid (ofBytes bytes) ++
    if bytes.length % 2 = 1 then [replacementCharacter] else []

theorem unitOfBytes_unitBytes (u : CodeUnit) :
    unitOfBytes (UInt8.ofNat (u.toNat % 256)) (UInt8.ofNat (u.toNat / 256)) = u := by
  have hu : u.toNat < 65536 := u.toNat_lt
  apply UInt16.toNat_inj.mp
  simp only [unitOfBytes, UInt8.toNat_ofNat', UInt16.toNat_ofNat']
  omega

theorem unitBytes_unitOfBytes (low high : UInt8) :
    unitBytes (unitOfBytes low high) = [low, high] := by
  have hlow : low.toNat < 256 := low.toNat_lt
  have hhigh : high.toNat < 256 := high.toNat_lt
  have hvalue : (unitOfBytes low high).toNat = low.toNat + 256 * high.toNat := by
    simp only [unitOfBytes, UInt16.toNat_ofNat']
    omega
  have hmod : (low.toNat + 256 * high.toNat) % 256 = low.toNat := by omega
  have hdiv : (low.toNat + 256 * high.toNat) / 256 = high.toNat := by omega
  rw [unitBytes, hvalue, hmod, hdiv, UInt8.ofNat_toNat, UInt8.ofNat_toNat]

@[simp] theorem ofBytes_toBytes_append (units : List CodeUnit) (bytes : List UInt8) :
    ofBytes (toBytes units ++ bytes) = units ++ ofBytes bytes := by
  induction units with
  | nil => rfl
  | cons u rest ih =>
      have hcons : toBytes (u :: rest) ++ bytes =
          UInt8.ofNat (u.toNat % 256) :: UInt8.ofNat (u.toNat / 256) ::
            (toBytes rest ++ bytes) := rfl
      rw [hcons, ofBytes, unitOfBytes_unitBytes, ih, List.cons_append]

theorem toBytes_append (units more : List CodeUnit) :
    toBytes (units ++ more) = toBytes units ++ toBytes more :=
  List.flatMap_append

@[simp] theorem length_toBytes (units : List CodeUnit) :
    (toBytes units).length = 2 * units.length := by
  induction units with
  | nil => rfl
  | cons u rest ih =>
      have hcons : toBytes (u :: rest) = unitBytes u ++ toBytes rest := rfl
      rw [hcons, List.length_append, ih]
      simp only [unitBytes, List.length_cons, List.length_nil]
      omega

theorem length_ofBytes (bytes : List UInt8) : (ofBytes bytes).length = bytes.length / 2 := by
  induction bytes using ofBytes.induct with
  | case1 => rfl
  | case2 _ => simp [ofBytes]
  | case3 low high rest ih =>
      simp only [ofBytes, List.length_cons, ih]
      omega

/-- A sequence of whole code units is what encoding its units gives. -/
theorem toBytes_ofBytes {bytes : List UInt8} (h : bytes.length % 2 = 0) :
    toBytes (ofBytes bytes) = bytes := by
  induction bytes using ofBytes.induct with
  | case1 => rfl
  | case2 _ => simp at h
  | case3 low high rest ih =>
      have hrest : rest.length % 2 = 0 := by
        simp only [List.length_cons] at h
        omega
      have hcons : toBytes (ofBytes (low :: high :: rest)) =
          unitBytes (unitOfBytes low high) ++ toBytes (ofBytes rest) := rfl
      rw [hcons, unitBytes_unitOfBytes, ih hrest]
      rfl

theorem ofBytes_append {bytes : List UInt8} (h : bytes.length % 2 = 0)
    (more : List UInt8) : ofBytes (bytes ++ more) = ofBytes bytes ++ ofBytes more := by
  conv_lhs => rw [← toBytes_ofBytes h]
  exact ofBytes_toBytes_append _ _

@[simp] theorem length_decode (bytes : List UInt8) :
    (decode bytes).length = (bytes.length + 1) / 2 := by
  simp only [decode, List.length_append, length_replaceInvalid, length_ofBytes]
  split
  next h =>
    simp only [List.length_cons, List.length_nil]
    omega
  next h =>
    simp only [List.length_nil]
    omega

theorem decode_of_even {bytes : List UInt8} (h : bytes.length % 2 = 0) :
    decode bytes = replaceInvalid (ofBytes bytes) := by
  have hodd : ¬ bytes.length % 2 = 1 := by omega
  simp [decode, hodd]

theorem encode_of_wellFormed {units : List CodeUnit} (h : WellFormed units) :
    encode units = toBytes units := by
  rw [encode, replaceInvalid_eq_self_iff.mpr h]

/-! Decoding piece by piece. -/

/-- A piece that starts and ends between two characters. -/
def Aligned (bytes : List UInt8) : Prop :=
  bytes.length % 2 = 0 ∧ WellFormed (ofBytes bytes)

instance (bytes : List UInt8) : Decidable (Aligned bytes) :=
  inferInstanceAs (Decidable (_ ∧ _))

theorem decode_of_aligned {bytes : List UInt8} (h : Aligned bytes) :
    decode bytes = ofBytes bytes := by
  rw [decode_of_even h.1, replaceInvalid_eq_self_iff.mpr h.2]

/-- Pieces never decode to fewer units than they have bytes for, and an odd
piece decodes to more. -/
theorem le_length_flatMap_decode (pieces : List (List UInt8)) :
    pieces.flatten.length ≤ 2 * (pieces.flatMap decode).length := by
  induction pieces with
  | nil => simp
  | cons piece rest ih =>
      simp only [List.flatten_cons, List.flatMap_cons, List.length_append, length_decode]
      omega

theorem even_of_length_flatMap_decode {pieces : List (List UInt8)}
    (h : 2 * (pieces.flatMap decode).length = pieces.flatten.length) :
    ∀ piece ∈ pieces, piece.length % 2 = 0 := by
  induction pieces with
  | nil => simp
  | cons piece rest ih =>
      have hrest := le_length_flatMap_decode rest
      simp only [List.flatten_cons, List.flatMap_cons, List.length_append, length_decode] at h
      intro other hother
      rcases List.mem_cons.mp hother with rfl | hother
      · omega
      · exact ih (by omega) other hother

theorem flatMap_ofBytes {pieces : List (List UInt8)}
    (h : ∀ piece ∈ pieces, piece.length % 2 = 0) :
    pieces.flatMap ofBytes = ofBytes pieces.flatten := by
  induction pieces with
  | nil => rfl
  | cons piece rest ih =>
      rw [List.flatMap_cons, List.flatten_cons,
        ofBytes_append (h piece List.mem_cons_self),
        ih (fun other hother => h other (List.mem_cons_of_mem _ hother))]

theorem aligned_of_flatMap_decode {pieces : List (List UInt8)}
    (heven : ∀ piece ∈ pieces, piece.length % 2 = 0)
    (h : pieces.flatMap decode = pieces.flatMap ofBytes) :
    ∀ piece ∈ pieces, Aligned piece := by
  induction pieces with
  | nil => simp
  | cons piece rest ih =>
      have hpiece := heven piece List.mem_cons_self
      rw [List.flatMap_cons, List.flatMap_cons, decode_of_even hpiece] at h
      obtain ⟨hfirst, hrest⟩ := List.append_inj h (by simp)
      intro other hother
      rcases List.mem_cons.mp hother with rfl | hother
      · exact ⟨hpiece, replaceInvalid_eq_self_iff.mp hfirst⟩
      · exact ih (fun p hp => heven p (List.mem_cons_of_mem _ hp)) hrest other hother

/-- Decoding the pieces of an encoded string gives the string back if and only
if every piece is aligned. -/
theorem flatMap_decode_eq_iff {units : List CodeUnit} {pieces : List (List UInt8)}
    (hpieces : pieces.flatten = toBytes units) :
    pieces.flatMap decode = units ↔ ∀ piece ∈ pieces, Aligned piece := by
  have hunits : ofBytes pieces.flatten = units := by
    simpa [hpieces, ofBytes] using ofBytes_toBytes_append units []
  constructor
  · intro h
    have heven : ∀ piece ∈ pieces, piece.length % 2 = 0 :=
      even_of_length_flatMap_decode (by simp [h, hpieces])
    refine aligned_of_flatMap_decode heven ?_
    rw [h, flatMap_ofBytes heven, hunits]
  · intro h
    have hdecode : pieces.flatMap decode = pieces.flatMap ofBytes := by
      have hmap : pieces.map decode = pieces.map ofBytes :=
        List.map_congr_left (fun piece hpiece => decode_of_aligned (h piece hpiece))
      rw [List.flatMap, hmap, List.flatMap]
    rw [hdecode, flatMap_ofBytes (fun piece hpiece => (h piece hpiece).1), hunits]

end HostedPumpkin.Utf16
