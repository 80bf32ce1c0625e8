import WiotaAp.Foundation.Slice

/-!
# Bitmaps in an array of bytes

Bit `k` of a bitmap is bit `k % 8` of its byte `k / 8`.  Setting and clearing a bit are a read and a
write of this byte, and both fault outside the array.

`orBits_cases` says what setting a row of bits does, and `firstBitFrom_cases` what a search for the
first bit that is set finds.  `bitSet` is the bitmap as a finite set of places.
-/

namespace Buffers

/-! ### The bits of a byte -/

/-- The byte with bit `i` set and no other. -/
def bitMask (i : ℕ) : UInt8 :=
  1 <<< UInt8.ofNat i

/-- Bit `i` of a byte. -/
def byteBit (byte : UInt8) (i : ℕ) : Bool :=
  byte.toBitVec.getLsbD i

/-- The bits of a mask. -/
lemma byteBit_bitMask {i j : ℕ} (hi : i < 8) (hj : j < 8) :
    byteBit (bitMask i) j = decide (j = i) := by
  have hmod : i % 256 % 8 = i := by omega
  have hsub : (!decide (j < i) && decide (j - i = 0)) = decide (j = i) := by
    rw [Bool.eq_iff_iff]
    simp only [Bool.and_eq_true, Bool.not_eq_true', decide_eq_false_iff_not, decide_eq_true_eq]
    omega
  unfold byteBit bitMask
  simpa [hmod, hj] using hsub

/-- Two bytes with the same bits are equal. -/
lemma byte_ext {byte byte' : UInt8} (h : ∀ j < 8, byteBit byte j = byteBit byte' j) :
    byte = byte' :=
  UInt8.toBitVec_inj.mp (BitVec.eq_of_getLsbD_eq h)

/-- The bits after setting some. -/
lemma byteBit_or (byte mask : UInt8) (j : ℕ) :
    byteBit (byte ||| mask) j = (byteBit byte j || byteBit mask j) := by
  unfold byteBit
  rw [UInt8.toBitVec_or, BitVec.getLsbD_or]

/-- The bits after masking. -/
lemma byteBit_and (byte mask : UInt8) (j : ℕ) :
    byteBit (byte &&& mask) j = (byteBit byte j && byteBit mask j) := by
  unfold byteBit
  rw [UInt8.toBitVec_and, BitVec.getLsbD_and]

/-- The bits of a complement. -/
lemma byteBit_not (byte : UInt8) {j : ℕ} (hj : j < 8) : byteBit (~~~byte) j = !byteBit byte j := by
  unfold byteBit
  rw [UInt8.toBitVec_not, BitVec.getLsbD_not, decide_eq_true hj, Bool.true_and]

/-- A bit is tested by masking. -/
lemma and_bitMask_ne_zero {byte : UInt8} {i : ℕ} (hi : i < 8) :
    byte &&& bitMask i ≠ 0 ↔ byteBit byte i = true := by
  constructor
  · intro hne
    by_contra hbit
    refine hne (byte_ext fun j hj => ?_)
    have hzero : byteBit 0 j = false := by simp [byteBit]
    rw [byteBit_and, byteBit_bitMask hi hj, hzero]
    by_cases hji : j = i
    · rw [hji, eq_false_of_ne_true hbit]
      rfl
    · rw [decide_eq_false hji, Bool.and_false]
  · intro hbit heq
    have hand := byteBit_and byte (bitMask i) i
    rw [heq, hbit, byteBit_bitMask hi hi] at hand
    simp [byteBit] at hand

/-- The lowest bit of a byte that is set. -/
def lowestBit (byte : UInt8) : Option ℕ :=
  (List.range 8).find? fun j => byte &&& bitMask j != 0

/-- A byte other than zero has a lowest bit. -/
lemma exists_lowestBit {byte : UInt8} (hbyte : byte ≠ 0) :
    ∃ j, lowestBit byte = some j ∧ j < 8 ∧ byteBit byte j = true ∧
      ∀ i < j, byteBit byte i = false := by
  obtain ⟨i, hi, hbit⟩ : ∃ i < 8, byteBit byte i = true := by
    by_contra hnone
    push Not at hnone
    refine hbyte (byte_ext fun j hj => ?_)
    rw [eq_false_of_ne_true (hnone j hj)]
    simp [byteBit]
  cases hlowest : lowestBit byte with
  | none =>
    have hzero := List.find?_eq_none.mp hlowest i (List.mem_range.mpr hi)
    exact absurd (bne_iff_ne.mpr ((and_bitMask_ne_zero hi).mpr hbit)) hzero
  | some j =>
    obtain ⟨hj, hrange, hfirst⟩ := List.find?_range_eq_some.mp hlowest
    have hlt : j < 8 := List.mem_range.mp hrange
    refine ⟨j, rfl, hlt, (and_bitMask_ne_zero hlt).mp (bne_iff_ne.mp hj), fun i hi => ?_⟩
    have hzero : byte &&& bitMask i = 0 := by simpa using hfirst i hi
    by_contra hset
    exact (and_bitMask_ne_zero (hi.trans hlt)).mpr (eq_true_of_ne_false hset) hzero

/-! ### The bits of an array -/

/-- Bit `k` of a bitmap; there are none outside the array. -/
def bitAt (bytes : List UInt8) (k : ℕ) : Bool :=
  byteBit (bytes.getD (k / 8) 0) (k % 8)

/-- Setting bit `k`. -/
def orBit (bytes : List UInt8) (k : ℕ) : Except Fault (List UInt8) :=
  match bytes[k / 8]? with
  | none => .error .outOfBounds
  | some byte => .ok (bytes.set (k / 8) (byte ||| bitMask (k % 8)))

/-- Clearing bit `k`. -/
def clearBit (bytes : List UInt8) (k : ℕ) : Except Fault (List UInt8) :=
  match bytes[k / 8]? with
  | none => .error .outOfBounds
  | some byte => .ok (bytes.set (k / 8) (byte &&& ~~~bitMask (k % 8)))

/-- A bit that is set is in the array. -/
lemma lt_of_bitAt {bytes : List UInt8} {k : ℕ} (h : bitAt bytes k = true) :
    k < 8 * bytes.length := by
  by_contra hle
  have hout : bytes.length ≤ k / 8 := by omega
  rw [bitAt, List.getD_eq_default _ _ hout] at h
  simp [byteBit] at h

/-- The bits after a byte has been replaced by one with the bits `f`. -/
lemma bitAt_set {bytes : List UInt8} {i : ℕ} (hi : i < bytes.length) (byte : UInt8) (k : ℕ) :
    bitAt (bytes.set i byte) k = if k / 8 = i then byteBit byte (k % 8) else bitAt bytes k := by
  unfold bitAt
  by_cases hk : k / 8 = i
  · rw [if_pos hk, hk, List.getD_eq_getElem?_getD, List.getElem?_set_self hi, Option.getD_some]
  · rw [if_neg hk, List.getD_eq_getElem?_getD, List.getElem?_set_ne (Ne.symm hk),
      List.getD_eq_getElem?_getD]

/-- Two places in one byte are the same if their remainders are. -/
lemma eq_iff_mod_eq {j k : ℕ} (h : j / 8 = k / 8) : j = k ↔ j % 8 = k % 8 := by
  omega

/-- What setting a bit in the array does. -/
lemma exists_orBit {bytes : List UInt8} {k : ℕ} (hk : k < 8 * bytes.length) :
    ∃ bytes', orBit bytes k = .ok bytes' ∧ bytes'.length = bytes.length ∧
      ∀ j, bitAt bytes' j = (bitAt bytes j || decide (j = k)) := by
  have hlt : k / 8 < bytes.length := by omega
  refine ⟨bytes.set (k / 8) (bytes[k / 8] ||| bitMask (k % 8)), ?_, List.length_set, fun j => ?_⟩
  · rw [orBit, List.getElem?_eq_getElem hlt]
  · rw [bitAt_set hlt]
    by_cases hj : j / 8 = k / 8
    · have hold : bitAt bytes j = byteBit bytes[k / 8] (j % 8) := by
        rw [bitAt, hj, List.getD_eq_getElem _ _ hlt]
      rw [if_pos hj, byteBit_or, hold,
        byteBit_bitMask (Nat.mod_lt _ (by decide)) (Nat.mod_lt _ (by decide)),
        decide_eq_decide.mpr (eq_iff_mod_eq hj)]
    · have hne : j ≠ k := fun heq => hj (congrArg (· / 8) heq)
      rw [if_neg hj, decide_eq_false hne, Bool.or_false]

/-- Setting a bit outside the array. -/
lemma orBit_of_le {bytes : List UInt8} {k : ℕ} (hk : 8 * bytes.length ≤ k) :
    orBit bytes k = .error .outOfBounds := by
  have hle : bytes.length ≤ k / 8 := by omega
  rw [orBit, List.getElem?_eq_none hle]

/-- What clearing a bit in the array does. -/
lemma exists_clearBit {bytes : List UInt8} {k : ℕ} (hk : k < 8 * bytes.length) :
    ∃ bytes', clearBit bytes k = .ok bytes' ∧ bytes'.length = bytes.length ∧
      ∀ j, bitAt bytes' j = (bitAt bytes j && !decide (j = k)) := by
  have hlt : k / 8 < bytes.length := by omega
  refine ⟨bytes.set (k / 8) (bytes[k / 8] &&& ~~~bitMask (k % 8)), ?_, List.length_set,
    fun j => ?_⟩
  · rw [clearBit, List.getElem?_eq_getElem hlt]
  · rw [bitAt_set hlt]
    by_cases hj : j / 8 = k / 8
    · have hold : bitAt bytes j = byteBit bytes[k / 8] (j % 8) := by
        rw [bitAt, hj, List.getD_eq_getElem _ _ hlt]
      rw [if_pos hj, byteBit_and, byteBit_not _ (Nat.mod_lt _ (by decide)), hold,
        byteBit_bitMask (Nat.mod_lt _ (by decide)) (Nat.mod_lt _ (by decide)),
        decide_eq_decide.mpr (eq_iff_mod_eq hj)]
    · have hne : j ≠ k := fun heq => hj (congrArg (· / 8) heq)
      rw [if_neg hj, decide_eq_false hne, Bool.not_false, Bool.and_true]

/-! ### The set of the bits -/

/-- The places of the bits that are set. -/
def bitSet (bytes : List UInt8) : Finset ℕ :=
  (Finset.range (8 * bytes.length)).filter fun k => bitAt bytes k = true

/-- The members are the bits that are set. -/
lemma mem_bitSet {bytes : List UInt8} {k : ℕ} : k ∈ bitSet bytes ↔ bitAt bytes k = true := by
  rw [bitSet, Finset.mem_filter, Finset.mem_range]
  exact and_iff_right_of_imp lt_of_bitAt

/-- There is no member exactly if all bytes are zero. -/
lemma bitSet_eq_empty_iff {bytes : List UInt8} :
    bitSet bytes = ∅ ↔ bytes = List.replicate bytes.length 0 := by
  constructor
  · intro h
    refine List.eq_replicate_iff.mpr ⟨rfl, fun byte hbyte => ?_⟩
    obtain ⟨i, hi, rfl⟩ := List.mem_iff_getElem.mp hbyte
    refine byte_ext fun j hj => ?_
    have hbit : bitAt bytes (8 * i + j) = false := by
      refine eq_false_of_ne_true fun hset => ?_
      have hmem := mem_bitSet.mpr hset
      rw [h] at hmem
      exact Finset.notMem_empty _ hmem
    have hdiv : (8 * i + j) / 8 = i := by omega
    have hmod : (8 * i + j) % 8 = j := by omega
    rw [bitAt, hdiv, hmod, List.getD_eq_getElem _ _ hi] at hbit
    rw [hbit]
    simp [byteBit]
  · intro h
    refine Finset.eq_empty_iff_forall_notMem.mpr fun k hk => ?_
    have hbit := mem_bitSet.mp hk
    have hzero : bytes.getD (k / 8) 0 = 0 := by
      rw [h, List.getD_eq_getElem?_getD, List.getElem?_replicate]
      split <;> rfl
    rw [bitAt, hzero] at hbit
    simp [byteBit] at hbit

/-! ### Rows of bits -/

/-- Setting `n` bits from bit `k` on. -/
def orBits : List UInt8 → ℕ → ℕ → Except Fault (List UInt8)
  | bytes, _, 0 => .ok bytes
  | bytes, k, n + 1 => do
    let bytes ← orBit bytes k
    orBits bytes (k + 1) n

/-- Setting a row of bits: the row is in the array and its bits are set, or it is not and the
program faults. -/
lemma orBits_cases (bytes : List UInt8) (k n : ℕ) :
    ((n = 0 ∨ k + n ≤ 8 * bytes.length) ∧ ∃ bytes', orBits bytes k n = .ok bytes' ∧
      bytes'.length = bytes.length ∧
      ∀ j, bitAt bytes' j = (bitAt bytes j || decide (k ≤ j ∧ j < k + n))) ∨
    (n ≠ 0 ∧ 8 * bytes.length < k + n ∧ orBits bytes k n = .error .outOfBounds) := by
  induction n generalizing bytes k with
  | zero =>
    refine .inl ⟨.inl rfl, bytes, rfl, rfl, fun j => ?_⟩
    have hnot : ¬ (k ≤ j ∧ j < k + 0) := by omega
    rw [decide_eq_false hnot, Bool.or_false]
  | succ n ih =>
    by_cases hk : k < 8 * bytes.length
    · obtain ⟨bytes', hor, hlength, hbits⟩ := exists_orBit hk
      rcases ih bytes' (k + 1) with ⟨hrow, bytes'', hors, hlength', hbits'⟩ | ⟨hn, hout, hors⟩
      · refine .inl ⟨.inr (by omega), bytes'', ?_, hlength'.trans hlength, fun j => ?_⟩
        · rw [orBits, hor]
          exact hors
        · rw [hbits', hbits, Bool.or_assoc, ← Bool.decide_or]
          have hiff : (j = k ∨ k + 1 ≤ j ∧ j < k + 1 + n) ↔ (k ≤ j ∧ j < k + (n + 1)) := by omega
          rw [decide_eq_decide.mpr hiff]
      · refine .inr ⟨Nat.succ_ne_zero n, by omega, ?_⟩
        rw [orBits, hor]
        exact hors
    · refine .inr ⟨Nat.succ_ne_zero n, by omega, ?_⟩
      rw [orBits, orBit_of_le (Nat.le_of_not_lt hk)]
      rfl

/-! ### The first bit -/

/-- The first bit that is set in `n` bytes from byte `i` on. -/
def firstBitFrom (bytes : List UInt8) : ℕ → ℕ → Except Fault (Option ℕ)
  | _, 0 => .ok none
  | i, n + 1 =>
    match bytes[i]? with
    | none => .error .outOfBounds
    | some byte =>
      if byte ≠ 0 then .ok ((lowestBit byte).map (i * 8 + ·))
      else firstBitFrom bytes (i + 1) n

/-- The search for the first bit: there is none, or it finds the first one. -/
lemma firstBitFrom_cases (bytes : List UInt8) {i n : ℕ} (hn : i + n ≤ bytes.length) :
    (firstBitFrom bytes i n = .ok none ∧
      ∀ k, 8 * i ≤ k → k < 8 * (i + n) → bitAt bytes k = false) ∨
    ∃ k, firstBitFrom bytes i n = .ok (some k) ∧ 8 * i ≤ k ∧ k < 8 * (i + n) ∧
      bitAt bytes k = true ∧ ∀ j, 8 * i ≤ j → j < k → bitAt bytes j = false := by
  induction n generalizing i with
  | zero => exact .inl ⟨rfl, fun k hle hlt => by omega⟩
  | succ n ih =>
    have hlt : i < bytes.length := by omega
    have hat : ∀ k, k / 8 = i → bitAt bytes k = byteBit bytes[i] (k % 8) := by
      intro k hk
      rw [bitAt, hk, List.getD_eq_getElem _ _ hlt]
    rw [firstBitFrom, List.getElem?_eq_getElem hlt]
    by_cases hbyte : bytes[i] = 0
    · have hzero : ∀ k, k / 8 = i → bitAt bytes k = false := by
        intro k hk
        rw [hat k hk, hbyte]
        simp [byteBit]
      simp only [hbyte, ne_eq, not_true_eq_false, if_false]
      rcases ih (i := i + 1) (by omega) with ⟨hsearch, hnone⟩ | ⟨k, hsearch, hle, hk, hbit, hfirst⟩
      · refine .inl ⟨hsearch, fun k hle hk => ?_⟩
        by_cases hrow : k / 8 = i
        · exact hzero k hrow
        · exact hnone k (by omega) (by omega)
      · refine .inr ⟨k, hsearch, by omega, by omega, hbit, fun j hle' hj => ?_⟩
        by_cases hrow : j / 8 = i
        · exact hzero j hrow
        · exact hfirst j (by omega) hj
    · obtain ⟨j, hlowest, hj, hbit, hlow⟩ := exists_lowestBit hbyte
      simp only [ne_eq, hbyte, not_false_eq_true, if_true, hlowest, Option.map_some]
      refine .inr ⟨i * 8 + j, rfl, by omega, by omega, ?_, fun m hle hm => ?_⟩
      · rw [hat _ (by omega), show (i * 8 + j) % 8 = j by omega]
        exact hbit
      · rw [hat m (by omega)]
        exact hlow _ (by omega)

end Buffers
