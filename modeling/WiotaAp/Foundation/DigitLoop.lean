import WiotaAp.Foundation.CString
import WiotaAp.Foundation.Decimal

/-!
# Writing the digits of a number

`digitLoop` is the loop that writes the digits of an `int` into a block, the last one first, and
`lowDigits` is what it writes.  For a natural number this is the decimal text, reversed; a negative
`int` gives characters that are no digits, since the remainder has the sign of the number.
-/

namespace Buffers

/-- `num % 10 + 48` for an `int`. -/
def digitOf (num : ℤ) : UInt8 :=
  UInt8.ofNat (num.tmod 10 + 48).toNat

/-- `-num` for an `int`; the least one has no negation and is taken to stay. -/
def negInt (num : ℤ) : ℤ :=
  if num = -2 ^ 31 then num else -num

/-- The loop that writes the digits of `num` from the place `p + i` on: it goes on as long as what
is left of the number says `again`.  The number gets smaller, so that `num.natAbs + 1` rounds are
enough. -/
def digitLoop (again : ℤ → Bool) (p : ℕ) :
    ℕ → ℕ → ℤ → List UInt8 → Except Fault (ℕ × List UInt8)
  | 0, i, _, buf => .ok (i, buf)
  | n + 1, i, num, buf => do
    let buf ← writeAt buf (p + i) [digitOf num]
    if again (num.tdiv 10) then digitLoop again p n (i + 1) (num.tdiv 10) buf
    else return (i + 1, buf)

/-- The bytes that the loop writes. -/
def lowDigits (again : ℤ → Bool) : ℕ → ℤ → List UInt8
  | 0, _ => []
  | n + 1, num => digitOf num :: if again (num.tdiv 10) then lowDigits again n (num.tdiv 10) else []

/-! ### What is written -/

section Loop

variable {again : ℤ → Bool}

/-- The loop over a part of the block that has room for the digits. -/
lemma digitLoop_spec {n i p : ℕ} {num : ℤ} {buf pre part post : List UInt8}
    (hbuf : buf = pre ++ (part ++ post)) (hp : p + i = pre.length)
    (hpart : part.length = (lowDigits again n num).length) :
    digitLoop again p n i num buf =
      .ok (i + (lowDigits again n num).length, pre ++ (lowDigits again n num ++ post)) := by
  induction n generalizing i num buf pre part with
  | zero =>
    rw [lowDigits, List.length_nil, List.length_eq_zero_iff] at hpart
    rw [hbuf, hpart]
    rfl
  | succ n ih =>
    cases part with
    | nil => simp [lowDigits] at hpart
    | cons c part =>
      rw [List.cons_append] at hbuf
      rw [digitLoop, writeAt_cell hbuf hp, ok_bind, lowDigits]
      rw [lowDigits] at hpart
      by_cases hagain : again (num.tdiv 10) = true
      · rw [if_pos hagain] at hpart ⊢
        have hrest := ih (show pre ++ digitOf num :: (part ++ post) =
            (pre ++ [digitOf num]) ++ (part ++ post) by simp)
          (show p + (i + 1) = (pre ++ [digitOf num]).length by simp [← hp, Nat.add_assoc])
          (Nat.succ.inj hpart)
        rw [if_pos hagain, hrest, List.append_assoc, List.singleton_append, List.cons_append,
          List.length_cons, Nat.add_right_comm, Nat.add_assoc]
      · rw [if_neg hagain] at hpart ⊢
        rw [if_neg hagain, List.length_eq_zero_iff.mp (Nat.succ.inj hpart)]
        rfl

/-- The loop keeps the length of the block. -/
lemma length_of_digitLoop {n i i' p : ℕ} {num : ℤ} {buf buf' : List UInt8}
    (h : digitLoop again p n i num buf = .ok (i', buf')) : buf'.length = buf.length := by
  induction n generalizing i num buf with
  | zero =>
    cases h
    rfl
  | succ n ih =>
    rw [digitLoop] at h
    obtain ⟨buf₁, hwrite, hrest⟩ := exists_of_bind_eq_ok h
    rw [← length_of_writeAt hwrite]
    split at hrest
    · exact ih hrest
    · cases hrest
      rfl

/-- A digit is no terminator. -/
lemma digitOf_ne_zero (num : ℤ) : digitOf num ≠ 0 := by
  intro hzero
  have hval := congrArg UInt8.toNat hzero
  have habs : (num.tmod 10).natAbs < 10 := by
    rw [Int.natAbs_tmod]
    exact Nat.mod_lt _ (by decide)
  rw [digitOf, UInt8.toNat_ofNat', UInt8.toNat_zero] at hval
  omega

lemma noNul_lowDigits (n : ℕ) (num : ℤ) : NoNul (lowDigits again n num) := by
  induction n generalizing num with
  | zero => exact fun c hc => absurd hc List.not_mem_nil
  | succ n ih =>
    intro c hc
    rw [lowDigits, List.mem_cons] at hc
    rcases hc with rfl | hc
    · exact digitOf_ne_zero num
    · split at hc
      · exact ih _ c hc
      · exact absurd hc List.not_mem_nil

/-- A number below a power of ten has at most so many digits. -/
lemma length_lowDigits_le (hzero : again 0 = false) (n : ℕ) {k : ℕ} {num : ℤ}
    (h : num.natAbs < 10 ^ (k + 1)) : (lowDigits again n num).length ≤ k + 1 := by
  induction n generalizing num k with
  | zero => exact Nat.zero_le _
  | succ n ih =>
    have hdiv : (num.tdiv 10).natAbs = num.natAbs / 10 := Int.natAbs_tdiv num 10
    rw [lowDigits, List.length_cons]
    apply Nat.succ_le_succ
    split
    · rename_i hagain
      cases k with
      | zero =>
        have hend : num.tdiv 10 = 0 := by
          apply Int.natAbs_eq_zero.mp
          rw [hdiv]
          omega
        rw [hend, hzero] at hagain
        cases hagain
      | succ k =>
        apply ih
        rw [hdiv]
        rw [pow_succ] at h
        omega
    · exact Nat.zero_le _

/-- The digit of a natural number. -/
lemma digitOf_natCast (n : ℕ) : digitOf n = digitByte (n % 10) := by
  have hmod : (n : ℤ).tmod 10 = ((n % 10 : ℕ) : ℤ) := by
    rw [Int.tmod_eq_emod_of_nonneg (Int.natCast_nonneg n)]
    rfl
  rw [digitOf, hmod, digitByte]
  congr 1
  omega

/-- For a natural number the loop writes its decimal text from the end. -/
lemma lowDigits_natCast (hagain : ∀ n : ℕ, again n = decide (n ≠ 0)) {fuel n : ℕ} (h : n < fuel) :
    lowDigits again fuel n = (decimal n).reverse := by
  induction fuel generalizing n with
  | zero => exact absurd h (Nat.not_lt_zero n)
  | succ fuel ih =>
    have hdiv : (n : ℤ).tdiv 10 = ((n / 10 : ℕ) : ℤ) := by
      rw [Int.tdiv_eq_ediv_of_nonneg (Int.natCast_nonneg n)]
      rfl
    rw [lowDigits, digitOf_natCast, hdiv, hagain]
    rcases Nat.lt_or_ge n 10 with hlt | hge
    · rw [decimal_of_lt hlt, Nat.mod_eq_of_lt hlt, Nat.div_eq_of_lt hlt]
      rfl
    · have hne : n / 10 ≠ 0 := by omega
      rw [decimal_of_le hge, List.reverse_append, if_pos (by simpa using hne), ih (by omega)]
      rfl

end Loop

end Buffers
