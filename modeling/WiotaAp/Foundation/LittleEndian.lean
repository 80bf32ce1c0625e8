import WiotaAp.Foundation.Slice

/-!
# Little-endian numbers in a byte buffer

`leBytes k n` are the `k` bytes that store the number `n`, least significant byte first, and
`leValue` is the number that a run of bytes stores.  A number that fits is read back as it was
stored.
-/

namespace Buffers

/-- The `k` low bytes of `n`, least significant byte first. -/
def leBytes : ℕ → ℕ → List UInt8
  | 0, _ => []
  | k + 1, n => UInt8.ofNat n :: leBytes k (n / 256)

/-- The number stored in a run of bytes, least significant byte first. -/
def leValue : List UInt8 → ℕ
  | [] => 0
  | b :: bs => b.toNat + 256 * leValue bs

/-- The stored number takes the bytes asked for. -/
@[simp] lemma length_leBytes (k n : ℕ) : (leBytes k n).length = k := by
  induction k generalizing n with
  | zero => rfl
  | succ k ih => rw [leBytes, List.length_cons, ih]

/-- Reading back a stored number gives its low bytes. -/
lemma leValue_leBytes (k n : ℕ) : leValue (leBytes k n) = n % 256 ^ k := by
  induction k generalizing n with
  | zero => rw [leBytes, leValue, pow_zero, Nat.mod_one]
  | succ k ih =>
    have hlow : (UInt8.ofNat n).toNat = n % 256 := UInt8.toNat_ofNat'
    rw [leBytes, leValue, ih, hlow, pow_succ' 256 k, Nat.mod_mul]

/-- A number that fits is read back as it was stored. -/
lemma leValue_leBytes_of_lt {k n : ℕ} (h : n < 256 ^ k) : leValue (leBytes k n) = n := by
  rw [leValue_leBytes, Nat.mod_eq_of_lt h]

end Buffers
