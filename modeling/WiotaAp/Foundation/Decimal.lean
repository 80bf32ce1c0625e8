import Mathlib.Data.Nat.Digits.Defs
import Mathlib.Data.UInt
import Mathlib.Tactic.IntervalCases
import Mathlib.Tactic.Ring

/-!
# Decimal texts

`decimal n` and `decimalInt n` are the bytes of the decimal representation of a number.  A text is
known by its last digit (`decimal_of_lt`, `decimal_of_le`), and `digitsValue` is the number that the
digits of a text stand for.
-/

namespace Buffers

/-- The bytes of a text in the ASCII range. -/
def textBytes (s : String) : List UInt8 :=
  s.toList.map fun c => UInt8.ofNat c.toNat

/-- The decimal representation of a natural number. -/
def decimal (n : ℕ) : List UInt8 :=
  textBytes n.repr

/-- The decimal representation of an integer. -/
def decimalInt (n : ℤ) : List UInt8 :=
  textBytes (toString n)

/-- The byte of a digit. -/
def digitByte (d : ℕ) : UInt8 :=
  UInt8.ofNat (48 + d)

/-- The byte of the minus sign. -/
def minusSign : UInt8 := 45

/-- The representation of a natural number has no sign. -/
lemma decimalInt_of_nonneg {n : ℤ} (h : 0 ≤ n) : decimalInt n = decimal n.natAbs := by
  obtain ⟨m, rfl⟩ := Int.eq_ofNat_of_zero_le h
  rfl

/-- That of a negative number has a minus sign in front. -/
lemma decimalInt_of_neg {n : ℤ} (h : n < 0) : decimalInt n = minusSign :: decimal n.natAbs := by
  obtain ⟨m, rfl⟩ := Int.eq_negSucc_of_lt_zero h
  have htext : toString (Int.negSucc m) = "-" ++ (m + 1).repr := rfl
  rw [decimalInt, htext, textBytes, String.toList_append, List.map_append]
  rfl

/-! ### Digit by digit -/

private lemma ofNat_digitChar {d : ℕ} (h : d < 10) :
    UInt8.ofNat d.digitChar.toNat = digitByte d := by
  interval_cases d <;> rfl

private lemma decimal_eq_map (n : ℕ) :
    decimal n = (Nat.toDigits 10 n).map fun c => UInt8.ofNat c.toNat := by
  rw [decimal, textBytes, Nat.repr_eq_ofList_toDigits, String.toList_ofList]

/-- A text of one digit. -/
lemma decimal_of_lt {n : ℕ} (h : n < 10) : decimal n = [digitByte n] := by
  rw [decimal_eq_map, Nat.toDigits_of_lt_base h, List.map_singleton, ofNat_digitChar h]

/-- The last digit of a longer text. -/
lemma decimal_of_le {n : ℕ} (h : 10 ≤ n) :
    decimal n = decimal (n / 10) ++ [digitByte (n % 10)] := by
  rw [decimal_eq_map, Nat.toDigits_eq_if (by decide), if_neg (not_lt.mpr h), List.map_append,
    List.map_singleton, ofNat_digitChar (Nat.mod_lt n (by decide)), decimal_eq_map]

/-- A number below a power of ten has at most so many digits. -/
lemma length_decimal_le {n k : ℕ} (hk : 0 < k) (h : n < 10 ^ k) : (decimal n).length ≤ k := by
  rw [decimal_eq_map, List.length_map]
  exact Nat.toDigits_length 10 n k hk h

lemma toNat_digitByte {d : ℕ} (h : d < 10) : (digitByte d).toNat = 48 + d := by
  rw [digitByte, UInt8.toNat_ofNat']
  omega

/-- Induction over a decimal text, from its first digit on. -/
lemma decimal_induction {P : ℕ → Prop} (hlt : ∀ n < 10, P n)
    (hle : ∀ n, 10 ≤ n → P (n / 10) → P n) (n : ℕ) : P n := by
  induction n using Nat.strong_induction_on with
  | _ n ih =>
    rcases Nat.lt_or_ge n 10 with h | h
    · exact hlt n h
    · exact hle n h (ih (n / 10) (Nat.div_lt_self (by omega) (by decide)))

/-- The bytes of a decimal text are digits. -/
lemma bounds_of_mem_decimal {n : ℕ} {c : UInt8} (h : c ∈ decimal n) :
    48 ≤ c.toNat ∧ c.toNat ≤ 57 := by
  induction n using decimal_induction with
  | hlt n hn =>
    rw [decimal_of_lt hn, List.mem_singleton] at h
    rw [h, toNat_digitByte hn]
    omega
  | hle n hn ih =>
    rw [decimal_of_le hn, List.mem_append, List.mem_singleton] at h
    rcases h with h | rfl
    · exact ih h
    · have hmod : n % 10 < 10 := Nat.mod_lt n (by decide)
      rw [toNat_digitByte hmod]
      omega

/-- There is at least one digit. -/
lemma decimal_ne_nil (n : ℕ) : decimal n ≠ [] := by
  induction n using decimal_induction with
  | hlt n hn =>
    rw [decimal_of_lt hn]
    exact List.cons_ne_nil _ _
  | hle n hn ih =>
    rw [decimal_of_le hn]
    exact List.append_ne_nil_of_left_ne_nil ih _

/-! ### The number of a text -/

/-- The number that digits stand for. -/
def digitsValue : List UInt8 → ℕ
  | [] => 0
  | c :: text => 10 ^ text.length * (c.toNat - 48) + digitsValue text

/-- One more digit at the end. -/
lemma digitsValue_append (text : List UInt8) (c : UInt8) :
    digitsValue (text ++ [c]) = 10 * digitsValue text + (c.toNat - 48) := by
  induction text with
  | nil => simp [digitsValue]
  | cons d text ih =>
    rw [List.cons_append, digitsValue, ih, digitsValue, List.length_append, List.length_singleton,
      pow_succ]
    ring

/-- A decimal text stands for its number. -/
lemma digitsValue_decimal (n : ℕ) : digitsValue (decimal n) = n := by
  induction n using decimal_induction with
  | hlt n hn =>
    rw [decimal_of_lt hn]
    simp [digitsValue, toNat_digitByte hn]
  | hle n hn ih =>
    rw [decimal_of_le hn, digitsValue_append, ih, toNat_digitByte (Nat.mod_lt n (by decide))]
    omega

end Buffers
