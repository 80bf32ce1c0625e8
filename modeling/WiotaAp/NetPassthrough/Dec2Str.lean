import WiotaAp.Foundation.DigitLoop

/-!
# Appending a number to a string

`dec2str` of `net_passthrough.c` appends the decimal text of an `int` to a string.  The digits are
written in reverse order and then swapped in place, a pair at a time by sums and differences of the
two characters.

`dec2str_spec` says what is appended for every `int`, and `dec2str_appends_decimal` that this is the
decimal representation of the number, for all but the least one.
-/

namespace WiotaAp

open Buffers

/-! ### The functions -/

/-- The sign of a negative number: the index behind it, the number without it and the string. -/
def writeSign (p : ℕ) (num : ℤ) (str : List UInt8) : Except Fault (ℕ × ℤ × List UInt8) :=
  if num < 0 then do
    let str ← writeAt str p [minusSign]
    return (1, negInt num, str)
  else .ok (0, num, str)

/-- The exchange of two characters by `a = a + b; b = a - b; a = a - b`. -/
def swapBySum (str : List UInt8) (a b : ℕ) : Except Fault (List UInt8) := do
  let str ← writeAt str a [(← byteAt str a) + (← byteAt str b)]
  let str ← writeAt str b [(← byteAt str a) - (← byteAt str b)]
  writeAt str a [(← byteAt str a) - (← byteAt str b)]

/-- The loop that swaps the digits, from the index `j` on. -/
def swapDigits (p i : ℕ) : ℕ → ℕ → List UInt8 → Except Fault (List UInt8)
  | 0, _, str => .ok str
  | n + 1, j, str =>
    if j < i / 2 then do
      let str ← swapBySum str (p + j) (p + (i - 1 - j))
      swapDigits p i n (j + 1) str
    else .ok str

/-- The condition of the loop that writes the digits. -/
def numLeft (num : ℤ) : Bool :=
  num ≠ 0

/-- `dec2str` on the block of the string. -/
def dec2str (num : ℤ) (str : List UInt8) : Except Fault (List UInt8) := do
  let p ← strlen str
  let (i, num, str) ← writeSign p num str
  let (i, str) ← digitLoop numLeft p (num.natAbs + 1) i num str
  let str ← writeAt str (p + i) [0]
  if (← byteAt str p) = minusSign then swapDigits p (i + 1) i 1 str else swapDigits p i i 0 str

/-- The text that `dec2str` produces, in a string that was empty. -/
def dec2strText (num : ℤ) : List UInt8 :=
  match dec2str num (List.replicate 12 0) with
  | .ok str => str.takeWhile (· ≠ 0)
  | .error _ => []

/-! ### The parts of the text -/

/-- The sign in front of the digits. -/
def signOf (num : ℤ) : List UInt8 :=
  if num < 0 then [minusSign] else []

/-- The number whose digits are written. -/
def unsignedOf (num : ℤ) : ℤ :=
  if num < 0 then negInt num else num

/-- The digits in the order in which they are written. -/
def digitsOf (num : ℤ) : List UInt8 :=
  lowDigits numLeft ((unsignedOf num).natAbs + 1) (unsignedOf num)

/-- The sign and the digits behind it. -/
def signedText (num : ℤ) : List UInt8 :=
  signOf num ++ (digitsOf num).reverse

lemma noNul_signOf (num : ℤ) : NoNul (signOf num) := by
  unfold signOf
  split <;> decide

lemma noNul_signedText (num : ℤ) : NoNul (signedText num) := by
  apply (noNul_signOf num).append
  intro c hc
  exact noNul_lowDigits _ _ c (List.mem_reverse.mp hc)

/-- The number without its sign is at most the largest absolute value of an `int`. -/
lemma natAbs_unsignedOf (num : ℤ) : (unsignedOf num).natAbs = num.natAbs := by
  unfold unsignedOf negInt
  split
  · split
    · rfl
    · exact Int.natAbs_neg num
  · rfl

/-- The text of an `int` has at most eleven characters. -/
lemma length_signedText_le {num : ℤ} (h : num.natAbs ≤ 2 ^ 31) : (signedText num).length ≤ 11 := by
  have hsign : (signOf num).length ≤ 1 := by
    unfold signOf
    split <;> simp
  have hdigits : (digitsOf num).length ≤ 9 + 1 := by
    apply length_lowDigits_le rfl
    rw [natAbs_unsignedOf]
    omega
  rw [signedText, List.length_append, List.length_reverse]
  omega

/-- For all but the least `int`, the sign and the digits are the decimal representation. -/
lemma signedText_eq_decimalInt {num : ℤ} (h : -2 ^ 31 < num) : signedText num = decimalInt num := by
  have hagain : ∀ n : ℕ, numLeft n = decide (n ≠ 0) := by
    intro n
    simp [numLeft]
  have hdigits : ∀ n : ℕ, (lowDigits numLeft (n + 1) n).reverse = decimal n := by
    intro n
    rw [lowDigits_natCast hagain (Nat.lt_succ_self n), List.reverse_reverse]
  have hunsigned : unsignedOf num = (num.natAbs : ℤ) := by
    unfold unsignedOf negInt
    split
    · rw [if_neg (by omega)]
      omega
    · omega
  rw [signedText, digitsOf, hunsigned, Int.natAbs_natCast, hdigits, signOf]
  split
  · rename_i hneg
    rw [decimalInt_of_neg hneg]
    rfl
  · rename_i hnonneg
    rw [decimalInt_of_nonneg (not_lt.mp hnonneg)]
    rfl

/-! ### The swaps -/

/-- The sums wrap around, and so do the differences: the characters are exchanged. -/
lemma swapBySum_swaps : Swaps swapBySum := by
  intro pre mid post x y
  have hb := fun a c => (second_cell pre mid post a c).1
  have hlen := fun a => (second_cell pre mid post a y).2
  have hsum : x + y - y = x := by grind
  have hdiff : x + y - x = y := by grind
  unfold swapBySum
  rw [byteAt_part rfl rfl, ok_bind, byteAt_part (hb x y) (hlen x), ok_bind, writeAt_cell rfl rfl,
    ok_bind, byteAt_part rfl rfl, ok_bind, byteAt_part (hb _ y) (hlen _), ok_bind,
    writeAt_cell (hb _ y) (hlen _), ok_bind, ← hb, byteAt_part rfl rfl, ok_bind,
    byteAt_part (hb _ _) (hlen _), ok_bind, writeAt_cell rfl rfl, hsum, hdiff]

/-- The loop over the index is the loop over both ends of the range. -/
lemma swapDigits_eq (p i n j : ℕ) (str : List UInt8) :
    swapDigits p i n j str = reverseLoop swapBySum n (p + j) (p + i - 1 - j) str := by
  induction n generalizing j str with
  | zero => rfl
  | succ n ih =>
    rw [swapDigits, reverseLoop]
    by_cases hj : j < i / 2
    · have hhi : p + (i - 1 - j) = p + i - 1 - j := by omega
      have hnext : p + i - 1 - j - 1 = p + i - 1 - (j + 1) := by omega
      rw [if_pos hj, if_pos (by omega), hhi, hnext]
      simp only [ih, Nat.add_assoc]
    · rw [if_neg hj, if_neg (by omega)]

/-- The exchange keeps the length of the block. -/
lemma length_of_swapBySum {str str' : List UInt8} {a b : ℕ} (h : swapBySum str a b = .ok str') :
    str'.length = str.length := by
  unfold swapBySum at h
  obtain ⟨x, hx, h⟩ := exists_of_bind_eq_ok h
  obtain ⟨y, hy, h⟩ := exists_of_bind_eq_ok h
  obtain ⟨str₁, h₁, h⟩ := exists_of_bind_eq_ok h
  obtain ⟨x₁, hx₁, h⟩ := exists_of_bind_eq_ok h
  obtain ⟨y₁, hy₁, h⟩ := exists_of_bind_eq_ok h
  obtain ⟨str₂, h₂, h⟩ := exists_of_bind_eq_ok h
  obtain ⟨x₂, hx₂, h⟩ := exists_of_bind_eq_ok h
  obtain ⟨y₂, hy₂, h⟩ := exists_of_bind_eq_ok h
  rw [length_of_writeAt h, length_of_writeAt h₂, length_of_writeAt h₁]

lemma length_of_swapDigits {p i n j : ℕ} {str str' : List UInt8}
    (h : swapDigits p i n j str = .ok str') : str'.length = str.length := by
  induction n generalizing j str with
  | zero =>
    cases h
    rfl
  | succ n ih =>
    rw [swapDigits] at h
    split at h
    · obtain ⟨str₁, hswap, hrest⟩ := exists_of_bind_eq_ok h
      rw [ih hrest, length_of_swapBySum hswap]
    · cases h
      rfl

/-! ### The whole function -/

/-- `dec2str` keeps the length of the block. -/
lemma length_of_dec2str {num : ℤ} {str str' : List UInt8} (h : dec2str num str = .ok str') :
    str'.length = str.length := by
  unfold dec2str at h
  obtain ⟨p, -, h⟩ := exists_of_bind_eq_ok h
  obtain ⟨⟨i, num', str₁⟩, hsign, h⟩ := exists_of_bind_eq_ok h
  obtain ⟨⟨i', str₂⟩, hdigits, h⟩ := exists_of_bind_eq_ok h
  obtain ⟨str₃, hnul, h⟩ := exists_of_bind_eq_ok h
  obtain ⟨c, -, h⟩ := exists_of_bind_eq_ok h
  have hlen : str₁.length = str.length := by
    unfold writeSign at hsign
    split at hsign
    · obtain ⟨str₀, hwrite, heq⟩ := exists_of_bind_eq_ok hsign
      cases heq
      exact length_of_writeAt hwrite
    · cases hsign
      rfl
  rw [← hlen, ← length_of_digitLoop hdigits, ← length_of_writeAt hnul]
  split at h
  · exact length_of_swapDigits h
  · exact length_of_swapDigits h

/-- The sign goes into the part of the block that has room for it. -/
lemma writeSign_spec (num : ℤ) {str pre part post : List UInt8} (hstr : str = pre ++ (part ++ post))
    (hpart : part.length = (signOf num).length) :
    writeSign pre.length num str =
      .ok ((signOf num).length, unsignedOf num, pre ++ (signOf num ++ post)) := by
  unfold writeSign unsignedOf signOf at *
  split
  · rename_i hneg
    rw [if_pos hneg] at hpart
    rw [writeAt_part hstr rfl hpart]
    rfl
  · rename_i hnonneg
    rw [if_neg hnonneg, List.length_nil, List.length_eq_zero_iff] at hpart
    rw [hstr, hpart]
    rfl

/-- The swaps put the digits behind the sign into their order. -/
lemma swapDigits_spec (num : ℤ) (pre post : List UInt8) :
    (do
      let str := pre ++ (signOf num ++ (digitsOf num ++ post))
      let i := (signOf num).length + (digitsOf num).length
      if (← byteAt str pre.length) = minusSign then swapDigits pre.length (i + 1) i 1 str
      else swapDigits pre.length i i 0 str) =
    .ok (pre ++ (signedText num ++ post)) := by
  by_cases hneg : num < 0
  · have hsign : signOf num = [minusSign] := if_pos hneg
    have hreverse := reverseLoop_spec swapBySum_swaps (digitsOf num)
      (Nat.le_add_left (digitsOf num).length 1) (pre ++ [minusSign]) post
    rw [signedText, hsign]
    rw [List.append_assoc, List.append_assoc, List.length_append, List.length_singleton]
      at hreverse
    have hhi : pre.length + 1 + (digitsOf num).length - 1 =
        pre.length + (1 + (digitsOf num).length + 1) - 1 - 1 := by omega
    rw [hhi] at hreverse
    simp only [List.singleton_append, List.length_singleton]
    rw [byteAt_part rfl rfl, ok_bind, if_pos rfl, swapDigits_eq]
    simpa using hreverse
  · have hsign : signOf num = [] := if_neg hneg
    have hreverse := reverseLoop_spec swapBySum_swaps (digitsOf num)
      (le_refl (digitsOf num).length) pre post
    -- the first digit of a number that is not negative is no sign
    have hfirst : ∃ c rest, digitsOf num = c :: rest ∧ c ≠ minusSign := by
      obtain ⟨m, rfl⟩ := Int.eq_ofNat_of_zero_le (not_lt.mp hneg)
      refine ⟨_, _, rfl, ?_⟩
      rw [unsignedOf, if_neg hneg, digitOf_natCast]
      intro heq
      have hval := congrArg UInt8.toNat heq
      rw [toNat_digitByte (Nat.mod_lt m (by decide))] at hval
      have hminus : minusSign.toNat = 45 := rfl
      omega
    obtain ⟨c, rest, hdigits, hc⟩ := hfirst
    have hbyte : byteAt (pre ++ (digitsOf num ++ post)) pre.length = .ok c :=
      byteAt_part (by rw [hdigits, List.cons_append]) rfl
    rw [signedText, hsign]
    simp only [List.nil_append, List.length_nil, Nat.zero_add]
    rw [hbyte, ok_bind, if_neg hc, swapDigits_eq]
    simpa using hreverse

/-- `dec2str` on a block with a part for the sign, one for the digits and a cell for the terminator.
-/
lemma dec2str_parts (num : ℤ) {str pre sgn part post : List UInt8} {c : UInt8}
    (hend : strlen str = .ok pre.length) (hstr : str = pre ++ (sgn ++ (part ++ c :: post)))
    (hsgn : sgn.length = (signOf num).length) (hpart : part.length = (digitsOf num).length) :
    dec2str num str = .ok (pre ++ (signedText num ++ 0 :: post)) := by
  have hdigits : digitLoop numLeft pre.length ((unsignedOf num).natAbs + 1) (signOf num).length
      (unsignedOf num) (pre ++ (signOf num ++ (part ++ c :: post))) =
      .ok ((signOf num).length + (digitsOf num).length,
        pre ++ (signOf num ++ (digitsOf num ++ c :: post))) := by
    have hloop := digitLoop_spec (show pre ++ (signOf num ++ (part ++ c :: post)) =
      (pre ++ signOf num) ++ (part ++ c :: post) by simp) List.length_append.symm hpart
    rw [List.append_assoc] at hloop
    exact hloop
  have hnul : writeAt (pre ++ (signOf num ++ (digitsOf num ++ c :: post)))
      (pre.length + ((signOf num).length + (digitsOf num).length)) [0] =
      .ok (pre ++ (signOf num ++ (digitsOf num ++ 0 :: post))) := by
    rw [writeAt_cell (show pre ++ (signOf num ++ (digitsOf num ++ c :: post)) =
      (pre ++ (signOf num ++ digitsOf num)) ++ c :: post by simp) (by simp)]
    simp
  have hswap := swapDigits_spec num pre (0 :: post)
  unfold dec2str
  rw [hend, ok_bind, writeSign_spec num hstr hsgn, ok_bind]
  simp only [hdigits, ok_bind, hnul]
  exact hswap

/-- What `dec2str` does to a string with enough room behind it: the text of the number takes the
place of the terminator. -/
lemma dec2str_spec (num : ℤ) {pre rest : List UInt8} (hpre : NoNul pre)
    (hroom : (signedText num).length ≤ rest.length) :
    dec2str num (pre ++ 0 :: rest) =
      .ok (pre ++ (signedText num ++ 0 :: rest.drop (signedText num).length)) := by
  have hlen : (signedText num).length = (signOf num).length + (digitsOf num).length := by
    rw [signedText, List.length_append, List.length_reverse]
  obtain ⟨sgn, part, c, post, hrest, hsgn, hpart, rfl⟩ := exists_room
    (show (signOf num).length + (digitsOf num).length < (0 :: rest).length by
      rw [List.length_cons]
      omega)
  rw [dec2str_parts num (strlen_text hpre rest) (congrArg (pre ++ ·) hrest) hsgn hpart, hlen,
    List.drop_succ_cons]

/-- The text that `dec2str` produces is the sign with the digits. -/
lemma dec2strText_eq {num : ℤ} (h : num.natAbs ≤ 2 ^ 31) : dec2strText num = signedText num := by
  have hroom : (signedText num).length ≤ (List.replicate 11 (0 : UInt8)).length :=
    length_signedText_le h
  have hrun := dec2str_spec num (show NoNul [] by decide) hroom
  rw [List.nil_append, List.nil_append] at hrun
  have hstr : (List.replicate 12 0 : List UInt8) = 0 :: List.replicate 11 0 := rfl
  have htext : ∀ c ∈ signedText num, decide (c ≠ 0) = true := by
    intro c hc
    exact decide_eq_true (noNul_signedText num c hc)
  rw [dec2strText, hstr, hrun]
  dsimp only
  rw [List.takeWhile_append_of_pos htext, List.takeWhile_cons_of_neg (by simp), List.append_nil]

/-- The decimal text of a number.  In every string with at least twelve bytes from its terminator
on, `dec2str` leaves the text in front of the terminator as it is and puts the decimal
representation of the number behind it, with a new terminator. -/
theorem dec2str_appends_decimal {n : ℤ} (hlow : -2 ^ 31 < n) (hhigh : n < 2 ^ 31)
    {pre rest : List UInt8} (hpre : NoNul pre) (hroom : 12 ≤ (0 :: rest).length) :
    dec2str n (pre ++ 0 :: rest) =
      .ok (pre ++ (decimalInt n ++ 0 :: rest.drop (decimalInt n).length)) := by
  have habs : n.natAbs ≤ 2 ^ 31 := by omega
  have hlen := length_signedText_le habs
  rw [List.length_cons] at hroom
  rw [← signedText_eq_decimalInt hlow]
  apply dec2str_spec n hpre
  omega

theorem dec2str_appends_decimal_negative :
    dec2str (-1204) [0x61, 0, 1, 2, 3, 4, 5, 6, 7, 8, 9, 10, 11] =
      .ok [0x61, 0x2D, 0x31, 0x32, 0x30, 0x34, 0, 6, 7, 8, 9, 10, 11] :=
  dec2str_appends_decimal (n := -1204) (by decide) (by decide) (show NoNul [0x61] by decide)
    (show 12 ≤ [(0 : UInt8), 1, 2, 3, 4, 5, 6, 7, 8, 9, 10, 11].length by decide)

end WiotaAp
