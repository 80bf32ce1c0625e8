import WiotaAp.At.FreqString
import WiotaAp.Foundation.DigitLoop

/-!
# Frequency lists as text

`uc_array_to_string` of `at_wiota.c` writes an array of bytes as decimal numbers with commas between
them.  A number is written by `uc_itoa` into a static buffer in reverse order, reversed there,
copied to a buffer of ten bytes and from that to the string.

### Outline

* the functions, with all accesses checked;
* `ucItoa_natCast`, `printElement_spec` and `ucArrayToString_spec`: what is written is `listText`;
* `fieldValue_decimal` and `convertFrom_listText`: `ucStringToArray` reads the numbers back;
* `freq_text_round_trip`: both together.
-/

namespace WiotaAp

open Buffers

/-! ### The functions -/

/-- The exchange of two characters by way of `temp`. -/
def swapByTemp (str : List UInt8) (a b : ℕ) : Except Fault (List UInt8) := do
  let temp ← byteAt str a
  let str ← writeAt str a [← byteAt str b]
  writeAt str b [temp]

/-- `uc_str_reverse`. -/
def ucStrReverse (str : List UInt8) : Except Fault (List UInt8) := do
  let n ← strlen str
  reverseLoop swapByTemp n 0 (n - 1) str

/-- The condition of the loop of `uc_itoa`. -/
def numPositive (num : ℤ) : Bool :=
  num > 0

/-- The sign of a negative number in `uc_itoa`, which the reversal brings to the front. -/
def appendSign (isNg : ℤ) (i : ℕ) (str : List UInt8) : Except Fault (ℕ × List UInt8) :=
  if isNg < 0 then do
    let str ← writeAt str i [minusSign]
    return (i + 1, str)
  else .ok (i, str)

/-- `uc_itoa` on its static buffer. -/
def ucItoa (isNg : ℤ) (str : List UInt8) : Except Fault (List UInt8) := do
  let num := if isNg < 0 then negInt isNg else isNg
  let (i, str) ← digitLoop numPositive 0 (num.natAbs + 1) 0 num str
  let (i, str) ← appendSign isNg i str
  let str ← writeAt str i [0]
  ucStrReverse str

/-- The variables of `uc_array_to_string`, with the static buffer of `uc_itoa`. -/
structure PrintState where
  str : List UInt8
  strTemp : List UInt8
  string : List UInt8
  offset : ℕ
  deriving DecidableEq, Repr

/-- One element is written. -/
def printElement (x : UInt8) (st : PrintState) : Except Fault PrintState := do
  let str ← ucItoa x.toNat st.str
  let strTemp ← strncpy st.strTemp 0 str 10
  let strTempLen ← strlen strTemp
  let string ← strncpy st.string st.offset strTemp strTempLen
  return ⟨str, strTemp, string, st.offset + strTempLen⟩

/-- A comma is written. -/
def printComma (st : PrintState) : Except Fault PrintState := do
  let string ← strncpy st.string st.offset [comma, 0] 1
  return { st with string, offset := st.offset + 1 }

/-- The loop of `uc_array_to_string`. -/
def printElements : List UInt8 → PrintState → Except Fault PrintState
  | [], st => .ok st
  | x :: array, st => do
    let st ← printElement x st
    -- `i < array_len - 1`
    let st ← if array.isEmpty then pure st else printComma st
    printElements array st

/-- `uc_array_to_string`: the string, and what is left in the static buffer. -/
def ucArrayToString (array string str : List UInt8) : Except Fault (List UInt8 × List UInt8) := do
  let st ← printElements array ⟨str, List.replicate 10 0, string, 0⟩
  return (st.string, st.str)

/-! ### One number -/

/-- The decimal text of a byte. -/
def byteText (x : UInt8) : List UInt8 :=
  decimal x.toNat

lemma byteText_ne_nil (x : UInt8) : byteText x ≠ [] :=
  decimal_ne_nil _

lemma length_byteText_le (x : UInt8) : (byteText x).length ≤ 3 := by
  apply length_decimal_le (by decide)
  have hx := x.toNat_lt
  omega

/-- The text of a byte has neither a terminator nor a comma. -/
lemma ne_of_mem_byteText {x c : UInt8} (hc : c ∈ byteText x) : c ≠ 0 ∧ c ≠ comma := by
  obtain ⟨hlow, -⟩ := bounds_of_mem_decimal hc
  constructor
  · rintro rfl
    exact absurd hlow (by decide)
  · rintro rfl
    exact absurd hlow (by decide)

lemma noNul_byteText (x : UInt8) : NoNul (byteText x) :=
  fun _ hc => (ne_of_mem_byteText hc).1

lemma swapByTemp_swaps : Swaps swapByTemp := by
  intro pre mid post x y
  have hb := fun a c => (second_cell pre mid post a c).1
  have hlen := fun a => (second_cell pre mid post a y).2
  unfold swapByTemp
  rw [byteAt_part rfl rfl, ok_bind, byteAt_part (hb x y) (hlen x), ok_bind, writeAt_cell rfl rfl,
    ok_bind, writeAt_cell (hb y y) (hlen y), ← hb]

/-- The reversal of a string. -/
lemma ucStrReverse_text {text : List UInt8} (h : NoNul text) (rest : List UInt8) :
    ucStrReverse (text ++ 0 :: rest) = .ok (text.reverse ++ 0 :: rest) := by
  have hreverse := reverseLoop_spec swapByTemp_swaps text (le_refl text.length) [] (0 :: rest)
  rw [List.length_nil, Nat.zero_add, List.nil_append, List.nil_append] at hreverse
  rw [ucStrReverse, strlen_text h, ok_bind, hreverse]

/-- `uc_itoa` of a natural number leaves its decimal text at the front of the static buffer. -/
lemma ucItoa_natCast {n : ℕ} {str : List UInt8} (hroom : (decimal n).length < str.length) :
    ucItoa n str = .ok (decimal n ++ 0 :: str.drop ((decimal n).length + 1)) := by
  have hagain : ∀ m : ℕ, numPositive m = decide (m ≠ 0) := by
    intro m
    simp [numPositive, Nat.pos_iff_ne_zero]
  have hdigits := lowDigits_natCast hagain (Nat.lt_succ_self n)
  have hlen : (lowDigits numPositive (n + 1) n).length = (decimal n).length := by
    rw [hdigits, List.length_reverse]
  obtain ⟨u, part, c, post, hstr, hu, hpart, hpost⟩ :=
    exists_room (show 0 + (decimal n).length < str.length by omega)
  obtain rfl := List.length_eq_zero_iff.mp hu
  have hloop := digitLoop_spec hstr (Nat.zero_add 0) (hpart.trans hlen.symm)
  have hnonneg : ¬(n : ℤ) < 0 := by omega
  rw [hlen, hdigits, Nat.zero_add, List.nil_append] at hloop
  have hnul : writeAt ((decimal n).reverse ++ c :: post) (decimal n).length [0] =
      .ok ((decimal n).reverse ++ 0 :: post) :=
    writeAt_cell rfl List.length_reverse.symm
  have hfree : NoNul (decimal n).reverse := by
    rw [← hdigits]
    exact noNul_lowDigits _ _
  unfold ucItoa appendSign
  simp only [if_neg hnonneg, Int.natAbs_natCast]
  rw [hloop, ok_bind]
  dsimp only
  rw [ok_bind]
  dsimp only
  rw [hnul, ok_bind, ucStrReverse_text hfree, List.reverse_reverse, hpost, Nat.zero_add]

/-! ### The string -/

/-- The decimal values of an array, separated by commas. -/
def listText (array : List UInt8) : List UInt8 :=
  List.intercalate [comma] (array.map byteText)

lemma listText_singleton (x : UInt8) : listText [x] = byteText x :=
  List.intercalate_singleton

lemma listText_cons_cons (x y : UInt8) (array : List UInt8) :
    listText (x :: y :: array) = byteText x ++ comma :: listText (y :: array) := by
  rw [listText, List.map_cons, List.map_cons, List.intercalate_cons_cons, List.append_assoc]
  rfl

/-- A number takes three characters at most, and a comma. -/
lemma length_listText_le (array : List UInt8) : (listText array).length ≤ 4 * array.length := by
  induction array with
  | nil => exact Nat.zero_le _
  | cons x array ih =>
    have hx := length_byteText_le x
    cases array with
    | nil =>
      rw [listText_singleton, List.length_singleton]
      omega
    | cons y array =>
      rw [listText_cons_cons, List.length_append, List.length_cons, List.length_cons]
      omega

/-- The string in the middle of the loop: `written` is in front of the offset and `rest` behind it,
and the two buffers for a number have room for it. -/
structure PrintState.Between (st : PrintState) (written rest : List UInt8) : Prop where
  string_eq : st.string = written ++ rest
  offset_eq : st.offset = written.length
  length_str : 3 < st.str.length
  length_strTemp : st.strTemp.length = 10

/-- An element takes the place of a part of its length. -/
lemma printElement_spec (x : UInt8) {st : PrintState} {written part rest : List UInt8}
    (h : st.Between written (part ++ rest)) (hpart : part.length = (byteText x).length) :
    ∃ st', printElement x st = .ok st' ∧ st'.Between (written ++ byteText x) rest := by
  have hlen := length_byteText_le x
  have hstr := h.length_str
  have hitoa : ucItoa x.toNat st.str =
      .ok (byteText x ++ 0 :: st.str.drop ((byteText x).length + 1)) :=
    ucItoa_natCast (Nat.lt_of_le_of_lt hlen hstr)
  obtain ⟨k, hk⟩ : ∃ k, 10 = (byteText x).length + (k + 1) :=
    ⟨9 - (byteText x).length, by omega⟩
  -- the copy to the buffer of ten bytes fills it up with zeros
  have htemp : strncpy st.strTemp 0 (byteText x ++ 0 :: st.str.drop ((byteText x).length + 1)) 10 =
      .ok (byteText x ++ 0 :: List.replicate k 0) := by
    have hcopy := strncpy_padded (noNul_byteText x)
      (show st.strTemp = [] ++ (st.strTemp ++ []) by simp) List.length_nil.symm
      (h.length_strTemp.trans hk) (st.str.drop ((byteText x).length + 1))
    rw [← hk, List.nil_append, List.append_nil] at hcopy
    exact hcopy
  have hstring := strncpy_text (noNul_byteText x) h.string_eq h.offset_eq hpart
    (0 :: List.replicate k 0)
  unfold printElement
  rw [hitoa, ok_bind, htemp, ok_bind, strlen_text (noNul_byteText x), ok_bind, hstring, ok_bind]
  refine ⟨_, rfl, ?_, ?_, ?_, ?_⟩
  · simp
  · simp [h.offset_eq]
  · simp only [List.length_append, List.length_cons, List.length_drop]
    omega
  · simp only [List.length_append, List.length_cons, List.length_replicate]
    omega

lemma printComma_spec {st : PrintState} {written rest : List UInt8} {c : UInt8}
    (h : st.Between written (c :: rest)) :
    ∃ st', printComma st = .ok st' ∧ st'.Between (written ++ [comma]) rest := by
  have hcopy : strncpy st.string st.offset [comma, 0] 1 = .ok (written ++ ([comma] ++ rest)) :=
    strncpy_text (show NoNul [comma] by decide)
      (show st.string = written ++ ([c] ++ rest) from h.string_eq) h.offset_eq rfl [0]
  unfold printComma
  rw [hcopy, ok_bind]
  refine ⟨_, rfl, ?_, ?_, h.length_str, h.length_strTemp⟩
  · simp
  · simp [h.offset_eq]

/-- The loop writes the text of the array. -/
lemma printElements_spec (array : List UInt8) {st : PrintState} {written part rest : List UInt8}
    (h : st.Between written (part ++ rest)) (hpart : part.length = (listText array).length) :
    ∃ st', printElements array st = .ok st' ∧ st'.Between (written ++ listText array) rest := by
  induction array generalizing st written part with
  | nil =>
    obtain rfl := List.length_eq_zero_iff.mp hpart
    refine ⟨st, rfl, ?_⟩
    have hnil : written ++ listText [] = written := List.append_nil _
    rw [hnil]
    exact h
  | cons x array ih =>
    cases array with
    | nil =>
      rw [listText_singleton] at hpart ⊢
      obtain ⟨st₁, hrun, h₁⟩ := printElement_spec x h hpart
      refine ⟨st₁, ?_, h₁⟩
      rw [printElements, hrun, ok_bind]
      rfl
    | cons y array =>
      -- the part of the string in three: the number, the comma and the rest of the list
      rw [listText_cons_cons, List.length_append, List.length_cons] at hpart
      obtain ⟨u, v, c, w, hsplit, hu, hv, hw⟩ :=
        exists_room (show (byteText x).length + 0 < part.length by omega)
      obtain rfl := List.length_eq_zero_iff.mp hv
      have hwlen : w.length = (listText (y :: array)).length := by
        rw [hw, List.length_drop]
        omega
      rw [hsplit, List.nil_append, List.append_assoc, List.cons_append] at h
      obtain ⟨st₁, hrun₁, h₁⟩ := printElement_spec x h hu
      obtain ⟨st₂, hrun₂, h₂⟩ := printComma_spec h₁
      obtain ⟨st₃, hrun₃, h₃⟩ := ih h₂ hwlen
      refine ⟨st₃, ?_, ?_⟩
      · rw [printElements, hrun₁, ok_bind, List.isEmpty_cons, if_neg (by decide), hrun₂, ok_bind]
        exact hrun₃
      · rw [listText_cons_cons]
        simpa using h₃

/-- `uc_array_to_string` on a string of zeros. -/
lemma ucArrayToString_spec {array : List UInt8} {n : ℕ} {str : List UInt8} (hstr : 3 < str.length)
    (hroom : (listText array).length ≤ n) :
    ∃ str', ucArrayToString array (List.replicate n 0) str =
      .ok (listText array ++ List.replicate (n - (listText array).length) 0, str') := by
  have hsplit : List.replicate n (0 : UInt8) = List.replicate (listText array).length 0 ++
      List.replicate (n - (listText array).length) 0 := by
    rw [← List.replicate_add, Nat.add_sub_cancel' hroom]
  have hstart : PrintState.Between ⟨str, List.replicate 10 0, List.replicate n 0, 0⟩ []
      (List.replicate (listText array).length 0 ++
        List.replicate (n - (listText array).length) 0) :=
    ⟨hsplit, rfl, hstr, List.length_replicate⟩
  obtain ⟨st, hrun, hst⟩ := printElements_spec array hstart List.length_replicate
  refine ⟨st.str, ?_⟩
  rw [ucArrayToString, hrun, ok_bind, hst.string_eq]
  rfl

/-! ### Reading the numbers back -/

lemma toUInt8_ucNthPower (n : ℕ) : (ucNthPower 10 n).toUInt8 = UInt8.ofNat (10 ^ n) := by
  induction n with
  | zero => rfl
  | succ n ih =>
    rw [ucNthPower, UInt32.toUInt8_mul, ih, pow_succ, UInt8.ofNat_mul]
    rfl

/-- The sum of the digits is the number that they stand for, modulo 256. -/
lemma fieldValue_eq_ofNat {field : List UInt8} (h : ∀ c ∈ field, 48 ≤ c.toNat) :
    fieldValue field = UInt8.ofNat (digitsValue field) := by
  induction field with
  | nil => rfl
  | cons c field ih =>
    have hc : 48 ≤ c.toNat := h c List.mem_cons_self
    have hdigit : (c - 0x30).toUInt32.toUInt8 = UInt8.ofNat (c.toNat - 48) := by
      have hle : (0x30 : UInt8) ≤ c := UInt8.le_iff_toNat_le.mpr hc
      have hsub : (c - 0x30).toNat = c.toNat - 48 := UInt8.toNat_sub_of_le _ _ hle
      rw [UInt8.toUInt8_toUInt32, ← hsub, UInt8.ofNat_toNat]
    rw [fieldValue, digitsValue, ih fun d hd => h d (List.mem_cons_of_mem c hd),
      UInt32.toUInt8_mul, toUInt8_ucNthPower, hdigit, UInt8.ofNat_add, UInt8.ofNat_mul]

lemma fieldValue_byteText (x : UInt8) : fieldValue (byteText x) = x := by
  rw [byteText, fieldValue_eq_ofNat fun c hc => (bounds_of_mem_decimal hc).1, digitsValue_decimal]
  exact UInt8.ofNat_toNat

/-- What the elements are after the conversion, from the element `num` on: one whose allocation
fails stays zero. -/
def storedElements (malloc : ℕ → Bool) : ℕ → List UInt8 → List UInt8
  | _, [] => []
  | num, x :: array => (if malloc num then x else 0) :: storedElements malloc (num + 1) array

lemma storedElements_of_malloc {malloc : ℕ → Bool} {num : ℕ} {array : List UInt8}
    (h : ∀ i < num + array.length, malloc i = true) : storedElements malloc num array = array := by
  induction array generalizing num with
  | nil => rfl
  | cons x array ih =>
    rw [List.length_cons] at h
    rw [storedElements, h num (by omega), if_pos rfl, ih fun i hi => h i (by omega)]

section Read

variable {malloc : ℕ → Bool} {string : List UInt8}

/-- The conversion of one number of the text. -/
lemma ucStringToInt_byteText (b : Bool) (x : UInt8) {pre post array before behind : List UInt8}
    {num pStart : ℕ} (hstring : string = pre ++ (byteText x ++ post)) (hstart : pStart = pre.length)
    (harray : array = before ++ 0 :: behind) (hnum : num = before.length) :
    ucStringToInt b string (byteText x).length num pStart array =
      .ok (before ++ (if b then x else 0) :: behind) := by
  cases b with
  | false =>
    rw [harray]
    rfl
  | true =>
    have hdigits := addDigits_spec hstring (show pStart + 0 = pre.length from hstart) harray hnum
    rw [fieldValue_byteText] at hdigits
    rw [ucStringToInt, if_neg (by decide), hdigits, if_pos rfl]
    simp

/-- The scan goes over characters that are no commas. -/
lemma convertFrom_plain {text pre post : List UInt8} (htext : ∀ c ∈ text, c ≠ 0 ∧ c ≠ comma)
    {st : ScanState} (hstring : string = pre ++ (text ++ post)) (hpos : st.pEnd = pre.length)
    (n : ℕ) (malloc : ℕ → Bool) :
    convertFrom malloc string (n + text.length) st = convertFrom malloc string n
      { st with pEnd := st.pEnd + text.length, numLen := st.numLen + text.length } := by
  induction text generalizing pre st with
  | nil => rfl
  | cons c text ih =>
    rw [List.cons_append] at hstring
    obtain ⟨hnul, hcomma⟩ := htext c List.mem_cons_self
    have hrest : string = (pre ++ [c]) ++ (text ++ post) := by
      rw [hstring]
      simp
    rw [List.length_cons, ← Nat.add_assoc, convertFrom_other (byteAt_part hstring hpos) hnul hcomma,
      ih (fun d hd => htext d (List.mem_cons_of_mem c hd)) hrest (by simp [hpos])]
    simp only [Nat.add_assoc, Nat.add_comm 1]

/-- From its second character on, the scan goes over a number of the text. -/
lemma convertFrom_byteText (x : UInt8) {pre post array : List UInt8} {p num : ℕ}
    (hstring : string = pre ++ (byteText x ++ post)) (hp : p = pre.length) (n : ℕ) :
    convertFrom malloc string (n + (byteText x).length) ⟨p, p + 1, num, 1, array⟩ =
      convertFrom malloc string (n + 1)
        ⟨p, p + (byteText x).length, num, (byteText x).length, array⟩ := by
  have hplain : ∀ c ∈ byteText x, c ≠ 0 ∧ c ≠ comma := fun c hc => ne_of_mem_byteText hc
  obtain ⟨c, field, hfield⟩ := List.exists_cons_of_ne_nil (byteText_ne_nil x)
  rw [hfield] at hstring hplain ⊢
  have hrest : string = (pre ++ [c]) ++ (field ++ post) := by
    rw [hstring]
    simp
  have hpos : ScanState.pEnd ⟨p, p + 1, num, 1, array⟩ = (pre ++ [c]).length := by
    rw [List.length_append, ← hp]
    rfl
  have hscan := convertFrom_plain (fun d hd => hplain d (List.mem_cons_of_mem c hd)) hrest hpos
    (n + 1) malloc
  have hfuel : n + (c :: field).length = n + 1 + field.length := by
    rw [List.length_cons]
    omega
  rw [hfuel, hscan, List.length_cons, Nat.add_comm field.length 1, ← Nat.add_assoc]

section Field

variable (x : UInt8) {pre post array before behind : List UInt8} {p num n : ℕ}

/-- The last number of the text is stored at the terminator. -/
lemma convertFrom_last (hstring : string = pre ++ (byteText x ++ 0 :: post)) (hp : p = pre.length)
    (harray : array = before ++ 0 :: behind) (hnum : num = before.length)
    (hn : (byteText x).length ≤ n) :
    convertFrom malloc string n ⟨p, p + 1, num, 1, array⟩ =
      .ok (num + 1, before ++ (if malloc num then x else 0) :: behind) := by
  obtain ⟨m, rfl⟩ := Nat.exists_eq_add_of_le' hn
  have hend : string = (pre ++ byteText x) ++ 0 :: post := by
    rw [hstring, List.append_assoc]
  have hpos : p + (byteText x).length = (pre ++ byteText x).length := by
    rw [List.length_append, hp]
  have hnul : byteAt string (ScanState.pEnd
      ⟨p, p + (byteText x).length, num, (byteText x).length, array⟩) = .ok 0 :=
    byteAt_part hend hpos
  have hint := ucStringToInt_byteText (malloc num) x hstring hp harray hnum
  rw [convertFrom_byteText x hstring hp m, convertFrom_nul hnul]
  dsimp only
  rw [hint]
  rfl

/-- Any other number is stored at the comma behind it. -/
lemma convertFrom_next (hstring : string = pre ++ (byteText x ++ comma :: post))
    (hp : p = pre.length) (harray : array = before ++ 0 :: behind) (hnum : num = before.length) :
    convertFrom malloc string (n + (byteText x).length) ⟨p, p + 1, num, 1, array⟩ =
      convertFrom malloc string n
        ⟨p + (byteText x).length + 1, p + (byteText x).length + 2, num + 1, 1,
          before ++ (if malloc num then x else 0) :: behind⟩ := by
  have hend : string = (pre ++ byteText x) ++ comma :: post := by
    rw [hstring, List.append_assoc]
  have hpos : p + (byteText x).length = (pre ++ byteText x).length := by
    rw [List.length_append, hp]
  have hcomma : byteAt string (ScanState.pEnd
      ⟨p, p + (byteText x).length, num, (byteText x).length, array⟩) = .ok comma :=
    byteAt_part hend hpos
  have hint := ucStringToInt_byteText (malloc num) x hstring hp harray hnum
  rw [convertFrom_byteText x hstring hp n, convertFrom_comma hcomma]
  dsimp only
  rw [hint, ok_bind]

end Field

/-- From its second character on, the scan of a text converts the array. -/
lemma convertFrom_listText (x : UInt8) (array : List UInt8) {pre post before : List UInt8}
    {n p num : ℕ} (hstring : string = pre ++ (listText (x :: array) ++ 0 :: post))
    (hn : (listText (x :: array)).length ≤ n) (hp : p = pre.length) (hnum : num = before.length) :
    convertFrom malloc string n
        ⟨p, p + 1, num, 1, before ++ List.replicate (x :: array).length 0⟩ =
      .ok (num + (x :: array).length, before ++ storedElements malloc num (x :: array)) := by
  induction array generalizing x pre before n p num with
  | nil =>
    rw [listText_singleton] at hstring hn
    exact convertFrom_last x hstring hp rfl hnum hn
  | cons y array ih =>
    rw [listText_cons_cons, List.append_assoc, List.cons_append] at hstring
    rw [listText_cons_cons, List.length_append, List.length_cons] at hn
    obtain ⟨m, rfl⟩ := Nat.exists_eq_add_of_le' (show (byteText x).length ≤ n by omega)
    have hnext : string =
        (pre ++ byteText x ++ [comma]) ++ (listText (y :: array) ++ 0 :: post) := by
      rw [hstring]
      simp
    have hrest := ih y hnext (show (listText (y :: array)).length ≤ m by omega)
      (show p + (byteText x).length + 1 = (pre ++ byteText x ++ [comma]).length by
        simp [hp, Nat.add_assoc])
      (show num + 1 = (before ++ [if malloc num then x else 0]).length by simp [hnum])
    rw [List.append_assoc, List.append_assoc, List.singleton_append, List.singleton_append] at hrest
    have hcount : num + 1 + (y :: array).length = num + (x :: y :: array).length := by
      simp only [List.length_cons]
      omega
    rw [hcount] at hrest
    exact (convertFrom_next x hstring hp rfl hnum).trans hrest

/-- The text of an array is converted to its elements. -/
lemma ucStringToArray_listText (malloc : ℕ → Bool) (array post : List UInt8) :
    ucStringToArray malloc (listText array ++ 0 :: post) (List.replicate array.length 0) =
      .ok (array.length, storedElements malloc 0 array) := by
  cases array with
  | nil => rfl
  | cons x array =>
    -- the first character is scanned, as no comma is in front of it
    obtain ⟨c, field, hfield⟩ := List.exists_cons_of_ne_nil (byteText_ne_nil x)
    obtain ⟨hnul, hcomma⟩ : c ≠ 0 ∧ c ≠ comma :=
      ne_of_mem_byteText (show c ∈ byteText x by rw [hfield]; exact List.mem_cons_self)
    have hfirst : byteAt (listText (x :: array) ++ 0 :: post) 0 = .ok c := by
      cases array with
      | nil =>
        rw [listText_singleton, hfield]
        rfl
      | cons y array =>
        rw [listText_cons_cons, hfield]
        rfl
    have hlen : (listText (x :: array)).length ≤ (listText (x :: array) ++ 0 :: post).length := by
      rw [List.length_append]
      exact Nat.le_add_right _ _
    have hscan : convertFrom malloc (listText (x :: array) ++ 0 :: post)
        (listText (x :: array) ++ 0 :: post).length
        ⟨0, 0 + 1, 0, 1, [] ++ List.replicate (x :: array).length 0⟩ =
        .ok (0 + (x :: array).length, [] ++ storedElements malloc 0 (x :: array)) :=
      convertFrom_listText x array (List.nil_append _).symm hlen List.length_nil.symm
        List.length_nil.symm
    rw [Nat.zero_add, List.nil_append, List.nil_append] at hscan
    rw [ucStringToArray, hfirst, ok_bind, if_neg hnul, convertFrom_other hfirst hnul hcomma]
    rw [Nat.zero_add] at hscan
    exact hscan

end Read

/-- The text of a frequency list and back.  `uc_array_to_string` writes the decimal values with
single commas between them into a string of zeros, and `uc_string_to_array` gives the count for
every outcome of its allocations and the array if they succeed.  It does so already on the bytes up
to the terminator and with an array of as many elements: nothing behind them is read or written. -/
theorem freq_text_round_trip (array : List UInt8) {n : ℕ} (hn : 4 * array.length + 1 ≤ n)
    {str : List UInt8} (hstr : str.length = 100) :
    ∃ string str', ucArrayToString array (List.replicate n 0) str = .ok (string, str') ∧
      string = listText array ++ 0 :: List.replicate (n - (listText array).length - 1) 0 ∧
      ∀ malloc : ℕ → Bool, ∃ result,
        ucStringToArray malloc string (List.replicate array.length 0) =
          .ok (array.length, result) ∧
        ucStringToArray malloc (listText array ++ [0]) (List.replicate array.length 0) =
          .ok (array.length, result) ∧
        ((∀ i < array.length, malloc i = true) → result = array) := by
  have hlen := length_listText_le array
  obtain ⟨str', hprint⟩ := ucArrayToString_spec (show 3 < str.length by omega)
    (show (listText array).length ≤ n by omega)
  have hzeros : List.replicate (n - (listText array).length) (0 : UInt8) =
      0 :: List.replicate (n - (listText array).length - 1) 0 := by
    rw [← List.replicate_succ]
    congr 1
    omega
  rw [hzeros] at hprint
  refine ⟨_, str', hprint, rfl, ?_⟩
  intro malloc
  refine ⟨storedElements malloc 0 array, ucStringToArray_listText malloc array _,
    ucStringToArray_listText malloc array [], ?_⟩
  intro hmalloc
  apply storedElements_of_malloc
  rw [Nat.zero_add]
  exact hmalloc

theorem freq_text_round_trip_threeNumbers :
    ∃ string str', ucArrayToString [7, 120, 255] (List.replicate 13 0) (List.replicate 100 0) =
        .ok (string, str') ∧
      ∃ result, ucStringToArray (fun _ => true) string (List.replicate 3 0) = .ok (3, result) ∧
        result = [7, 120, 255] := by
  obtain ⟨string, str', hprint, -, hread⟩ := freq_text_round_trip [7, 120, 255]
    (show 4 * 3 + 1 ≤ 13 by decide) (show (List.replicate 100 (0 : UInt8)).length = 100 by rfl)
  obtain ⟨result, hresult, -, hexact⟩ := hread fun _ => true
  exact ⟨string, str', hprint, result, hresult, hexact fun _ _ => rfl⟩

end WiotaAp
