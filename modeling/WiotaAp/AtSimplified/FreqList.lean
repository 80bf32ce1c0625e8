import WiotaAp.Foundation.Fields
import WiotaAp.Foundation.Slice
import Mathlib.Data.UInt

/-!
# Frequency lists in the arguments of a command

The part of `at_simplified.c` that reads a list of frequencies: `str_to_int_array` cuts the string
at the commas and converts the fields, and `at_get_freq_list` looks for the spectrum of the numbers
and turns them into indices.

A string is the list of its bytes in front of the terminator.  The loops of the source run over
positions; here a range is its start and its length, so that each loop is a recursion over the
length that is left.  An `int` is given by its 32 bits.

### Outline

* the loops of the tokenizer, and `strToIntArray_eq`: they convert the `fields` of the string;
* `atGetFreqList` and `atGetFreqList_eq_ok`: what it accepts and what it gives then;
* `freq_list_exact_iff`: for which strings this is what the list says.
-/

namespace WiotaAp

open Buffers

/-! ### The functions -/

/-- `is_space`. -/
def isSpace (c : UInt8) : Bool :=
  c == 0x20 || c == 0x09 || c == 0x0A || c == 0x0D || c == 0x0B || c == 0x0C

/-- The separator of the fields. -/
def comma : UInt8 := 0x2C

/-- `FREQ_LIST_NUM`. -/
def freqListNum : ℕ := 16

/-- The first loop of a trimming: the start moves over blanks. -/
def trimStart (str : List UInt8) : ℕ → ℕ → ℕ × ℕ
  | start, 0 => (start, 0)
  | start, n + 1 =>
    if isSpace (str.getD start 0) then trimStart str (start + 1) n else (start, n + 1)

/-- The second loop of a trimming: the end moves back over blanks. -/
def trimEnd (str : List UInt8) (start : ℕ) : ℕ → ℕ
  | 0 => 0
  | n + 1 => if isSpace (str.getD (start + n) 0) then trimEnd str start n else n + 1

/-- The trimming of a range. -/
def trimRange (str : List UInt8) (start n : ℕ) : ℕ × ℕ :=
  let r := trimStart str start n
  (r.1, trimEnd str r.1 r.2)

/-- What `str_to_int` returns for a character that is no digit, -1. -/
def strToIntFail : UInt32 := 0xFFFFFFFF

/-- `c` is a decimal digit. -/
def isDigit (c : UInt8) : Bool :=
  0x30 ≤ c && c ≤ 0x39

/-- The loop of `str_to_int`; the `int` that collects the digits is taken to wrap around. -/
def strToInt (str : List UInt8) : ℕ → ℕ → UInt32 → UInt32
  | _, 0, num => num
  | i, n + 1, num =>
    if isDigit (str.getD i 0) then
      strToInt str (i + 1) n (num * 10 + (str.getD i 0 - 0x30).toUInt32)
    else strToIntFail

/-- The body of the loop of `str_to_int_array` at the end `i` of a field. -/
def addSegment (str : List UInt8) (numStart i : ℕ) (out : List UInt32) :
    Except ℤ (List UInt32) :=
  let seg := trimRange str numStart (i - numStart)
  if seg.2 = 0 then .ok out
  else if freqListNum ≤ out.length then .error (-2)
  else
    let num := strToInt str seg.1 seg.2 0
    if num = strToIntFail then .error (-3) else .ok (out ++ [num])

/-- The loop of `str_to_int_array` from the position `i` on, `n` positions in front of the end. -/
def splitLoop (str : List UInt8) : ℕ → ℕ → ℕ → List UInt32 → Except ℤ (List UInt32)
  | i, 0, numStart, out => addSegment str numStart i out
  | i, n + 1, numStart, out =>
    if str.getD i 0 = comma then do
      let out ← addSegment str numStart i out
      splitLoop str (i + 1) n (i + 1) out
    else splitLoop str (i + 1) n numStart out

/-- `str_to_int_array`: the numbers, or the code that it returns. -/
def strToIntArray (str : List UInt8) : Except ℤ (List UInt32) :=
  let r := trimRange str 0 str.length
  if r.2 = 0 then .error (-1) else splitLoop str r.1 r.2 r.1 []

/-- `FREQ_RANGES`. -/
def freqRanges : List (UInt32 × UInt32) :=
  [(223000000, 235000000), (400000000, 440000000), (433050000, 434790000), (470000000, 510000000),
    (779000000, 787000000), (840000000, 845000000), (863000000, 870000000), (902000000, 928000000)]

/-- `FREQ_RANGES[i][0]`. -/
def rangeStart (i : ℕ) : UInt32 := (freqRanges.getD i (0, 0)).1

/-- `FREQ_RANGES[i][1]`. -/
def rangeEnd (i : ℕ) : UInt32 := (freqRanges.getD i (0, 0)).2

/-- `DEFAULE_BW_HZ`. -/
def bwHz : UInt32 := 200000

/-- `FREQ_TO_INDEX`. -/
def freqToIndex (freq baseFreq : UInt32) : UInt32 := (freq - baseFreq) / bwHz

/-- `g_max_freq_num_table`. -/
def maxFreqNumTable : List UInt8 := [60, 200, 8, 200, 40, 25, 35, 130]

/-- `at_get_max_freq_num`. -/
def atGetMaxFreqNum (spectrumIdx : ℕ) : UInt8 := maxFreqNumTable.getD spectrumIdx 0

/-- The loop of `at_get_base_freq_and_spectrum_idx`, from the last spectrum down. -/
def findSpectrum (freq : UInt32) : ℕ → Option ℕ
  | 0 => none
  | i + 1 => if rangeStart i ≤ freq ∧ freq ≤ rangeEnd i then some i else findSpectrum freq i

/-- What `at_get_base_freq_and_spectrum_idx` finds. -/
structure Spectrum where
  baseFreq : UInt32
  spectrumIdx : ℕ
  actualFreq : UInt32
  deriving DecidableEq, Repr

/-- The frequency rounded down to a multiple of the bandwidth above the base frequency. -/
def actualFreqOf (freq baseFreq : UInt32) : UInt32 :=
  let diffFreqHz := freq - baseFreq
  if diffFreqHz % bwHz ≠ 0 then baseFreq + diffFreqHz / bwHz * bwHz else freq

/-- `at_get_base_freq_and_spectrum_idx`; nothing for a frequency that is in no range, for which the
function returns 1 and leaves its other results alone. -/
def atGetBaseFreqAndSpectrumIdx (freq : UInt32) : Option Spectrum :=
  (findSpectrum freq freqRanges.length).map fun i =>
    { baseFreq := rangeStart i
      spectrumIdx := i
      actualFreq := actualFreqOf freq (rangeStart i) }

/-- The variables of the loop of `at_get_freq_list`. -/
structure FreqScan where
  baseFreqTemp : UInt32
  lastBaseFreq : UInt32
  spectrumIdxTemp : ℕ
  actualFreqTemp : UInt32
  freqList : List UInt8
  deriving DecidableEq, Repr

/-- The search for the spectrum of a frequency in the loop of `at_get_freq_list`. -/
def FreqScan.lookUp (st : FreqScan) (freq : UInt32) : FreqScan :=
  match atGetBaseFreqAndSpectrumIdx freq with
  | some sp =>
    { st with
      baseFreqTemp := sp.baseFreq
      spectrumIdxTemp := sp.spectrumIdx
      actualFreqTemp := sp.actualFreq }
  | none => { st with baseFreqTemp := 1 }

/-- A round of the loop of `at_get_freq_list`. -/
def freqListRound (st : FreqScan) (freq : UInt32) : Except ℕ FreqScan :=
  let st := st.lookUp freq
  if 0 < st.lastBaseFreq ∧ st.baseFreqTemp ≠ st.lastBaseFreq then .error 2
  else
    let index := (freqToIndex st.actualFreqTemp st.baseFreqTemp).toUInt8
    if atGetMaxFreqNum st.spectrumIdxTemp < index then .error 3
    else .ok { st with lastBaseFreq := st.baseFreqTemp, freqList := st.freqList ++ [index] }

/-- What `at_get_freq_list` gives; `freq_num` is the length of the list. -/
structure FreqArgs where
  freqList : List UInt8
  spectrumIdx : ℕ
  baseFreq : UInt32
  deriving DecidableEq, Repr

/-- The results of the loop. -/
def FreqScan.toArgs (st : FreqScan) : FreqArgs where
  freqList := st.freqList
  spectrumIdx := st.spectrumIdxTemp
  baseFreq := st.baseFreqTemp

/-- `at_get_freq_list`: its results, or the code that it returns. -/
def atGetFreqList (str : List UInt8) : Except ℕ FreqArgs :=
  match strToIntArray str with
  | .error _ => .error 1
  | .ok freqArray =>
    if freqListNum < freqArray.length then .error 1
    else (freqArray.foldlM freqListRound ⟨0, 0, 0, 0, []⟩).map FreqScan.toArgs

/-! ### The tokenizer -/

/-- The bytes of a range. -/
def rangeOf (str : List UInt8) (start n : ℕ) : List UInt8 :=
  (str.drop start).take n

section Tokenizer

variable {str : List UInt8} {start n : ℕ}

lemma rangeOf_succ (h : start + (n + 1) ≤ str.length) :
    rangeOf str start (n + 1) = str.getD start 0 :: rangeOf str (start + 1) n := by
  have hlt : start < str.length := by omega
  rw [rangeOf, ← List.cons_getElem_drop_succ (h := hlt), List.take_succ_cons,
    List.getD_eq_getElem _ _ hlt]
  rfl

lemma rangeOf_snoc (h : start + (n + 1) ≤ str.length) :
    rangeOf str start (n + 1) = rangeOf str start n ++ [str.getD (start + n) 0] := by
  have hlt : start + n < str.length := by omega
  have hlt' : n < (str.drop start).length := by
    rw [List.length_drop]
    omega
  rw [rangeOf, List.take_succ_eq_append_getElem hlt', List.getElem_drop,
    List.getD_eq_getElem _ _ hlt]
  rfl

lemma length_rangeOf (h : start + n ≤ str.length) : (rangeOf str start n).length = n := by
  rw [rangeOf, List.length_take, List.length_drop]
  omega

/-- The first loop of a trimming drops the blanks in front. -/
lemma trimStart_spec (h : start + n ≤ str.length) :
    (trimStart str start n).1 + (trimStart str start n).2 ≤ str.length ∧
      rangeOf str (trimStart str start n).1 (trimStart str start n).2 =
        (rangeOf str start n).dropWhile isSpace := by
  induction n generalizing start with
  | zero => exact ⟨h, rfl⟩
  | succ n ih =>
    rw [trimStart, rangeOf_succ h]
    split
    · rename_i hspace
      rw [List.dropWhile_cons_of_pos hspace]
      exact ih (by omega)
    · rename_i hspace
      rw [List.dropWhile_cons_of_neg hspace]
      exact ⟨h, rangeOf_succ h⟩

/-- The second loop of a trimming drops the blanks behind. -/
lemma trimEnd_spec (h : start + n ≤ str.length) :
    start + trimEnd str start n ≤ str.length ∧
      rangeOf str start (trimEnd str start n) = (rangeOf str start n).rdropWhile isSpace := by
  induction n with
  | zero => exact ⟨h, rfl⟩
  | succ n ih =>
    rw [trimEnd]
    split
    · rename_i hspace
      rw [rangeOf_snoc h, List.rdropWhile_concat_pos _ _ _ hspace]
      exact ih (by omega)
    · rename_i hspace
      refine ⟨h, ?_⟩
      rw [rangeOf_snoc h, List.rdropWhile_concat_neg _ _ _ hspace]

/-- The loops of a trimming leave the trimmed range. -/
lemma trimRange_spec (h : start + n ≤ str.length) :
    (trimRange str start n).1 + (trimRange str start n).2 ≤ str.length ∧
      rangeOf str (trimRange str start n).1 (trimRange str start n).2 =
        trim isSpace (rangeOf str start n) := by
  obtain ⟨hstart, hdrop⟩ := trimStart_spec h
  obtain ⟨hend, hrdrop⟩ := trimEnd_spec hstart
  refine ⟨hend, ?_⟩
  rw [trim, ← hdrop]
  exact hrdrop

end Tokenizer

/-- The value of a text of digits, one digit further. -/
def decStep (n : ℕ) (c : UInt8) : ℕ := n * 10 + (c.toNat - 0x30)

/-- The mathematical value of a text of digits. -/
def decValue (text : List UInt8) : ℕ := text.foldl decStep 0

/-- A text of digits only. -/
def isDecimal (text : List UInt8) : Bool := text.all isDigit

/-- What `str_to_int` makes of a text: the value of the digits in 32 bits. -/
def numOf (text : List UInt8) : UInt32 :=
  if isDecimal text then UInt32.ofNat (decValue text) else strToIntFail

/-- One digit further in 32 bits. -/
lemma ofNat_decStep {c : UInt8} (hc : isDigit c = true) (m : ℕ) :
    UInt32.ofNat m * 10 + (c - 0x30).toUInt32 = UInt32.ofNat (decStep m c) := by
  rw [isDigit, Bool.and_eq_true, decide_eq_true_eq, decide_eq_true_eq] at hc
  have hsub : (c - 0x30).toUInt32 = UInt32.ofNat (c.toNat - 0x30) := by
    apply UInt32.toNat_inj.mp
    rw [UInt8.toNat_toUInt32, UInt8.toNat_sub_of_le _ _ hc.1, UInt32.toNat_ofNat',
      Nat.mod_eq_of_lt (lt_of_le_of_lt (Nat.sub_le _ _) (c.toNat_lt.trans (by decide)))]
    rfl
  rw [hsub, decStep, UInt32.ofNat_add, UInt32.ofNat_mul]
  rfl

/-- The loop of `str_to_int` computes the value of the digits in 32 bits. -/
lemma strToInt_eq {str : List UInt8} {i n : ℕ} (m : ℕ) (h : i + n ≤ str.length) :
    strToInt str i n (UInt32.ofNat m) =
      if (rangeOf str i n).all isDigit then UInt32.ofNat ((rangeOf str i n).foldl decStep m)
      else strToIntFail := by
  induction n generalizing i m with
  | zero => rfl
  | succ n ih =>
    rw [strToInt, rangeOf_succ h, List.all_cons, List.foldl_cons]
    cases hc : isDigit (str.getD i 0) with
    | true =>
      rw [if_pos rfl, ofNat_decStep hc, ih _ (by omega), Bool.true_and]
    | false => rfl

lemma strToInt_eq_numOf {str : List UInt8} {i n : ℕ} (h : i + n ≤ str.length) :
    strToInt str i n 0 = numOf (rangeOf str i n) :=
  strToInt_eq 0 h

/-- What the loop of `str_to_int_array` does with a part of the string. -/
def addField (out : List UInt32) (part : List UInt8) : Except ℤ (List UInt32) :=
  if trim isSpace part = [] then .ok out
  else if freqListNum ≤ out.length then .error (-2)
  else if numOf (trim isSpace part) = strToIntFail then .error (-3)
  else .ok (out ++ [numOf (trim isSpace part)])

section Tokenizer

variable {str : List UInt8}

lemma addSegment_eq {numStart i : ℕ} (hle : numStart ≤ i) (hi : i ≤ str.length)
    (out : List UInt32) :
    addSegment str numStart i out = addField out (rangeOf str numStart (i - numStart)) := by
  obtain ⟨hseg, htrim⟩ := trimRange_spec (show numStart + (i - numStart) ≤ str.length by omega)
  have hempty : (trimRange str numStart (i - numStart)).2 = 0 ↔
      trim isSpace (rangeOf str numStart (i - numStart)) = [] := by
    rw [← htrim, ← List.length_eq_zero_iff, length_rangeOf hseg]
  simp only [addSegment, addField, hempty, strToInt_eq_numOf hseg, htrim]

/-- The loop of `str_to_int_array` goes over the parts between the commas; the part that it is in
has begun at `numStart`. -/
lemma splitLoop_eq {i n numStart : ℕ} (hle : numStart ≤ i) (h : i + n ≤ str.length)
    (out : List UInt32) :
    splitLoop str i n numStart out =
      (((rangeOf str i n).splitOn comma).modifyHead
        (rangeOf str numStart (i - numStart) ++ ·)).foldlM addField out := by
  induction n generalizing i numStart out with
  | zero =>
    rw [splitLoop, addSegment_eq hle (by omega), show rangeOf str i 0 = [] from rfl,
      List.splitOn_nil, List.modifyHead_cons, List.append_nil, List.foldlM_cons]
    cases addField out (rangeOf str numStart (i - numStart)) <;> rfl
  | succ n ih =>
    rw [splitLoop, rangeOf_succ h, List.splitOn, List.splitOnP_cons_eq_if_modifyHead]
    by_cases hc : str.getD i 0 = comma
    · -- the part ends here, the next one begins behind the comma
      rw [if_pos hc, if_pos (by simpa using hc), List.modifyHead_cons, List.append_nil,
        List.foldlM_cons, addSegment_eq hle (by omega)]
      refine congrArg _ (funext fun out => ?_)
      rw [ih le_rfl (by omega), Nat.sub_self]
      exact congrArg (List.foldlM addField out) (List.modifyHead_id ▸ rfl)
    · have hpart : rangeOf str numStart (i + 1 - numStart) =
          rangeOf str numStart (i - numStart) ++ [str.getD i 0] := by
        rw [Nat.succ_sub hle, Nat.succ_eq_add_one, rangeOf_snoc (by omega),
          Nat.add_sub_cancel' hle]
      rw [if_neg hc, if_neg (by simpa using hc), ih (by omega) (by omega), hpart,
        List.modifyHead_modifyHead]
      refine congrArg (List.foldlM addField out) (congrArg (List.modifyHead · _) ?_)
      funext part
      simp

/-- `str_to_int_array` converts the parts of the trimmed string. -/
lemma strToIntArray_parts (str : List UInt8) :
    strToIntArray str =
      if trim isSpace str = [] then .error (-1)
      else ((trim isSpace str).splitOn comma).foldlM addField [] := by
  have hall : rangeOf str 0 str.length = str := by
    rw [rangeOf, List.drop_zero, List.take_length]
  obtain ⟨hrange, htrim⟩ := trimRange_spec (show 0 + str.length ≤ str.length by omega)
  rw [hall] at htrim
  have hempty : (trimRange str 0 str.length).2 = 0 ↔ trim isSpace str = [] := by
    rw [← htrim, ← List.length_eq_zero_iff, length_rangeOf hrange]
  simp only [strToIntArray, hempty, splitLoop_eq le_rfl hrange, htrim, Nat.sub_self]
  refine congrArg (ite _ _) (congrArg (List.foldlM addField []) ?_)
  exact List.modifyHead_id ▸ rfl

/-- The parts that are not blank are converted, if they fit into the array and are numbers. -/
lemma foldlM_addField (parts : List (List UInt8)) {out res : List UInt32}
    (hout : out.length ≤ freqListNum) :
    parts.foldlM addField out = .ok res ↔
      out.length + ((parts.map (trim isSpace)).filter (· ≠ [])).length ≤ freqListNum ∧
        (∀ f ∈ (parts.map (trim isSpace)).filter (· ≠ []), numOf f ≠ strToIntFail) ∧
        res = out ++ ((parts.map (trim isSpace)).filter (· ≠ [])).map numOf := by
  induction parts generalizing out with
  | nil =>
    simp only [List.foldlM_nil, List.map_nil, List.filter_nil, List.length_nil, Nat.add_zero, hout,
      List.append_nil, true_and]
    exact ⟨fun h => ⟨by simp, (Except.ok.inj h).symm⟩, fun h => congrArg Except.ok h.2.symm⟩
  | cons part parts ih =>
    rw [List.foldlM_cons, List.map_cons, addField]
    by_cases hpart : trim isSpace part = []
    · rw [if_pos hpart, ok_bind, ih hout, List.filter_cons_of_neg (by simpa using hpart)]
    · rw [if_neg hpart, List.filter_cons_of_pos (by simpa using hpart), List.length_cons,
        List.map_cons, List.forall_mem_cons]
      by_cases hfull : freqListNum ≤ out.length
      · rw [if_pos hfull]
        refine iff_of_false (fun h => ?_) fun h => ?_
        · cases h
        · omega
      · rw [if_neg hfull]
        by_cases hnum : numOf (trim isSpace part) = strToIntFail
        · rw [if_pos hnum]
          refine iff_of_false (fun h => ?_) fun h => h.2.1.1 hnum
          cases h
        · have hlength : (out ++ [numOf (trim isSpace part)]).length = out.length + 1 := by
            rw [List.length_append, List.length_singleton]
          rw [if_neg hnum, ok_bind, ih (by omega), hlength, List.append_assoc,
            List.singleton_append, Nat.add_assoc, Nat.add_comm 1]
          refine and_congr_right fun _ => and_congr_left fun _ => ?_
          exact ⟨fun h => ⟨hnum, h⟩, fun h => h.2⟩

/-- The fields of the string. -/
def freqFields (str : List UInt8) : List (List UInt8) := fields isSpace comma str

/-- `str_to_int_array` converts the fields of a string that is not blank, at most 16 of them. -/
theorem strToIntArray_eq_ok {res : List UInt32} :
    strToIntArray str = .ok res ↔
      trim isSpace str ≠ [] ∧ (freqFields str).length ≤ freqListNum ∧
        (∀ f ∈ freqFields str, numOf f ≠ strToIntFail) ∧ res = (freqFields str).map numOf := by
  rw [strToIntArray_parts, freqFields, ← fields_trim (by decide) str]
  by_cases hblank : trim isSpace str = []
  · rw [if_pos hblank]
    refine iff_of_false (fun h => ?_) fun h => h.1 hblank
    cases h
  · rw [if_neg hblank, foldlM_addField _ (Nat.zero_le _), List.length_nil, Nat.zero_add,
      List.nil_append]
    exact ⟨fun h => ⟨hblank, h⟩, fun h => h.2⟩

end Tokenizer

/-! ### The spectrum of the numbers -/

/-- The last spectrum below `k` that a number lies in. -/
def spectrumBelow (n : ℕ) : ℕ → Option ℕ
  | 0 => none
  | i + 1 =>
    if (rangeStart i).toNat ≤ n ∧ n ≤ (rangeEnd i).toNat then some i else spectrumBelow n i

/-- The spectrum of a number. -/
def spectrumOf (n : ℕ) : Option ℕ := spectrumBelow n freqRanges.length

lemma findSpectrum_eq (freq : UInt32) (k : ℕ) :
    findSpectrum freq k = spectrumBelow freq.toNat k := by
  induction k with
  | zero => rfl
  | succ k ih => simp only [findSpectrum, spectrumBelow, ih, UInt32.le_iff_toNat_le]

lemma spectrumBelow_eq_some {n k i : ℕ} (h : spectrumBelow n k = some i) :
    i < k ∧ (rangeStart i).toNat ≤ n ∧ n ≤ (rangeEnd i).toNat := by
  induction k with
  | zero => cases h
  | succ k ih =>
    rw [spectrumBelow] at h
    split at h
    · rename_i hrange
      cases h
      exact ⟨Nat.lt_succ_self _, hrange⟩
    · obtain ⟨hlt, hrange⟩ := ih h
      exact ⟨Nat.lt_succ_of_lt hlt, hrange⟩

/-- What the tables say of a spectrum: it starts at a frequency of its own, and its width fits its
number of frequencies. -/
lemma spectrum_table : ∀ i < freqRanges.length, 0 < rangeStart i ∧ 1 ≠ rangeStart i ∧
    (∀ j < freqRanges.length, rangeStart i = rangeStart j → i = j) ∧
    ((rangeEnd i).toNat - (rangeStart i).toNat) / bwHz.toNat = (atGetMaxFreqNum i).toNat := by
  decide

/-- The index of a number in a spectrum. -/
def indexIn (n i : ℕ) : ℕ := (n - (rangeStart i).toNat) / bwHz.toNat

section Rounds

variable {freq : UInt32} {i : ℕ}

/-- The index of a frequency is at most the number of frequencies of its spectrum. -/
lemma indexIn_le {n : ℕ} (h : spectrumOf n = some i) :
    indexIn n i ≤ (atGetMaxFreqNum i).toNat := by
  obtain ⟨hi, hstart, hend⟩ := spectrumBelow_eq_some h
  rw [← (spectrum_table i hi).2.2.2]
  exact Nat.div_le_div_right (Nat.sub_le_sub_right hend _)

/-- Rounding a frequency down does not change its index. -/
lemma freqToIndex_actual (freq baseFreq : UInt32) :
    freqToIndex (actualFreqOf freq baseFreq) baseFreq = (freq - baseFreq) / bwHz := by
  rw [freqToIndex, actualFreqOf]
  split
  · rw [UInt32.add_comm, UInt32.add_sub_cancel]
    apply UInt32.toNat_inj.mp
    have hmul : (((freq - baseFreq) / bwHz) * bwHz).toNat =
        (freq - baseFreq).toNat / bwHz.toNat * bwHz.toNat := by
      rw [UInt32.toNat_mul, UInt32.toNat_div, Nat.mod_eq_of_lt]
      exact lt_of_le_of_lt (Nat.div_mul_le_self _ _) (freq - baseFreq).toNat_lt
    rw [UInt32.toNat_div, hmul, Nat.mul_div_cancel _ (by decide), UInt32.toNat_div]
  · rfl

/-- The index that is put into the list for a frequency of a spectrum. -/
lemma toNat_index (h : spectrumOf freq.toNat = some i) :
    (freqToIndex (actualFreqOf freq (rangeStart i)) (rangeStart i)).toUInt8.toNat =
      indexIn freq.toNat i := by
  obtain ⟨-, hstart, -⟩ := spectrumBelow_eq_some h
  rw [← UInt32.le_iff_toNat_le] at hstart
  rw [freqToIndex_actual, UInt32.toNat_toUInt8, UInt32.toNat_div,
    UInt32.toNat_sub_of_le _ _ hstart]
  exact Nat.mod_eq_of_lt (lt_of_le_of_lt (indexIn_le h) (atGetMaxFreqNum i).toNat_lt)

/-- The spectrum that a round of the loop finds. -/
lemma lookUp_of_some (st : FreqScan) (h : spectrumOf freq.toNat = some i) :
    st.lookUp freq =
      { st with
        baseFreqTemp := rangeStart i
        spectrumIdxTemp := i
        actualFreqTemp := actualFreqOf freq (rangeStart i) } := by
  rw [spectrumOf, ← findSpectrum_eq] at h
  rw [FreqScan.lookUp, atGetBaseFreqAndSpectrumIdx, h]
  rfl

/-- A round of the loop finds nothing for a frequency outside of all spectra. -/
lemma lookUp_of_none (st : FreqScan) (h : spectrumOf freq.toNat = none) :
    st.lookUp freq = { st with baseFreqTemp := 1 } := by
  rw [spectrumOf, ← findSpectrum_eq] at h
  rw [FreqScan.lookUp, atGetBaseFreqAndSpectrumIdx, h]
  rfl

/-- The state of the loop behind the frequency `freq` of the spectrum `i`. -/
def scanned (freq : UInt32) (i : ℕ) (list : List UInt8) : FreqScan where
  baseFreqTemp := rangeStart i
  lastBaseFreq := rangeStart i
  spectrumIdxTemp := i
  actualFreqTemp := actualFreqOf freq (rangeStart i)
  freqList := list ++ [(freqToIndex (actualFreqOf freq (rangeStart i)) (rangeStart i)).toUInt8]

/-- The index of a frequency of a spectrum passes the check of its size. -/
lemma index_in_range (h : spectrumOf freq.toNat = some i) :
    ¬ atGetMaxFreqNum i <
      (freqToIndex (actualFreqOf freq (rangeStart i)) (rangeStart i)).toUInt8 := by
  rw [UInt8.lt_iff_toNat_lt, toNat_index h]
  exact not_lt.mpr (indexIn_le h)

/-- The first round. -/
lemma freqListRound_first (freq : UInt32) :
    freqListRound ⟨0, 0, 0, 0, []⟩ freq =
      match spectrumOf freq.toNat with
      | some i => .ok (scanned freq i [])
      | none => .error 3 := by
  cases h : spectrumOf freq.toNat with
  | none =>
    rw [freqListRound, lookUp_of_none _ h]
    rfl
  | some i =>
    rw [freqListRound, lookUp_of_some _ h]
    simp only [if_neg (index_in_range h)]
    rfl

/-- A round behind frequencies of the spectrum `i` accepts a frequency of this spectrum only. -/
lemma freqListRound_next {st : FreqScan} (hi : i < freqRanges.length)
    (hlast : st.lastBaseFreq = rangeStart i) (freq : UInt32) :
    freqListRound st freq =
      if spectrumOf freq.toNat = some i then .ok (scanned freq i st.freqList) else .error 2 := by
  obtain ⟨hpos, hone, hinj, -⟩ := spectrum_table i hi
  rw [← hlast] at hpos hone
  cases h : spectrumOf freq.toNat with
  | none =>
    rw [freqListRound, lookUp_of_none _ h]
    simp [hpos, hone]
  | some j =>
    rw [freqListRound, lookUp_of_some _ h]
    by_cases hij : j = i
    · subst hij
      simp [hlast, index_in_range h, scanned]
    · have hne : rangeStart j ≠ st.lastBaseFreq := by
        rw [hlast]
        exact fun heq => hij (hinj j (spectrumBelow_eq_some h).1 heq.symm).symm
      simp [hpos, hne, hij]

/-- The loop behind a frequency of the spectrum `i`: it goes to the end if all further ones are of
this spectrum, and has appended their indices then. -/
lemma foldlM_next {st : FreqScan} (hi : i < freqRanges.length)
    (hst : st.lastBaseFreq = rangeStart i ∧ st.baseFreqTemp = rangeStart i ∧
      st.spectrumIdxTemp = i) (freqs : List UInt32) (args : FreqArgs) :
    (freqs.foldlM freqListRound st).map FreqScan.toArgs = .ok args ↔
      (∀ f ∈ freqs, spectrumOf f.toNat = some i) ∧ args.spectrumIdx = i ∧
        args.baseFreq = rangeStart i ∧ args.freqList.map UInt8.toNat =
          st.freqList.map UInt8.toNat ++ freqs.map fun f => indexIn f.toNat i := by
  induction freqs generalizing st with
  | nil =>
    obtain ⟨-, hbase, hidx⟩ := hst
    rw [List.foldlM_nil, List.map_nil, List.append_nil,
      List.map_inj_right fun _ _ => UInt8.toNat_inj.mp]
    constructor
    · intro h
      obtain rfl := Except.ok.inj h
      exact ⟨fun f hf => (List.not_mem_nil hf).elim, hidx, hbase, rfl⟩
    · rintro ⟨-, hidx', hbase', hlist⟩
      obtain ⟨list, idx, base⟩ := args
      obtain rfl : list = st.freqList := hlist
      obtain rfl : idx = i := hidx'
      obtain rfl : base = rangeStart idx := hbase'
      rw [← hbase]
      exact congrArg Except.ok (congrArg (FreqArgs.mk st.freqList · st.baseFreqTemp) hidx)
  | cons f freqs ih =>
    rw [List.foldlM_cons, freqListRound_next hi hst.1, List.forall_mem_cons]
    by_cases hf : spectrumOf f.toNat = some i
    · rw [if_pos hf, ok_bind, ih ⟨rfl, rfl, rfl⟩, scanned, List.map_append, List.map_singleton,
        toNat_index hf, List.map_cons, List.append_assoc, List.singleton_append]
      exact ⟨fun h => ⟨⟨hf, h.1⟩, h.2⟩, fun h => ⟨h.1.2, h.2⟩⟩
    · rw [if_neg hf]
      refine iff_of_false (fun h => ?_) fun h => hf h.1.1
      cases h

/-- The loop over a list that is not empty. -/
lemma foldlM_freqListRound {freqs : List UInt32} (hne : freqs ≠ []) (args : FreqArgs) :
    (freqs.foldlM freqListRound ⟨0, 0, 0, 0, []⟩).map FreqScan.toArgs = .ok args ↔
      (∀ f ∈ freqs, spectrumOf f.toNat = some args.spectrumIdx) ∧
        args.baseFreq = rangeStart args.spectrumIdx ∧
        args.freqList.map UInt8.toNat = freqs.map fun f => indexIn f.toNat args.spectrumIdx := by
  cases freqs with
  | nil => exact absurd rfl hne
  | cons f freqs =>
    rw [List.foldlM_cons, freqListRound_first, List.forall_mem_cons]
    cases hf : spectrumOf f.toNat with
    | none =>
      refine iff_of_false (fun h => ?_) fun h => ?_
      · cases h
      · cases h.1.1
    | some i =>
      have hi := (spectrumBelow_eq_some hf).1
      rw [ok_bind, foldlM_next hi ⟨rfl, rfl, rfl⟩, scanned, List.nil_append, List.map_singleton,
        toNat_index hf, List.map_cons, List.singleton_append]
      constructor
      · rintro ⟨hall, rfl, hbase, hlist⟩
        exact ⟨⟨rfl, hall⟩, hbase, hlist⟩
      · rintro ⟨⟨hidx, hall⟩, hbase, hlist⟩
        obtain rfl := Option.some.inj hidx
        exact ⟨hall, rfl, hbase, hlist⟩

end Rounds

/-! ### What is accepted -/

section Accepted

variable {str : List UInt8}

/-- The numbers of the fields in 32 bits. -/
lemma toNat_numOf {f : List UInt8} (hf : isDecimal f = true) :
    (numOf f).toNat = decValue f % 2 ^ 32 := by
  rw [numOf, if_pos hf, UInt32.toNat_ofNat']

/-- A field whose number is in a spectrum is decimal, and its number is not taken for an error. -/
lemma spectrumOf_numOf {f : List UInt8} {i : ℕ} :
    numOf f ≠ strToIntFail ∧ spectrumOf (numOf f).toNat = some i ↔
      isDecimal f = true ∧ spectrumOf (decValue f % 2 ^ 32) = some i := by
  cases hf : isDecimal f with
  | false =>
    refine iff_of_false (fun h => h.1 ?_) fun h => Bool.false_ne_true h.1
    rw [numOf, hf, if_neg Bool.false_ne_true]
  | true =>
    rw [toNat_numOf hf]
    refine ⟨fun h => ⟨rfl, h.2⟩, fun h => ⟨fun hfail => ?_, h.2⟩⟩
    have hval := congrArg UInt32.toNat hfail
    have hnone : spectrumOf strToIntFail.toNat = none := by decide
    rw [toNat_numOf hf] at hval
    rw [hval, hnone] at h
    cases h.2

/-- What `at_get_freq_list` gives for the fields of a string that share a spectrum. -/
structure FreqArgs.Describes (args : FreqArgs) (str : List UInt8) : Prop where
  freqNum : args.freqList.length = (freqFields str).length
  spectrum : ∀ f ∈ freqFields str, spectrumOf (decValue f) = some args.spectrumIdx
  base : args.baseFreq = rangeStart args.spectrumIdx
  list : args.freqList.map UInt8.toNat =
    (freqFields str).map fun f => indexIn (decValue f) args.spectrumIdx
  bound : ∀ index ∈ args.freqList, index ≤ atGetMaxFreqNum args.spectrumIdx

/-- The strings that are lists of 1 to 16 frequencies of one spectrum. -/
def IsFreqList (str : List UInt8) : Prop :=
  1 ≤ (freqFields str).length ∧ (freqFields str).length ≤ freqListNum ∧
    (∀ f ∈ freqFields str, isDecimal f = true) ∧
    ∃ i, ∀ f ∈ freqFields str, spectrumOf (decValue f) = some i

/-- A blank string is rejected. -/
lemma atGetFreqList_of_blank (hblank : trim isSpace str = []) : atGetFreqList str = .error 1 := by
  rw [atGetFreqList, strToIntArray_parts, if_pos hblank]

/-- A string without fields is accepted unless it is blank. -/
lemma atGetFreqList_of_nil (hfields : freqFields str = []) (hblank : trim isSpace str ≠ []) :
    atGetFreqList str = .ok ⟨[], 0, 0⟩ := by
  have harray : strToIntArray str = .ok [] := by
    rw [strToIntArray_eq_ok, hfields]
    exact ⟨hblank, Nat.zero_le _, fun f hf => (List.not_mem_nil hf).elim, rfl⟩
  rw [atGetFreqList, harray]
  rfl

/-- A string with fields is not blank. -/
lemma not_blank_of_fields (hfields : freqFields str ≠ []) : trim isSpace str ≠ [] := by
  intro hblank
  rw [freqFields, ← fields_trim (by decide), hblank] at hfields
  exact hfields rfl

/-- A string with fields is accepted if they are at most 16 decimal numbers whose last 32 bits share
a spectrum. -/
lemma atGetFreqList_eq_ok (hfields : freqFields str ≠ []) (args : FreqArgs) :
    atGetFreqList str = .ok args ↔
      (freqFields str).length ≤ freqListNum ∧ (∀ f ∈ freqFields str, isDecimal f = true) ∧
        (∀ f ∈ freqFields str, spectrumOf (decValue f % 2 ^ 32) = some args.spectrumIdx) ∧
        args.baseFreq = rangeStart args.spectrumIdx ∧ args.freqList.map UInt8.toNat =
          (freqFields str).map fun f => indexIn (decValue f % 2 ^ 32) args.spectrumIdx := by
  have hne : (freqFields str).map numOf ≠ [] := mt List.map_eq_nil_iff.mp hfields
  have hindices (hdec : ∀ f ∈ freqFields str, isDecimal f = true) :
      (((freqFields str).map numOf).map fun f => indexIn f.toNat args.spectrumIdx) =
        (freqFields str).map fun f => indexIn (decValue f % 2 ^ 32) args.spectrumIdx := by
    rw [List.map_map]
    refine List.map_congr_left fun f hf => ?_
    rw [Function.comp_apply, toNat_numOf (hdec f hf)]
  constructor
  · intro h
    rw [atGetFreqList] at h
    split at h
    · cases h
    · rename_i freqArray harray
      obtain ⟨-, hlen, hnum, rfl⟩ := strToIntArray_eq_ok.mp harray
      rw [if_neg (by rw [List.length_map]; omega), foldlM_freqListRound hne,
        List.forall_mem_map] at h
      obtain ⟨hspectrum, hbase, hlist⟩ := h
      have hboth := fun f hf => spectrumOf_numOf.mp ⟨hnum f hf, hspectrum f hf⟩
      refine ⟨hlen, fun f hf => (hboth f hf).1, fun f hf => (hboth f hf).2, hbase, ?_⟩
      rw [hlist, hindices fun f hf => (hboth f hf).1]
  · rintro ⟨hlen, hdec, hspectrum, hbase, hlist⟩
    have hboth := fun f hf => spectrumOf_numOf.mpr ⟨hdec f hf, hspectrum f hf⟩
    have harray : strToIntArray str = .ok ((freqFields str).map numOf) :=
      strToIntArray_eq_ok.mpr
        ⟨not_blank_of_fields hfields, hlen, fun f hf => (hboth f hf).1, rfl⟩
    rw [atGetFreqList, harray]
    dsimp only
    rw [if_neg (by rw [List.length_map]; omega), foldlM_freqListRound hne, List.forall_mem_map]
    exact ⟨fun f hf => (hboth f hf).2, hbase, hlist.trans (hindices hdec).symm⟩

/-- What is accepted is the empty list, or a list of indices of one spectrum. -/
lemma atGetFreqList_cases {args : FreqArgs} (h : atGetFreqList str = .ok args) :
    args = ⟨[], 0, 0⟩ ∨ args.freqList ≠ [] ∧ args.spectrumIdx < freqRanges.length ∧
      args.baseFreq = rangeStart args.spectrumIdx ∧
      ∀ index ∈ args.freqList, index ≤ atGetMaxFreqNum args.spectrumIdx := by
  by_cases hfields : freqFields str = []
  · by_cases hblank : trim isSpace str = []
    · rw [atGetFreqList_of_blank hblank] at h
      cases h
    · rw [atGetFreqList_of_nil hfields hblank] at h
      exact Or.inl (Except.ok.inj h).symm
  · obtain ⟨-, -, hshare, hbase, hlist⟩ := (atGetFreqList_eq_ok hfields args).mp h
    obtain ⟨f, hf⟩ := List.exists_mem_of_ne_nil _ hfields
    refine Or.inr ⟨fun hnil => ?_, (spectrumBelow_eq_some (hshare f hf)).1, hbase, ?_⟩
    · rw [hnil, List.map_nil, eq_comm, List.map_eq_nil_iff] at hlist
      exact hfields hlist
    · intro index hindex
      have hmem := List.mem_map_of_mem (f := UInt8.toNat) hindex
      rw [hlist] at hmem
      obtain ⟨g, hg, heq⟩ := List.mem_map.mp hmem
      rw [UInt8.le_iff_toNat_le, ← heq]
      exact indexIn_le (hshare g hg)

/-- The list of the indices exists for fields that share a spectrum. -/
lemma exists_indices {fs : List (List UInt8)} {i : ℕ} (value : List UInt8 → ℕ)
    (h : ∀ f ∈ fs, spectrumOf (value f) = some i) :
    ∃ list : List UInt8, list.map UInt8.toNat = fs.map fun f => indexIn (value f) i := by
  refine ⟨fs.map fun f => UInt8.ofNat (indexIn (value f) i), ?_⟩
  rw [List.map_map]
  refine List.map_congr_left fun f hf => ?_
  rw [Function.comp_apply, UInt8.toNat_ofNat', Nat.mod_eq_of_lt]
  exact lt_of_le_of_lt (indexIn_le (h f hf)) (atGetMaxFreqNum i).toNat_lt

/-- A number of a spectrum has 32 bits. -/
lemma lt_of_spectrumOf {n i : ℕ} (h : spectrumOf n = some i) : n < 2 ^ 32 := by
  obtain ⟨-, -, hend⟩ := spectrumBelow_eq_some h
  exact lt_of_le_of_lt hend (rangeEnd i).toNat_lt

/-- At most 16 decimal numbers whose last 32 bits share a spectrum are accepted. -/
lemma exists_atGetFreqList {i : ℕ} (hfields : freqFields str ≠ [])
    (hlen : (freqFields str).length ≤ freqListNum)
    (hdec : ∀ f ∈ freqFields str, isDecimal f = true)
    (hshare : ∀ f ∈ freqFields str, spectrumOf (decValue f % 2 ^ 32) = some i) :
    ∃ args, atGetFreqList str = .ok args := by
  obtain ⟨list, hlist⟩ := exists_indices (fun f => decValue f % 2 ^ 32) hshare
  exact ⟨⟨list, i, rangeStart i⟩,
    (atGetFreqList_eq_ok hfields _).mpr ⟨hlen, hdec, hshare, rfl, hlist⟩⟩

/-- What is given for numbers of 32 bits describes them. -/
lemma describes_of_atGetFreqList {args : FreqArgs} (hfields : freqFields str ≠ [])
    (hok : atGetFreqList str = .ok args) (hlt : ∀ f ∈ freqFields str, decValue f < 2 ^ 32) :
    args.Describes str := by
  obtain ⟨-, -, hshare, hbase, hlist⟩ := (atGetFreqList_eq_ok hfields args).mp hok
  have hmod : ∀ f ∈ freqFields str, decValue f % 2 ^ 32 = decValue f := fun f hf =>
    Nat.mod_eq_of_lt (hlt f hf)
  have hspectrum : ∀ f ∈ freqFields str, spectrumOf (decValue f) = some args.spectrumIdx :=
    fun f hf => hmod f hf ▸ hshare f hf
  have hlist' : args.freqList.map UInt8.toNat =
      (freqFields str).map fun f => indexIn (decValue f) args.spectrumIdx :=
    hlist.trans (List.map_congr_left fun f hf => by rw [hmod f hf])
  refine ⟨?_, hspectrum, hbase, hlist', fun index hindex => ?_⟩
  · have hlength := congrArg List.length hlist'
    rwa [List.length_map, List.length_map] at hlength
  · have hmem := List.mem_map_of_mem (f := UInt8.toNat) hindex
    rw [hlist'] at hmem
    obtain ⟨f, hf, heq⟩ := List.mem_map.mp hmem
    rw [UInt8.le_iff_toNat_le, ← heq]
    exact indexIn_le (hspectrum f hf)

end Accepted

/-- `at_get_freq_list` accepts exactly the lists of frequencies and describes them. -/
def FreqListExact (str : List UInt8) : Prop :=
  ((∃ args, atGetFreqList str = .ok args) ↔ IsFreqList str) ∧
    ∀ args, atGetFreqList str = .ok args → args.Describes str

/-- The parsing is exact unless the string has separators only, or its numbers share a spectrum only
in their last 32 bits. -/
theorem freq_list_exact_iff (str : List UInt8) :
    FreqListExact str ↔
      (freqFields str = [] → trim isSpace str = []) ∧
        ((freqFields str).length ≤ freqListNum → (∀ f ∈ freqFields str, isDecimal f = true) →
          (∃ i, ∀ f ∈ freqFields str, spectrumOf (decValue f % 2 ^ 32) = some i) →
          ∀ f ∈ freqFields str, decValue f < 2 ^ 32) := by
  constructor
  · rintro ⟨hiff, -⟩
    refine ⟨fun hfields => ?_, fun hlen hdec hshare f hf => ?_⟩
    · by_contra hblank
      obtain ⟨hpos, -⟩ := hiff.mp ⟨_, atGetFreqList_of_nil hfields hblank⟩
      rw [hfields] at hpos
      exact absurd hpos (by decide)
    · obtain ⟨i, hshare⟩ := hshare
      obtain ⟨-, -, -, j, hj⟩ :=
        hiff.mp (exists_atGetFreqList (List.ne_nil_of_mem hf) hlen hdec hshare)
      exact lt_of_spectrumOf (hj f hf)
  · rintro ⟨hsep, hwrap⟩
    -- an accepted string has fields, and they are taken as they are
    have hsound : ∀ args, atGetFreqList str = .ok args →
        freqFields str ≠ [] ∧ (freqFields str).length ≤ freqListNum ∧
          (∀ f ∈ freqFields str, isDecimal f = true) ∧ args.Describes str := by
      intro args hok
      have hfields : freqFields str ≠ [] := by
        intro hfields
        rw [atGetFreqList_of_blank (hsep hfields)] at hok
        cases hok
      obtain ⟨hlen, hdec, hshare, -⟩ := (atGetFreqList_eq_ok hfields args).mp hok
      have hlt := hwrap hlen hdec ⟨_, hshare⟩
      exact ⟨hfields, hlen, hdec, describes_of_atGetFreqList hfields hok hlt⟩
    refine ⟨⟨?_, ?_⟩, fun args hok => (hsound args hok).2.2.2⟩
    · rintro ⟨args, hok⟩
      obtain ⟨hfields, hlen, hdec, hdesc⟩ := hsound args hok
      exact ⟨List.length_pos_of_ne_nil hfields, hlen, hdec, _, hdesc.spectrum⟩
    · rintro ⟨hpos, hlen, hdec, i, hspectrum⟩
      refine exists_atGetFreqList (i := i) (List.ne_nil_of_length_pos hpos) hlen hdec fun f hf => ?_
      rw [Nat.mod_eq_of_lt (lt_of_spectrumOf (hspectrum f hf))]
      exact hspectrum f hf

/-- The digits of 4796967296, which is 502000000 + 2^32. -/
def wrappedDigits : List UInt8 := [0x34, 0x37, 0x39, 0x36, 0x39, 0x36, 0x37, 0x32, 0x39, 0x36]

/-- A single comma is accepted as a list without frequencies, and a number of 33 bits as the
frequency of its last 32. -/
theorem freq_list_comma_and_wrap :
    (atGetFreqList [comma] = .ok ⟨[], 0, 0⟩ ∧ ¬ IsFreqList [comma]) ∧
      atGetFreqList wrappedDigits = .ok ⟨[160], 3, 470000000⟩ ∧ ¬ IsFreqList wrappedDigits := by
  refine ⟨⟨by decide +kernel, fun h => ?_⟩, by decide +kernel, fun h => ?_⟩
  · exact absurd h.1 (by decide)
  · obtain ⟨-, -, -, i, hi⟩ := h
    have hfield := hi wrappedDigits (by decide +kernel)
    rw [show spectrumOf (decValue wrappedDigits) = none by decide +kernel] at hfield
    cases hfield

end WiotaAp
