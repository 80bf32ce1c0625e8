import WiotaAp.AtSimplified.FreqList
import WiotaAp.Foundation.CString

/-!
# Frequency strings of the scan command

`uc_string_to_array` of `at_wiota.c` converts the numbers of a string that are separated by commas,
each into the next element of an array of bytes.  The scanning pointer moves twice behind a comma,
so that the character there is never looked at, and nothing bounds the number of the elements.

The accesses to the string and to the array are checked: a call that stays in the bytes up to the
terminator is one that succeeds on those bytes alone (`ucStringToArray_append` says that the bytes
behind them do not matter then).  `convertFrom_ok_iff` says for which texts it does, by induction on
the rounds of the scan, and `user_string_confined_iff` is this for the call in `at_scan_freq_setup`.
-/

namespace WiotaAp

open Buffers

/-! ### The functions -/

/-- `uc_nth_power`. -/
def ucNthPower (num : UInt32) : ℕ → UInt32
  | 0 => 1
  | n + 1 => ucNthPower num n * num

/-- The loop of `uc_string_to_int`: `nth` characters are left, from `p_start[len]` on. -/
def addDigits (string : List UInt8) (num pStart : ℕ) :
    ℕ → ℕ → List UInt8 → Except Fault (List UInt8)
  | 0, _, array => .ok array
  | nth + 1, len, array => do
    let temp := (← byteAt string (pStart + len)) - 0x30
    let elem ← byteAt array num
    let array ← writeAt array num
      [(elem.toUInt32 + ucNthPower 10 nth * temp.toUInt32).toUInt8]
    addDigits string num pStart nth (len + 1) array

/-- `uc_string_to_int`; nothing is converted if the block for the digits cannot be allocated. -/
def ucStringToInt (malloc : Bool) (string : List UInt8) (numLen num pStart : ℕ)
    (array : List UInt8) : Except Fault (List UInt8) :=
  if malloc = false then .ok array else addDigits string num pStart numLen 0 array

/-- The variables of `uc_string_to_array`. -/
structure ScanState where
  pStart : ℕ
  pEnd : ℕ
  num : ℕ
  numLen : ℕ
  array : List UInt8
  deriving DecidableEq, Repr

/-- The inner loop of `uc_string_to_array`.  Every round moves `p_end`, and a round behind the end
of the string faults, so that one round more than the string has bytes is enough. -/
def scanFields (malloc : ℕ → Bool) (string : List UInt8) :
    ℕ → ScanState → Except Fault ScanState
  | 0, _ => .error .outOfBounds
  | n + 1, st => do
    let c ← byteAt string st.pEnd
    if c = 0 then return st
    else if c = comma then do
      let array ← ucStringToInt (malloc st.num) string st.numLen st.num st.pStart st.array
      -- `p_start` is behind the comma, and `p_end` moves over the character there
      scanFields malloc string n ⟨st.pEnd + 1, st.pEnd + 2, st.num + 1, 1, array⟩
    else scanFields malloc string n { st with pEnd := st.pEnd + 1, numLen := st.numLen + 1 }

/-- The inner loop and the conversion of the last number. -/
def convertFrom (malloc : ℕ → Bool) (string : List UInt8) (n : ℕ) (st : ScanState) :
    Except Fault (ℕ × List UInt8) := do
  let st ← scanFields malloc string n st
  let array ← ucStringToInt (malloc st.num) string st.numLen st.num st.pStart st.array
  return (st.num + 1, array)

/-- `uc_string_to_array`: the number of the elements and the array.  The outer loop leaves `p_start`
at the terminator, so that it runs once at most.  The allocation for the element `i` succeeds if
`malloc i` says so. -/
def ucStringToArray (malloc : ℕ → Bool) (string array : List UInt8) :
    Except Fault (ℕ × List UInt8) := do
  if (← byteAt string 0) = 0 then return (0, array)
  else convertFrom malloc string (string.length + 1) ⟨0, 0, 0, 0, array⟩

/-- `freq_string[data_len - 2] = '\0'`. -/
def putTerminator (freqString : List UInt8) : Except Fault (List UInt8) :=
  if freqString.length < 2 then .error .outOfBounds
  else writeAt freqString (freqString.length - 2) [0]

/-- The part of `at_scan_freq_setup` from the received string to the check of the count, which an
`unsigned char` holds: the array for the scan, or `none` if the check fails. -/
def scanFreqArray (malloc : ℕ → Bool) (freqString : List UInt8) (freqNum : ℕ) :
    Except Fault (Option (List UInt8)) := do
  let freqString ← putTerminator freqString
  let (num, freqArry) ← ucStringToArray malloc freqString (List.replicate freqNum 0)
  if (UInt8.ofNat num).toNat ≠ freqNum then return none else return some freqArry

/-! ### One number -/

/-- What the characters of a number add to the element. -/
def fieldValue : List UInt8 → UInt8
  | [] => 0
  | c :: field => (ucNthPower 10 field.length * (c - 0x30).toUInt32).toUInt8 + fieldValue field

section Number

variable {string pre field post : List UInt8}

/-- The loop over the characters of a number adds its value to the element. -/
lemma addDigits_spec {num pStart len : ℕ} {array before behind : List UInt8} {elem : UInt8}
    (hstring : string = pre ++ (field ++ post)) (hstart : pStart + len = pre.length)
    (harray : array = before ++ elem :: behind) (hnum : num = before.length) :
    addDigits string num pStart field.length len array =
      .ok (before ++ (elem + fieldValue field) :: behind) := by
  induction field generalizing pre len array elem with
  | nil =>
    have hzero : elem + fieldValue [] = elem := by
      rw [fieldValue]
      simp
    rw [List.length_nil, addDigits, harray, hzero]
  | cons c field ih =>
    rw [List.cons_append] at hstring
    have hrest := ih
      (show string = (pre ++ [c]) ++ (field ++ post) by rw [hstring]; simp)
      (show pStart + (len + 1) = (pre ++ [c]).length by simp [← hstart, Nat.add_assoc])
      (show before ++ (elem + (ucNthPower 10 field.length * (c - 0x30).toUInt32).toUInt8) ::
        behind = _ from rfl)
    have hsum : (elem.toUInt32 + ucNthPower 10 field.length * (c - 0x30).toUInt32).toUInt8 =
        elem + (ucNthPower 10 field.length * (c - 0x30).toUInt32).toUInt8 := by
      rw [UInt32.toUInt8_add, UInt8.toUInt8_toUInt32]
    rw [List.length_cons, addDigits, byteAt_part hstring hstart, ok_bind, byteAt_part harray hnum,
      ok_bind, writeAt_cell harray hnum, ok_bind, hsum, hrest, fieldValue]
    congr 3
    exact UInt8.add_assoc _ _ _

/-- Without an element there is a fault at the first character. -/
lemma ucStringToInt_of_le {num pStart numLen : ℕ} {array : List UInt8} (hlen : 0 < numLen)
    (hnum : array.length ≤ num) :
    ∃ fault, ucStringToInt true string numLen num pStart array = .error fault := by
  obtain ⟨nth, rfl⟩ := Nat.exists_eq_add_of_le' hlen
  have hnone : byteAt array num = .error .outOfBounds := by
    rw [byteAt, List.getElem?_eq_none hnum]
  rw [ucStringToInt, if_neg (by decide), addDigits]
  cases byteAt string (pStart + 0) with
  | error fault => exact ⟨fault, rfl⟩
  | ok c =>
    rw [ok_bind, hnone]
    exact ⟨_, rfl⟩

/-- A number that lies in the string is converted if there is an element for it. -/
lemma ucStringToInt_of_lt (malloc : Bool) {num pStart numLen : ℕ} {array : List UInt8}
    (hend : pStart + numLen ≤ string.length) (hnum : num < array.length) :
    ∃ array', ucStringToInt malloc string numLen num pStart array = .ok array' ∧
      array'.length = array.length := by
  cases malloc with
  | false => exact ⟨array, rfl, rfl⟩
  | true =>
    -- the number and the element as parts of the string and of the array
    have hstring : string = string.take pStart ++
        (slice string pStart numLen ++ string.drop (pStart + numLen)) := by
      rw [slice, ← List.drop_drop, List.take_append_drop, List.take_append_drop]
    have hstart : pStart + 0 = (string.take pStart).length := by
      rw [List.length_take]
      omega
    have harray : array = array.take num ++ array[num] :: array.drop (num + 1) := by
      rw [List.cons_getElem_drop_succ, List.take_append_drop]
    have hlength : (array.take num).length = num := by
      rw [List.length_take]
      omega
    have hrun := addDigits_spec hstring hstart harray hlength.symm
    rw [length_slice hend] at hrun
    refine ⟨_, hrun, ?_⟩
    rw [List.length_append, hlength, List.length_cons, List.length_drop]
    omega

end Number

/-! ### The rounds of the scan -/

section Rounds

variable {malloc : ℕ → Bool} {string : List UInt8} {n : ℕ} {st : ScanState}

/-- At the terminator the last number is converted. -/
lemma convertFrom_nul (hc : byteAt string st.pEnd = .ok 0) :
    convertFrom malloc string (n + 1) st = (do
      let array ← ucStringToInt (malloc st.num) string st.numLen st.num st.pStart st.array
      return (st.num + 1, array)) := by
  rw [convertFrom, scanFields, hc, ok_bind, if_pos rfl]
  rfl

/-- At a comma the number in front of it is converted. -/
lemma convertFrom_comma (hc : byteAt string st.pEnd = .ok comma) :
    convertFrom malloc string (n + 1) st = (do
      let array ← ucStringToInt (malloc st.num) string st.numLen st.num st.pStart st.array
      convertFrom malloc string n ⟨st.pEnd + 1, st.pEnd + 2, st.num + 1, 1, array⟩) := by
  rw [convertFrom, scanFields, hc, ok_bind, if_neg (by decide), if_pos rfl, bind_assoc]
  rfl

/-- Any other character belongs to the number. -/
lemma convertFrom_other {c : UInt8} (hc : byteAt string st.pEnd = .ok c) (hnul : c ≠ 0)
    (hcomma : c ≠ comma) :
    convertFrom malloc string (n + 1) st =
      convertFrom malloc string n { st with pEnd := st.pEnd + 1, numLen := st.numLen + 1 } := by
  rw [convertFrom, scanFields, hc, ok_bind, if_neg hnul, if_neg hcomma]
  rfl

/-- Behind the string there is a fault. -/
lemma convertFrom_end (hend : st.pEnd = string.length) :
    convertFrom malloc string n st = .error .outOfBounds := by
  have hnone : byteAt string st.pEnd = .error .outOfBounds := by
    rw [byteAt, hend, List.getElem?_eq_none (le_refl _)]
  cases n with
  | zero => rfl
  | succ n =>
    rw [convertFrom, scanFields, hnone]
    rfl

end Rounds

/-! ### The bytes behind the terminator -/

section Behind

variable {malloc : ℕ → Bool} {string : List UInt8} (post : List UInt8)

lemma byteAt_append {i : ℕ} {c : UInt8} (h : byteAt string i = .ok c) :
    byteAt (string ++ post) i = .ok c := by
  unfold byteAt at h ⊢
  split at h
  · rename_i hc
    have hlt : i < string.length := (List.getElem?_eq_some_iff.mp hc).1
    rw [List.getElem?_append_left hlt, hc]
    exact h
  · cases h

lemma ucStringToInt_append {b : Bool} {num pStart numLen : ℕ} {array array' : List UInt8}
    (h : ucStringToInt b string numLen num pStart array = .ok array') :
    ucStringToInt b (string ++ post) numLen num pStart array = .ok array' := by
  have hdigits : ∀ (nth len : ℕ) (array : List UInt8),
      addDigits string num pStart nth len array = .ok array' →
      addDigits (string ++ post) num pStart nth len array = .ok array' := by
    intro nth
    induction nth with
    | zero =>
      intro len array hrun
      exact hrun
    | succ nth ih =>
      intro len array hrun
      rw [addDigits] at hrun ⊢
      obtain ⟨c, hc, hrun⟩ := exists_of_bind_eq_ok hrun
      obtain ⟨elem, helem, hrun⟩ := exists_of_bind_eq_ok hrun
      obtain ⟨array₁, hwrite, hrun⟩ := exists_of_bind_eq_ok hrun
      rw [byteAt_append post hc, ok_bind, helem, ok_bind, hwrite, ok_bind]
      exact ih _ _ hrun
  unfold ucStringToInt at h ⊢
  split at h
  · rename_i hmalloc
    rw [if_pos hmalloc]
    exact h
  · rename_i hmalloc
    rw [if_neg hmalloc]
    exact hdigits _ _ _ h

lemma scanFields_append {n m : ℕ} {st st' : ScanState} (h : scanFields malloc string n st = .ok st')
    (hm : n ≤ m) : scanFields malloc (string ++ post) m st = .ok st' := by
  induction n generalizing m st with
  | zero => cases h
  | succ n ih =>
    obtain ⟨m, rfl⟩ : ∃ k, m = k + 1 := ⟨m - 1, by omega⟩
    have hnm : n ≤ m := by omega
    rw [scanFields] at h ⊢
    obtain ⟨c, hc, h⟩ := exists_of_bind_eq_ok h
    rw [byteAt_append post hc, ok_bind]
    split at h
    · rename_i hnul
      rw [if_pos hnul]
      exact h
    · rename_i hnul
      rw [if_neg hnul]
      split at h
      · rename_i hcomma
        obtain ⟨array, hint, h⟩ := exists_of_bind_eq_ok h
        rw [if_pos hcomma, ucStringToInt_append post hint, ok_bind]
        exact ih h hnm
      · rename_i hcomma
        rw [if_neg hcomma]
        exact ih h hnm

/-- A call that stays in the string does the same whatever is behind it. -/
lemma ucStringToArray_append {array : List UInt8} {r : ℕ × List UInt8}
    (h : ucStringToArray malloc string array = .ok r) :
    ucStringToArray malloc (string ++ post) array = .ok r := by
  unfold ucStringToArray convertFrom at h ⊢
  obtain ⟨c, hc, h⟩ := exists_of_bind_eq_ok h
  rw [byteAt_append post hc, ok_bind]
  split at h
  · rename_i hnul
    rw [if_pos hnul]
    exact h
  · rename_i hnul
    obtain ⟨st, hscan, h⟩ := exists_of_bind_eq_ok h
    obtain ⟨array', hint, h⟩ := exists_of_bind_eq_ok h
    have hle : string.length + 1 ≤ (string ++ post).length + 1 := by
      rw [List.length_append]
      omega
    rw [if_neg hnul, scanFields_append post hscan hle, ok_bind, ucStringToInt_append post hint]
    exact h

end Behind

/-! ### The strings that are converted in their bounds -/

/-- The number of the commas that the scan looks at, where the character behind each is passed over;
none if a comma that it looks at is the last character, and the terminator is passed over. -/
def scannedCommas : List UInt8 → Option ℕ
  | [] => some 0
  | [c] => if c = comma then none else some 0
  | c :: d :: text =>
    if c = comma then (scannedCommas text).map (· + 1) else scannedCommas (d :: text)

lemma scannedCommas_cons {c : UInt8} (hc : c ≠ comma) (text : List UInt8) :
    scannedCommas (c :: text) = scannedCommas text := by
  cases text with
  | nil => exact if_neg hc
  | cons d text => rw [scannedCommas, if_neg hc]

/-- The elements from `num` on that the scan of `text` stores, if they can be allocated, are in an
array of `size` elements. -/
def ElementsFit (malloc : ℕ → Bool) (size num : ℕ) (text : List UInt8) : Prop :=
  ∃ commas, scannedCommas text = some commas ∧
    ∀ j, num ≤ j → j ≤ num + commas → size ≤ j → malloc j = false

section Bounds

variable {malloc : ℕ → Bool} {size num : ℕ}

lemma elementsFit_nil : ElementsFit malloc size num [] ↔ (size ≤ num → malloc num = false) := by
  constructor
  · rintro ⟨commas, -, hfit⟩
    exact hfit num (le_refl num) (Nat.le_add_right num commas)
  · intro hfit
    refine ⟨0, rfl, ?_⟩
    intro j hlow hhigh
    obtain rfl : j = num := by omega
    exact hfit

lemma elementsFit_cons {c : UInt8} (hc : c ≠ comma) (text : List UInt8) :
    ElementsFit malloc size num (c :: text) ↔ ElementsFit malloc size num text := by
  unfold ElementsFit
  rw [scannedCommas_cons hc]

/-- A comma at the end leads behind the terminator. -/
lemma elementsFit_comma_nil : ElementsFit malloc size num [comma] ↔ False := by
  refine iff_of_false ?_ id
  rintro ⟨commas, hcommas, -⟩
  cases hcommas

/-- A comma with the character behind it takes one element. -/
lemma elementsFit_comma (d : UInt8) (text : List UInt8) :
    ElementsFit malloc size num (comma :: d :: text) ↔
      (size ≤ num → malloc num = false) ∧ ElementsFit malloc size (num + 1) text := by
  unfold ElementsFit
  rw [scannedCommas, if_pos rfl]
  constructor
  · rintro ⟨commas, hcommas, hfit⟩
    obtain ⟨rest, hrest, rfl⟩ := Option.map_eq_some_iff.mp hcommas
    refine ⟨hfit num (le_refl num) (Nat.le_add_right _ _), rest, hrest, ?_⟩
    intro j hlow hhigh
    exact hfit j (by omega) (by omega)
  · rintro ⟨hnum, rest, hrest, hfit⟩
    refine ⟨rest + 1, Option.map_eq_some_iff.mpr ⟨rest, hrest, rfl⟩, ?_⟩
    intro j hlow hhigh
    rcases Nat.eq_or_lt_of_le hlow with rfl | hlt
    · exact hnum
    · exact hfit j hlt (by omega)

end Bounds

section Scan

variable {malloc : ℕ → Bool} {string : List UInt8}

/-- Where the scan is: the number that it is in reaches up to `p_end` and has a character unless it
is the first one, and there is an array. -/
structure ScanState.InField (st : ScanState) : Prop where
  reach : st.pStart + st.numLen = st.pEnd
  started : st.num = 0 ∨ 0 < st.numLen
  room : 0 < st.array.length

/-- The conversion of a number succeeds if its element is in the array or it is not stored, and only
then. -/
lemma ucStringToInt_cases (malloc : ℕ → Bool) {st : ScanState} (h : st.InField)
    (hend : st.pEnd ≤ string.length) :
    ((st.array.length ≤ st.num → malloc st.num = false) ∧
      ∃ array, ucStringToInt (malloc st.num) string st.numLen st.num st.pStart st.array =
        .ok array ∧ array.length = st.array.length) ∨
    (¬(st.array.length ≤ st.num → malloc st.num = false) ∧
      ∃ fault, ucStringToInt (malloc st.num) string st.numLen st.num st.pStart st.array =
        .error fault) := by
  rcases Nat.lt_or_ge st.num st.array.length with hlt | hge
  · refine .inl ⟨fun hle => absurd hle (not_le.mpr hlt), ?_⟩
    exact ucStringToInt_of_lt _ (h.reach ▸ hend) hlt
  · cases hmalloc : malloc st.num with
    | false => exact .inl ⟨fun _ => rfl, st.array, rfl, rfl⟩
    | true =>
      have hlen : 0 < st.numLen := by
        have hroom := h.room
        rcases h.started with hzero | hpos
        · omega
        · exact hpos
      exact .inr ⟨fun hfit => Bool.noConfusion (hfit hge), ucStringToInt_of_le hlen hge⟩

/-- A number is converted and the scan goes on: both stay in their bounds. -/
lemma exists_convert_iff {β : Type} {st : ScanState} (h : st.InField)
    (hend : st.pEnd ≤ string.length) {next : List UInt8 → Except Fault β} {P : Prop}
    (hnext : ∀ array : List UInt8, array.length = st.array.length →
      ((∃ r, next array = .ok r) ↔ P)) :
    (∃ r, (ucStringToInt (malloc st.num) string st.numLen st.num st.pStart st.array >>= next) =
        .ok r) ↔
      (st.array.length ≤ st.num → malloc st.num = false) ∧ P := by
  rcases ucStringToInt_cases malloc h hend with ⟨hfit, array, hrun, hlen⟩ | ⟨hfit, fault, hrun⟩
  · rw [hrun, ok_bind, hnext array hlen]
    exact (and_iff_right hfit).symm
  · rw [hrun]
    refine iff_of_false ?_ fun hboth => hfit hboth.1
    rintro ⟨r, hr⟩
    cases hr

/-- The scan of the rest of a string stays in the string and in the array exactly if the elements
fit. -/
lemma convertFrom_ok_iff {n : ℕ} {text pre : List UInt8} (htext : NoNul text)
    (hstring : string = pre ++ (text ++ [0])) (hn : text.length < n) {st : ScanState}
    (hpos : st.pEnd = pre.length) (hst : st.InField) :
    (∃ r, convertFrom malloc string n st = .ok r) ↔
      ElementsFit malloc st.array.length st.num text := by
  induction n generalizing text pre st with
  | zero => exact absurd hn (Nat.not_lt_zero _)
  | succ n ih =>
    have hend : st.pEnd ≤ string.length := by
      rw [hpos, hstring, List.length_append]
      exact Nat.le_add_right _ _
    cases text with
    | nil =>
      rw [convertFrom_nul (byteAt_part hstring hpos), elementsFit_nil]
      refine (exists_convert_iff hst hend ?_).trans (and_iff_left trivial)
      intro array _
      exact iff_of_true ⟨_, rfl⟩ trivial
    | cons c text =>
      rw [List.cons_append] at hstring
      have hc := byteAt_part hstring hpos
      rw [List.length_cons] at hn
      by_cases hcomma : c = comma
      · subst hcomma
        rw [convertFrom_comma hc]
        cases text with
        | nil =>
          -- the terminator is passed over
          rw [elementsFit_comma_nil]
          refine (exists_convert_iff hst hend ?_).trans (iff_of_eq (and_false _))
          intro array _
          refine iff_of_false ?_ id
          rintro ⟨r, hr⟩
          rw [convertFrom_end (by rw [hpos, hstring]; simp)] at hr
          cases hr
        | cons d text =>
          have hrest : string = (pre ++ [comma, d]) ++ (text ++ [0]) := by
            rw [hstring]
            simp
          rw [List.length_cons] at hn
          rw [elementsFit_comma]
          apply exists_convert_iff hst hend
          intro array hlen
          have hnext : ScanState.InField ⟨st.pEnd + 1, st.pEnd + 2, st.num + 1, 1, array⟩ :=
            ⟨rfl, .inr Nat.one_pos, hlen ▸ hst.room⟩
          rw [← hlen]
          apply ih (fun x hx => htext x (by simp [hx])) hrest (by omega) _ hnext
          simp [hpos]
      · have hrest : string = (pre ++ [c]) ++ (text ++ [0]) := by
          rw [hstring]
          simp
        rw [convertFrom_other hc (htext c List.mem_cons_self) hcomma, elementsFit_cons hcomma]
        apply ih (fun x hx => htext x (List.mem_cons_of_mem c hx)) hrest (by omega)
        · show st.pEnd + 1 = (pre ++ [c]).length
          simp [hpos]
        · refine ⟨?_, .inr (Nat.succ_pos _), hst.room⟩
          show st.pStart + (st.numLen + 1) = st.pEnd + 1
          rw [← hst.reach, Nat.add_assoc]

end Scan

/-- A character of a received frequency string. -/
def IsListChar (c : UInt8) : Prop :=
  isDigit c = true ∨ c = comma

instance (c : UInt8) : Decidable (IsListChar c) :=
  inferInstanceAs (Decidable (isDigit c = true ∨ c = comma))

lemma IsListChar.ne_zero {c : UInt8} (h : IsListChar c) : c ≠ 0 := by
  rintro rfl
  revert h
  decide

/-- The end of a received line. -/
def crlf : List UInt8 := [0x0D, 0x0A]

/-- The terminator takes the place of the carriage return. -/
lemma putTerminator_crlf (text : List UInt8) :
    putTerminator (text ++ crlf) = .ok (text ++ [0] ++ [0x0A]) := by
  have hlen : (text ++ crlf).length = text.length + 2 := by
    rw [List.length_append]
    rfl
  rw [putTerminator, if_neg (by omega), hlen, Nat.add_sub_cancel]
  rw [writeAt_cell (show text ++ crlf = text ++ 0x0D :: [0x0A] from rfl) rfl]
  simp

/-- The call of `uc_string_to_array` in `at_scan_freq_setup` stays in its buffers exactly for the
strings whose last scanned comma has a character behind it and whose numbers with an index from
`freq_num` on fail to be allocated: it then succeeds on the bytes up to the terminator and the
`freq_num` elements alone, and the check of the count is reached. -/
theorem user_string_confined_iff (malloc : ℕ → Bool) {freqNum : ℕ} (hnum : 1 ≤ freqNum)
    {received text : List UInt8} (hlen : 3 ≤ received.length) (hreceived : received = text ++ crlf)
    (htext : ∀ c ∈ text, IsListChar c) :
    ((∃ r, ucStringToArray malloc (text ++ [0]) (List.replicate freqNum 0) = .ok r) ↔
      ElementsFit malloc freqNum 0 text) ∧
    (ElementsFit malloc freqNum 0 text →
      ∃ checked, scanFreqArray malloc received freqNum = .ok checked) := by
  have hfree : NoNul text := fun c hc => (htext c hc).ne_zero
  have hne : text ≠ [] := by
    rintro rfl
    rw [hreceived] at hlen
    exact absurd hlen (by decide)
  have hiff : (∃ r, ucStringToArray malloc (text ++ [0]) (List.replicate freqNum 0) = .ok r) ↔
      ElementsFit malloc freqNum 0 text := by
    obtain ⟨c, rest, rfl⟩ := List.exists_cons_of_ne_nil hne
    have hstart : ScanState.InField ⟨0, 0, 0, 0, List.replicate freqNum 0⟩ := by
      refine ⟨rfl, .inl rfl, ?_⟩
      rw [List.length_replicate]
      exact hnum
    have hscan : (∃ r, convertFrom malloc (c :: rest ++ [0]) ((c :: rest ++ [0]).length + 1)
        ⟨0, 0, 0, 0, List.replicate freqNum 0⟩ = .ok r) ↔ _ :=
      convertFrom_ok_iff hfree (List.nil_append _).symm (by simp) rfl hstart
    have hfirst : byteAt (c :: rest ++ [0]) 0 = .ok c := rfl
    rw [List.length_replicate] at hscan
    rw [ucStringToArray, hfirst, ok_bind, if_neg (hfree c List.mem_cons_self)]
    exact hscan
  refine ⟨hiff, ?_⟩
  intro hfit
  obtain ⟨⟨num, freqArry⟩, hr⟩ := hiff.mpr hfit
  rw [hreceived, scanFreqArray, putTerminator_crlf, ok_bind, ucStringToArray_append [0x0A] hr,
    ok_bind]
  dsimp only
  split
  · exact ⟨_, rfl⟩
  · exact ⟨_, rfl⟩

/-- `12,7` for two numbers. -/
theorem user_string_confined_twoNumbers :
    ∃ checked, scanFreqArray (fun _ => true) [0x31, 0x32, 0x2C, 0x37, 0x0D, 0x0A] 2 =
      .ok checked :=
  (user_string_confined_iff (fun _ => true) (by decide) (by decide)
    (show [0x31, 0x32, 0x2C, 0x37, 0x0D, 0x0A] = [0x31, 0x32, 0x2C, 0x37] ++ crlf from rfl)
    (by simp [IsListChar, isDigit, comma])).2 ⟨1, rfl, by omega⟩

/-- `5,` has its terminator behind the comma: the scan passes over it, and leaves the buffer.  `1,2`
has two numbers, and an array for one is left. -/
theorem user_string_outOfBounds :
    ucStringToArray (fun _ => true) [0x35, 0x2C, 0] (List.replicate 2 0) =
        .error .outOfBounds ∧
      scanFreqArray (fun _ => true) [0x35, 0x2C, 0x0D, 0x0A] 2 = .error .outOfBounds ∧
      ucStringToArray (fun _ => true) [0x31, 0x2C, 0x32, 0] (List.replicate 1 0) =
        .error .outOfBounds ∧
      scanFreqArray (fun _ => true) [0x31, 0x2C, 0x32, 0x0D, 0x0A] 1 = .error .outOfBounds := by
  refine ⟨rfl, rfl, rfl, rfl⟩

end WiotaAp
