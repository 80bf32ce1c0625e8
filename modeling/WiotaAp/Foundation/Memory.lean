import WiotaAp.Foundation.Slice

/-!
# Memories and ranges

A memory is a function from addresses to cells.  `readRange` reads a range of it and `writeRange`
replaces one.  A range that is read back is what was written; a range beside it is not changed; and
reading a window, changing a part of it and writing it back changes just this part.

`swapWords` puts the cells of every word of four into the opposite order.
-/

namespace Buffers

variable {α : Type}

/-! ### Ranges -/

/-- The `n` cells from address `a` on. -/
def readRange (m : ℕ → α) (a n : ℕ) : List α :=
  (List.range n).map fun i => m (a + i)

/-- The memory with the cells from address `a` on replaced by `data`. -/
def writeRange (m : ℕ → α) (a : ℕ) (data : List α) : ℕ → α := fun x =>
  if a ≤ x then data[x - a]?.getD (m x) else m x

/-- A range has as many cells as it asks for. -/
@[simp] lemma length_readRange (m : ℕ → α) (a n : ℕ) : (readRange m a n).length = n := by
  rw [readRange, List.length_map, List.length_range]

/-- A range that agrees cell by cell. -/
lemma readRange_congr {m m' : ℕ → α} {a n : ℕ} (h : ∀ x, a ≤ x → x < a + n → m x = m' x) :
    readRange m a n = readRange m' a n := by
  refine List.map_congr_left fun i hi => h (a + i) (Nat.le_add_right a i) ?_
  exact Nat.add_lt_add_left (List.mem_range.mp hi) a

/-- A range and the one behind it. -/
lemma readRange_add (m : ℕ → α) (a n k : ℕ) :
    readRange m a (n + k) = readRange m a n ++ readRange m (a + n) k := by
  unfold readRange
  rw [List.range_add, List.map_append, List.map_map]
  refine congrArg _ (List.map_congr_left fun i _ => ?_)
  rw [Function.comp_apply, Nat.add_assoc]

/-- A cell of a range that has been written. -/
lemma writeRange_of_lt (m : ℕ → α) {a i : ℕ} {data : List α} (hi : i < data.length) :
    writeRange m a data (a + i) = data[i] := by
  rw [writeRange, if_pos (Nat.le_add_right a i), Nat.add_sub_cancel_left,
    List.getElem?_eq_getElem hi, Option.getD_some]

/-- A cell outside the range. -/
lemma writeRange_of_outside (m : ℕ → α) {a x : ℕ} {data : List α}
    (h : x < a ∨ a + data.length ≤ x) : writeRange m a data x = m x := by
  rw [writeRange]
  split
  · rw [List.getElem?_eq_none (by omega), Option.getD_none]
  · rfl

/-- Writing nothing. -/
@[simp] lemma writeRange_nil (m : ℕ → α) (a : ℕ) : writeRange m a [] = m :=
  funext fun _ => writeRange_of_outside m (Nat.lt_or_ge _ _)

/-- Reading back what was written. -/
lemma readRange_writeRange (m : ℕ → α) (a : ℕ) (data : List α) :
    readRange (writeRange m a data) a data.length = data := by
  refine List.ext_getElem (length_readRange _ _ _) fun i hi hi' => ?_
  rw [← writeRange_of_lt m hi' (a := a)]
  simp [readRange]

/-- A range beside what was written. -/
lemma readRange_writeRange_of_disjoint (m : ℕ → α) {a b n : ℕ} {data : List α}
    (h : b + n ≤ a ∨ a + data.length ≤ b) :
    readRange (writeRange m a data) b n = readRange m b n :=
  readRange_congr fun x hle hlt => writeRange_of_outside m (by omega)

/-- Writing one range behind the other. -/
lemma writeRange_append (m : ℕ → α) (a : ℕ) (data data' : List α) :
    writeRange m a (data ++ data') =
      writeRange (writeRange m a data) (a + data.length) data' := by
  funext x
  by_cases hnew : a + data.length ≤ x ∧ x < a + data.length + data'.length
  · obtain ⟨i, rfl⟩ := Nat.exists_eq_add_of_le hnew.1
    have hi : i < data'.length := by omega
    have hi' : data.length + i < (data ++ data').length := by
      rw [List.length_append]
      omega
    rw [writeRange_of_lt _ hi, Nat.add_assoc, writeRange_of_lt m hi',
      List.getElem_append_right (Nat.le_add_right _ _)]
    simp only [Nat.add_sub_cancel_left]
  · rw [writeRange_of_outside (writeRange m a data) (by omega)]
    by_cases hold : a ≤ x ∧ x < a + data.length
    · obtain ⟨i, rfl⟩ := Nat.exists_eq_add_of_le hold.1
      have hi : i < data.length := by omega
      have hi' : i < (data ++ data').length := by
        rw [List.length_append]
        omega
      rw [writeRange_of_lt m hi, writeRange_of_lt m hi', List.getElem_append_left hi]
    · have hout : x < a ∨ a + (data ++ data').length ≤ x := by
        rw [List.length_append]
        omega
      rw [writeRange_of_outside m hout, writeRange_of_outside m (by omega)]

/-- Writing back what is there changes nothing. -/
lemma writeRange_readRange (m : ℕ → α) (a n : ℕ) : writeRange m a (readRange m a n) = m := by
  funext x
  by_cases hin : a ≤ x ∧ x < a + n
  · obtain ⟨i, rfl⟩ := Nat.exists_eq_add_of_le hin.1
    rw [writeRange_of_lt m (by rw [length_readRange]; omega)]
    simp [readRange]
  · rw [writeRange_of_outside m (by rw [length_readRange]; omega)]

/-- A window of a range. -/
lemma slice_readRange (m : ℕ → α) {a n k l : ℕ} (h : k + l ≤ n) :
    slice (readRange m a n) k l = readRange m (a + k) l := by
  obtain ⟨r, rfl⟩ := Nat.exists_eq_add_of_le h
  have hparts : readRange m a (k + l + r) =
      readRange m a k ++ (readRange m (a + k) l ++ readRange m (a + k + l) r) := by
    rw [Nat.add_assoc, readRange_add, readRange_add]
  exact slice_part hparts (length_readRange _ _ _).symm (length_readRange _ _ _).symm

/-- A window of a block that lies at the beginning of the memory. -/
lemma readRange_block (m : ℕ → α) {block : List α} {k l : ℕ} (h : k + l ≤ block.length) :
    readRange (writeRange m 0 block) k l = slice block k l := by
  have hslice := @slice_readRange _ (writeRange m 0 block) 0 _ _ _ h
  rwa [readRange_writeRange, Nat.zero_add, eq_comm] at hslice

/-- Reading a window, changing a part of it and writing it back changes this part. -/
lemma writeRange_splice_readRange (m : ℕ → α) {a n k : ℕ} {part : List α}
    (h : k + part.length ≤ n) :
    writeRange m a (splice (readRange m a n) k part) = writeRange m (a + k) part := by
  obtain ⟨r, rfl⟩ := Nat.exists_eq_add_of_le h
  have hparts : readRange m a (k + part.length + r) = readRange m a k ++
      (readRange m (a + k) part.length ++ readRange m (a + k + part.length) r) := by
    rw [Nat.add_assoc, readRange_add, readRange_add]
  have hrest : readRange m (a + k + part.length) r =
      readRange (writeRange m (a + k) part) (a + k + part.length) r :=
    (readRange_writeRange_of_disjoint m (.inr le_rfl)).symm
  rw [splice_part hparts (length_readRange _ _ _).symm (length_readRange _ _ _), writeRange_append,
    writeRange_append, writeRange_readRange, length_readRange, hrest, writeRange_readRange]

/-! ### Words of four cells -/

/-- The cells of every word in the opposite order; a rest of fewer than four cells stays. -/
def swapWords : List α → List α
  | a :: b :: c :: d :: rest => d :: c :: b :: a :: swapWords rest
  | rest => rest

/-- Induction word by word. -/
@[elab_as_elim]
theorem word_induction {motive : List α → Prop} (short : ∀ l, l.length < 4 → motive l)
    (word : ∀ a b c d rest, motive rest → motive (a :: b :: c :: d :: rest)) (l : List α) :
    motive l := by
  match l with
  | a :: b :: c :: d :: rest => exact word a b c d rest (word_induction short word rest)
  | [] => exact short [] (by simp)
  | [a] => exact short [a] (by simp)
  | [a, b] => exact short [a, b] (by simp)
  | [a, b, c] => exact short [a, b, c] (by simp)

/-- Fewer than four cells stay. -/
lemma swapWords_of_lt {l : List α} (h : l.length < 4) : swapWords l = l := by
  match l, h with
  | [], _ => rfl
  | [_], _ => rfl
  | [_, _], _ => rfl
  | [_, _, _], _ => rfl

/-- Fewer than four cells are no word. -/
lemma eq_nil_of_dvd_of_lt {l : List α} (h : l.length < 4) (hdvd : 4 ∣ l.length) : l = [] :=
  List.eq_nil_of_length_eq_zero (Nat.eq_zero_of_dvd_of_lt hdvd h)

/-- A word before the rest. -/
lemma four_dvd_length_cons (a b c d : α) (rest : List α) :
    4 ∣ (a :: b :: c :: d :: rest).length ↔ 4 ∣ rest.length :=
  Nat.dvd_add_left (Nat.dvd_refl 4)

/-- Swapping keeps the number of cells. -/
@[simp] lemma length_swapWords (l : List α) : (swapWords l).length = l.length := by
  induction l using word_induction with
  | short l hl => rw [swapWords_of_lt hl]
  | word a b c d rest ih => simp [swapWords, ih]

/-- Swapping twice changes nothing. -/
@[simp] lemma swapWords_swapWords (l : List α) : swapWords (swapWords l) = l := by
  induction l using word_induction with
  | short l hl => rw [swapWords_of_lt hl, swapWords_of_lt hl]
  | word a b c d rest ih => rw [swapWords, swapWords, ih]

/-- Whole words are swapped on their own. -/
lemma swapWords_append {l : List α} (h : 4 ∣ l.length) (l' : List α) :
    swapWords (l ++ l') = swapWords l ++ swapWords l' := by
  induction l using word_induction with
  | short l hl =>
    rw [eq_nil_of_dvd_of_lt hl h]
    rfl
  | word a b c d rest ih =>
    have hrest := ih ((four_dvd_length_cons a b c d rest).mp h)
    exact congrArg (fun l => d :: c :: b :: a :: l) hrest

end Buffers
