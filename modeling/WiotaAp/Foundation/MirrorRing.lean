import WiotaAp.Foundation.Slice

/-!
# Mirrored ring buffers

A ring of `N` cells is used for an unbounded stream: the stream position `p` lives in the cell
`p % N`.  A party stores its position as a `Cursor`, the cell index together with one mirror bit
that flips on every pass over the end of the ring.  The index alone cannot separate an empty ring
from a full one; the mirror bit can, because the two positions of a ring are never more than `N`
apart.

`Cursor.ofPos` is the cursor of a stream position, `Cursor.advance` the move of a cursor by at most
one pass (`ofPos_add`), and `Cursor.gap` the fill level that two cursors show (`gap_ofPos`).  The
second half reads and writes a run of cells that may wrap around the end (`ringSlice`,
`ringSplice`), and says which stream positions a write touches.
-/

namespace Buffers

variable {α : Type*} {N : ℕ}

/-- A place in a mirrored ring: the cell index and the parity of the passes made. -/
@[ext]
structure Cursor where
  index : ℕ
  mirror : Bool
  deriving DecidableEq, Repr

namespace Cursor

/-- The cursor of the stream position `p`. -/
def ofPos (N p : ℕ) : Cursor where
  index := p % N
  mirror := decide (p / N % 2 = 1)

/-- Move a cursor `k ≤ N` cells on.  Reaching the end of the ring exactly is already a pass. -/
def advance (N : ℕ) (c : Cursor) (k : ℕ) : Cursor :=
  if c.index + k < N then ⟨c.index + k, c.mirror⟩ else ⟨c.index + k - N, !c.mirror⟩

/-- The number of cells between the read cursor `r` and the write cursor `w`. -/
def gap (N : ℕ) (r w : Cursor) : ℕ :=
  if r.index = w.index then if r.mirror = w.mirror then 0 else N
  else if r.index < w.index then w.index - r.index
  else N - (r.index - w.index)

@[simp] lemma ofPos_zero (N : ℕ) : ofPos N 0 = ⟨0, false⟩ := by
  simp [ofPos]

/-- Every cursor inside the ring is the cursor of some stream position. -/
lemma exists_ofPos {c : Cursor} (hc : c.index < N) : ∃ p, c = ofPos N p := by
  obtain ⟨i, m⟩ := c
  have hi : i < N := hc
  cases m with
  | false => exact ⟨i, by simp [ofPos, Nat.mod_eq_of_lt hi, Nat.div_eq_of_lt hi]⟩
  | true =>
    refine ⟨i + N, ?_⟩
    simp [ofPos, Nat.mod_eq_of_lt hi, Nat.div_eq_of_lt hi, Nat.add_div_right i (by omega : 0 < N)]

/-- A stream position in terms of its pass and its cell. -/
private lemma pos_split (N p : ℕ) : N * (p / N) + p % N = p :=
  Nat.div_add_mod p N

/-- Moving the cursor of a position by at most one pass gives the cursor of the moved position. -/
lemma ofPos_add (hN : 0 < N) (p : ℕ) {k : ℕ} (hk : k ≤ N) :
    (ofPos N p).advance N k = ofPos N (p + k) := by
  have hp := pos_split N p
  have hi : p % N < N := Nat.mod_lt p hN
  by_cases h : p % N + k < N
  · have hadd : p + k = p % N + k + N * (p / N) := by omega
    have hmod : (p + k) % N = p % N + k := by
      rw [hadd, Nat.add_mul_mod_self_left, Nat.mod_eq_of_lt h]
    have hdiv : (p + k) / N = p / N := by
      rw [hadd, Nat.add_mul_div_left _ _ hN, Nat.div_eq_of_lt h, Nat.zero_add]
    simp [advance, ofPos, h, hmod, hdiv]
  · have hlt : p % N + k - N < N := by omega
    have hadd : p + k = p % N + k - N + N * (p / N + 1) := by
      rw [Nat.mul_add, Nat.mul_one]
      omega
    have hmod : (p + k) % N = p % N + k - N := by
      rw [hadd, Nat.add_mul_mod_self_left, Nat.mod_eq_of_lt hlt]
    have hdiv : (p + k) / N = p / N + 1 := by
      rw [hadd, Nat.add_mul_div_left _ _ hN, Nat.div_eq_of_lt hlt, Nat.zero_add]
    have hpar : decide ((p / N + 1) % 2 = 1) = !decide (p / N % 2 = 1) := by
      rcases Nat.mod_two_eq_zero_or_one (p / N) with h0 | h1
      · simp [h0, Nat.add_mod]
      · simp [h1, Nat.add_mod]
    simp [advance, ofPos, h, hmod, hdiv, hpar]

/-- The gap of two positions that are at most one pass apart is their distance. -/
lemma gap_ofPos (hN : 0 < N) {r w : ℕ} (hrw : r ≤ w) (hw : w ≤ r + N) :
    gap N (ofPos N r) (ofPos N w) = w - r := by
  have hr := pos_split N r
  have hw' := pos_split N w
  have hri : r % N < N := Nat.mod_lt r hN
  have hwi : w % N < N := Nat.mod_lt w hN
  have hq : w / N = r / N ∨ w / N = r / N + 1 := by
    have hle : r / N ≤ w / N := Nat.div_le_div_right hrw
    have hlt : w / N < r / N + 2 := by
      rw [Nat.div_lt_iff_lt_mul hN, Nat.add_mul, Nat.mul_comm (r / N) N]
      omega
    omega
  have hir : (ofPos N r).index = r % N := rfl
  have hiw : (ofPos N w).index = w % N := rfl
  have hmir : (ofPos N r).mirror = (ofPos N w).mirror ↔ w / N = r / N := by
    simp only [ofPos, decide_eq_decide]
    omega
  simp only [gap, hmir]
  rcases hq with hq | hq
  · rw [hq] at hw'
    split_ifs <;> omega
  · rw [hq, Nat.mul_add, Nat.mul_one] at hw'
    split_ifs <;> omega

/-- The gap between a cursor and the cursor `k` cells on is `k`. -/
lemma gap_advance {c : Cursor} (hc : c.index < N) {k : ℕ} (hk : k ≤ N) :
    gap N c (c.advance N k) = k := by
  have hN : 0 < N := by omega
  obtain ⟨p, rfl⟩ := exists_ofPos hc
  rw [ofPos_add hN p hk, gap_ofPos hN (by omega) (by omega)]
  omega

/-- The moved cursor stays inside the ring. -/
lemma advance_index_lt {c : Cursor} (hc : c.index < N) {k : ℕ} (hk : k ≤ N) :
    (c.advance N k).index < N := by
  rw [advance]
  split <;> simp only <;> omega

/-- Moving on moves the cursor, also over a whole ring. -/
lemma advance_ne {c : Cursor} {k : ℕ} (hpos : 0 < k) : c.advance N k ≠ c := by
  intro h
  rw [advance] at h
  split at h
  · have hindex := congrArg Cursor.index h
    simp only at hindex
    omega
  · have hmirror := congrArg Cursor.mirror h
    simp at hmirror

/-- Moving a cursor by `0 < k ≤ N` cells puts it ahead in the same mirror, or not ahead in the
other one. -/
lemma advance_ahead_iff {c : Cursor} {k : ℕ} (hpos : 0 < k) (hk : k ≤ N) :
    c.index < (c.advance N k).index ↔ (c.advance N k).mirror = c.mirror := by
  rw [advance]
  split
  · exact iff_of_true (by simpa using hpos) rfl
  · refine iff_of_false ?_ (by simp)
    simp only
    omega

/-- Moving a cursor keeps the residue of its index modulo every divisor of the ring size. -/
lemma advance_index_mod {c : Cursor} {k d : ℕ} (hN : N % d = 0) (hk : k % d = 0) :
    (c.advance N k).index % d = c.index % d := by
  obtain ⟨n, rfl⟩ := Nat.dvd_of_mod_eq_zero hN
  obtain ⟨j, rfl⟩ := Nat.dvd_of_mod_eq_zero hk
  rw [advance]
  split
  · simp
  · rename_i hwrap
    have h1 : c.index + d * j - d * n + d * n = c.index + d * j := by omega
    have h2 : (c.index + d * j - d * n + d * n) % d = (c.index + d * j - d * n) % d := by simp
    rw [h1] at h2
    simp only
    rw [← h2]
    simp

/-- The gap never exceeds the ring. -/
lemma gap_le {r w : Cursor} (hw : w.index < N) : gap N r w ≤ N := by
  obtain ⟨wi, wm⟩ := w
  rw [gap]
  split
  · split <;> omega
  · split
    · exact (Nat.sub_le _ _).trans hw.le
    · omega

/-- If the write cursor is ahead exactly when the mirrors agree, then moving the read cursor over
the gap reaches it. -/
lemma advance_gap {r w : Cursor} (hr : r.index < N) (hw : w.index < N)
    (hahead : r.index < w.index ↔ w.mirror = r.mirror) : r.advance N (gap N r w) = w := by
  obtain ⟨ri, rm⟩ := r
  obtain ⟨wi, wm⟩ := w
  have hr' : ri < N := hr
  have hw' : wi < N := hw
  have hahead' : ri < wi ↔ wm = rm := hahead
  have hflip : ¬ ri < wi → (!rm) = wm := by
    intro hle
    have hne : wm ≠ rm := fun h => hle (hahead'.mpr h)
    revert hne
    cases wm <;> cases rm <;> simp
  rcases lt_trichotomy ri wi with hlt | heq | hgt
  · have hsame : wm = rm := hahead'.mp hlt
    have hgap : gap N ⟨ri, rm⟩ ⟨wi, wm⟩ = wi - ri := by simp [gap, hlt.ne, hlt]
    have hsum : ri + (wi - ri) = wi := by omega
    rw [hgap]
    simp [advance, hsum, hw', hsame]
  · have hne : ¬ rm = wm := fun h => absurd (hahead'.mpr h.symm) (by omega)
    have hgap : gap N ⟨ri, rm⟩ ⟨wi, wm⟩ = N := by simp [gap, heq, hne]
    rw [hgap]
    simp [advance, heq, hflip (by omega)]
  · have hgap : gap N ⟨ri, rm⟩ ⟨wi, wm⟩ = N - (ri - wi) := by simp [gap, hgt.ne', hgt.not_gt]
    have hsum : ri + (N - (ri - wi)) = wi + N := by omega
    rw [hgap]
    simp [advance, hsum, hflip (by omega)]

end Cursor

/-! ### Runs of cells that may wrap -/

/-- The `n` cells that start at index `i`, continued at the front of the ring. -/
def ringSlice (N : ℕ) (buf : List α) (i n : ℕ) : List α :=
  if i + n < N then slice buf i n
  else slice buf i (N - i) ++ slice buf 0 (n - (N - i))

/-- Write `src` from index `i` on, continuing at the front of the ring. -/
def ringSplice (N : ℕ) (buf : List α) (i : ℕ) (src : List α) : List α :=
  if i + src.length < N then splice buf i src
  else splice (splice buf i (src.take (N - i))) 0 (src.drop (N - i))

/-- A cell of a wrapped run is the cell of its position. -/
lemma getElem?_ringSlice {buf : List α} {i n j : ℕ} (hbuf : buf.length = N) (hi : i < N)
    (hn : n ≤ N) (hj : j < n) : (ringSlice N buf i n)[j]? = buf[(i + j) % N]? := by
  rw [ringSlice]
  split
  · rw [getElem?_slice, if_pos hj, Nat.mod_eq_of_lt (by omega)]
  · have hlen : (slice buf i (N - i)).length = N - i := length_slice (by omega)
    by_cases hwrap : j < N - i
    · rw [List.getElem?_append_left (by omega), getElem?_slice, if_pos hwrap,
        Nat.mod_eq_of_lt (by omega)]
    · rw [List.getElem?_append_right (by omega), hlen, getElem?_slice, if_pos (by omega),
        Nat.mod_eq_sub_mod (by omega), Nat.mod_eq_of_lt (by omega)]
      congr 1
      omega

/-- A wrapped run has the length asked for. -/
lemma length_ringSlice {buf : List α} {i n : ℕ} (hbuf : buf.length = N) (hi : i < N)
    (hn : n ≤ N) : (ringSlice N buf i n).length = n := by
  rw [ringSlice]
  split
  · exact length_slice (by omega)
  · rw [List.length_append, length_slice (by omega), length_slice (by omega)]
    omega

/-- A wrapped run is determined by its cells. -/
lemma ringSlice_eq_of_cells {buf xs : List α} {i : ℕ} (hbuf : buf.length = N) (hi : i < N)
    (hn : xs.length ≤ N) (h : ∀ j < xs.length, buf[(i + j) % N]? = xs[j]?) :
    ringSlice N buf i xs.length = xs := by
  apply List.ext_getElem?
  intro j
  by_cases hj : j < xs.length
  · rw [getElem?_ringSlice hbuf hi hn hj, h j hj]
  · rw [List.getElem?_eq_none (by rw [length_ringSlice hbuf hi hn]; omega),
      List.getElem?_eq_none (by omega)]

/-- A wrapped write keeps the length of the ring. -/
lemma length_ringSplice {buf src : List α} {i : ℕ} (hbuf : buf.length = N) (hi : i < N)
    (hn : src.length ≤ N) : (ringSplice N buf i src).length = N := by
  rw [ringSplice]
  split
  · rw [length_splice (by omega), hbuf]
  · have h1 : (splice buf i (src.take (N - i))).length = N := by
      rw [length_splice (by rw [List.length_take]; omega), hbuf]
    rw [length_splice (by rw [List.length_drop]; omega), h1]

/-- The cells of the ring after a wrapped write. -/
lemma getElem?_ringSplice {buf src : List α} {i : ℕ} (hbuf : buf.length = N) (hi : i < N)
    (hn : src.length ≤ N) {x : ℕ} (hx : x < N) :
    (ringSplice N buf i src)[x]? =
      if i ≤ x ∧ x < i + src.length then src[x - i]?
      else if x + N < i + src.length then src[x + N - i]? else buf[x]? := by
  rw [ringSplice]
  split
  · rw [getElem?_splice (by omega)]
    split_ifs <;> first | rfl | omega
  · have hlen : (src.take (N - i)).length = N - i := by
      rw [List.length_take]
      omega
    have h1 : (splice buf i (src.take (N - i))).length = N := by
      rw [length_splice (by omega), hbuf]
    rw [getElem?_splice (by rw [List.length_drop]; omega), List.length_drop,
      getElem?_splice (by omega), hlen, List.getElem?_drop, List.getElem?_take]
    split_ifs <;> first | omega | rfl | skip
    congr 1
    omega

/-- After a wrapped write the written stream positions hold what was written. -/
lemma getElem?_ringSplice_new {buf src : List α} {p j : ℕ} (hN : 0 < N) (hbuf : buf.length = N)
    (hn : src.length ≤ N) (hj : j < src.length) :
    (ringSplice N buf (p % N) src)[(p + j) % N]? = src[j]? := by
  have hi : p % N < N := Nat.mod_lt p hN
  have hcell : (p + j) % N = (p % N + j) % N := by rw [Nat.mod_add_mod]
  have hx : (p + j) % N < N := Nat.mod_lt _ hN
  rw [getElem?_ringSplice hbuf hi hn hx, hcell]
  by_cases hwrap : p % N + j < N
  · rw [Nat.mod_eq_of_lt hwrap, if_pos ⟨by omega, by omega⟩, Nat.add_sub_cancel_left]
  · have hfront : (p % N + j) % N = p % N + j - N := by
      rw [Nat.mod_eq_sub_mod (by omega), Nat.mod_eq_of_lt (by omega)]
    rw [hfront, if_neg (by omega), if_pos (by omega)]
    congr 1
    omega

/-- A wrapped write reads back as what was written. -/
lemma ringSlice_ringSplice {buf src : List α} {i : ℕ} (hbuf : buf.length = N) (hi : i < N)
    (hn : src.length ≤ N) : ringSlice N (ringSplice N buf i src) i src.length = src := by
  refine ringSlice_eq_of_cells (length_ringSplice hbuf hi hn) hi hn fun j hj => ?_
  have hcell := getElem?_ringSplice_new (p := i) (by omega) hbuf hn hj
  rwa [Nat.mod_eq_of_lt hi] at hcell

/-- A wrapped write keeps every stream position of the last pass that it does not reach. -/
lemma getElem?_ringSplice_old {buf src : List α} {p q : ℕ} (hN : 0 < N) (hbuf : buf.length = N)
    (hq : q < p) (hpq : p + src.length ≤ q + N) :
    (ringSplice N buf (p % N) src)[q % N]? = buf[q % N]? := by
  have hi : p % N < N := Nat.mod_lt p hN
  have hx : q % N < N := Nat.mod_lt q hN
  rw [getElem?_ringSplice hbuf hi (by omega) hx]
  have hp := Nat.div_add_mod p N
  have hq' := Nat.div_add_mod q N
  have hdiv : p / N = q / N ∨ p / N = q / N + 1 := by
    have hle : q / N ≤ p / N := Nat.div_le_div_right hq.le
    have hlt : p / N < q / N + 2 := by
      rw [Nat.div_lt_iff_lt_mul hN, Nat.add_mul, Nat.mul_comm (q / N) N]
      omega
    omega
  rcases hdiv with hdiv | hdiv
  · rw [hdiv] at hp
    rw [if_neg (by omega), if_neg (by omega)]
  · rw [hdiv, Nat.mul_add, Nat.mul_one] at hp
    rw [if_neg (by omega), if_neg (by omega)]

end Buffers
