import Mathlib

/-!
# Windows of a buffer, and checked accesses to them

A block of memory is a list of cells.  `slice buf off n` is the window of `n` cells at `off`, and
`splice buf off src` the buffer after `src` has been written there.  `copyWithin` is the forward
cell-by-cell copy inside one buffer, whose two windows may overlap.

`readAt`, `writeAt` and `copyAt` are the same operations for a program that has to stay inside the
block: an access that leaves it is a `Fault`.
-/

namespace Buffers

variable {α : Type*}

/-- The ways in which a run can go wrong: an access outside the accessed block, a failed assertion,
or the use of a block that has been freed. -/
inductive Fault
  | outOfBounds
  | assertion
  | dangling
  deriving DecidableEq, Repr

/-- The window of `n` cells of `buf` that starts at `off`. -/
def slice (buf : List α) (off n : ℕ) : List α :=
  (buf.drop off).take n

/-- The buffer `buf` after `src` has been written over the cells from `off` on. -/
def splice (buf : List α) (off : ℕ) (src : List α) : List α :=
  buf.take off ++ src ++ buf.drop (off + src.length)

/-! ### Windows -/

/-- A window inside the buffer has the length asked for. -/
lemma length_slice {buf : List α} {off n : ℕ} (h : off + n ≤ buf.length) :
    (slice buf off n).length = n := by
  simp only [slice, List.length_take, List.length_drop]
  omega

/-- A cell of a window is a cell of the buffer. -/
lemma getElem?_slice (buf : List α) (off n i : ℕ) :
    (slice buf off n)[i]? = if i < n then buf[off + i]? else none := by
  simp only [slice, List.getElem?_take, List.getElem?_drop]

/-- The empty window. -/
@[simp] lemma slice_zero (buf : List α) (off : ℕ) : slice buf off 0 = [] := by
  simp [slice]

/-- The window of the full length is the buffer. -/
@[simp] lemma slice_full (buf : List α) : slice buf 0 buf.length = buf := by
  simp [slice]

/-- The window of a known part of a buffer is that part. -/
lemma slice_part {buf pre part post : List α} {off n : ℕ} (hbuf : buf = pre ++ (part ++ post))
    (hoff : off = pre.length) (hn : n = part.length) : slice buf off n = part := by
  subst hbuf hoff hn
  simp [slice]

/-- A window of a window. -/
lemma slice_slice {buf : List α} {off n k m : ℕ} (h : k + m ≤ n) :
    slice (slice buf off n) k m = slice buf (off + k) m := by
  apply List.ext_getElem?
  intro i
  simp only [getElem?_slice]
  split
  · rw [if_pos (by omega), Nat.add_assoc]
  · rfl

/-! ### Writing a window -/

/-- Writing inside the buffer keeps its length. -/
lemma length_splice {buf : List α} {off : ℕ} {src : List α}
    (h : off + src.length ≤ buf.length) : (splice buf off src).length = buf.length := by
  simp only [splice, List.length_append, List.length_take, List.length_drop]
  omega

/-- The cells after a write: those of the written window are new, the others are kept. -/
lemma getElem?_splice {buf : List α} {off : ℕ} {src : List α}
    (h : off + src.length ≤ buf.length) (i : ℕ) :
    (splice buf off src)[i]? =
      if off ≤ i ∧ i < off + src.length then src[i - off]? else buf[i]? := by
  have htake : (buf.take off).length = off := by
    rw [List.length_take]
    omega
  rw [splice, List.append_assoc]
  by_cases h1 : i < off
  · rw [List.getElem?_append_left (by omega), List.getElem?_take, if_pos h1, if_neg (by omega)]
  rw [List.getElem?_append_right (by omega), htake]
  by_cases h2 : i < off + src.length
  · rw [List.getElem?_append_left (by omega), if_pos ⟨by omega, h2⟩]
  · rw [List.getElem?_append_right (by omega), List.getElem?_drop, if_neg (by omega)]
    congr 1
    omega

/-- Writing over the whole buffer leaves what was written. -/
lemma splice_full {buf src : List α} (h : src.length = buf.length) : splice buf 0 src = src := by
  simp [splice, h]

/-- Writing over a known part of a buffer replaces that part. -/
lemma splice_part {buf pre part post src : List α} {off : ℕ} (hbuf : buf = pre ++ (part ++ post))
    (hoff : off = pre.length) (hlen : part.length = src.length) :
    splice buf off src = pre ++ (src ++ post) := by
  subst hbuf hoff
  simp [splice, ← hlen]

/-- Two adjacent writes are one write. -/
lemma splice_append {buf : List α} {off : ℕ} {src src' : List α}
    (h : off + src.length + src'.length ≤ buf.length) :
    splice (splice buf off src) (off + src.length) src' = splice buf off (src ++ src') := by
  have hlen : (splice buf off src).length = buf.length := length_splice (by omega)
  apply List.ext_getElem?
  intro i
  rw [getElem?_splice (by omega), getElem?_splice (by omega),
    getElem?_splice (by rw [List.length_append]; omega), List.length_append]
  split_ifs <;> first | omega | rfl | skip
  · rw [List.getElem?_append_right (by omega)]
    congr 1
    omega
  · rw [List.getElem?_append_left (by omega)]

/-! ### Copying inside one buffer -/

/-- The forward cell-by-cell copy of `n` cells from `src` to `dst` in the same buffer.  The windows
may overlap, and then a later cell is read after an earlier one has been written. -/
def copyWithin (buf : List α) (dst src : ℕ) : ℕ → List α
  | 0 => buf
  | n + 1 =>
    match (copyWithin buf dst src n)[src + n]? with
    | some x => (copyWithin buf dst src n).set (dst + n) x
    | none => copyWithin buf dst src n

/-- Copying inside a buffer keeps its length. -/
@[simp] lemma length_copyWithin (buf : List α) (dst src n : ℕ) :
    (copyWithin buf dst src n).length = buf.length := by
  induction n with
  | zero => rfl
  | succ n ih =>
    rw [copyWithin]
    split
    · rw [List.length_set, ih]
    · exact ih

/-- A cell outside the target window is kept. -/
lemma getElem?_copyWithin_of_outside (buf : List α) (dst src n : ℕ) {i : ℕ}
    (hi : i < dst ∨ dst + n ≤ i) : (copyWithin buf dst src n)[i]? = buf[i]? := by
  induction n with
  | zero => rfl
  | succ n ih =>
    rw [copyWithin]
    split
    · rw [List.getElem?_set_ne (by omega)]
      exact ih (by omega)
    · exact ih (by omega)

/-- When the two windows are disjoint, copying is writing the source window. -/
lemma copyWithin_eq_splice {buf : List α} {dst src n : ℕ} (hs : src + n ≤ buf.length)
    (hd : dst + n ≤ buf.length) (hdisj : dst + n ≤ src ∨ src + n ≤ dst) :
    copyWithin buf dst src n = splice buf dst (slice buf src n) := by
  have key : ∀ m ≤ n, ∀ i < m, (copyWithin buf dst src m)[dst + i]? = buf[src + i]? := by
    intro m hm
    induction m with
    | zero => intro i hi; omega
    | succ m ih =>
      intro i hi
      have hread : (copyWithin buf dst src m)[src + m]? = buf[src + m]? :=
        getElem?_copyWithin_of_outside _ _ _ _ (by omega)
      obtain ⟨x, hx⟩ : ∃ x, buf[src + m]? = some x :=
        ⟨buf[src + m], List.getElem?_eq_getElem (by omega)⟩
      rw [copyWithin, hread, hx]
      by_cases him : i = m
      · subst him
        rw [List.getElem?_set_self (by rw [length_copyWithin]; omega), hx]
      · rw [List.getElem?_set_ne (by omega)]
        exact ih (by omega) i (by omega)
  have hlen : (slice buf src n).length = n := length_slice hs
  apply List.ext_getElem?
  intro i
  rw [getElem?_splice (by omega), hlen]
  split
  · rename_i hin
    have h := key n le_rfl (i - dst) (by omega)
    rw [Nat.add_sub_cancel' hin.1] at h
    rw [h, getElem?_slice, if_pos (by omega)]
  · exact getElem?_copyWithin_of_outside _ _ _ _ (by omega)

/-- Copying a window onto itself changes nothing. -/
lemma copyWithin_self (buf : List α) (p n : ℕ) : copyWithin buf p p n = buf := by
  induction n with
  | zero => rfl
  | succ n ih =>
    rw [copyWithin, ih]
    split
    · rename_i x hx
      obtain ⟨hlt, rfl⟩ := List.getElem?_eq_some_iff.mp hx
      exact List.set_getElem_self hlt
    · rfl

/-! ### Checked accesses -/

/-- A step that succeeds hands its value on. -/
@[simp] lemma ok_bind {ε β γ : Type} (a : β) (f : β → Except ε γ) :
    ((Except.ok a : Except ε β) >>= f) = f a := rfl

/-- A step that fails ends the computation. -/
@[simp] lemma error_bind {ε β γ : Type} (e : ε) (f : β → Except ε γ) :
    ((Except.error e : Except ε β) >>= f) = .error e := rfl

/-- What a function of the result is, is known of the result. -/
lemma exists_of_map_eq_ok {ε β γ : Type} {x : Except ε β} {f : β → γ} {c : γ}
    (h : x.map f = .ok c) : ∃ b, x = .ok b ∧ f b = c := by
  cases x with
  | error e => cases h
  | ok b => exact ⟨b, rfl, Except.ok.inj h⟩

/-- A computation that succeeds has succeeded in its first step and in the rest. -/
lemma exists_of_bind_eq_ok {ε β γ : Type} {x : Except ε β} {f : β → Except ε γ} {c : γ}
    (h : x >>= f = .ok c) : ∃ a, x = .ok a ∧ f a = .ok c := by
  cases x with
  | error e => cases h
  | ok a => exact ⟨a, rfl, h⟩

/-- Returning a value succeeds. -/
@[simp] lemma pure_eq_ok {ε β : Type} (a : β) : (pure a : Except ε β) = .ok a := rfl

/-- Read `n` cells at `off`, provided they lie in the block. -/
def readAt (buf : List α) (off n : ℕ) : Except Fault (List α) :=
  if off + n ≤ buf.length then .ok (slice buf off n) else .error .outOfBounds

/-- Write `src` at `off`, provided it stays in the block. -/
def writeAt (buf : List α) (off : ℕ) (src : List α) : Except Fault (List α) :=
  if off + src.length ≤ buf.length then .ok (splice buf off src) else .error .outOfBounds

/-- Copy `n` cells from `src` to `dst` inside one block, provided both windows lie in it. -/
def copyAt (buf : List α) (dst src n : ℕ) : Except Fault (List α) :=
  if src + n ≤ buf.length ∧ dst + n ≤ buf.length then .ok (copyWithin buf dst src n)
  else .error .outOfBounds

/-- A read inside the block returns the window. -/
lemma readAt_of_le {buf : List α} {off n : ℕ} (h : off + n ≤ buf.length) :
    readAt buf off n = .ok (slice buf off n) := if_pos h

/-- A read of a part of the block returns it. -/
lemma readAt_part {buf pre part post : List α} {off n : ℕ} (hbuf : buf = pre ++ (part ++ post))
    (hoff : off = pre.length) (hn : n = part.length) : readAt buf off n = .ok part := by
  have hle : off + n ≤ buf.length := by
    rw [hbuf, hoff, hn, List.length_append, List.length_append]
    exact Nat.add_le_add_left (Nat.le_add_right _ _) _
  rw [readAt_of_le hle, slice_part hbuf hoff hn]

/-- A read that leaves the block faults. -/
lemma readAt_of_lt {buf : List α} {off n : ℕ} (h : buf.length < off + n) :
    readAt buf off n = .error .outOfBounds := if_neg (by omega)

/-- A write inside the block happens. -/
lemma writeAt_of_le {buf : List α} {off : ℕ} {src : List α}
    (h : off + src.length ≤ buf.length) : writeAt buf off src = .ok (splice buf off src) :=
  if_pos h

/-- Writing over a known part of the block. -/
lemma writeAt_part {buf pre part post src : List α} {off : ℕ} (hbuf : buf = pre ++ (part ++ post))
    (hoff : off = pre.length) (hlen : part.length = src.length) :
    writeAt buf off src = .ok (pre ++ (src ++ post)) := by
  have hle : off + src.length ≤ buf.length := by
    rw [hbuf, hoff, ← hlen, List.length_append, List.length_append]
    exact Nat.add_le_add_left (Nat.le_add_right _ _) _
  rw [writeAt_of_le hle, splice_part hbuf hoff hlen]

/-- A write that leaves the block faults. -/
lemma writeAt_of_lt {buf : List α} {off : ℕ} {src : List α}
    (h : buf.length < off + src.length) : writeAt buf off src = .error .outOfBounds :=
  if_neg (by omega)

/-- A copy between two windows of the block happens. -/
lemma copyAt_of_le {buf : List α} {dst src n : ℕ} (hs : src + n ≤ buf.length)
    (hd : dst + n ≤ buf.length) : copyAt buf dst src n = .ok (copyWithin buf dst src n) :=
  if_pos ⟨hs, hd⟩

/-- A copy one of whose windows leaves the block faults. -/
lemma copyAt_of_lt {buf : List α} {dst src n : ℕ}
    (h : buf.length < src + n ∨ buf.length < dst + n) :
    copyAt buf dst src n = .error .outOfBounds :=
  if_neg (by omega)

end Buffers
