import WiotaAp.Foundation.Slice
import Mathlib.Data.UInt

/-!
# Strings in blocks

A string is a text without a zero byte, with a zero byte behind it, at the front of a block.
`strlen` and `strncpy` are the C functions with every access checked.
-/

namespace Buffers

/-- A text without a terminator. -/
def NoNul (text : List UInt8) : Prop :=
  ∀ c ∈ text, c ≠ 0

instance (text : List UInt8) : Decidable (NoNul text) :=
  List.decidableBAll _ _

lemma NoNul.append {text text' : List UInt8} (h : NoNul text) (h' : NoNul text') :
    NoNul (text ++ text') := by
  intro c hc
  rcases List.mem_append.mp hc with hc | hc
  · exact h c hc
  · exact h' c hc

/-! ### Single bytes -/

/-- Read the cell `i`, provided it lies in the block. -/
def byteAt {α : Type} (buf : List α) (i : ℕ) : Except Fault α :=
  match buf[i]? with
  | some c => .ok c
  | none => .error .outOfBounds

/-- A read of a known cell. -/
lemma byteAt_part {α : Type} {buf pre post : List α} {c : α} {i : ℕ} (hbuf : buf = pre ++ c :: post)
    (hi : i = pre.length) : byteAt buf i = .ok c := by
  subst hbuf hi
  simp [byteAt]

/-- A read inside the block. -/
lemma byteAt_of_lt {α : Type} {buf : List α} {i : ℕ} (h : i < buf.length) :
    ∃ c, byteAt buf i = .ok c := by
  refine ⟨buf.get ⟨i, h⟩, ?_⟩
  rw [byteAt, List.getElem?_eq_getElem h]
  rfl

/-- A write of a known cell. -/
lemma writeAt_cell {α : Type} {buf pre post : List α} {c d : α} {i : ℕ}
    (hbuf : buf = pre ++ c :: post) (hi : i = pre.length) :
    writeAt buf i [d] = .ok (pre ++ d :: post) :=
  writeAt_part (show buf = pre ++ ([c] ++ post) from hbuf) hi rfl

/-- One cell inside the block is written. -/
lemma writeAt_one {α : Type} {buf : List α} {i : ℕ} (d : α) (h : i < buf.length) :
    writeAt buf i [d] = .ok (buf.take i ++ d :: buf.drop (i + 1)) := by
  have hparts : buf = buf.take i ++ buf.get ⟨i, h⟩ :: buf.drop (i + 1) := by
    rw [List.get_eq_getElem, List.getElem_cons_drop, List.take_append_drop]
  exact writeAt_cell hparts (List.length_take_of_le (Nat.le_of_lt h)).symm

/-- The cell that a read gives. -/
lemma getElem?_of_byteAt {α : Type} {buf : List α} {i : ℕ} {c : α} (h : byteAt buf i = .ok c) :
    buf[i]? = some c := by
  rw [byteAt] at h
  split at h
  · cases h
    assumption
  · cases h

/-- A write keeps the length of the block. -/
lemma length_of_writeAt {α : Type} {buf buf' src : List α} {off : ℕ}
    (h : writeAt buf off src = .ok buf') : buf'.length = buf.length := by
  unfold writeAt at h
  split at h
  · rename_i hle
    rw [← Except.ok.inj h, length_splice hle]
  · cases h

/-- A block with room for two parts and a cell behind them. -/
lemma exists_room {α : Type} {l : List α} {a b : ℕ} (h : a + b < l.length) :
    ∃ u v c w, l = u ++ (v ++ c :: w) ∧ u.length = a ∧ v.length = b ∧
      w = l.drop (a + b + 1) := by
  refine ⟨l.take a, (l.drop a).take b, l.get ⟨a + b, h⟩, l.drop (a + b + 1), ?_, ?_, ?_, rfl⟩
  · rw [List.get_eq_getElem, List.cons_getElem_drop_succ, ← List.drop_drop, List.take_append_drop,
      List.take_append_drop]
  · rw [List.length_take]
    omega
  · rw [List.length_take, List.length_drop]
    omega

/-! ### The length -/

/-- `strlen` of the string at the front of a block. -/
def strlen : List UInt8 → Except Fault ℕ
  | [] => .error .outOfBounds
  | c :: rest =>
    if c = 0 then .ok 0
    else do
      let n ← strlen rest
      return n + 1

/-- The length of a string is that of its text. -/
lemma strlen_text {text : List UInt8} (h : NoNul text) (rest : List UInt8) :
    strlen (text ++ 0 :: rest) = .ok text.length := by
  induction text with
  | nil => rfl
  | cons c text ih =>
    have hrest := ih fun d hd => h d (List.mem_cons_of_mem c hd)
    rw [List.cons_append, strlen, if_neg (h c List.mem_cons_self), hrest]
    rfl

/-- Without a terminator the length is not found in the block. -/
lemma strlen_of_noNul {text : List UInt8} (h : NoNul text) :
    strlen text = .error .outOfBounds := by
  induction text with
  | nil => rfl
  | cons c text ih =>
    rw [strlen, if_neg (h c List.mem_cons_self), ih fun d hd => h d (List.mem_cons_of_mem c hd)]
    rfl

/-- The terminator lies in the block. -/
lemma lt_of_strlen {buf : List UInt8} {n : ℕ} (h : strlen buf = .ok n) : n < buf.length := by
  induction buf generalizing n with
  | nil => cases h
  | cons c rest ih =>
    rw [strlen] at h
    split at h
    · cases h
      exact Nat.zero_lt_succ _
    · obtain ⟨m, hm, hn⟩ := exists_of_bind_eq_ok h
      cases hn
      exact Nat.succ_lt_succ (ih hm)

/-! ### Copies -/

/-- `strncpy` of `n` bytes to the place `off` of a block: behind a terminator there are zeros. -/
def strncpy (dst : List UInt8) (off : ℕ) : List UInt8 → ℕ → Except Fault (List UInt8)
  | _, 0 => .ok dst
  | [], _ + 1 => .error .outOfBounds
  | c :: src, n + 1 => do
    let dst ← writeAt dst off [c]
    if c = 0 then writeAt dst (off + 1) (List.replicate n 0) else strncpy dst (off + 1) src n

/-- A copy of a text without its terminator. -/
lemma strncpy_text {text : List UInt8} (h : NoNul text) {dst pre part post : List UInt8} {off : ℕ}
    (hdst : dst = pre ++ (part ++ post)) (hoff : off = pre.length)
    (hpart : part.length = text.length) (rest : List UInt8) :
    strncpy dst off (text ++ rest) text.length = .ok (pre ++ (text ++ post)) := by
  induction text generalizing dst pre part off with
  | nil =>
    rw [List.length_eq_zero_iff.mp hpart] at hdst
    rw [hdst]
    cases rest <;> rfl
  | cons c text ih =>
    cases part with
    | nil => cases hpart
    | cons d part =>
      rw [List.cons_append] at hdst
      rw [List.cons_append, List.length_cons, strncpy, writeAt_cell hdst hoff, ok_bind,
        if_neg (h c List.mem_cons_self)]
      have hcopy := ih (fun x hx => h x (List.mem_cons_of_mem c hx))
        (show pre ++ c :: (part ++ post) = (pre ++ [c]) ++ (part ++ post) by simp)
        (show off + 1 = (pre ++ [c]).length by simp [hoff]) (Nat.succ.inj hpart)
      rw [hcopy, List.append_assoc, List.singleton_append, List.cons_append]

/-- A copy of a text with its terminator, and zeros up to the length. -/
lemma strncpy_padded {text : List UInt8} (h : NoNul text) {dst pre part post : List UInt8}
    {off k : ℕ} (hdst : dst = pre ++ (part ++ post)) (hoff : off = pre.length)
    (hpart : part.length = text.length + (k + 1)) (rest : List UInt8) :
    strncpy dst off (text ++ 0 :: rest) (text.length + (k + 1)) =
      .ok (pre ++ (text ++ (List.replicate (k + 1) 0 ++ post))) := by
  induction text generalizing dst pre part off with
  | nil =>
    cases part with
    | nil => simp at hpart
    | cons d part =>
      have hlen : part.length = (List.replicate k (0 : UInt8)).length := by
        rw [List.length_replicate]
        simpa using hpart
      rw [List.cons_append] at hdst
      rw [List.nil_append, List.length_nil, Nat.zero_add, strncpy, writeAt_cell hdst hoff, ok_bind,
        if_pos rfl, List.nil_append, List.replicate_succ]
      have hzeros := writeAt_part
        (show pre ++ 0 :: (part ++ post) = (pre ++ [0]) ++ (part ++ post) by simp)
        (show off + 1 = (pre ++ [0]).length by simp [hoff]) hlen
      rw [hzeros, List.append_assoc, List.singleton_append, List.cons_append]
  | cons c text ih =>
    cases part with
    | nil => simp at hpart
    | cons d part =>
      have hlen : part.length = text.length + (k + 1) := by
        rw [List.length_cons, List.length_cons] at hpart
        omega
      rw [List.cons_append] at hdst
      rw [List.cons_append, List.length_cons, Nat.succ_add, strncpy, writeAt_cell hdst hoff,
        ok_bind, if_neg (h c List.mem_cons_self)]
      have hcopy := ih (fun x hx => h x (List.mem_cons_of_mem c hx))
        (show pre ++ c :: (part ++ post) = (pre ++ [c]) ++ (part ++ post) by simp)
        (show off + 1 = (pre ++ [c]).length by simp [hoff]) hlen
      rw [hcopy, List.append_assoc, List.singleton_append, List.cons_append]

/-! ### Reversal in place -/

/-- The loop that swaps the ends of a range and goes on inside it, for at most `n` pairs. -/
def reverseLoop {α : Type} (swap : List α → ℕ → ℕ → Except Fault (List α)) :
    ℕ → ℕ → ℕ → List α → Except Fault (List α)
  | 0, _, _, buf => .ok buf
  | n + 1, lo, hi, buf =>
    if lo < hi then do
      let buf ← swap buf lo hi
      reverseLoop swap n (lo + 1) (hi - 1) buf
    else .ok buf

/-- Two different cells are exchanged. -/
def Swaps {α : Type} (swap : List α → ℕ → ℕ → Except Fault (List α)) : Prop :=
  ∀ (pre mid post : List α) (x y : α),
    swap (pre ++ x :: (mid ++ y :: post)) pre.length (pre.length + 1 + mid.length) =
      .ok (pre ++ y :: (mid ++ x :: post))

/-- The second of two cells, with the first one in what is in front of it. -/
lemma second_cell {α : Type} (pre mid post : List α) (x y : α) :
    pre ++ x :: (mid ++ y :: post) = (pre ++ x :: mid) ++ y :: post ∧
      pre.length + 1 + mid.length = (pre ++ x :: mid).length := by
  constructor
  · rw [List.append_assoc, List.cons_append]
  · rw [List.length_append, List.length_cons]
    omega

/-- The loop reverses the range. -/
theorem reverseLoop_spec {α : Type} {swap : List α → ℕ → ℕ → Except Fault (List α)}
    (hswap : Swaps swap) (l : List α) {n : ℕ} (hn : l.length ≤ n) (pre post : List α) :
    reverseLoop swap n pre.length (pre.length + l.length - 1) (pre ++ (l ++ post)) =
      .ok (pre ++ (l.reverse ++ post)) := by
  -- the ends of the range move towards each other, so the induction takes off both
  induction l using List.bidirectionalRec generalizing n pre post with
  | nil =>
    cases n with
    | zero => rfl
    | succ n =>
      rw [reverseLoop, if_neg (by simp)]
      rfl
  | singleton x =>
    cases n with
    | zero => rfl
    | succ n =>
      rw [reverseLoop, if_neg (by simp)]
      rfl
  | cons_append x l y ih =>
    simp only [List.length_cons, List.length_append, List.length_nil] at hn
    obtain ⟨n, rfl⟩ := Nat.exists_eq_add_of_le' (show 1 ≤ n by omega)
    have hhi : pre.length + (x :: (l ++ [y])).length - 1 = pre.length + 1 + l.length := by
      simp only [List.length_cons, List.length_append, List.length_nil]
      omega
    have hbuf : pre ++ (x :: (l ++ [y]) ++ post) = pre ++ x :: (l ++ y :: post) := by simp
    have hinner := ih (n := n) (by omega) (pre ++ [y]) (x :: post)
    have hlo : (pre ++ [y]).length = pre.length + 1 := by simp
    rw [hlo, List.append_assoc, List.singleton_append] at hinner
    rw [hhi, hbuf, reverseLoop, if_pos (by omega), hswap, ok_bind, hinner]
    simp

end Buffers
