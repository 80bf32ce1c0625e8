import Mathlib

/-!
# Chains of links

Cells that are linked in one direction, the last one with no link.  `Chain next p l` says that the
cells from the pointer `p` on are those of the list `l`.  A link that is changed outside of the
chain does not matter; a cell is put in front of a chain, or behind its last cell, by one link.

`followChain` reads a chain, and what it reads is the list of the chain.
-/

namespace Buffers

variable {next : ℕ → Option ℕ} {p : Option ℕ} {l : List ℕ} {a b : ℕ}

/-- The cells from `p` on are `l`. -/
def Chain (next : ℕ → Option ℕ) : Option ℕ → List ℕ → Prop
  | p, [] => p = none
  | p, a :: l => p = some a ∧ Chain next (next a) l

/-- The pointer to a chain is its first cell. -/
lemma Chain.head_eq (h : Chain next p l) : p = l.head? := by
  cases l with
  | nil => exact h
  | cons a l => exact h.1

/-- A chain without a first cell is empty. -/
lemma Chain.eq_nil (h : Chain next none l) : l = [] := by
  cases l with
  | nil => rfl
  | cons a l => exact absurd h.1 (by simp)

/-- A chain with a first cell. -/
lemma Chain.exists_cons (h : Chain next (some a) l) :
    ∃ l', l = a :: l' ∧ Chain next (next a) l' := by
  cases l with
  | nil => exact absurd h (by simp [Chain])
  | cons b l =>
    obtain ⟨hb, hl⟩ := h
    cases hb
    exact ⟨l, rfl, hl⟩

/-- Two memories that agree on the cells of a chain. -/
lemma Chain.congr {next' : ℕ → Option ℕ} (h : Chain next p l)
    (hsame : ∀ x ∈ l, next' x = next x) : Chain next' p l := by
  induction l generalizing p with
  | nil => exact h
  | cons a l ih =>
    obtain ⟨hp, hl⟩ := h
    refine ⟨hp, ?_⟩
    rw [hsame a List.mem_cons_self]
    exact ih hl fun x hx => hsame x (List.mem_cons_of_mem a hx)

/-- A link outside of the chain is changed. -/
lemma Chain.update (h : Chain next p l) (ha : a ∉ l) (q : Option ℕ) :
    Chain (Function.update next a q) p l :=
  h.congr fun x hx => Function.update_of_ne (fun hxa : x = a => ha (hxa ▸ hx)) q next

/-- A cell is put in front. -/
lemma Chain.push (h : Chain next p l) (ha : a ∉ l) :
    Chain (Function.update next a p) (some a) (a :: l) := by
  refine ⟨rfl, ?_⟩
  rw [Function.update_self]
  exact h.update ha p

/-- A cell with no link is put behind the last cell. -/
lemma Chain.append (h : Chain next p (l ++ [b])) (hnodup : (l ++ [b]).Nodup) (ha : a ∉ l ++ [b])
    (hnext : next a = none) : Chain (Function.update next b (some a)) p (l ++ [b, a]) := by
  induction l generalizing p with
  | nil =>
    have hab : a ≠ b := fun hab => ha (hab ▸ List.mem_singleton_self b)
    refine ⟨h.1, ?_, ?_⟩
    · exact Function.update_self b (some a) next
    · exact (Function.update_of_ne hab (some a) next).trans hnext
  | cons c l ih =>
    obtain ⟨hp, hl⟩ := h
    obtain ⟨hc, hnodup⟩ := List.nodup_cons.mp hnodup
    have hcb : c ≠ b := by
      rintro rfl
      exact hc (List.mem_append_right l (List.mem_singleton_self c))
    refine ⟨hp, ?_⟩
    rw [Function.update_of_ne hcb]
    exact ih hl hnodup fun hmem => ha (List.mem_cons_of_mem c hmem)

/-- Reading a chain of at most `n` cells. -/
def followChain (next : ℕ → Option ℕ) : ℕ → Option ℕ → List ℕ
  | 0, _ => []
  | _ + 1, none => []
  | n + 1, some a => a :: followChain next n (next a)

/-- A chain is read with enough steps. -/
lemma Chain.followChain_eq {n : ℕ} (h : Chain next p l) (hn : l.length ≤ n) :
    followChain next n p = l := by
  induction l generalizing p n with
  | nil =>
    cases h
    cases n with
    | zero => rfl
    | succ n => rfl
  | cons a l ih =>
    obtain ⟨rfl, hl⟩ := h
    cases n with
    | zero => exact absurd hn (by simp)
    | succ n => rw [followChain, ih hl (Nat.le_of_succ_le_succ hn)]

end Buffers
