import WiotaAp.Foundation.CString

/-!
# Texts as literals and back references

A text is given by tokens: literals, or a back reference to cells that stand some distance in front
of the end.  The cells of a back reference may overlap those it adds, and then they repeat.

`Covers text p toks q` says that the tokens stand for the cells of a text from `p` to `q`, as a
compressor finds them: a back reference is a stretch of the text that was compared with an earlier
one.  `LzToken.append_of_covers` puts it back.  `copyCells` is the copy inside a block, cell by
cell, by which a decompressor carries a back reference out.
-/

namespace Buffers

variable {α : Type}

/-- Literals, or the `len` cells that stand `dist` cells in front. -/
inductive LzToken (α : Type)
  | literals (cells : List α)
  | back (dist len : ℕ)
  deriving DecidableEq, Repr

/-- Append `len` cells, each the one `dist` cells in front of it. -/
def copyBack (dist : ℕ) : ℕ → List α → List α
  | 0, out => out
  | len + 1, out =>
    match out[out.length - dist]? with
    | some x => copyBack dist len (out ++ [x])
    | none => out

/-- The number of cells that a token stands for. -/
def LzToken.size : LzToken α → ℕ
  | .literals cells => cells.length
  | .back _ len => len

/-- The text behind one more token. -/
def LzToken.append (out : List α) : LzToken α → List α
  | .literals cells => out ++ cells
  | .back dist len => copyBack dist len out

/-! ### Back references -/

/-- A back reference that reaches into the text adds as many cells as it asks for. -/
lemma length_copyBack {dist : ℕ} (hdist : 1 ≤ dist) (len : ℕ) {out : List α}
    (hout : dist ≤ out.length) : (copyBack dist len out).length = out.length + len := by
  induction len generalizing out with
  | zero => rfl
  | succ len ih =>
    have hlt : out.length - dist < out.length := by omega
    rw [copyBack, List.getElem?_eq_getElem hlt]
    dsimp only
    rw [ih (by rw [List.length_append]; omega), List.length_append, List.length_singleton]
    omega

/-- A back reference keeps the text in front of it. -/
lemma append_drop_copyBack (dist len : ℕ) (out : List α) :
    out ++ (copyBack dist len out).drop out.length = copyBack dist len out := by
  suffices h : out <+: copyBack dist len out by
    obtain ⟨added, hadded⟩ := h
    rw [← hadded, List.drop_left]
  induction len generalizing out with
  | zero => exact List.prefix_rfl
  | succ len ih =>
    rw [copyBack]
    split
    · exact (List.prefix_append out _).trans (ih _)
    · exact List.prefix_rfl

/-- A stretch that agrees with the one `dist` cells in front of it is a back reference. -/
lemma copyBack_take {text : List α} {dist : ℕ} (hdist : 1 ≤ dist) {len p : ℕ} (hp : dist ≤ p)
    (hlen : p + len ≤ text.length) (hsame : ∀ i < len, text[p + i]? = text[p - dist + i]?) :
    copyBack dist len (text.take p) = text.take (p + len) := by
  induction len generalizing p with
  | zero => rfl
  | succ len ih =>
    have htake : (text.take p).length = p := by
      rw [List.length_take]
      omega
    have hcell : (text.take p)[p - dist]? = text[p]? := by
      rw [List.getElem?_take, if_pos (by omega)]
      exact (hsame 0 (Nat.zero_lt_succ len)).symm
    have hnext : text.take p ++ [text[p]] = text.take (p + 1) :=
      List.take_append_getElem (by omega)
    have hrest : ∀ i < len, text[p + 1 + i]? = text[p + 1 - dist + i]? := by
      intro i hi
      have h := hsame (i + 1) (Nat.succ_lt_succ hi)
      rw [show p + 1 + i = p + (i + 1) by omega, h]
      congr 1
      omega
    rw [copyBack, htake, hcell, List.getElem?_eq_getElem (show p < text.length by omega)]
    dsimp only
    rw [hnext, ih (by omega) (by omega) hrest, show p + 1 + len = p + (len + 1) by omega]

/-- The cells of a text from `p` on are those of a token. -/
def LzToken.Covers (text : List α) (p : ℕ) : LzToken α → Prop
  | .literals cells => slice text p cells.length = cells
  | .back dist len => 1 ≤ dist ∧ dist ≤ p ∧ p + len ≤ text.length ∧
      ∀ i < len, text[p + i]? = text[p - dist + i]?

/-- A back reference can be cut into two. -/
lemma LzToken.covers_back_add {text : List α} {p dist m n : ℕ}
    (h : (LzToken.back dist (m + n)).Covers text p) :
    (LzToken.back dist m).Covers text p ∧ (LzToken.back dist n).Covers text (p + m) := by
  obtain ⟨hdist, hp, hlen, hsame⟩ := h
  refine ⟨⟨hdist, hp, by omega, fun i hi => hsame i (by omega)⟩, hdist, by omega, by omega, ?_⟩
  intro i hi
  have h := hsame (m + i) (by omega)
  rw [Nat.add_assoc, h]
  congr 1
  omega

/-- The cells of a text from `p` to `q` are those of the tokens. -/
def Covers (text : List α) : ℕ → List (LzToken α) → ℕ → Prop
  | p, [], q => p = q
  | p, tok :: toks, q => tok.Covers text p ∧ Covers text (p + tok.size) toks q

/-- Tokens do not lead back. -/
lemma covers_le {text : List α} {toks : List (LzToken α)} {p q : ℕ} (h : Covers text p toks q) :
    p ≤ q := by
  induction toks generalizing p with
  | nil => exact Nat.le_of_eq h
  | cons tok toks ih => exact Nat.le_trans (Nat.le_add_right p tok.size) (ih h.2)

/-- The cells of two lists of tokens. -/
lemma covers_append {text : List α} {toks toks' : List (LzToken α)} {p q r : ℕ}
    (h : Covers text p toks q) (h' : Covers text q toks' r) :
    Covers text p (toks ++ toks') r := by
  induction toks generalizing p with
  | nil =>
    cases h
    exact h'
  | cons tok toks ih => exact ⟨h.1, ih h.2⟩

/-- The cells of one more token. -/
lemma covers_snoc {text : List α} {toks : List (LzToken α)} {tok : LzToken α} {p q : ℕ}
    (h : Covers text p toks q) (htok : tok.Covers text q) :
    Covers text p (toks ++ [tok]) (q + tok.size) :=
  covers_append h ⟨htok, rfl⟩

/-- A token that is appended to the cells in front of it adds those it covers. -/
lemma LzToken.append_of_covers {text : List α} {tok : LzToken α} {p : ℕ} (h : tok.Covers text p) :
    tok.append (text.take p) = text.take (p + tok.size) := by
  cases tok with
  | literals cells =>
    have hcells : (text.drop p).take cells.length = cells := h
    change text.take p ++ cells = text.take (p + cells.length)
    rw [List.take_add, hcells]
  | back dist len =>
    obtain ⟨hdist, hp, hlen, hsame⟩ := h
    exact copyBack_take hdist hp hlen hsame

/-! ### Copies in a block -/

/-- `n` cells are copied from `ref` on to `op` on, one after the other. -/
def copyCells (buf : List α) (op ref : ℕ) : ℕ → Except Fault (List α)
  | 0 => .ok buf
  | n + 1 => do
    let x ← byteAt buf ref
    let buf ← writeAt buf op [x]
    copyCells buf (op + 1) (ref + 1) n

/-- A copy to the end of what is there is a back reference. -/
lemma copyCells_spec {dist : ℕ} (hdist : 1 ≤ dist) {n : ℕ} {out room rest : List α}
    (hout : dist ≤ out.length) (hroom : room.length = n) :
    copyCells (out ++ (room ++ rest)) out.length (out.length - dist) n =
      .ok (copyBack dist n out ++ rest) := by
  induction n generalizing out room with
  | zero =>
    rw [List.length_eq_zero_iff.mp hroom]
    rfl
  | succ n ih =>
    cases room with
    | nil => cases hroom
    | cons c room =>
      have hlt : out.length - dist < out.length := by omega
      have hread : byteAt (out ++ (c :: room ++ rest)) (out.length - dist) =
          .ok (out.get ⟨out.length - dist, hlt⟩) := by
        rw [byteAt, List.getElem?_append_left hlt, List.getElem?_eq_getElem hlt]
        rfl
      have hlonger : dist ≤ (out ++ [out.get ⟨out.length - dist, hlt⟩]).length := by
        rw [List.length_append]
        omega
      have hstep := ih hlonger (Nat.succ.inj hroom)
      rw [List.length_append, List.length_singleton, List.append_assoc, List.singleton_append]
        at hstep
      rw [copyCells, hread, ok_bind, List.cons_append, writeAt_cell rfl rfl, ok_bind,
        show out.length - dist + 1 = out.length + 1 - dist by omega, hstep, copyBack,
        List.getElem?_eq_getElem hlt]
      rfl

/-- A run of one cell is a back reference to the last cell. -/
lemma copyBack_one (out : List α) (x : α) (n : ℕ) :
    copyBack 1 n (out ++ [x]) = out ++ [x] ++ List.replicate n x := by
  induction n generalizing out with
  | zero => simp [copyBack]
  | succ n ih =>
    have hlast : (out ++ [x])[(out ++ [x]).length - 1]? = some x := by simp
    rw [copyBack, hlast]
    dsimp only
    rw [ih, List.replicate_succ, List.append_assoc (out ++ [x]), List.singleton_append]

end Buffers
