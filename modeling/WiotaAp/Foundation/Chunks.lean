import Mathlib

/-!
# Cutting a list into chunks

`chunks n fuel l` cuts pieces of `n` elements off the front of `l`, the last one shorter, as long as
there are elements and rounds.  A list of positive length needs no more rounds than it has elements.
-/

namespace Buffers

variable {α : Type*}

/-- The chunks that at most `fuel` rounds cut off. -/
def chunks (n : ℕ) : ℕ → List α → List (List α)
  | 0, _ => []
  | fuel + 1, l => if l.length > 0 then l.take n :: chunks n fuel (l.drop n) else []

/-- The first chunk of a list that is not empty. -/
lemma exists_chunks_eq_cons {n fuel : ℕ} {l : List α} (hl : 0 < l.length)
    (hfuel : l.length ≤ fuel) : ∃ rest, chunks n fuel l = l.take n :: rest := by
  cases fuel with
  | zero => omega
  | succ fuel => exact ⟨_, if_pos hl⟩

/-- A list that is not longer than a chunk. -/
lemma chunks_of_le {n fuel : ℕ} {l : List α} (hl : 0 < l.length) (hn : l.length ≤ n) :
    chunks n (fuel + 1) l = [l] := by
  have hrest : chunks n fuel ([] : List α) = [] := by
    cases fuel with
    | zero => rfl
    | succ fuel => exact if_neg (Nat.lt_irrefl 0)
  rw [chunks, if_pos hl, List.take_of_length_le hn, List.drop_of_length_le hn, hrest]

/-- The first chunk of a longer list, and the others. -/
lemma chunks_of_lt {n fuel : ℕ} {l : List α} (hn : n < l.length) :
    chunks n (fuel + 1) l = l.take n :: chunks n fuel (l.drop n) :=
  if_pos (Nat.zero_lt_of_lt hn)

/-- No chunk is longer than asked for. -/
lemma length_le_of_mem_chunks {n fuel : ℕ} {l c : List α} (hc : c ∈ chunks n fuel l) :
    c.length ≤ n := by
  induction fuel generalizing l with
  | zero => cases hc
  | succ fuel ih =>
    rw [chunks] at hc
    split at hc
    · rcases List.mem_cons.mp hc with rfl | hc
      · exact List.length_take_le n l
      · exact ih hc
    · cases hc

/-- The number of chunks is the length divided by that of a chunk, rounded up. -/
lemma length_chunks {n : ℕ} (hn : 0 < n) {fuel : ℕ} {l : List α} (hfuel : l.length ≤ fuel) :
    (chunks n fuel l).length = (l.length + n - 1) / n := by
  induction fuel generalizing l with
  | zero =>
    have hzero : l.length = 0 := Nat.le_zero.mp hfuel
    rw [chunks, hzero, Nat.zero_add, Nat.div_eq_of_lt (Nat.sub_lt hn Nat.one_pos)]
    rfl
  | succ fuel ih =>
    rw [chunks]
    split
    · rename_i hpos
      have hdrop : (l.drop n).length ≤ fuel := by
        rw [List.length_drop]
        omega
      rw [List.length_cons, ih hdrop, List.length_drop]
      rcases Nat.le_total n l.length with hle | hle
      · have hsum : l.length + n - 1 = (l.length - n + n - 1) + n := by omega
        rw [hsum, Nat.add_div_right _ hn]
      · have hrest : l.length - n + n - 1 = n - 1 := by omega
        have hsum : l.length + n - 1 = (l.length - 1) + n := by omega
        rw [hrest, hsum, Nat.add_div_right _ hn, Nat.div_eq_of_lt (by omega),
          Nat.div_eq_of_lt (by omega)]
    · rename_i hzero
      have hlen : l.length = 0 := Nat.eq_zero_of_not_pos hzero
      rw [hlen, Nat.zero_add, Nat.div_eq_of_lt (Nat.sub_lt hn Nat.one_pos)]
      rfl

/-! ### What is made of the chunks -/

variable {β γ : Type*}

/-- Mapping what is made of numbered elements. -/
lemma map_mapIdx (g : β → γ) (f : ℕ → α → β) (l : List α) :
    (l.mapIdx f).map g = l.mapIdx fun k a => g (f k a) := by
  rw [List.mapIdx_eq_zipIdx_map, List.mapIdx_eq_zipIdx_map, List.map_map]
  rfl

/-- Putting together what is made of numbered elements, one thing of each. -/
lemma flatten_mapIdx_singleton (f : ℕ → α → β) (l : List α) :
    (l.mapIdx fun k a => [f k a]).flatten = l.mapIdx f := by
  rw [List.mapIdx_eq_zipIdx_map, List.mapIdx_eq_zipIdx_map]
  exact (List.map_eq_flatMap.trans List.flatMap_def).symm

end Buffers
