import Mathlib.Data.List.Sort

/-!
# Sorting by insertion, stably

Inserting an element in front of the first one with a greater key is `List.orderedInsert` for the
strict order of the keys.  Inserting the elements of a list one after the other in this way sorts it
stably: `StableSort key l sorted` says that `sorted` has the elements of `l` in ascending order,
those with equal keys in the order of `l`.
-/

namespace Buffers

variable {α : Type} (key : α → ℤ)

/-- Insertion in front of the first element with a greater key, at the end if there is none. -/
def insertStable (a : α) (l : List α) : List α :=
  l.orderedInsert (fun a b => key a < key b) a

/-- `sorted` is `l` in ascending order, with equal keys in the order of `l`. -/
structure StableSort (l sorted : List α) : Prop where
  perm : sorted.Perm l
  ascending : sorted.Pairwise fun a b => key a ≤ key b
  stable : ∀ k, (sorted.filter fun a => key a = k) = l.filter fun a => key a = k

variable {key}

lemma insertStable_perm (a : α) (l : List α) : (insertStable key a l).Perm (a :: l) :=
  List.perm_orderedInsert _ a l

lemma insertStable_cons (a b : α) (l : List α) :
    insertStable key a (b :: l) =
      if key a < key b then a :: b :: l else b :: insertStable key a l :=
  rfl

lemma insertStable_ascending (a : α) {l : List α} (h : l.Pairwise fun a b => key a ≤ key b) :
    (insertStable key a l).Pairwise fun a b => key a ≤ key b := by
  induction l with
  | nil => exact List.pairwise_singleton _ a
  | cons b l ih =>
    obtain ⟨hb, hl⟩ := List.pairwise_cons.mp h
    rw [insertStable_cons]
    split
    · rename_i hlt
      refine List.pairwise_cons.mpr ⟨fun c hc => ?_, h⟩
      rcases List.mem_cons.mp hc with rfl | hc
      · exact hlt.le
      · exact hlt.le.trans (hb c hc)
    · rename_i hle
      refine List.pairwise_cons.mpr ⟨fun c hc => ?_, ih hl⟩
      rcases List.mem_cons.mp ((insertStable_perm a l).mem_iff.mp hc) with rfl | hc
      · exact not_lt.mp hle
      · exact hb c hc

/-- Among the elements with its key, a new one comes last. -/
lemma filter_insertStable (a : α) {l : List α} (h : l.Pairwise fun a b => key a ≤ key b) (k : ℤ) :
    ((insertStable key a l).filter fun b => key b = k) =
      (l ++ [a]).filter fun b => key b = k := by
  induction l with
  | nil => rfl
  | cons b l ih =>
    obtain ⟨hb, hl⟩ := List.pairwise_cons.mp h
    rw [insertStable_cons]
    split
    · rename_i hlt
      -- no element behind the new one has its key
      by_cases hk : key a = k
      · have hnone : (b :: l).filter (fun b => key b = k) = [] := by
          refine List.filter_eq_nil_iff.mpr fun c hc => ?_
          rcases List.mem_cons.mp hc with rfl | hc
          · simp
            omega
          · have := hb c hc
            simp
            omega
        rw [List.filter_append, hnone, List.filter_cons_of_pos (by simpa using hk), hnone]
        simp [hk]
      · rw [List.filter_append, List.filter_cons_of_neg (by simpa using hk)]
        simp [hk]
    · rw [List.cons_append, List.filter_cons, List.filter_cons, ih hl]

/-- The empty list is sorted. -/
lemma stableSort_nil : StableSort key ([] : List α) [] :=
  ⟨List.Perm.refl _, List.Pairwise.nil, fun _ => rfl⟩

/-- One more element. -/
theorem StableSort.insert {l sorted : List α} (h : StableSort key l sorted) (a : α) :
    StableSort key (l ++ [a]) (insertStable key a sorted) := by
  refine ⟨?_, insertStable_ascending a h.ascending, fun k => ?_⟩
  · refine (insertStable_perm a sorted).trans ((h.perm.cons a).trans ?_)
    exact (List.perm_append_singleton a l).symm
  · rw [filter_insertStable a h.ascending, List.filter_append, List.filter_append, h.stable k]

/-- The first element of the sorted list is the first one with the least key. -/
theorem StableSort.head {l rest : List α} {a : α} (h : StableSort key l (a :: rest)) :
    (∀ b ∈ l, key a ≤ key b) ∧
      ∃ pre post, l = pre ++ a :: post ∧ ∀ b ∈ pre, key a < key b := by
  have hmin : ∀ b ∈ l, key a ≤ key b := by
    intro b hb
    rcases List.mem_cons.mp (h.perm.mem_iff.mpr hb) with rfl | hb
    · exact le_rfl
    · exact (List.pairwise_cons.mp h.ascending).1 b hb
  refine ⟨hmin, ?_⟩
  have hfilter := h.stable (key a)
  rw [List.filter_cons_of_pos (by simp)] at hfilter
  obtain ⟨pre, post, rfl, hpre, -, -⟩ := List.filter_eq_cons_iff.mp hfilter.symm
  refine ⟨pre, post, rfl, fun b hb => ?_⟩
  have hne := hpre b hb
  have hle := hmin b (List.mem_append_left _ hb)
  simp only [decide_eq_true_eq] at hne
  exact lt_of_le_of_ne hle fun heq => hne heq.symm

end Buffers
