import Mathlib.Data.List.DropRight

/-!
# Fields between separators

`trim space l` is `l` without the blanks at both ends, and `fields space sep l` are the parts of `l`
between the separators, trimmed, without those that are empty.  A separator is no blank, so that the
fields of a list are those of the trimmed list (`fields_trim`).
-/

namespace Buffers

variable {α : Type} {space : α → Bool}

/-- Without the blanks at both ends. -/
def trim (space : α → Bool) (l : List α) : List α :=
  (l.dropWhile space).rdropWhile space

lemma trim_cons_of_space {c : α} (hc : space c = true) (l : List α) :
    trim space (c :: l) = trim space l := by
  rw [trim, List.dropWhile_cons_of_pos hc, trim]

lemma trim_append_of_space {c : α} (hc : space c = true) (l : List α) :
    trim space (l ++ [c]) = trim space l := by
  rw [trim, List.dropWhile_append, List.dropWhile_cons_of_pos hc]
  split
  · rename_i hempty
    rw [trim, List.isEmpty_iff.mp hempty, List.dropWhile_nil]
  · rw [List.rdropWhile_concat_pos _ _ _ hc, trim]

variable [DecidableEq α] {sep : α}

/-- The trimmed parts between the separators that are not empty. -/
def fields (space : α → Bool) (sep : α) (l : List α) : List (List α) :=
  ((l.splitOn sep).map (trim space)).filter (· ≠ [])

/-- One more element behind a list lengthens its last part. -/
lemma exists_splitOn_append {c : α} (hc : c ≠ sep) (l : List α) :
    ∃ parts last, l.splitOn sep = parts ++ [last] ∧
      (l ++ [c]).splitOn sep = parts ++ [last ++ [c]] := by
  induction l with
  | nil =>
    refine ⟨[], [], List.splitOn_nil sep, ?_⟩
    simp [List.splitOn, List.splitOnP_cons_eq_if_modifyHead, hc]
  | cons x l ih =>
    obtain ⟨parts, last, hsplit, hsplit'⟩ := ih
    rw [List.splitOn] at hsplit hsplit'
    rw [List.cons_append, List.splitOn, List.splitOn, List.splitOnP_cons_eq_if_modifyHead,
      List.splitOnP_cons_eq_if_modifyHead, hsplit, hsplit']
    by_cases hx : x = sep
    · refine ⟨[] :: parts, last, ?_, ?_⟩
      · rw [if_pos (by simpa using hx), List.cons_append]
      · rw [if_pos (by simpa using hx), List.cons_append]
    · rw [if_neg (by simpa using hx), if_neg (by simpa using hx)]
      cases parts with
      | nil => exact ⟨[], x :: last, rfl, rfl⟩
      | cons part parts => exact ⟨(x :: part) :: parts, last, rfl, rfl⟩

/-- A blank in front of a list is not in a field. -/
lemma fields_cons_of_space {c : α} (hc : space c = true) (hsep : c ≠ sep) (l : List α) :
    fields space sep (c :: l) = fields space sep l := by
  rw [fields, List.splitOn, List.splitOnP_cons_eq_if_modifyHead, if_neg (by simpa using hsep),
    fields, List.splitOn]
  cases hsplit : l.splitOnP (· == sep) with
  | nil => exact absurd hsplit (List.splitOnP_ne_nil _ l)
  | cons part parts =>
    rw [List.modifyHead_cons, List.map_cons, trim_cons_of_space hc, List.map_cons]

/-- A blank behind a list is not in a field. -/
lemma fields_append_of_space {c : α} (hc : space c = true) (hsep : c ≠ sep) (l : List α) :
    fields space sep (l ++ [c]) = fields space sep l := by
  obtain ⟨parts, last, hsplit, hsplit'⟩ := exists_splitOn_append hsep l
  rw [fields, fields, hsplit, hsplit', List.map_append, List.map_append, List.map_singleton,
    List.map_singleton, trim_append_of_space hc]

/-- The fields are those of the trimmed list. -/
theorem fields_trim (hsep : space sep = false) (l : List α) :
    fields space sep (trim space l) = fields space sep l := by
  have hne : ∀ {c}, space c = true → c ≠ sep := by
    rintro c hc rfl
    rw [hsep] at hc
    cases hc
  have hleft : ∀ l : List α, fields space sep (l.dropWhile space) = fields space sep l := by
    intro l
    induction l with
    | nil => rfl
    | cons c l ih =>
      cases hc : space c with
      | true => rw [List.dropWhile_cons_of_pos hc, ih, fields_cons_of_space hc (hne hc)]
      | false => rw [List.dropWhile_cons_of_neg (by rw [hc]; exact Bool.false_ne_true)]
  have hright : ∀ l : List α, fields space sep (l.rdropWhile space) = fields space sep l := by
    intro l
    induction l using List.reverseRecOn with
    | nil => rfl
    | append_singleton l c ih =>
      cases hc : space c with
      | true => rw [List.rdropWhile_concat_pos _ _ _ hc, ih, fields_append_of_space hc (hne hc)]
      | false => rw [List.rdropWhile_concat_neg _ _ _ (by rw [hc]; exact Bool.false_ne_true)]
  rw [trim, hright, hleft]

end Buffers
