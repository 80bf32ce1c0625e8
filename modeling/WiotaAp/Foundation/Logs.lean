import Mathlib

/-!
# Logs with keys

A log is a list of entries, each with a key.  `entriesOf log key` is what the log has for one key,
in order.  One more entry is the last one for its key, and changes nothing for the others.
-/

namespace Buffers

variable {κ β : Type*} [DecidableEq κ]

/-- What a log has for one key. -/
def entriesOf (log : List (κ × β)) (key : κ) : List β :=
  (log.filter fun entry => entry.1 = key).map Prod.snd

/-- An entry is there for its key. -/
lemma mem_entriesOf {log : List (κ × β)} {entry : κ × β} (h : entry ∈ log) :
    entry.2 ∈ entriesOf log entry.1 :=
  List.mem_map_of_mem (List.mem_filter.mpr ⟨h, decide_eq_true rfl⟩)

/-- There is nothing for a key that no entry has. -/
lemma entriesOf_eq_nil {log : List (κ × β)} {key : κ} (h : ∀ entry ∈ log, entry.1 ≠ key) :
    entriesOf log key = [] := by
  unfold entriesOf
  rw [List.filter_eq_nil_iff.mpr, List.map_nil]
  intro entry hentry
  simpa using h entry hentry

/-- What two logs have for one key, one after the other. -/
lemma entriesOf_append (log log' : List (κ × β)) (key : κ) :
    entriesOf (log ++ log') key = entriesOf log key ++ entriesOf log' key := by
  unfold entriesOf
  rw [List.filter_append, List.map_append]

/-- More entries for the key. -/
lemma entriesOf_append_self (log : List (κ × β)) (key : κ) (l : List β) :
    entriesOf (log ++ l.map (Prod.mk key)) key = entriesOf log key ++ l := by
  have hself : entriesOf (l.map (Prod.mk key)) key = l := by
    unfold entriesOf
    rw [List.filter_eq_self.mpr, List.map_map]
    · exact List.map_id l
    · intro entry hentry
      obtain ⟨b, -, rfl⟩ := List.mem_map.mp hentry
      exact decide_eq_true rfl
  rw [entriesOf_append, hself]

/-- More entries for another key. -/
lemma entriesOf_append_of_ne (log : List (κ × β)) {key key' : κ} (hne : key' ≠ key) (l : List β) :
    entriesOf (log ++ l.map (Prod.mk key)) key' = entriesOf log key' := by
  have hnil : entriesOf (l.map (Prod.mk key)) key' = [] := by
    refine entriesOf_eq_nil fun entry hentry => ?_
    obtain ⟨b, -, rfl⟩ := List.mem_map.mp hentry
    exact hne.symm
  rw [entriesOf_append, hnil, List.append_nil]

/-- One more entry for the key. -/
lemma entriesOf_snoc_self (log : List (κ × β)) (key : κ) (b : β) :
    entriesOf (log ++ [(key, b)]) key = entriesOf log key ++ [b] :=
  entriesOf_append_self log key [b]

/-- One more entry for another key. -/
lemma entriesOf_snoc_of_ne (log : List (κ × β)) {key key' : κ} (hne : key' ≠ key) (b : β) :
    entriesOf (log ++ [(key, b)]) key' = entriesOf log key' :=
  entriesOf_append_of_ne log hne [b]

end Buffers
