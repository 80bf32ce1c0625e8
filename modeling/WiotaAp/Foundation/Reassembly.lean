import Mathlib

/-!
# Reassembly of messages from their parts

Messages are cut into parts that arrive in any order.  A table holds the parts of every message that
has been opened by a part of it, and closes the message when it is whole.  An arrival may bring a
part without any content, which opens the message but is not kept.

As long as no message gets a part after it has been whole, the table holds what has been received:
`InTime.arriveAll_eq`.
-/

namespace Reassembly

variable {ι κ : Type} [DecidableEq ι] [DecidableEq κ]

/-- The arrival of a part of a message; `kept` tells whether it has any content. -/
structure Arrival (ι κ : Type) where
  msg : ι
  part : κ
  kept : Bool
  deriving DecidableEq

/-- The parts of the messages that are open. -/
def Table (ι κ : Type) : Type :=
  ι → Option (Finset κ)

namespace Table

/-- The table without any open message. -/
def empty : Table ι κ :=
  fun _ => none

/-- The parts held of a message. -/
def parts (t : Table ι κ) (i : ι) : Finset κ :=
  (t i).getD ∅

/-- The parts held of the message of an arrival, together with what arrives. -/
def partsWith (t : Table ι κ) (a : Arrival ι κ) : Finset κ :=
  if a.kept then insert a.part (t.parts a.msg) else t.parts a.msg

/-- The table after an arrival. -/
def arrive (whole : ι → Finset κ) (t : Table ι κ) (a : Arrival ι κ) : Table ι κ :=
  Function.update t a.msg (if t.partsWith a = whole a.msg then none else some (t.partsWith a))

variable {whole : ι → Finset κ} {t : Table ι κ} {a : Arrival ι κ}

/-- The message of the arrival afterwards. -/
lemma arrive_self :
    t.arrive whole a a.msg =
      if t.partsWith a = whole a.msg then none else some (t.partsWith a) :=
  Function.update_self _ _ _

/-- The other messages are left alone. -/
lemma arrive_of_ne {j : ι} (h : j ≠ a.msg) : t.arrive whole a j = t j :=
  Function.update_of_ne h _ _

/-- The parts of the other messages are left alone. -/
lemma parts_arrive_of_ne {j : ι} (h : j ≠ a.msg) : (t.arrive whole a).parts j = t.parts j := by
  unfold parts
  rw [arrive_of_ne h]

end Table

/-- The table after a list of arrivals. -/
def arriveAll (whole : ι → Finset κ) (history : List (Arrival ι κ)) : Table ι κ :=
  history.foldl (Table.arrive whole) Table.empty

/-- The table after one more arrival. -/
lemma arriveAll_snoc (whole : ι → Finset κ) (history : List (Arrival ι κ)) (a : Arrival ι κ) :
    arriveAll whole (history ++ [a]) = (arriveAll whole history).arrive whole a := by
  unfold arriveAll
  rw [List.foldl_append]
  rfl

/-- What holds of an empty table, and is kept by every arrival, holds of every open message. -/
theorem arriveAll_invariant {whole : ι → Finset κ} {P : ι → Finset κ → Prop}
    {history : List (Arrival ι κ)} (hempty : ∀ i, P i ∅)
    (hinsert : ∀ a ∈ history, a.kept = true → ∀ S, P a.msg S → P a.msg (insert a.part S)) (i : ι) :
    P i ((arriveAll whole history).parts i) := by
  induction history using List.reverseRecOn generalizing i with
  | nil => exact hempty i
  | append_singleton history a ih =>
    have hprev := ih fun b hb => hinsert b (List.mem_append_left _ hb)
    rw [arriveAll_snoc]
    by_cases hi : i = a.msg
    · subst hi
      unfold Table.parts
      rw [Table.arrive_self]
      by_cases hwhole : (arriveAll whole history).partsWith a = whole a.msg
      · rw [if_pos hwhole]
        exact hempty a.msg
      · rw [if_neg hwhole, Option.getD_some]
        unfold Table.partsWith
        by_cases hkept : a.kept = true
        · rw [if_pos hkept]
          exact hinsert a (by simp) hkept _ (hprev a.msg)
        · rw [if_neg hkept]
          exact hprev a.msg
    · rw [Table.parts_arrive_of_ne hi]
      exact hprev i

/-! ### What has been received -/

/-- The parts of a message that have arrived. -/
def received (history : List (Arrival ι κ)) (i : ι) : Finset κ :=
  ((history.filter fun a => a.msg = i ∧ a.kept = true).map Arrival.part).toFinset

/-- What has been received of the message of an arrival. -/
lemma received_snoc_self (history : List (Arrival ι κ)) (a : Arrival ι κ) :
    received (history ++ [a]) a.msg =
      if a.kept then insert a.part (received history a.msg) else received history a.msg := by
  unfold received
  by_cases hkept : a.kept = true
  · rw [if_pos hkept, List.filter_append, List.map_append, List.toFinset_append,
      List.filter_cons_of_pos (by simp [hkept]), Finset.union_comm]
    rfl
  · rw [if_neg hkept, List.filter_append, List.filter_cons_of_neg (by simp [hkept]),
      List.filter_nil, List.append_nil]

/-- What has been received of the other messages. -/
lemma received_snoc_of_ne (history : List (Arrival ι κ)) {a : Arrival ι κ} {j : ι}
    (h : j ≠ a.msg) : received (history ++ [a]) j = received history j := by
  unfold received
  rw [List.filter_append, List.filter_cons_of_neg (by simp [h.symm]), List.filter_nil,
    List.append_nil]

/-- No message gets a part after it has been whole. -/
inductive InTime (whole : ι → Finset κ) : List (Arrival ι κ) → Prop
  | nil : InTime whole []
  | snoc {history : List (Arrival ι κ)} {a : Arrival ι κ} (h : InTime whole history)
      (hne : received history a.msg ≠ whole a.msg) : InTime whole (history ++ [a])

/-- What is held of a message that is open or has not had any arrival. -/
lemma parts_eq_of_arriveAll_eq {whole : ι → Finset κ} {history : List (Arrival ι κ)} {i : ι}
    (h : arriveAll whole history i =
      if (∃ a ∈ history, a.msg = i) ∧ received history i ≠ whole i then some (received history i)
      else none)
    (hne : received history i ≠ whole i) :
    (arriveAll whole history).parts i = received history i := by
  unfold Table.parts
  rw [h]
  by_cases hex : ∃ a ∈ history, a.msg = i
  · rw [if_pos ⟨hex, hne⟩, Option.getD_some]
  · -- no part of the message has arrived
    have hnone : ∀ b ∈ history, ¬ b.msg = i := fun b hb heq => hex ⟨b, hb, heq⟩
    rw [if_neg fun hand => hex hand.1]
    unfold received
    rw [List.filter_eq_nil_iff.mpr fun b hb => by simp [hnone b hb]]
    rfl

/-- Without late arrivals, a message is open from its first arrival until it is whole, and the table
holds what has been received of it. -/
theorem InTime.arriveAll_eq {whole : ι → Finset κ} {history : List (Arrival ι κ)}
    (h : InTime whole history) (i : ι) :
    arriveAll whole history i =
      if (∃ a ∈ history, a.msg = i) ∧ received history i ≠ whole i then some (received history i)
      else none := by
  induction h generalizing i with
  | nil =>
    rw [if_neg]
    · rfl
    · rintro ⟨⟨a, ha, -⟩, -⟩
      cases ha
  | @snoc history a h hne ih =>
    rw [arriveAll_snoc]
    by_cases hi : i = a.msg
    · subst hi
      have hparts := parts_eq_of_arriveAll_eq (ih a.msg) hne
      have hwith : (arriveAll whole history).partsWith a = received (history ++ [a]) a.msg := by
        rw [received_snoc_self, Table.partsWith, hparts]
      have hex : ∃ b ∈ history ++ [a], b.msg = a.msg := ⟨a, by simp, rfl⟩
      rw [Table.arrive_self, hwith]
      by_cases hwhole : received (history ++ [a]) a.msg = whole a.msg
      · rw [if_pos hwhole, if_neg fun hand => hand.2 hwhole]
      · rw [if_neg hwhole, if_pos ⟨hex, hwhole⟩]
    · rw [Table.arrive_of_ne hi, ih, received_snoc_of_ne history hi]
      have hex : (∃ b ∈ history ++ [a], b.msg = i) ↔ ∃ b ∈ history, b.msg = i := by
        simp [Ne.symm hi]
      simp only [hex]

/-- Without late arrivals, an arrival adds to what has been received of its message. -/
theorem InTime.partsWith_eq {whole : ι → Finset κ} {history : List (Arrival ι κ)}
    (h : InTime whole history) {a : Arrival ι κ} (hne : received history a.msg ≠ whole a.msg) :
    (arriveAll whole history).partsWith a = received (history ++ [a]) a.msg := by
  rw [received_snoc_self, Table.partsWith, parts_eq_of_arriveAll_eq (h.arriveAll_eq a.msg) hne]

end Reassembly
