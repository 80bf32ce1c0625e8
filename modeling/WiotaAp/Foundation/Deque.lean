import Mathlib

/-!
# Histories of a deque

A deque takes elements at its back or its front, gives out the element at its front, and can be
cleared.  A history is the list of what has been done; `runDeque` is the content that it leads to,
if every element that was given out stood at the front.

`runDeque_fifo` is the order of a history without pushes at the front: what has been given out and
what is left are what has been put in, in the same order.
-/

namespace Buffers

variable {α : Type} [DecidableEq α]

/-- What can be done with a deque. -/
inductive DequeOp (α : Type)
  | pushBack (a : α)
  | pushFront (a : α)
  | popFront (a : α)
  | clear
  deriving DecidableEq, Repr

/-- The content after an operation; `popFront a` needs `a` at the front. -/
def DequeOp.apply : DequeOp α → List α → Option (List α)
  | .pushBack a, q => some (q ++ [a])
  | .pushFront a, q => some (a :: q)
  | .popFront _, [] => none
  | .popFront a, b :: q => if a = b then some q else none
  | .clear, _ => some []

/-- The content after a history. -/
def runDeque (ops : List (DequeOp α)) : Option (List α) :=
  ops.foldl (fun q op => q.bind op.apply) (some [])

/-- One more operation. -/
lemma runDeque_snoc {ops : List (DequeOp α)} {q : List α} (h : runDeque ops = some q)
    (op : DequeOp α) : runDeque (ops ++ [op]) = op.apply q := by
  rw [runDeque, List.foldl_append, ← runDeque, h]
  rfl

/-- What has been put in at the back. -/
def pushedBack : List (DequeOp α) → List α :=
  List.filterMap fun op => match op with
    | .pushBack a => some a
    | _ => none

/-- What has been given out. -/
def popped : List (DequeOp α) → List α :=
  List.filterMap fun op => match op with
    | .popFront a => some a
    | _ => none

/-- The operations of a queue: elements go in at the back. -/
def DequeOp.IsFifo : DequeOp α → Prop
  | .pushBack _ => True
  | .popFront _ => True
  | _ => False

/-- Nothing is lost, doubled or overtaken in a queue. -/
theorem runDeque_fifo {ops : List (DequeOp α)} (hfifo : ∀ op ∈ ops, op.IsFifo) {q : List α}
    (h : runDeque ops = some q) : popped ops ++ q = pushedBack ops := by
  induction ops using List.reverseRecOn generalizing q with
  | nil =>
    cases h
    rfl
  | append_singleton ops op ih =>
    have hfifo' : ∀ o ∈ ops, o.IsFifo := fun o ho => hfifo o (List.mem_append_left [op] ho)
    rw [runDeque, List.foldl_append, ← runDeque] at h
    obtain ⟨q₀, hq₀, hop⟩ := Option.bind_eq_some_iff.mp h
    have hprev := ih hfifo' hq₀
    rw [popped, pushedBack, List.filterMap_append, List.filterMap_append, ← popped, ← pushedBack,
      ← hprev]
    cases op with
    | pushBack a =>
      cases hop
      change popped ops ++ [] ++ (q₀ ++ [a]) = popped ops ++ q₀ ++ [a]
      rw [List.append_nil, List.append_assoc]
    | popFront a =>
      cases q₀ with
      | nil => cases hop
      | cons b q₀ =>
        rw [DequeOp.apply] at hop
        split at hop
        · cases hop
          rename_i hab
          change popped ops ++ [a] ++ q = popped ops ++ b :: q ++ []
          rw [hab, List.append_nil, List.append_assoc, List.singleton_append]
        · cases hop
    | pushFront a => exact (hfifo _ (List.mem_append_right ops (List.mem_singleton_self _))).elim
    | clear => exact (hfifo _ (List.mem_append_right ops (List.mem_singleton_self _))).elim

end Buffers
