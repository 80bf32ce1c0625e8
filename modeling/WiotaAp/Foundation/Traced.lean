import Mathlib

/-!
# Computations with a trace

A `Traced ε α` has a value and the list of the events on the way to it.  It is a monad, so that a
program that reads and calls is written as it runs; `Traced.All` says that a property holds of all
its events, and the rules for it take a program apart step by step.
-/

namespace Buffers

/-- A value and the events on the way to it. -/
structure Traced (ε α : Type) where
  value : α
  events : List ε

namespace Traced

variable {ε α β : Type}

instance : Monad (Traced ε) where
  pure a := ⟨a, []⟩
  bind x f := ⟨(f x.value).value, x.events ++ (f x.value).events⟩

/-- One event. -/
def emit (e : ε) : Traced ε Unit :=
  ⟨(), [e]⟩

@[simp] lemma value_pure (a : α) : (pure a : Traced ε α).value = a := rfl

@[simp] lemma events_pure (a : α) : (pure a : Traced ε α).events = [] := rfl

@[simp] lemma events_emit (e : ε) : (emit e).events = [e] := rfl

@[simp] lemma value_bind (x : Traced ε α) (f : α → Traced ε β) :
    (x >>= f).value = (f x.value).value := rfl

@[simp] lemma events_bind (x : Traced ε α) (f : α → Traced ε β) :
    (x >>= f).events = x.events ++ (f x.value).events := rfl

/-- The property holds of every event. -/
def All (P : ε → Prop) (x : Traced ε α) : Prop :=
  ∀ e ∈ x.events, P e

/-- Without an event there is nothing to show. -/
@[simp] lemma all_pure (P : ε → Prop) (a : α) : All P (pure a : Traced ε α) :=
  fun _ he => absurd he List.not_mem_nil

/-- One event. -/
@[simp] lemma all_emit (P : ε → Prop) (e : ε) : All P (emit e) ↔ P e :=
  List.forall_mem_singleton

/-- One step behind the other. -/
@[simp] lemma all_bind (P : ε → Prop) (x : Traced ε α) (f : α → Traced ε β) :
    All P (x >>= f) ↔ All P x ∧ All P (f x.value) :=
  List.forall_mem_append

end Traced

end Buffers
