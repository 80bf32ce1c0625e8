import WiotaAp.Foundation.Slice

/-!
# Loops that may leave, go on or fault

`loop body n s` runs at most `n` rounds of `body` from the state `s`.  A round faults, leaves the
loop with a result (`Sum.inr`) or goes on in a new state (`Sum.inl`).  A loop that has used up its
rounds is still `running`; a loop terminates when some number of rounds is enough.
-/

namespace Buffers

variable {σ β : Type}

/-- What a bounded number of rounds of a loop has come to. -/
inductive Run (β : Type)
  | running
  | faulted (f : Fault)
  | done (b : β)
  deriving DecidableEq, Repr

/-- What is done with the result of a loop. -/
def Run.map {γ : Type} (f : β → γ) : Run β → Run γ
  | .running => .running
  | .faulted e => .faulted e
  | .done b => .done (f b)

/-- A step without a loop. -/
def Run.ofExcept : Except Fault β → Run β
  | .error e => .faulted e
  | .ok b => .done b

/-- What is run behind the result of a loop. -/
def Run.bind {γ : Type} : Run β → (β → Run γ) → Run γ
  | .running, _ => .running
  | .faulted e, _ => .faulted e
  | .done b, f => f b

instance : Monad Run where
  pure := .done
  bind := Run.bind

@[simp] lemma Run.done_bind {γ : Type} (b : β) (f : β → Run γ) : (Run.done b >>= f) = f b := rfl

instance : MonadLift (Except Fault) Run where
  monadLift := Run.ofExcept

@[simp] lemma Run.lift_ok (b : β) : (liftM (Except.ok b : Except Fault β) : Run β) = .done b := rfl

@[simp] lemma Run.pure_eq_done (b : β) : (pure b : Run β) = .done b := rfl

/-- The loops of a computation terminate with the result `b`: every large enough number of rounds
leads to it. -/
def Terminates (run : ℕ → Run β) (b : β) : Prop :=
  ∃ n, ∀ fuel ≥ n, run fuel = .done b

/-- Run at most `n` rounds of `body`. -/
def loop (body : σ → Except Fault (σ ⊕ β)) : ℕ → σ → Run β
  | 0, _ => .running
  | n + 1, s =>
    match body s with
    | .error f => .faulted f
    | .ok (.inr b) => .done b
    | .ok (.inl s') => loop body n s'

variable {body : σ → Except Fault (σ ⊕ β)}

/-- A round that leaves ends the loop. -/
lemma loop_of_exit {s : σ} {b : β} (h : body s = .ok (.inr b)) (n : ℕ) :
    loop body (n + 1) s = .done b := by
  simp [loop, h]

/-- A round that goes on hands over to the remaining rounds. -/
lemma loop_of_next {s s' : σ} (h : body s = .ok (.inl s')) (n : ℕ) :
    loop body (n + 1) s = loop body n s' := by
  simp [loop, h]

/-- A round that faults ends the loop. -/
lemma loop_of_fault {s : σ} {f : Fault} (h : body s = .error f) (n : ℕ) :
    loop body (n + 1) s = .faulted f := by
  simp [loop, h]

/-- A loop that has terminated is not changed by more rounds. -/
lemma loop_add_of_done {n : ℕ} {s : σ} {b : β} (h : loop body n s = .done b) (k : ℕ) :
    loop body (n + k) s = .done b := by
  induction n generalizing s with
  | zero => simp [loop] at h
  | succ n ih =>
    rw [Nat.succ_add]
    simp only [loop] at h ⊢
    split at h
    · cases h
    · exact h
    · exact ih h

/-- A computation has the result `b` with every fuel from `n` on. -/
def Settles (run : ℕ → Run β) (n : ℕ) (b : β) : Prop :=
  ∀ fuel ≥ n, run fuel = .done b

/-- A computation that takes one step of fuel for itself. -/
lemma Settles.succ {run : ℕ → Run β} {n : ℕ} {b : β} (h : ∀ m ≥ n, run (m + 1) = .done b) :
    Settles run (n + 1) b := by
  intro fuel hfuel
  obtain ⟨m, rfl⟩ := Nat.exists_eq_add_of_le' (Nat.le_trans (Nat.le_add_left 1 n) hfuel)
  exact h m (Nat.le_of_succ_le_succ hfuel)

lemma Settles.terminates {run : ℕ → Run β} {n : ℕ} {b : β} (h : Settles run n b) :
    Terminates run b :=
  ⟨n, h⟩

/-- A loop whose rounds keep an invariant and bring a measure down ends, with a bound for the number
of its rounds. -/
theorem loop_settles {Inv : σ → Prop} {Post : β → Prop} (μ : σ → ℕ)
    (hround : ∀ s, Inv s → (∃ b, body s = .ok (.inr b) ∧ Post b) ∨
      ∃ s', body s = .ok (.inl s') ∧ Inv s' ∧ μ s' < μ s) {s : σ} (h : Inv s) :
    ∃ b, Settles (fun fuel => loop body fuel s) (μ s + 1) b ∧ Post b := by
  induction hμ : μ s using Nat.strong_induction_on generalizing s with
  | _ m ih =>
    rcases hround s h with ⟨b, hbody, hpost⟩ | ⟨s', hbody, hinv, hlt⟩
    · exact ⟨b, .succ fun n _ => loop_of_exit hbody n, hpost⟩
    · obtain ⟨b, hsettles, hpost⟩ := ih (μ s') (hμ ▸ hlt) hinv rfl
      refine ⟨b, .succ fun n hn => ?_, hpost⟩
      exact (loop_of_next hbody n).trans (hsettles n (by omega))

/-- A computation that faults with enough fuel does not terminate. -/
lemma not_terminates_of_faulted {run : ℕ → Run β} {f : Fault} {b : β} {n : ℕ}
    (h : ∀ fuel ≥ n, run fuel = .faulted f) : ¬ Terminates run b := by
  rintro ⟨m, hm⟩
  have hdone := hm (n + m) (Nat.le_add_left m n)
  rw [h (n + m) (Nat.le_add_right n m)] at hdone
  cases hdone

/-- Passes of a loop one after the other.  `P i n s` is what is known of the state behind `i` passes
that have taken `n` rounds. -/
theorem loop_passes {P : ℕ → ℕ → σ → Prop} {k : ℕ}
    (hpass : ∀ i < k, ∀ n s, P i n s →
      ∃ m s', (∀ fuel, loop body (fuel + m) s = loop body fuel s') ∧ P (i + 1) (n + m) s')
    {s : σ} (h : P 0 0 s) :
    ∃ n s', (∀ fuel, loop body (fuel + n) s = loop body fuel s') ∧ P k n s' := by
  induction k with
  | zero => exact ⟨0, s, fun _ => rfl, h⟩
  | succ k ih =>
    obtain ⟨n, s₁, hloop₁, h₁⟩ := ih fun i hi => hpass i (Nat.lt_succ_of_lt hi)
    obtain ⟨m, s₂, hloop₂, h₂⟩ := hpass k (Nat.lt_succ_self k) n s₁ h₁
    refine ⟨n + m, s₂, ?_, h₂⟩
    intro fuel
    rw [Nat.add_comm n m, ← Nat.add_assoc, hloop₁, hloop₂]

/-- Induction over a loop that terminates: a relation between a state and the result of the loop
from there holds if it holds where the loop leaves and is carried backwards over every round. -/
theorem loop_rec {P : σ → β → Prop} (hexit : ∀ s b, body s = .ok (.inr b) → P s b)
    (hnext : ∀ s s' b, body s = .ok (.inl s') → P s' b → P s b) {n : ℕ} {s : σ} {b : β}
    (h : loop body n s = .done b) : P s b := by
  induction n generalizing s with
  | zero => simp [loop] at h
  | succ n ih =>
    cases hbody : body s with
    | error f =>
      rw [loop_of_fault hbody] at h
      cases h
    | ok r =>
      cases r with
      | inl s' =>
        rw [loop_of_next hbody] at h
        exact hnext s s' b hbody (ih h)
      | inr b' =>
        rw [loop_of_exit hbody] at h
        cases h
        exact hexit s b hbody

end Buffers
