import WiotaAp.Foundation.Slice
import Mathlib.Data.Option.NAry

/-!
# Writers that append

A `Writer` is a step that writes to an output of limited size: it faults, gives up (`none`) or goes
on in a new state.  `Writes out sure P Q w text` says that from a state with `P` the writer `w`
never faults, and that it either appends `text` and leaves a state with `Q`, or gives up.  If it is
`sure` that memory can be had, it gives up only when the text and a margin have no room.  A text
that does not exist (`none`) is one that `w` always gives up on.

The rules for sequences (`Writes.seq`) are all that is used of a writer that is made of others.
-/

namespace Buffers

variable {σ α : Type}

/-- A step that writes, or gives up. -/
abbrev Writer (σ : Type) : Type := σ → Except Fault (Option σ)

/-- Two steps, the second one if the first has not given up. -/
def Writer.seq (w v : Writer σ) : Writer σ := fun s => do
  let r ← w s
  match r with
  | none => return none
  | some s => v s

/-- Nothing is written. -/
def Writer.skip : Writer σ := fun s => .ok (some s)

lemma Writer.seq_of_some {w : Writer σ} {s s' : σ} (h : w s = .ok (some s')) (v : Writer σ) :
    w.seq v s = v s' := by
  rw [seq, h]
  rfl

lemma Writer.seq_of_none {w : Writer σ} {s : σ} (h : w s = .ok none) (v : Writer σ) :
    w.seq v s = .ok none := by
  rw [seq, h]
  rfl

lemma Writer.seq_assoc (w v u : Writer σ) : (w.seq v).seq u = w.seq (v.seq u) := by
  funext s
  simp only [seq]
  cases w s with
  | error e => rfl
  | ok r => cases r <;> rfl

/-- What has been written in a state, how much has room there, and the margin that a writer may ask
for. -/
structure Output (σ α : Type) where
  written : σ → List α
  capacity : σ → ℕ
  margin : ℕ

/-- A writer appends a text or gives up. -/
def Writes (out : Output σ α) (sure : Prop) (P Q : σ → Prop) (w : Writer σ)
    (text : Option (List α)) : Prop :=
  ∀ s, P s → ∃ r, w s = .ok r ∧
    (∀ s', r = some s' → Q s' ∧ out.capacity s' = out.capacity s ∧
      ∃ t, text = some t ∧ out.written s' = out.written s ++ t) ∧
    (sure → r = none → ∀ t, text = some t →
      out.capacity s < (out.written s).length + t.length + out.margin)

variable {out : Output σ α} {sure : Prop} {P Q R : σ → Prop} {w v : Writer σ}
  {text text' : Option (List α)}

/-- More may be known of the state in front, and less of that behind. -/
lemma Writes.mono {P' Q' : σ → Prop} (h : Writes out sure P Q w text) (hP : ∀ s, P' s → P s)
    (hQ : ∀ s, Q s → Q' s) : Writes out sure P' Q' w text := by
  intro s hs
  obtain ⟨r, hr, hsome, hnone⟩ := h s (hP s hs)
  refine ⟨r, hr, ?_, hnone⟩
  intro s' hs'
  exact ⟨hQ s' (hsome s' hs').1, (hsome s' hs').2⟩

/-- Another way to write the writer and the text. -/
lemma Writes.congr (h : Writes out sure P Q w text) (hw : ∀ s, P s → v s = w s)
    (htext : text' = text) : Writes out sure P Q v text' := by
  intro s hs
  rw [hw s hs, htext]
  exact h s hs

/-- Nothing is appended. -/
lemma Writes.skip : Writes out sure P P .skip (some []) := by
  intro s hs
  refine ⟨some s, rfl, ?_, fun _ hnone => nomatch hnone⟩
  rintro s' ⟨⟩
  exact ⟨hs, rfl, [], rfl, (List.append_nil _).symm⟩

/-- A writer that always gives up. -/
lemma Writes.fail (h : ∀ s, P s → w s = .ok none) : Writes out sure P Q w none := by
  intro s hs
  exact ⟨none, h s hs, nofun, nofun⟩

/-- One text behind the other. -/
theorem Writes.seq (hw : Writes out sure P Q w text) (hv : Writes out sure Q R v text') :
    Writes out sure P R (w.seq v) (Option.map₂ (· ++ ·) text text') := by
  intro s hs
  obtain ⟨r, hr, hsome, hnone⟩ := hw s hs
  cases r with
  | none =>
    refine ⟨none, Writer.seq_of_none hr v, nofun, ?_⟩
    intro hsure _ t ht
    obtain ⟨a, b, ha, hb, rfl⟩ := Option.mem_map₂_iff.mp ht
    have := hnone hsure rfl a ha
    rw [List.length_append]
    omega
  | some s₁ =>
    obtain ⟨hQ, hcap, a, rfl, hwritten⟩ := hsome s₁ rfl
    obtain ⟨r', hr', hsome', hnone'⟩ := hv s₁ hQ
    refine ⟨r', (Writer.seq_of_some hr v).trans hr', ?_, ?_⟩
    · intro s₂ hs₂
      obtain ⟨hR, hcap', b, rfl, hwritten'⟩ := hsome' s₂ hs₂
      refine ⟨hR, hcap'.trans hcap, a ++ b, rfl, ?_⟩
      rw [hwritten', hwritten, List.append_assoc]
    · intro hsure hnone₂ t ht
      obtain ⟨a', b, ha', hb, rfl⟩ := Option.mem_map₂_iff.mp ht
      cases ha'
      have := hnone' hsure hnone₂ b hb
      rw [hwritten, List.length_append, hcap] at this
      rw [List.length_append]
      omega

end Buffers
