import WiotaAp.Foundation.Loop

/-!
# Runs of a system that takes inputs

A system takes one input after the other with a step function that may fault.  `GuardedRun` are the
runs in which every input is admitted where it arrives: by the inputs before it and by the state
they have led to.  `runInputs_invariant` and `GuardedRun.invariant` are the induction rules for runs
without and with a guard, `GuardedRun.exists_drain` continues a run until it is done, and
`guardedRun_of_exec` makes a guarded run of an execution.
-/

namespace Buffers

variable {σ ι : Type}

/-- The run on a list of inputs, without any guard. -/
def runInputs (step : ι → σ → Except Fault σ) : List ι → σ → Except Fault σ
  | [], s => .ok s
  | i :: is, s => step i s >>= runInputs step is

/-- Running two lists of inputs one after the other. -/
lemma runInputs_append (step : ι → σ → Except Fault σ) (is js : List ι) (s : σ) :
    runInputs step (is ++ js) s = runInputs step is s >>= runInputs step js := by
  induction is generalizing s with
  | nil => rfl
  | cons i is ih =>
    rw [List.cons_append, runInputs, runInputs]
    cases step i s with
    | error f => rfl
    | ok s' => exact ih s'

/-- What every step keeps holds after every run, if it holds before it. -/
theorem runInputs_invariant {step : ι → σ → Except Fault σ} {P : σ → Prop}
    (hkeep : ∀ i s s', P s → step i s = .ok s' → P s') {is : List ι} {s s' : σ} (hs : P s)
    (hrun : runInputs step is s = .ok s') : P s' := by
  induction is generalizing s with
  | nil =>
    cases hrun
    exact hs
  | cons i is ih =>
    obtain ⟨t, hstep, hrun⟩ := exists_of_bind_eq_ok hrun
    exact ih (hkeep i s t hs hstep) hrun

/-- The runs from `s₀` in which every input is admitted. -/
inductive GuardedRun (step : ι → σ → Except Fault σ) (guard : List ι → ι → σ → Prop) (s₀ : σ) :
    List ι → σ → Prop
  | nil : GuardedRun step guard s₀ [] s₀
  | snoc {is : List ι} {i : ι} {s s' : σ} (hrun : GuardedRun step guard s₀ is s)
      (hguard : guard is i s) (hstep : step i s = .ok s') :
      GuardedRun step guard s₀ (is ++ [i]) s'

variable {step : ι → σ → Except Fault σ} {guard : List ι → ι → σ → Prop} {s₀ : σ}

/-- What holds at the start and is kept by every admitted step holds after every run. -/
theorem GuardedRun.invariant {P : List ι → σ → Prop} (hinit : P [] s₀)
    (hkeep : ∀ is i s s', P is s → guard is i s → step i s = .ok s' → P (is ++ [i]) s')
    {is : List ι} {s : σ} (hrun : GuardedRun step guard s₀ is s) : P is s := by
  induction hrun with
  | nil => exact hinit
  | snoc hrun hguard hstep ih => exact hkeep _ _ _ _ ih hguard hstep

/-- If in every state of a run that is not done there is an admitted step of some kind that leads to
the end or takes a measure down, then such steps lead to the end. -/
theorem GuardedRun.exists_drain (P done : σ → Prop) (kind : ι → Prop) (measure : σ → ℕ)
    (hprogress : ∀ is s, GuardedRun step guard s₀ is s → P s → ¬ done s →
      ∃ i s', kind i ∧ guard is i s ∧ step i s = .ok s' ∧ P s' ∧
        (done s' ∨ measure s' < measure s))
    {is : List ι} {s : σ} (hrun : GuardedRun step guard s₀ is s) (hs : P s) :
    ∃ js s', (∀ j ∈ js, kind j) ∧ GuardedRun step guard s₀ (is ++ js) s' ∧ P s' ∧ done s' := by
  induction hn : measure s using Nat.strong_induction_on generalizing is s with
  | _ n ih =>
    by_cases hdone : done s
    · refine ⟨[], s, fun j hj => (List.not_mem_nil hj).elim, ?_, hs, hdone⟩
      rwa [List.append_nil]
    · obtain ⟨i, s', hkind, hguard, hstep, hs', hnext⟩ := hprogress is s hrun hs hdone
      have hrun' := hrun.snoc hguard hstep
      rcases hnext with hdone' | hlt
      · refine ⟨[i], s', fun j hj => ?_, hrun', hs', hdone'⟩
        rwa [List.mem_singleton.mp hj]
      · obtain ⟨js, t, hkinds, ht, hpt, hend⟩ := ih (measure s') (hn ▸ hlt) hrun' hs' rfl
        refine ⟨i :: js, t, fun j hj => ?_, ?_, hpt, hend⟩
        · rcases List.mem_cons.mp hj with rfl | hmem
          · exact hkind
          · exact hkinds j hmem
        · rwa [List.append_assoc] at ht

/-- The execution of a list of inputs behind the inputs `past`, as long as they are admitted. -/
def execGuarded (step : ι → σ → Except Fault σ) (guard : List ι → ι → σ → Prop)
    [∀ past i s, Decidable (guard past i s)] : List ι → List ι → σ → Option σ
  | _, [], s => some s
  | past, i :: is, s =>
    if guard past i s then
      match step i s with
      | .ok s' => execGuarded step guard (past ++ [i]) is s'
      | .error _ => none
    else none

/-- An execution that is not stopped continues a run. -/
lemma GuardedRun.exec [∀ past i s, Decidable (guard past i s)] {past is : List ι} {s s' : σ}
    (hrun : GuardedRun step guard s₀ past s) (hexec : execGuarded step guard past is s = some s') :
    GuardedRun step guard s₀ (past ++ is) s' := by
  induction is generalizing past s with
  | nil =>
    cases hexec
    rwa [List.append_nil]
  | cons i is ih =>
    rw [execGuarded] at hexec
    split at hexec
    · rename_i hguard
      split at hexec
      · rename_i s'' hstep
        have hnext := ih (.snoc hrun hguard hstep) hexec
        rwa [List.append_assoc] at hnext
      · cases hexec
    · cases hexec

/-- An execution from the start that is not stopped is a run. -/
theorem guardedRun_of_exec [∀ past i s, Decidable (guard past i s)] {is : List ι} {s : σ}
    (hexec : execGuarded step guard [] is s₀ = some s) : GuardedRun step guard s₀ is s :=
  GuardedRun.nil.exec hexec

end Buffers
