import Mathlib

/-!
# Threads that wait for units of a resource

A resource has `n` units.  A thread that finds none waits in a list; whoever adds a unit wakes the
first one of the list, which then has to look again, since another thread may be faster.

`Waiters role list n` is what keeps a wake-up from being lost: as long as a thread waits, there are
at least as many woken threads that have yet to look as there are units.  The lemmas say how it is
kept when a unit is taken or added and when a thread waits, leaves or gives up.
-/

namespace Buffers

/-- What a thread has to do with the resource. -/
inductive WaitRole
  | away
  | waiting
  | woken
  deriving DecidableEq, Repr

/-- The list has the waiting threads, and enough of the others have been woken. -/
structure Waiters (role : ℕ → WaitRole) (list : List ℕ) (n : ℕ) : Prop where
  mem_iff : ∀ u, u ∈ list ↔ role u = .waiting
  nodup : list.Nodup
  covered : list ≠ [] → ∃ woken : List ℕ, woken.Nodup ∧ (∀ u ∈ woken, role u = .woken) ∧
    n ≤ woken.length

namespace Waiters

variable {role : ℕ → WaitRole} {list : List ℕ} {n t : ℕ}

/-- While a thread waits for a unit that is there, a woken thread has yet to look. -/
lemma exists_woken (h : Waiters role list n) (ht : role t = .waiting) (hn : 0 < n) :
    ∃ u, role u = .woken := by
  obtain ⟨woken, -, hwoken, hle⟩ := h.covered (List.ne_nil_of_mem ((h.mem_iff t).mpr ht))
  obtain ⟨u, hu⟩ := List.exists_mem_of_length_pos (Nat.lt_of_lt_of_le hn hle)
  exact ⟨u, hwoken u hu⟩

/-- The list when a thread that does not wait takes another role in which it does not wait. -/
lemma mem_update {r : WaitRole} (h : Waiters role list n) (ht : role t ≠ .waiting)
    (hr : r ≠ .waiting) (u : ℕ) : u ∈ list ↔ Function.update role t r u = .waiting := by
  by_cases hu : u = t
  · rw [hu, Function.update_self, h.mem_iff]
    exact iff_of_false ht hr
  · rw [Function.update_of_ne hu, h.mem_iff]

/-- Without units no one has to be woken. -/
lemma of_zero (hmem : ∀ u, u ∈ list ↔ role u = .waiting) (hnodup : list.Nodup) :
    Waiters role list 0 :=
  ⟨hmem, hnodup, fun _ => ⟨[], List.nodup_nil, nofun, Nat.zero_le _⟩⟩

/-- Without waiting threads no one has to be woken. -/
lemma of_nil (hmem : ∀ u, role u ≠ .waiting) (n : ℕ) : Waiters role [] n :=
  ⟨fun u => iff_of_false List.not_mem_nil (hmem u), List.nodup_nil, fun h => absurd rfl h⟩

/-- A thread takes a unit. -/
lemma take (h : Waiters role list (n + 1)) (ht : role t ≠ .waiting) :
    Waiters (Function.update role t .away) list n := by
  refine ⟨h.mem_update ht nofun, h.nodup, fun hne => ?_⟩
  obtain ⟨woken, hnodup, hwoken, hle⟩ := h.covered hne
  refine ⟨woken.erase t, hnodup.erase t, fun u hu => ?_, ?_⟩
  · obtain ⟨hut, hmem⟩ := hnodup.mem_erase_iff.mp hu
    rw [Function.update_of_ne hut]
    exact hwoken u hmem
  · have hlen := List.le_length_erase (a := t) (l := woken)
    omega

/-- A thread that finds no unit leaves. -/
lemma leave (h : Waiters role list 0) (ht : role t ≠ .waiting) :
    Waiters (Function.update role t .away) list 0 :=
  of_zero (h.mem_update ht nofun) h.nodup

/-- A thread that finds no unit waits. -/
lemma wait (h : Waiters role list 0) {list' : List ℕ} (hperm : list'.Perm (t :: list))
    (ht : role t ≠ .waiting) : Waiters (Function.update role t .waiting) list' 0 := by
  have hmem : t ∉ list := fun hmem => ht ((h.mem_iff t).mp hmem)
  refine of_zero (fun u => ?_) (hperm.nodup_iff.mpr (List.nodup_cons.mpr ⟨hmem, h.nodup⟩))
  rw [hperm.mem_iff, List.mem_cons, h.mem_iff]
  by_cases hu : u = t
  · rw [hu, Function.update_self]
    exact iff_of_true (.inl rfl) rfl
  · rw [Function.update_of_ne hu]
    exact or_iff_right hu

/-- A unit is added, and the first waiting thread is woken. -/
lemma wake (h : Waiters role (t :: list) n) :
    Waiters (Function.update role t .woken) list (n + 1) := by
  have ht : role t = .waiting := (h.mem_iff t).mp List.mem_cons_self
  obtain ⟨hmem, hnodup⟩ := List.nodup_cons.mp h.nodup
  refine ⟨fun u => ?_, hnodup, fun _ => ?_⟩
  · by_cases hu : u = t
    · rw [hu, Function.update_self]
      exact iff_of_false hmem nofun
    · rw [Function.update_of_ne hu, ← h.mem_iff, List.mem_cons]
      exact (or_iff_right hu).symm
  · obtain ⟨woken, hwokenNodup, hwoken, hle⟩ := h.covered (List.cons_ne_nil t list)
    have htw : t ∉ woken := by
      intro hin
      have hrole := hwoken t hin
      rw [ht] at hrole
      cases hrole
    refine ⟨t :: woken, List.nodup_cons.mpr ⟨htw, hwokenNodup⟩, fun u hu => ?_,
      Nat.succ_le_succ hle⟩
    rcases List.mem_cons.mp hu with rfl | hu
    · exact Function.update_self u _ role
    · rw [Function.update_of_ne fun hut : u = t => htw (hut ▸ hu)]
      exact hwoken u hu

/-- A waiting thread gives up. -/
lemma giveUp (h : Waiters role list n) (ht : role t = .waiting) :
    Waiters (Function.update role t .away) (list.erase t) n := by
  refine ⟨fun u => ?_, h.nodup.erase t, fun hne => ?_⟩
  · rw [h.nodup.mem_erase_iff, h.mem_iff]
    by_cases hu : u = t
    · rw [hu, Function.update_self]
      exact iff_of_false (fun hand => hand.1 rfl) nofun
    · rw [Function.update_of_ne hu]
      exact and_iff_right hu
  · have hlist : list ≠ [] := fun hnil => hne (by rw [hnil, List.erase_nil])
    obtain ⟨woken, hnodup, hwoken, hle⟩ := h.covered hlist
    refine ⟨woken, hnodup, fun u hu => ?_, hle⟩
    have hut : u ≠ t := by
      rintro rfl
      have hrole := hwoken u hu
      rw [ht] at hrole
      cases hrole
    rw [Function.update_of_ne hut]
    exact hwoken u hu

/-- A thread whose role does not change. -/
lemma stay (h : Waiters role list n) {r : WaitRole} (ht : r = role t) :
    Waiters (Function.update role t r) list n := by
  rw [ht, Function.update_eq_self]
  exact h

end Waiters

end Buffers
