import WiotaAp.Foundation.Slice

/-!
# Circular doubly linked lists in a heap

A heap has cells with some data and two links at the addresses that are allocated; an access to
another address is a `Fault`.  `LinkRing heap head nodes` says that the cells `nodes`, given by
their addresses and their data, form one circle through `head`: consecutive cells point to each
other.

A ring is changed at one place.  `LinkRing.linkIn` puts a cell between two neighbours and
`LinkRing.unlink` takes one out; both are about the links of the heap behind the change, in whatever
order they have been set.
-/

namespace Buffers

variable {α : Type}

/-! ### Cells and links -/

/-- A cell with data and two links. -/
structure LinkCell (α : Type) where
  data : α
  next : ℕ
  pre : ℕ
  deriving DecidableEq, Repr

/-- The cells that are allocated. -/
abbrev Heap (α : Type) := ℕ → Option (LinkCell α)

namespace Heap

/-- The link of a cell to the next one. -/
def nextOf (heap : Heap α) (a : ℕ) : Option ℕ :=
  (heap a).map LinkCell.next

/-- The link of a cell to the one before it. -/
def preOf (heap : Heap α) (a : ℕ) : Option ℕ :=
  (heap a).map LinkCell.pre

/-- The data of a cell. -/
def dataOf (heap : Heap α) (a : ℕ) : Option α :=
  (heap a).map LinkCell.data

/-- Reading a cell. -/
def load (heap : Heap α) (a : ℕ) : Except Fault (LinkCell α) :=
  match heap a with
  | none => .error .outOfBounds
  | some cell => .ok cell

/-- Setting the link to the next cell. -/
def setNext (heap : Heap α) (a b : ℕ) : Except Fault (Heap α) := do
  let cell ← heap.load a
  return Function.update heap a (some { cell with next := b })

/-- Setting the link to the cell before. -/
def setPre (heap : Heap α) (a b : ℕ) : Except Fault (Heap α) := do
  let cell ← heap.load a
  return Function.update heap a (some { cell with pre := b })

/-- A new cell; its links are set before they are read. -/
def alloc (heap : Heap α) (a : ℕ) (data : α) : Heap α :=
  Function.update heap a (some ⟨data, 0, 0⟩)

/-- Freeing a cell. -/
def release (heap : Heap α) (a : ℕ) : Except Fault (Heap α) := do
  let _ ← heap.load a
  return Function.update heap a none

/-- The links and the data of a heap with one cell changed. -/
lemma links_update (heap : Heap α) (a : ℕ) (cell : Option (LinkCell α)) :
    nextOf (Function.update heap a cell) =
        Function.update heap.nextOf a (cell.map LinkCell.next) ∧
      preOf (Function.update heap a cell) =
        Function.update heap.preOf a (cell.map LinkCell.pre) ∧
      dataOf (Function.update heap a cell) =
        Function.update heap.dataOf a (cell.map LinkCell.data) := by
  refine ⟨funext fun x => ?_, funext fun x => ?_, funext fun x => ?_⟩
  · by_cases hx : x = a
    · subst hx
      simp [nextOf]
    · simp [nextOf, Function.update_of_ne hx]
  · by_cases hx : x = a
    · subst hx
      simp [preOf]
    · simp [preOf, Function.update_of_ne hx]
  · by_cases hx : x = a
    · subst hx
      simp [dataOf]
    · simp [dataOf, Function.update_of_ne hx]

/-- All links and all data of a heap. -/
structure HasLinks (heap : Heap α) (next pre : ℕ → Option ℕ) (data : ℕ → Option α) : Prop where
  next_eq : heap.nextOf = next
  pre_eq : heap.preOf = pre
  data_eq : heap.dataOf = data

section HasLinks

variable {heap : Heap α} {next pre : ℕ → Option ℕ} {data : ℕ → Option α}

lemma hasLinks_self (heap : Heap α) : heap.HasLinks heap.nextOf heap.preOf heap.dataOf :=
  ⟨rfl, rfl, rfl⟩

/-- A cell is read at an address that is allocated. -/
lemma HasLinks.exists_load (h : heap.HasLinks next pre data) {a n : ℕ}
    (ha : next a = some n) :
    ∃ cell, heap.load a = .ok cell ∧ cell.next = n ∧ pre a = some cell.pre ∧
      data a = some cell.data := by
  rw [← h.next_eq] at ha
  rw [← h.pre_eq, ← h.data_eq]
  obtain ⟨cell, hcell, hnext⟩ := Option.map_eq_some_iff.mp ha
  refine ⟨cell, ?_, hnext, ?_, ?_⟩
  · rw [load, hcell]
  · rw [preOf, hcell, Option.map_some]
  · rw [dataOf, hcell, Option.map_some]

/-- Setting the link to the next cell changes this link only. -/
lemma HasLinks.exists_setNext (h : heap.HasLinks next pre data) (a b : ℕ)
    (ha : (next a).isSome) :
    ∃ heap', heap.setNext a b = .ok heap' ∧
      heap'.HasLinks (Function.update next a (some b)) pre data := by
  obtain ⟨n, hn⟩ := Option.isSome_iff_exists.mp ha
  obtain ⟨cell, hload, -, hpre, hdata⟩ := h.exists_load hn
  obtain ⟨hnext', hpre', hdata'⟩ := links_update heap a (some { cell with next := b })
  refine ⟨Function.update heap a (some { cell with next := b }), ?_, ?_, ?_, ?_⟩
  · rw [setNext, hload]
    rfl
  · rw [hnext', h.next_eq, Option.map_some]
  · rw [hpre', h.pre_eq, Option.map_some, ← hpre, Function.update_eq_self]
  · rw [hdata', h.data_eq, Option.map_some, ← hdata, Function.update_eq_self]

/-- Setting the link to the cell before changes this link only. -/
lemma HasLinks.exists_setPre (h : heap.HasLinks next pre data) (a b : ℕ)
    (ha : (next a).isSome) :
    ∃ heap', heap.setPre a b = .ok heap' ∧
      heap'.HasLinks next (Function.update pre a (some b)) data := by
  obtain ⟨n, hn⟩ := Option.isSome_iff_exists.mp ha
  obtain ⟨cell, hload, hnext, -, hdata⟩ := h.exists_load hn
  obtain ⟨hnext', hpre', hdata'⟩ := links_update heap a (some { cell with pre := b })
  refine ⟨Function.update heap a (some { cell with pre := b }), ?_, ?_, ?_, ?_⟩
  · rw [setPre, hload]
    rfl
  · rw [hnext', h.next_eq, Option.map_some, hnext, ← hn, Function.update_eq_self]
  · rw [hpre', h.pre_eq, Option.map_some]
  · rw [hdata', h.data_eq, Option.map_some, ← hdata, Function.update_eq_self]

/-- A new cell. -/
lemma HasLinks.alloc (h : heap.HasLinks next pre data) (a : ℕ) (d : α) :
    (heap.alloc a d).HasLinks (Function.update next a (some 0)) (Function.update pre a (some 0))
      (Function.update data a (some d)) := by
  obtain ⟨hnext', hpre', hdata'⟩ := links_update heap a (some ⟨d, 0, 0⟩)
  refine ⟨hnext'.trans ?_, hpre'.trans ?_, hdata'.trans ?_⟩
  · rw [h.next_eq, Option.map_some]
  · rw [h.pre_eq, Option.map_some]
  · rw [h.data_eq, Option.map_some]

/-- Freeing a cell takes away its links and its data. -/
lemma HasLinks.exists_release (h : heap.HasLinks next pre data) (a : ℕ)
    (ha : (next a).isSome) :
    ∃ heap', heap.release a = .ok heap' ∧ heap'.HasLinks (Function.update next a none)
      (Function.update pre a none) (Function.update data a none) := by
  obtain ⟨n, hn⟩ := Option.isSome_iff_exists.mp ha
  obtain ⟨cell, hload, -⟩ := h.exists_load hn
  obtain ⟨hnext', hpre', hdata'⟩ := links_update heap a none
  refine ⟨Function.update heap a none, ?_, ?_, ?_, ?_⟩
  · rw [release, hload]
    rfl
  · rw [hnext', h.next_eq, Option.map_none]
  · rw [hpre', h.pre_eq, Option.map_none]
  · rw [hdata', h.data_eq, Option.map_none]

end HasLinks

end Heap

/-! ### Rings -/

/-- Two cells that point to each other. -/
def Follows (heap : Heap α) (a b : ℕ) : Prop :=
  heap.nextOf a = some b ∧ heap.preOf b = some a

/-- One circle through `head`: the cells `nodes` in the order of the links, with their data. -/
structure LinkRing (heap : Heap α) (head : ℕ) (nodes : List (ℕ × α)) : Prop where
  chain : ((head :: nodes.map Prod.fst) ++ [head]).IsChain (Follows heap)
  nodup : (head :: nodes.map Prod.fst).Nodup
  data : ∀ p ∈ nodes, heap.dataOf p.1 = some p.2

/-- The last address of a part of a ring behind `head`. -/
def lastAddr (head : ℕ) (nodes : List (ℕ × α)) : ℕ :=
  (nodes.map Prod.fst).getLastD head

/-- The first address of a part of a ring in front of `head`. -/
def firstAddr (head : ℕ) (nodes : List (ℕ × α)) : ℕ :=
  (nodes.map Prod.fst).headD head

@[simp] lemma lastAddr_nil (head : ℕ) : lastAddr head ([] : List (ℕ × α)) = head := rfl

@[simp] lemma lastAddr_snoc (head : ℕ) (nodes : List (ℕ × α)) (p : ℕ × α) :
    lastAddr head (nodes ++ [p]) = p.1 := by
  simp [lastAddr]

@[simp] lemma firstAddr_nil (head : ℕ) : firstAddr head ([] : List (ℕ × α)) = head := rfl

@[simp] lemma firstAddr_cons (head : ℕ) (p : ℕ × α) (nodes : List (ℕ × α)) :
    firstAddr head (p :: nodes) = p.1 := rfl

/-- The last address is in the part or it is `head`. -/
lemma lastAddr_mem (head : ℕ) (nodes : List (ℕ × α)) :
    lastAddr head nodes ∈ head :: nodes.map Prod.fst := by
  induction nodes using List.reverseRecOn with
  | nil => exact List.mem_cons_self
  | append_singleton nodes p _ =>
    rw [lastAddr_snoc]
    simp

/-- The first address is in the part or it is `head`. -/
lemma firstAddr_mem (head : ℕ) (nodes : List (ℕ × α)) :
    firstAddr head nodes ∈ nodes.map Prod.fst ++ [head] := by
  cases nodes with
  | nil => exact List.mem_cons_self
  | cons p nodes => exact List.mem_cons_self

lemma firstAddr_mem_cons (head : ℕ) (nodes : List (ℕ × α)) :
    firstAddr head nodes ∈ head :: nodes.map Prod.fst := by
  have hmem := firstAddr_mem head nodes
  rwa [List.mem_append, List.mem_singleton, or_comm, ← List.mem_cons] at hmem

/-- The last address of a part with `head` in front of it. -/
lemma getLast?_part (head : ℕ) (nodes : List (ℕ × α)) :
    (head :: nodes.map Prod.fst).getLast? = some (lastAddr head nodes) := by
  induction nodes using List.reverseRecOn with
  | nil => rfl
  | append_singleton nodes p _ =>
    rw [lastAddr_snoc, List.map_append, ← List.cons_append, List.map_singleton,
      List.getLast?_append_cons, List.getLast?_singleton]

/-- The first address of a part with `head` behind it. -/
lemma head?_part (head : ℕ) (nodes : List (ℕ × α)) :
    (nodes.map Prod.fst ++ [head]).head? = some (firstAddr head nodes) := by
  cases nodes with
  | nil => rfl
  | cons p nodes => rfl

section Cut

variable {heap heap' : Heap α} {head : ℕ} {pre post : List (ℕ × α)}

/-- A ring at a cut: the links of the part in front of it, those of the part behind it, and the
two links in between. -/
lemma isChain_cut (R : ℕ → ℕ → Prop) (head : ℕ) (pre post : List (ℕ × α)) :
    ((head :: (pre ++ post).map Prod.fst) ++ [head]).IsChain R ↔
      (head :: pre.map Prod.fst).IsChain R ∧ (post.map Prod.fst ++ [head]).IsChain R ∧
        R (lastAddr head pre) (firstAddr head post) := by
  have hparts : (head :: (pre ++ post).map Prod.fst) ++ [head] =
      (head :: pre.map Prod.fst) ++ (post.map Prod.fst ++ [head]) := by
    rw [List.map_append, List.cons_append, List.cons_append, List.append_assoc]
  rw [hparts, List.isChain_append, getLast?_part, head?_part]
  simp

/-- The two neighbours at a cut point to each other. -/
lemma LinkRing.follows (h : LinkRing heap head (pre ++ post)) :
    Follows heap (lastAddr head pre) (firstAddr head post) :=
  ((isChain_cut _ head pre post).mp h.chain).2.2

/-- A cut moved behind the next cell. -/
lemma LinkRing.cut_succ {p : ℕ × α} (h : LinkRing heap head (pre ++ p :: post)) :
    LinkRing heap head ((pre ++ [p]) ++ post) := by
  rwa [List.append_assoc, List.singleton_append]

/-- The links of a cell and its data. -/
lemma LinkRing.cell {node : ℕ} {d : α} (h : LinkRing heap head (pre ++ (node, d) :: post)) :
    heap.nextOf node = some (firstAddr head post) ∧ heap.preOf node = some (lastAddr head pre) ∧
      heap.dataOf node = some d := by
  have hafter := h.cut_succ.follows
  rw [lastAddr_snoc] at hafter
  exact ⟨hafter.1, h.follows.2, h.data _ (List.mem_append_right _ List.mem_cons_self)⟩

/-- The cells of a ring are allocated. -/
lemma LinkRing.next_isSome {nodes : List (ℕ × α)} (h : LinkRing heap head nodes) {a : ℕ}
    (ha : a ∈ head :: nodes.map Prod.fst) : (heap.nextOf a).isSome := by
  rcases List.mem_cons.mp ha with rfl | hmem
  · rw [← List.nil_append nodes] at h
    exact Option.isSome_of_eq_some h.follows.1
  · obtain ⟨⟨a, d⟩, hp, rfl⟩ := List.mem_map.mp hmem
    obtain ⟨pre, post, rfl⟩ := List.append_of_mem hp
    exact Option.isSome_of_eq_some h.cell.1

/-- The addresses of a ring at a cut are different. -/
lemma nodup_cut (h : (head :: (pre ++ post).map Prod.fst).Nodup) :
    (head :: pre.map Prod.fst).Nodup ∧ (post.map Prod.fst ++ [head]).Nodup ∧
      (∀ a ∈ pre.map Prod.fst, a ∉ post.map Prod.fst ++ [head]) ∧
      ∀ a ∈ post.map Prod.fst, a ∉ head :: pre.map Prod.fst := by
  rw [List.map_append, List.nodup_cons, List.nodup_append] at h
  obtain ⟨hhead, hpre, hpost, hdisjoint⟩ := h
  rw [List.mem_append, not_or] at hhead
  refine ⟨List.nodup_cons.mpr ⟨hhead.1, hpre⟩, ?_, fun a ha hmem => ?_, fun a ha hmem => ?_⟩
  · refine List.nodup_append.mpr ⟨hpost, List.nodup_singleton head, fun a ha b hb heq => ?_⟩
    rw [List.mem_singleton.mp hb] at heq
    exact hhead.2 (heq ▸ ha)
  · rcases List.mem_append.mp hmem with hmem | hmem
    · exact hdisjoint a ha a hmem rfl
    · exact hhead.1 (List.mem_singleton.mp hmem ▸ ha)
  · rcases List.mem_cons.mp hmem with rfl | hmem
    · exact hhead.2 ha
    · exact hdisjoint a hmem a ha rfl

/-! ### Changes -/

/-- The part in front of a cut keeps its links, whatever happens to the link of its last cell. -/
lemma isChain_front (hchain : (head :: pre.map Prod.fst).IsChain (Follows heap))
    (hnodup : (head :: pre.map Prod.fst).Nodup)
    (hnext : ∀ a ∈ head :: pre.map Prod.fst, a ≠ lastAddr head pre →
      heap'.nextOf a = heap.nextOf a)
    (hpre : ∀ a ∈ pre.map Prod.fst, heap'.preOf a = heap.preOf a) :
    (head :: pre.map Prod.fst).IsChain (Follows heap') := by
  rw [List.isChain_iff_forall_rel_of_append_cons_cons] at hchain ⊢
  intro a b l₁ l₂ hl
  have hlast := getLast?_part head pre
  have hb : b ∈ pre.map Prod.fst := by
    have htail := congrArg List.tail hl
    rw [List.tail_cons] at htail
    rw [htail]
    cases l₁ <;> simp
  rw [hl] at hnodup hnext hlast
  have hne : a ≠ lastAddr head pre := by
    rintro rfl
    rw [List.getLast?_append_cons, List.getLast?_cons_cons] at hlast
    have hmem := List.mem_of_getLast? hlast
    exact (List.nodup_cons.mp (List.nodup_append.mp hnodup).2.1).1 hmem
  obtain ⟨hab, hba⟩ := hchain hl
  exact ⟨(hnext a (by simp) hne).trans hab, (hpre b hb).trans hba⟩

/-- The part behind a cut keeps its links, whatever happens to the link of its first cell. -/
lemma isChain_back (hchain : (post.map Prod.fst ++ [head]).IsChain (Follows heap))
    (hnodup : (post.map Prod.fst ++ [head]).Nodup)
    (hnext : ∀ a ∈ post.map Prod.fst, heap'.nextOf a = heap.nextOf a)
    (hpre : ∀ a ∈ post.map Prod.fst ++ [head], a ≠ firstAddr head post →
      heap'.preOf a = heap.preOf a) :
    (post.map Prod.fst ++ [head]).IsChain (Follows heap') := by
  rw [List.isChain_iff_forall_rel_of_append_cons_cons] at hchain ⊢
  intro a b l₁ l₂ hl
  have hfirst := head?_part head post
  have ha : a ∈ post.map Prod.fst := by
    have hinit := congrArg List.dropLast hl
    rw [List.dropLast_concat] at hinit
    rw [hinit, List.dropLast_append_cons]
    simp
  rw [hl] at hnodup hpre hfirst
  have hne : b ≠ firstAddr head post := by
    rintro rfl
    have hmem : firstAddr head post ∈ l₁ ++ [a] := by
      cases l₁ with
      | nil =>
        cases hfirst
        simp
      | cons c l₁ =>
        cases hfirst
        simp
    rw [show l₁ ++ a :: firstAddr head post :: l₂ =
      (l₁ ++ [a]) ++ firstAddr head post :: l₂ by simp] at hnodup
    exact (List.nodup_append.mp hnodup).2.2 _ hmem _ List.mem_cons_self rfl
  obtain ⟨hab, hba⟩ := hchain hl
  exact ⟨(hnext a ha).trans hab, (hpre b (by simp) hne).trans hba⟩

/-- An address that is not in the ring is on neither side of a cut. -/
lemma notMem_parts {node : ℕ} (h : node ∉ head :: (pre ++ post).map Prod.fst) :
    node ∉ head :: pre.map Prod.fst ∧ node ∉ post.map Prod.fst ++ [head] := by
  rw [List.map_append, ← List.cons_append, List.mem_append, not_or] at h
  refine ⟨h.1, fun hmem => ?_⟩
  rcases List.mem_append.mp hmem with hmem | hmem
  · exact h.2 hmem
  · exact h.1 (List.mem_singleton.mp hmem ▸ List.mem_cons_self)

/-- A new cell between two neighbours. -/
theorem LinkRing.linkIn (h : LinkRing heap head (pre ++ post)) {node : ℕ} {d : α}
    (hnew : node ∉ head :: (pre ++ post).map Prod.fst)
    (hnext : heap'.nextOf = Function.update (Function.update heap.nextOf node
      (some (firstAddr head post))) (lastAddr head pre) (some node))
    (hpre : heap'.preOf = Function.update (Function.update heap.preOf node
      (some (lastAddr head pre))) (firstAddr head post) (some node))
    (hdata : heap'.dataOf = Function.update heap.dataOf node (some d)) :
    LinkRing heap' head (pre ++ (node, d) :: post) := by
  obtain ⟨hfront, hback, -⟩ := (isChain_cut _ head pre post).mp h.chain
  obtain ⟨hnodup, hnodup', hdisjoint, hdisjoint'⟩ := nodup_cut h.nodup
  have hlast := lastAddr_mem head pre
  have hfirst := firstAddr_mem head post
  obtain ⟨hnewpre, hnewpost⟩ := notMem_parts hnew
  have hbefore : node ≠ lastAddr head pre := (ne_of_mem_of_not_mem hlast hnewpre).symm
  have hbehind : node ≠ firstAddr head post := (ne_of_mem_of_not_mem hfirst hnewpost).symm
  refine ⟨(isChain_cut _ head pre _).mpr ⟨?_, ?_, ?_⟩, ?_, ?_⟩
  · refine isChain_front hfront hnodup (fun a ha hne => ?_) fun a ha => ?_
    · rw [hnext, Function.update_of_ne hne,
        Function.update_of_ne (ne_of_mem_of_not_mem ha hnewpre)]
    · rw [hpre, Function.update_of_ne (ne_of_mem_of_not_mem hfirst (hdisjoint a ha)).symm,
        Function.update_of_ne (ne_of_mem_of_not_mem (List.mem_cons_of_mem _ ha) hnewpre)]
  · rw [List.map_cons, List.cons_append, List.isChain_cons, head?_part]
    refine ⟨fun a ha => ?_, isChain_back hback hnodup' (fun a ha => ?_) fun a ha hne => ?_⟩
    · cases ha
      refine ⟨?_, by rw [hpre, Function.update_self]⟩
      rw [hnext, Function.update_of_ne hbefore, Function.update_self]
    · rw [hnext, Function.update_of_ne (ne_of_mem_of_not_mem hlast (hdisjoint' a ha)).symm,
        Function.update_of_ne (ne_of_mem_of_not_mem (List.mem_append_left _ ha) hnewpost)]
    · rw [hpre, Function.update_of_ne hne,
        Function.update_of_ne (ne_of_mem_of_not_mem ha hnewpost)]
  · refine ⟨by rw [hnext, Function.update_self]; rfl, ?_⟩
    rw [hpre, firstAddr_cons, Function.update_of_ne hbehind, Function.update_self]
  · rw [List.map_append, List.map_cons, ← List.cons_append, List.nodup_middle, List.cons_append,
      ← List.map_append]
    exact List.nodup_cons.mpr ⟨hnew, h.nodup⟩
  · intro p hp
    rw [hdata]
    rcases List.mem_append.mp hp with hp | hp
    · have hne : p.1 ≠ node :=
        ne_of_mem_of_not_mem (List.mem_cons_of_mem _ (List.mem_map_of_mem hp)) hnewpre
      rw [Function.update_of_ne hne]
      exact h.data p (List.mem_append_left _ hp)
    · rcases List.mem_cons.mp hp with rfl | hp
      · exact Function.update_self _ _ _
      · have hne : p.1 ≠ node :=
          ne_of_mem_of_not_mem (List.mem_append_left _ (List.mem_map_of_mem hp)) hnewpost
        rw [Function.update_of_ne hne]
        exact h.data p (List.mem_append_right _ hp)

/-- A cell is taken out; nothing is said about its own links. -/
theorem LinkRing.unlink {node : ℕ} {d : α} (h : LinkRing heap head (pre ++ (node, d) :: post))
    (hnext : ∀ a ≠ node, heap'.nextOf a =
      Function.update heap.nextOf (lastAddr head pre) (some (firstAddr head post)) a)
    (hpre : ∀ a ≠ node, heap'.preOf a =
      Function.update heap.preOf (firstAddr head post) (some (lastAddr head pre)) a)
    (hdata : ∀ a ≠ node, heap'.dataOf a = heap.dataOf a) :
    LinkRing heap' head (pre ++ post) := by
  obtain ⟨hfront, hback, -⟩ := (isChain_cut _ head pre _).mp h.chain
  rw [List.map_cons, List.cons_append, List.isChain_cons] at hback
  have hnodup := h.nodup
  rw [List.map_append, List.map_cons, ← List.cons_append, List.nodup_middle, List.nodup_cons,
    List.cons_append, ← List.map_append] at hnodup
  obtain ⟨hout, hrest⟩ := hnodup
  obtain ⟨hnodup, hnodup', hdisjoint, hdisjoint'⟩ := nodup_cut hrest
  have hlast := lastAddr_mem head pre
  have hfirst := firstAddr_mem head post
  obtain ⟨houtpre, houtpost⟩ := notMem_parts hout
  have hnepre : ∀ a ∈ head :: pre.map Prod.fst, a ≠ node := fun a ha =>
    ne_of_mem_of_not_mem ha houtpre
  have hnepost : ∀ a ∈ post.map Prod.fst ++ [head], a ≠ node := fun a ha =>
    ne_of_mem_of_not_mem ha houtpost
  refine ⟨(isChain_cut _ head pre post).mpr ⟨?_, ?_, ?_, ?_⟩, hrest, fun p hp => ?_⟩
  · refine isChain_front hfront hnodup (fun a ha hlast => ?_) fun a ha => ?_
    · rw [hnext a (hnepre a ha), Function.update_of_ne hlast]
    · rw [hpre a (hnepre a (List.mem_cons_of_mem _ ha)),
        Function.update_of_ne (ne_of_mem_of_not_mem hfirst (hdisjoint a ha)).symm]
  · refine isChain_back hback.2 hnodup' (fun a ha => ?_) fun a ha hfirst => ?_
    · rw [hnext a (hnepost a (List.mem_append_left _ ha)),
        Function.update_of_ne (ne_of_mem_of_not_mem hlast (hdisjoint' a ha)).symm]
    · rw [hpre a (hnepost a ha), Function.update_of_ne hfirst]
  · rw [hnext _ (hnepre _ hlast), Function.update_self]
  · rw [hpre _ (hnepost _ hfirst), Function.update_self]
  · have hmem : p.1 ∈ head :: (pre ++ post).map Prod.fst :=
      List.mem_cons_of_mem _ (List.mem_map_of_mem hp)
    rw [hdata p.1 (ne_of_mem_of_not_mem hmem hout)]
    refine h.data p ?_
    rcases List.mem_append.mp hp with hp | hp
    · exact List.mem_append_left _ hp
    · exact List.mem_append_right _ (List.mem_cons_of_mem _ hp)

/-- A ring is not changed by what happens elsewhere. -/
lemma LinkRing.congr {nodes : List (ℕ × α)} (h : LinkRing heap head nodes)
    (hsame : ∀ a ∈ head :: nodes.map Prod.fst, heap'.nextOf a = heap.nextOf a ∧
      heap'.preOf a = heap.preOf a ∧ heap'.dataOf a = heap.dataOf a) :
    LinkRing heap' head nodes := by
  refine ⟨?_, h.nodup, fun p hp => ?_⟩
  · have hmem : ∀ a ∈ (head :: nodes.map Prod.fst) ++ [head], a ∈ head :: nodes.map Prod.fst := by
      intro a ha
      rcases List.mem_append.mp ha with ha | ha
      · exact ha
      · exact List.mem_singleton.mp ha ▸ List.mem_cons_self
    have hchain := h.chain
    rw [List.isChain_iff_forall_rel_of_append_cons_cons] at hchain ⊢
    intro a b l₁ l₂ hl
    obtain ⟨hab, hba⟩ := hchain hl
    exact ⟨(hsame a (hmem a (by simp [hl]))).1.trans hab,
      (hsame b (hmem b (by simp [hl]))).2.1.trans hba⟩
  · rw [(hsame p.1 (List.mem_cons_of_mem _ (List.mem_map_of_mem hp))).2.2]
    exact h.data p hp

end Cut

/-! ### Following the links -/

section Follow

variable {heap : Heap α} {head : ℕ} {pre post nodes : List (ℕ × α)}

/-- The addresses that one meets following `link` from `a` on until `head`, in at most `n` steps. -/
def followLinks (link : ℕ → Option ℕ) (head : ℕ) : ℕ → ℕ → Option (List ℕ)
  | 0, _ => none
  | n + 1, a =>
    match link a with
    | none => none
    | some b => if b = head then some [] else (followLinks link head n b).map (b :: ·)

lemma followLinks_of_head {link : ℕ → Option ℕ} {a : ℕ} (h : link a = some head) (n : ℕ) :
    followLinks link head (n + 1) a = some [] := by
  simp [followLinks, h]

lemma followLinks_of_ne {link : ℕ → Option ℕ} {a b : ℕ} (h : link a = some b) (hb : b ≠ head)
    (n : ℕ) : followLinks link head (n + 1) a = (followLinks link head n b).map (b :: ·) := by
  simp [followLinks, h, hb]

/-- The cells of a ring are not its head. -/
lemma LinkRing.ne_head {p : ℕ × α} (h : LinkRing heap head nodes) (hp : p ∈ nodes) : p.1 ≠ head :=
  ne_of_mem_of_not_mem (List.mem_map_of_mem hp) (List.nodup_cons.mp h.nodup).1

/-- Following the links to the next cell from a cut on. -/
lemma LinkRing.followLinks_next_cut {n : ℕ} (h : LinkRing heap head (pre ++ post))
    (hn : post.length < n) :
    followLinks heap.nextOf head n (lastAddr head pre) = some (post.map Prod.fst) := by
  induction post generalizing pre n with
  | nil =>
    obtain ⟨n, rfl⟩ := Nat.exists_eq_add_one.mpr hn
    exact followLinks_of_head h.follows.1 n
  | cons p post ih =>
    obtain ⟨n, rfl⟩ := Nat.exists_eq_add_one.mpr (Nat.zero_lt_of_lt hn)
    have hp := h.ne_head (List.mem_append_right pre List.mem_cons_self)
    rw [followLinks_of_ne h.follows.1 hp, firstAddr_cons, ← lastAddr_snoc head pre p,
      ih h.cut_succ (Nat.lt_of_succ_lt_succ hn), lastAddr_snoc]
    rfl

/-- Following the links to the cell before from a cut on. -/
lemma LinkRing.followLinks_pre_cut {n : ℕ} (h : LinkRing heap head (pre ++ post))
    (hn : pre.length < n) :
    followLinks heap.preOf head n (firstAddr head post) = some (pre.map Prod.fst).reverse := by
  induction pre using List.reverseRecOn generalizing post n with
  | nil =>
    obtain ⟨n, rfl⟩ := Nat.exists_eq_add_one.mpr hn
    exact followLinks_of_head h.follows.2 n
  | append_singleton pre p ih =>
    obtain ⟨n, rfl⟩ := Nat.exists_eq_add_one.mpr (Nat.zero_lt_of_lt hn)
    have hp := h.ne_head (List.mem_append_left post (List.mem_append_right pre List.mem_cons_self))
    have hlink := h.follows.2
    rw [lastAddr_snoc] at hlink
    rw [List.length_append] at hn
    rw [List.append_assoc, List.singleton_append] at h
    rw [followLinks_of_ne hlink hp, ← firstAddr_cons head p post,
      ih h (Nat.lt_of_succ_lt_succ hn)]
    simp

/-- Following the links to the next cell from the head on meets the cells of the ring in order. -/
theorem LinkRing.followLinks_next (h : LinkRing heap head nodes) {n : ℕ} (hn : nodes.length < n) :
    followLinks heap.nextOf head n head = some (nodes.map Prod.fst) := by
  rw [← List.nil_append nodes] at h
  exact followLinks_next_cut h hn

/-- Following the links to the cell before from the head on meets them in the opposite order. -/
theorem LinkRing.followLinks_pre (h : LinkRing heap head nodes) {n : ℕ} (hn : nodes.length < n) :
    followLinks heap.preOf head n head = some (nodes.map Prod.fst).reverse := by
  rw [← List.append_nil nodes] at h
  exact followLinks_pre_cut h hn

end Follow

end Buffers
