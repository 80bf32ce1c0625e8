import WiotaAp.Foundation.LinkedRing
import WiotaAp.Foundation.Loop
import WiotaAp.Platform.ManagerList

/-!
# The linked lists under the lists of the manager

`manager_list.c` on the cells of the heap: a list is the address of its head, a node the address of
its cell, and an access to a cell that is not allocated is a fault.  A callback decides by the
address of a node and the data pointer in it; a traversal comes to a node at most once, so that this
is what any callback does that leaves the links alone.

`ListOp.spec` says what an operation does to the sequence of nodes.  `ListOp.exec_spec` is the
step: on a ring every operation terminates, answers what `ListOp.spec` says and leaves the ring of
the new sequence.  `ListRun` are the sequences of calls behind `init_manager_list`.
-/

namespace WiotaAp

namespace Linked

open Buffers

variable {α : Type}

/-! ### The functions -/

/-- The memory of a list: the cells, and the data pointers that have been given to `rt_free`. -/
structure ListMem (α : Type) where
  heap : Heap α
  freed : List α

/-- `init_manager_list`. -/
def initManagerList (heap : Heap α) (list : ℕ) : Except Fault (Heap α) := do
  let heap ← heap.setNext list list
  heap.setPre list list

/-- A node becomes the only one of an empty list. -/
def linkFirst (heap : Heap α) (list node : ℕ) : Except Fault (Heap α) := do
  let heap ← heap.setNext list node
  let heap ← heap.setPre list node
  let heap ← heap.setNext node list
  heap.setPre node list

/-- A node becomes the first one of a list that is not empty. -/
def linkHead (heap : Heap α) (list node : ℕ) : Except Fault (Heap α) := do
  let heap ← heap.setNext node (← heap.load list).next
  let heap ← heap.setPre node list
  let heap ← heap.setPre (← heap.load list).next node
  heap.setNext list node

/-- A node becomes the last one of a list that is not empty. -/
def linkTail (heap : Heap α) (list node : ℕ) : Except Fault (Heap α) := do
  let head ← heap.load list
  let heap ← heap.setNext head.pre node
  let heap ← heap.setPre node head.pre
  let heap ← heap.setNext node list
  heap.setPre list node

/-- `insert_head_manager_list`: without memory for the node nothing is done. -/
def insertHeadManagerList (malloc : Option ℕ) (heap : Heap α) (list : ℕ) (data : α) :
    Except Fault (Heap α) :=
  match malloc with
  | none => .ok heap
  | some node => do
    let heap := heap.alloc node data
    if (← heap.load list).next = list then linkFirst heap list node else linkHead heap list node

/-- `insert_tail_manager_list`: without memory for the node the assertion fails. -/
def insertTailManagerList (malloc : Option ℕ) (heap : Heap α) (list : ℕ) (data : α) :
    Except Fault (Heap α) :=
  match malloc with
  | none => .error .assertion
  | some node => do
    let heap := heap.alloc node data
    if (← heap.load list).next = list then linkFirst heap list node else linkTail heap list node

/-- One round of a search: it leaves at the head without a node, at a node that is accepted with
it. -/
def searchBody (heap : Heap α) (list : ℕ) (accepts : ℕ → α → Bool) (op_node : ℕ) :
    Except Fault (ℕ ⊕ Option ℕ) :=
  if op_node = list then .ok (.inr none)
  else do
    let cell ← heap.load op_node
    if accepts op_node cell.data then return .inr (some op_node) else return .inl cell.next

/-- The loop with which the functions look for a node. -/
def searchList (fuel : ℕ) (heap : Heap α) (list : ℕ) (accepts : ℕ → α → Bool) :
    Run (Option ℕ) := do
  let head ← Run.ofExcept (heap.load list)
  loop (searchBody heap list accepts) fuel head.next

/-- What a callback says of a node; it matches with 0, and no callback matches nothing. -/
def matchesCb (cb : Option (ℕ → α → ℤ)) (node : ℕ) (data : α) : Bool :=
  match cb with
  | none => false
  | some cb => cb node data == 0

/-- `query_head_list`. -/
def queryHeadList (fuel : ℕ) (heap : Heap α) (list : ℕ) (cb : Option (ℕ → α → ℤ)) :
    Run (Option ℕ) :=
  searchList fuel heap list (matchesCb cb)

/-- The functions that do something with the first node that is accepted: they return 0 if there is
one, else 1. -/
def onFound (fuel : ℕ) (mem : ListMem α) (list : ℕ) (accepts : ℕ → α → Bool)
    (act : ℕ → Except Fault (ListMem α)) : Run (ℤ × ListMem α) := do
  match ← searchList fuel mem.heap list accepts with
  | none => return (1, mem)
  | some node => return (0, ← Run.ofExcept (act node))

/-- How `remove_manager_node` and `del_manager_node` take a node out. -/
def unlinkNode (heap : Heap α) (op_node : ℕ) : Except Fault (Heap α) := do
  let cell ← heap.load op_node
  let heap ← heap.setNext cell.pre cell.next
  let cell ← heap.load op_node
  heap.setPre cell.next cell.pre

/-- How `remove_head_manager_node` takes a node out. -/
def unlinkNodeBack (heap : Heap α) (op_node : ℕ) : Except Fault (Heap α) := do
  let cell ← heap.load op_node
  let heap ← heap.setPre cell.next cell.pre
  let cell ← heap.load op_node
  heap.setNext cell.pre cell.next

/-- `remove_manager_node`: the node is freed, its data is not. -/
def removeManagerNode (fuel : ℕ) (mem : ListMem α) (list : ℕ) (cb : ℕ → α → ℤ) :
    Run (ℤ × ListMem α) :=
  onFound fuel mem list (matchesCb (some cb)) fun op_node => do
    let heap ← unlinkNode mem.heap op_node
    let heap ← heap.release op_node
    return { mem with heap := heap }

/-- `del_manager_node`: the data is freed with the node. -/
def delManagerNode (fuel : ℕ) (mem : ListMem α) (list : ℕ) (cb : ℕ → α → ℤ) :
    Run (ℤ × ListMem α) :=
  onFound fuel mem list (matchesCb (some cb)) fun op_node => do
    let heap ← unlinkNode mem.heap op_node
    let cell ← heap.load op_node
    let heap ← heap.release op_node
    return { heap := heap, freed := mem.freed ++ [cell.data] }

/-- `remove_head_manager_node`: the node `parament` is taken out, a new one with its data is put at
the head, and the old one is freed. -/
def removeHeadManagerNode (malloc : Option ℕ) (fuel : ℕ) (mem : ListMem α) (list parament : ℕ) :
    Run (ℤ × ListMem α) :=
  onFound fuel mem list (fun op_node _ => parament == op_node) fun op_node => do
    let heap ← unlinkNodeBack mem.heap op_node
    let cell ← heap.load op_node
    let heap ← insertHeadManagerList malloc heap list cell.data
    let heap ← heap.release op_node
    return { mem with heap := heap }

/-- One round of a count. -/
def countBody (heap : Heap α) (list : ℕ) (accepts : ℕ → α → Bool) (s : ℕ × ℕ) :
    Except Fault ((ℕ × ℕ) ⊕ ℕ) :=
  if s.2 = list then .ok (.inr s.1)
  else do
    let cell ← heap.load s.2
    return .inl (if accepts s.2 cell.data then s.1 + 1 else s.1, cell.next)

/-- The loop with which the functions count nodes. -/
def countList (fuel : ℕ) (heap : Heap α) (list : ℕ) (accepts : ℕ → α → Bool) : Run ℕ := do
  let head ← Run.ofExcept (heap.load list)
  loop (countBody heap list accepts) fuel (0, head.next)

/-- `count_manager_list`. -/
def countManagerList (fuel : ℕ) (heap : Heap α) (list : ℕ) : Run ℕ :=
  countList fuel heap list fun _ _ => true

/-- `count_the_manager_list`. -/
def countTheManagerList (fuel : ℕ) (heap : Heap α) (list : ℕ) (cb : ℕ → α → ℤ) : Run ℕ :=
  countList fuel heap list (matchesCb (some cb))

/-- One round of the cleaning: a node and its data are freed. -/
def cleanBody (list : ℕ) (s : ListMem α × ℕ) : Except Fault ((ListMem α × ℕ) ⊕ ListMem α) :=
  if s.2 = list then .ok (.inr s.1)
  else do
    let cell ← s.1.heap.load s.2
    let heap ← s.1.heap.release s.2
    return .inl ({ heap := heap, freed := s.1.freed ++ [cell.data] }, cell.next)

/-- `clean_manager_list`. -/
def cleanManagerList (fuel : ℕ) (mem : ListMem α) (list : ℕ) : Run (ListMem α) := do
  let head ← Run.ofExcept (mem.heap.load list)
  let mem ← loop (cleanBody list) fuel (mem, head.next)
  let heap ← Run.ofExcept (initManagerList mem.heap list)
  return { mem with heap := heap }

/-! ### Insertion -/

/-- A later change of a cell hides an earlier one, with another cell changed in between. -/
private lemma update_update_comm {β : Type} {a b : ℕ} (hne : a ≠ b) (f : ℕ → β) (x y z : β) :
    Function.update (Function.update (Function.update f a x) b y) a z =
      Function.update (Function.update f a z) b y := by
  rw [Function.update_comm hne, Function.update_idem, Function.update_comm hne.symm]

private lemma isSome_update {f : ℕ → Option ℕ} {a : ℕ} (ha : (f a).isSome) (b x : ℕ) :
    (Function.update f b (some x) a).isSome := by
  by_cases hab : a = b
  · rw [hab, Function.update_self]
    rfl
  · rwa [Function.update_of_ne hab]

section Insert

variable {heap : Heap α} {list node : ℕ} {nodes : List (ℕ × α)}

/-- A new node is none of the list. -/
lemma notMem_of_fresh (h : LinkRing heap list nodes) (hfresh : heap.nextOf node = none) :
    node ∉ list :: nodes.map Prod.fst := by
  intro hmem
  have hsome := h.next_isSome hmem
  rw [hfresh] at hsome
  cases hsome

/-- The links of a new node and those to it, set in the order for an empty list. -/
lemma linkFirst_spec (h : LinkRing heap list []) (hfresh : heap.nextOf node = none) (data : α) :
    ∃ heap', linkFirst (heap.alloc node data) list node = .ok heap' ∧
      LinkRing heap' list [(node, data)] ∧
      ∀ a, (heap.nextOf a).isSome → (heap'.nextOf a).isSome := by
  have hnew := notMem_of_fresh h hfresh
  have hne : node ≠ list := fun heq => hnew (heq ▸ List.mem_cons_self)
  have hlist := h.next_isSome List.mem_cons_self
  have h₀ := (Heap.hasLinks_self heap).alloc node data
  obtain ⟨heap₁, hset₁, h₁⟩ := h₀.exists_setNext list node (by simp [hne.symm, hlist])
  obtain ⟨heap₂, hset₂, h₂⟩ := h₁.exists_setPre list node (by simp)
  obtain ⟨heap₃, hset₃, h₃⟩ := h₂.exists_setNext node list (by simp [hne])
  obtain ⟨heap₄, hset₄, h₄⟩ := h₃.exists_setPre node list (by simp)
  rw [update_update_comm hne, update_update_comm hne] at h₄
  refine ⟨heap₄, ?_, ?_, fun a ha => ?_⟩
  · rw [linkFirst, hset₁, ok_bind, hset₂, ok_bind, hset₃, ok_bind, hset₄]
  · rw [← List.nil_append []] at h
    exact h.linkIn hnew h₄.next_eq h₄.pre_eq h₄.data_eq
  · rw [h₄.next_eq]
    exact isSome_update (isSome_update ha node list) list node

/-- The same in the order for a node in front of the first one. -/
lemma linkHead_spec (h : LinkRing heap list nodes) (hfresh : heap.nextOf node = none) (data : α) :
    ∃ heap', linkHead (heap.alloc node data) list node = .ok heap' ∧
      LinkRing heap' list ((node, data) :: nodes) ∧
      ∀ a, (heap.nextOf a).isSome → (heap'.nextOf a).isSome := by
  have hnew := notMem_of_fresh h hfresh
  have hne : node ≠ list := fun heq => hnew (heq ▸ List.mem_cons_self)
  have hfirst := h.next_isSome (firstAddr_mem_cons list nodes)
  rw [← List.nil_append nodes] at h
  have hlist : heap.nextOf list = some (firstAddr list nodes) := h.follows.1
  have h₀ := (Heap.hasLinks_self heap).alloc node data
  obtain ⟨cell, hload, hcell, -⟩ := h₀.exists_load
    ((Function.update_of_ne hne.symm _ _).trans hlist)
  obtain ⟨heap₁, hset₁, h₁⟩ := h₀.exists_setNext node (firstAddr list nodes) (by simp)
  obtain ⟨heap₂, hset₂, h₂⟩ := h₁.exists_setPre node list (by simp)
  rw [Function.update_idem, Function.update_idem] at h₂
  obtain ⟨cell₂, hload₂, hcell₂, -⟩ := h₂.exists_load
    ((Function.update_of_ne hne.symm _ _).trans hlist)
  obtain ⟨heap₃, hset₃, h₃⟩ := h₂.exists_setPre (firstAddr list nodes) node
    (isSome_update hfirst _ _)
  obtain ⟨heap₄, hset₄, h₄⟩ := h₃.exists_setNext list node (by simp [hne.symm, hlist])
  refine ⟨heap₄, ?_, h.linkIn hnew h₄.next_eq h₄.pre_eq h₄.data_eq, fun a ha => ?_⟩
  · rw [linkHead, hload, ok_bind, hcell, hset₁, ok_bind, hset₂, ok_bind, hload₂, ok_bind, hcell₂,
      hset₃, ok_bind, hset₄]
  · rw [h₄.next_eq]
    exact isSome_update (isSome_update ha _ _) _ _

/-- The same in the order for a node behind the last one. -/
lemma linkTail_spec (h : LinkRing heap list nodes) (hfresh : heap.nextOf node = none) (data : α) :
    ∃ heap', linkTail (heap.alloc node data) list node = .ok heap' ∧
      LinkRing heap' list (nodes ++ [(node, data)]) := by
  have hnew := notMem_of_fresh h hfresh
  have hne : node ≠ list := fun heq => hnew (heq ▸ List.mem_cons_self)
  have hnelast : node ≠ lastAddr list nodes :=
    (ne_of_mem_of_not_mem (lastAddr_mem list nodes) hnew).symm
  have hlast := h.next_isSome (lastAddr_mem list nodes)
  have hlist := h.next_isSome List.mem_cons_self
  obtain ⟨first, hnext⟩ := Option.isSome_iff_exists.mp hlist
  rw [← List.append_nil nodes] at h hnew
  have hpre : heap.preOf list = some (lastAddr list nodes) := h.follows.2
  have h₀ := (Heap.hasLinks_self heap).alloc node data
  obtain ⟨cell, hload, -, hcell, -⟩ := h₀.exists_load
    ((Function.update_of_ne hne.symm _ _).trans hnext)
  rw [Function.update_of_ne hne.symm, hpre] at hcell
  obtain ⟨heap₁, hset₁, h₁⟩ := h₀.exists_setNext (lastAddr list nodes) node
    (isSome_update hlast _ _)
  obtain ⟨heap₂, hset₂, h₂⟩ := h₁.exists_setPre node (lastAddr list nodes) (by simp [hnelast])
  obtain ⟨heap₃, hset₃, h₃⟩ := h₂.exists_setNext node list (by simp [hnelast])
  rw [Function.update_idem, update_update_comm hnelast] at h₃
  obtain ⟨heap₄, hset₄, h₄⟩ := h₃.exists_setPre list node
    (isSome_update (isSome_update hlist _ _) _ _)
  refine ⟨heap₄, ?_, h.linkIn hnew h₄.next_eq h₄.pre_eq h₄.data_eq⟩
  rw [linkTail, hload, ok_bind, ← Option.some.inj hcell, hset₁, ok_bind, hset₂, ok_bind, hset₃,
    ok_bind, hset₄]

/-- The test for an empty list. -/
lemma exists_load_alloc (h : LinkRing heap list nodes) (hfresh : heap.nextOf node = none)
    (data : α) :
    ∃ cell, (heap.alloc node data).load list = .ok cell ∧ (cell.next = list ↔ nodes = []) := by
  have hnew := notMem_of_fresh h hfresh
  have hne : list ≠ node := fun heq => hnew (heq ▸ List.mem_cons_self)
  have hlist := (show LinkRing heap list ([] ++ nodes) from h).follows.1
  obtain ⟨cell, hload, hcell, -⟩ := ((Heap.hasLinks_self heap).alloc node data).exists_load
    ((Function.update_of_ne hne _ _).trans hlist)
  refine ⟨cell, hload, ?_⟩
  rw [hcell]
  cases nodes with
  | nil => exact iff_of_true rfl rfl
  | cons p nodes => exact iff_of_false (h.ne_head List.mem_cons_self) (List.cons_ne_nil _ _)

/-- `insert_head_manager_list` is `cons`. -/
theorem insertHeadManagerList_spec (h : LinkRing heap list nodes) (hfresh : heap.nextOf node = none)
    (data : α) :
    ∃ heap', insertHeadManagerList (some node) heap list data = .ok heap' ∧
      LinkRing heap' list ((node, data) :: nodes) ∧
      ∀ a, (heap.nextOf a).isSome → (heap'.nextOf a).isSome := by
  obtain ⟨cell, hload, hempty⟩ := exists_load_alloc h hfresh data
  simp only [insertHeadManagerList, hload, ok_bind]
  split
  · rename_i hnext
    obtain rfl := hempty.mp hnext
    exact linkFirst_spec h hfresh data
  · exact linkHead_spec h hfresh data

/-- `insert_tail_manager_list` adds a node at the end. -/
theorem insertTailManagerList_spec (h : LinkRing heap list nodes) (hfresh : heap.nextOf node = none)
    (data : α) :
    ∃ heap', insertTailManagerList (some node) heap list data = .ok heap' ∧
      LinkRing heap' list (nodes ++ [(node, data)]) := by
  obtain ⟨cell, hload, hempty⟩ := exists_load_alloc h hfresh data
  simp only [insertTailManagerList, hload, ok_bind]
  split
  · rename_i hnext
    obtain rfl := hempty.mp hnext
    obtain ⟨heap', hlink, hring, -⟩ := linkFirst_spec h hfresh data
    exact ⟨heap', hlink, hring⟩
  · exact linkTail_spec h hfresh data

end Insert

/-! ### Traversals -/

section Traverse

variable {heap : Heap α} {list : ℕ} {pre post nodes : List (ℕ × α)}

/-- The traversals start at the first node. -/
lemma exists_load_head (h : LinkRing heap list nodes) :
    ∃ cell, heap.load list = .ok cell ∧ cell.next = firstAddr list nodes := by
  have hlist := (show LinkRing heap list ([] ++ nodes) from h).follows.1
  obtain ⟨cell, hload, hcell, -⟩ := (Heap.hasLinks_self heap).exists_load hlist
  exact ⟨cell, hload, hcell⟩

/-- The traversals read a node and go on to the next one. -/
lemma exists_load_node {p : ℕ × α} (h : LinkRing heap list (pre ++ p :: post)) :
    ∃ cell, heap.load p.1 = .ok cell ∧ cell.data = p.2 ∧ cell.next = firstAddr list post ∧
      cell.pre = lastAddr list pre := by
  obtain ⟨hnext, hpre, hdata⟩ := h.cell
  obtain ⟨cell, hload, hcell, hcellpre, hcelldata⟩ := (Heap.hasLinks_self heap).exists_load hnext
  rw [hpre] at hcellpre
  rw [hdata] at hcelldata
  exact ⟨cell, hload, (Option.some.inj hcelldata).symm, hcell, (Option.some.inj hcellpre).symm⟩

/-- A search from a cut on finds the first node behind it that is accepted. -/
lemma loop_searchBody (accepts : ℕ → α → Bool) {n : ℕ} (h : LinkRing heap list (pre ++ post))
    (hn : post.length < n) :
    loop (searchBody heap list accepts) n (firstAddr list post) =
      .done ((post.find? fun p => accepts p.1 p.2).map Prod.fst) := by
  induction post generalizing pre n with
  | nil =>
    obtain ⟨n, rfl⟩ := Nat.exists_eq_add_one.mpr hn
    exact loop_of_exit (show searchBody heap list accepts list = _ from if_pos rfl) n
  | cons p post ih =>
    obtain ⟨n, rfl⟩ := Nat.exists_eq_add_one.mpr (Nat.zero_lt_of_lt hn)
    have hne := h.ne_head (List.mem_append_right pre List.mem_cons_self)
    obtain ⟨cell, hload, hdata, hnext, -⟩ := exists_load_node h
    have hbody : searchBody heap list accepts p.1 =
        .ok (if accepts p.1 p.2 then .inr (some p.1) else .inl (firstAddr list post)) := by
      rw [searchBody, if_neg hne, hload, ok_bind, hdata, hnext]
      split <;> rfl
    cases hp : accepts p.1 p.2 with
    | true =>
      rw [hp, if_pos rfl] at hbody
      rw [List.find?_cons_of_pos (by exact hp)]
      exact loop_of_exit hbody n
    | false =>
      rw [hp, if_neg Bool.false_ne_true] at hbody
      rw [firstAddr_cons, loop_of_next hbody, List.find?_cons_of_neg (by rw [hp]; simp)]
      exact ih h.cut_succ (Nat.lt_of_succ_lt_succ hn)

/-- A search finds the first node that is accepted. -/
lemma searchList_spec (accepts : ℕ → α → Bool) {fuel : ℕ} (h : LinkRing heap list nodes)
    (hfuel : nodes.length < fuel) :
    searchList fuel heap list accepts =
      .done ((nodes.find? fun p => accepts p.1 p.2).map Prod.fst) := by
  obtain ⟨cell, hload, hcell⟩ := exists_load_head h
  rw [← loop_searchBody accepts (show LinkRing heap list ([] ++ nodes) from h) hfuel, ← hcell,
    searchList, hload]
  rfl

/-- A count from a cut on adds the nodes behind it that are accepted. -/
lemma loop_countBody (accepts : ℕ → α → Bool) {n count : ℕ} (h : LinkRing heap list (pre ++ post))
    (hn : post.length < n) :
    loop (countBody heap list accepts) n (count, firstAddr list post) =
      .done (count + post.countP fun p => accepts p.1 p.2) := by
  induction post generalizing pre n count with
  | nil =>
    obtain ⟨n, rfl⟩ := Nat.exists_eq_add_one.mpr hn
    exact loop_of_exit (show countBody heap list accepts (count, list) = _ from if_pos rfl) n
  | cons p post ih =>
    obtain ⟨n, rfl⟩ := Nat.exists_eq_add_one.mpr (Nat.zero_lt_of_lt hn)
    have hne := h.ne_head (List.mem_append_right pre List.mem_cons_self)
    obtain ⟨cell, hload, hdata, hnext, -⟩ := exists_load_node h
    have hbody : countBody heap list accepts (count, p.1) =
        .ok (.inl (if accepts p.1 p.2 then count + 1 else count, firstAddr list post)) := by
      rw [countBody, if_neg hne, hload, ok_bind, hdata, hnext]
      rfl
    rw [firstAddr_cons, loop_of_next hbody,
      ih h.cut_succ (Nat.lt_of_succ_lt_succ hn), List.countP_cons]
    cases accepts p.1 p.2 with
    | true => rw [if_pos rfl, if_pos rfl, Nat.add_assoc, Nat.add_comm 1]
    | false => rw [if_neg Bool.false_ne_true, if_neg Bool.false_ne_true, Nat.add_zero]

/-- A count counts the nodes that are accepted. -/
lemma countList_spec (accepts : ℕ → α → Bool) {fuel : ℕ} (h : LinkRing heap list nodes)
    (hfuel : nodes.length < fuel) :
    countList fuel heap list accepts = .done (nodes.countP fun p => accepts p.1 p.2) := by
  obtain ⟨cell, hload, hcell⟩ := exists_load_head h
  rw [← Nat.zero_add (List.countP _ _),
    ← loop_countBody accepts (show LinkRing heap list ([] ++ nodes) from h) hfuel, ← hcell,
    countList, hload]
  rfl

/-- The cleaning from a cut on frees the nodes behind it with their data.  The nodes in front of
the cut are freed already: what is left of the ring is unchanged from the cut on. -/
lemma loop_cleanBody {n : ℕ} (mem : ListMem α) (h : LinkRing heap list (pre ++ post))
    (hsame : ∀ a ∈ post.map Prod.fst ++ [list], mem.heap a = heap a) (hn : post.length < n) :
    ∃ heap', loop (cleanBody list) n (mem, firstAddr list post) =
      .done ⟨heap', mem.freed ++ post.map Prod.snd⟩ ∧ heap' list = heap list := by
  induction post generalizing pre n mem with
  | nil =>
    obtain ⟨n, rfl⟩ := Nat.exists_eq_add_one.mpr hn
    refine ⟨mem.heap, ?_, hsame list List.mem_cons_self⟩
    rw [List.map_nil, List.append_nil]
    exact loop_of_exit (show cleanBody list (mem, list) = _ from if_pos rfl) n
  | cons p post ih =>
    obtain ⟨n, rfl⟩ := Nat.exists_eq_add_one.mpr (Nat.zero_lt_of_lt hn)
    have hne := h.ne_head (List.mem_append_right pre List.mem_cons_self)
    obtain ⟨cell, hload, hdata, hnext, -⟩ := exists_load_node h
    have hload' : mem.heap.load p.1 = .ok cell := by
      rw [← hload, Heap.load, Heap.load, hsame p.1 List.mem_cons_self]
    have hbody : cleanBody list (mem, p.1) =
        .ok (.inl (⟨Function.update mem.heap p.1 none, mem.freed ++ [p.2]⟩,
          firstAddr list post)) := by
      simp only [cleanBody, if_neg hne, hload', ok_bind, Heap.release, hdata, hnext]
      rfl
    obtain ⟨-, hnodup, -⟩ := nodup_cut h.nodup
    rw [List.map_cons, List.cons_append, List.nodup_cons] at hnodup
    have hsame' : ∀ a ∈ post.map Prod.fst ++ [list],
        Function.update mem.heap p.1 none a = heap a := by
      intro a ha
      rw [Function.update_of_ne (ne_of_mem_of_not_mem ha hnodup.1)]
      exact hsame a (List.mem_cons_of_mem _ ha)
    obtain ⟨heap', hloop, hlist⟩ := ih ⟨Function.update mem.heap p.1 none, mem.freed ++ [p.2]⟩
      h.cut_succ hsame' (Nat.lt_of_succ_lt_succ hn)
    refine ⟨heap', ?_, hlist⟩
    rw [firstAddr_cons, loop_of_next hbody, hloop, List.append_assoc]
    rfl

/-- `init_manager_list` makes an empty ring. -/
lemma initManagerList_spec (h : (heap.nextOf list).isSome) :
    ∃ heap', initManagerList heap list = .ok heap' ∧ LinkRing heap' list [] := by
  obtain ⟨heap₁, hset₁, h₁⟩ := (Heap.hasLinks_self heap).exists_setNext list list h
  obtain ⟨heap₂, hset₂, h₂⟩ := h₁.exists_setPre list list (by simp)
  refine ⟨heap₂, ?_, ?_, List.nodup_singleton list, fun p hp => (List.not_mem_nil hp).elim⟩
  · rw [initManagerList, hset₁, ok_bind, hset₂]
  · refine List.isChain_pair.mpr ⟨?_, ?_⟩
    · rw [h₂.next_eq, Function.update_self]
    · rw [h₂.pre_eq, Function.update_self]

/-- `clean_manager_list` frees all nodes with their data. -/
theorem cleanManagerList_spec {mem : ListMem α} {fuel : ℕ} (h : LinkRing mem.heap list nodes)
    (hfuel : nodes.length < fuel) :
    ∃ heap', cleanManagerList fuel mem list = .done ⟨heap', mem.freed ++ nodes.map Prod.snd⟩ ∧
      LinkRing heap' list [] := by
  obtain ⟨cell, hload, hcell⟩ := exists_load_head h
  obtain ⟨heap₁, hloop, hlist⟩ := loop_cleanBody mem
    (show LinkRing mem.heap list ([] ++ nodes) from h) (fun _ _ => rfl) hfuel
  have hsome : (heap₁.nextOf list).isSome := by
    rw [Heap.nextOf, hlist]
    exact h.next_isSome List.mem_cons_self
  obtain ⟨heap', hinit, hring⟩ := initManagerList_spec hsome
  refine ⟨heap', ?_, hring⟩
  rw [← hcell] at hloop
  simp only [cleanManagerList, hload, Run.ofExcept, Run.done_bind, hloop, hinit]
  rfl

end Traverse

/-! ### Removal -/

section Remove

variable {heap : Heap α} {list : ℕ} {p : ℕ × α} {pre post nodes : List (ℕ × α)}

/-- A node of a list is none of its neighbours. -/
lemma ne_neighbours (h : LinkRing heap list (pre ++ p :: post)) :
    p.1 ≠ lastAddr list pre ∧ p.1 ≠ firstAddr list post := by
  obtain ⟨-, -, -, hback⟩ := nodup_cut h.nodup
  obtain ⟨-, -, hfront, -⟩ := nodup_cut h.cut_succ.nodup
  refine ⟨fun heq => ?_, fun heq => ?_⟩
  · exact hback p.1 List.mem_cons_self (heq ▸ lastAddr_mem list pre)
  · exact hfront p.1 (by simp) (heq ▸ firstAddr_mem list post)

/-- The neighbours of a node are allocated. -/
lemma neighbours_isSome (h : LinkRing heap list (pre ++ p :: post)) :
    (heap.nextOf (lastAddr list pre)).isSome ∧ (heap.nextOf (firstAddr list post)).isSome := by
  refine ⟨h.next_isSome ?_, h.next_isSome ?_⟩
  · have hmem := lastAddr_mem list pre
    rw [List.map_append, ← List.cons_append]
    exact List.mem_append_left _ hmem
  · have hmem := firstAddr_mem_cons list post
    rw [List.map_append, List.map_cons]
    rcases List.mem_cons.mp hmem with heq | hmem
    · rw [heq]
      exact List.mem_cons_self
    · exact List.mem_cons_of_mem _ (List.mem_append_right _ (List.mem_cons_of_mem _ hmem))

/-- The two links that pass over a node that is taken out. -/
lemma unlinkNode_spec (h : LinkRing heap list (pre ++ p :: post)) :
    ∃ heap', unlinkNode heap p.1 = .ok heap' ∧ heap'.HasLinks
      (Function.update heap.nextOf (lastAddr list pre) (some (firstAddr list post)))
      (Function.update heap.preOf (firstAddr list post) (some (lastAddr list pre)))
      heap.dataOf := by
  obtain ⟨hlast, hfirst⟩ := neighbours_isSome h
  obtain ⟨cell, hload, -, hnext, hpre⟩ := exists_load_node h
  obtain ⟨heap₁, hset₁, h₁⟩ := (Heap.hasLinks_self heap).exists_setNext (lastAddr list pre)
    (firstAddr list post) hlast
  have hcell := h.cell.1
  rw [← Function.update_of_ne (ne_neighbours h).1 (some (firstAddr list post)) heap.nextOf]
    at hcell
  obtain ⟨cell₁, hload₁, hnext₁, hpre₁, -⟩ := h₁.exists_load hcell
  rw [h.cell.2.1] at hpre₁
  obtain ⟨heap₂, hset₂, h₂⟩ := h₁.exists_setPre (firstAddr list post) (lastAddr list pre)
    (isSome_update hfirst _ _)
  refine ⟨heap₂, ?_, h₂⟩
  rw [unlinkNode, hload, ok_bind, hnext, hpre, hset₁, ok_bind, hload₁, ok_bind, hnext₁,
    ← Option.some.inj hpre₁, hset₂]

/-- The same in the other order. -/
lemma unlinkNodeBack_spec (h : LinkRing heap list (pre ++ p :: post)) :
    ∃ heap', unlinkNodeBack heap p.1 = .ok heap' ∧ heap'.HasLinks
      (Function.update heap.nextOf (lastAddr list pre) (some (firstAddr list post)))
      (Function.update heap.preOf (firstAddr list post) (some (lastAddr list pre)))
      heap.dataOf := by
  obtain ⟨hlast, hfirst⟩ := neighbours_isSome h
  obtain ⟨cell, hload, -, hnext, hpre⟩ := exists_load_node h
  obtain ⟨heap₁, hset₁, h₁⟩ := (Heap.hasLinks_self heap).exists_setPre (firstAddr list post)
    (lastAddr list pre) hfirst
  obtain ⟨cell₁, hload₁, hnext₁, hpre₁, -⟩ := h₁.exists_load h.cell.1
  rw [Function.update_of_ne (ne_neighbours h).2, h.cell.2.1] at hpre₁
  obtain ⟨heap₂, hset₂, h₂⟩ := h₁.exists_setNext (lastAddr list pre) (firstAddr list post) hlast
  refine ⟨heap₂, ?_, h₂⟩
  rw [unlinkNodeBack, hload, ok_bind, hnext, hpre, hset₁, ok_bind, hload₁, ok_bind, hnext₁,
    ← Option.some.inj hpre₁, hset₂]

/-- A node that has been taken out is still there, with its data. -/
lemma exists_load_unlinked {heap' : Heap α} (h : LinkRing heap list (pre ++ p :: post))
    (hlinks : heap'.HasLinks
      (Function.update heap.nextOf (lastAddr list pre) (some (firstAddr list post)))
      (Function.update heap.preOf (firstAddr list post) (some (lastAddr list pre)))
      heap.dataOf) :
    ∃ cell, heap'.load p.1 = .ok cell ∧ cell.data = p.2 := by
  obtain ⟨hnext, -, hdata⟩ := h.cell
  rw [← Function.update_of_ne (ne_neighbours h).1 (some (firstAddr list post)) heap.nextOf]
    at hnext
  obtain ⟨cell, hload, -, -, hcell⟩ := hlinks.exists_load hnext
  rw [hdata] at hcell
  exact ⟨cell, hload, (Option.some.inj hcell).symm⟩

/-- A node that has been taken out can be freed, and the ring is that of the others. -/
lemma exists_release_unlinked {heap' : Heap α} (h : LinkRing heap list (pre ++ p :: post))
    (hlinks : heap'.HasLinks
      (Function.update heap.nextOf (lastAddr list pre) (some (firstAddr list post)))
      (Function.update heap.preOf (firstAddr list post) (some (lastAddr list pre)))
      heap.dataOf) :
    ∃ heap₂, heap'.release p.1 = .ok heap₂ ∧ LinkRing heap₂ list (pre ++ post) := by
  have hsome := Option.isSome_of_eq_some h.cell.1
  obtain ⟨heap₂, hrelease, h₂⟩ := hlinks.exists_release p.1 (isSome_update hsome _ _)
  refine ⟨heap₂, hrelease, h.unlink (fun a ha => ?_) (fun a ha => ?_) fun a ha => ?_⟩
  · rw [h₂.next_eq, Function.update_of_ne ha]
  · rw [h₂.pre_eq, Function.update_of_ne ha]
  · rw [h₂.data_eq, Function.update_of_ne ha]

/-- Taking a node out and freeing it. -/
lemma unlinkNode_release_spec (h : LinkRing heap list (pre ++ p :: post)) :
    ∃ heap₁ heap₂ cell, unlinkNode heap p.1 = .ok heap₁ ∧ heap₁.load p.1 = .ok cell ∧
      cell.data = p.2 ∧ heap₁.release p.1 = .ok heap₂ ∧ LinkRing heap₂ list (pre ++ post) := by
  obtain ⟨heap₁, hunlink, h₁⟩ := unlinkNode_spec h
  obtain ⟨cell, hload, hcell⟩ := exists_load_unlinked h h₁
  obtain ⟨heap₂, hrelease, hring⟩ := exists_release_unlinked h h₁
  exact ⟨heap₁, heap₂, cell, hunlink, hload, hcell, hrelease, hring⟩

/-- The functions that look for a node first: without one they return 1 and do nothing. -/
lemma onFound_of_none {mem : ListMem α} {fuel : ℕ} {accepts : ℕ → α → Bool}
    (act : ℕ → Except Fault (ListMem α)) (h : LinkRing mem.heap list nodes)
    (hfuel : nodes.length < fuel) (hfind : (nodes.find? fun p => accepts p.1 p.2) = none) :
    onFound fuel mem list accepts act = .done (1, mem) := by
  rw [onFound, searchList_spec accepts h hfuel, Run.done_bind, hfind]
  rfl

/-- The functions that look for a node first: with one they return 0. -/
lemma onFound_of_some {mem mem' : ListMem α} {fuel : ℕ} {accepts : ℕ → α → Bool}
    {act : ℕ → Except Fault (ListMem α)} (h : LinkRing mem.heap list nodes)
    (hfuel : nodes.length < fuel) (hfind : (nodes.find? fun p => accepts p.1 p.2) = some p)
    (hact : act p.1 = .ok mem') : onFound fuel mem list accepts act = .done (0, mem') := by
  rw [onFound, searchList_spec accepts h hfuel, Run.done_bind, hfind]
  simp only [Option.map_some, hact]
  rfl

/-- What is found cuts the list in front of the first node that is accepted. -/
lemma exists_cut_of_find? {accepts : ℕ × α → Bool} (hfind : nodes.find? accepts = some p) :
    ∃ pre post, nodes = pre ++ p :: post ∧ nodes.eraseP accepts = pre ++ post := by
  obtain ⟨hp, pre, post, rfl, hpre⟩ := List.find?_eq_some_iff_append.mp hfind
  refine ⟨pre, post, rfl, ?_⟩
  rw [List.eraseP_append_right _ fun a ha => by simpa using hpre a ha,
    List.eraseP_cons_of_pos hp]

/-- `remove_head_manager_node` at a node of the list. -/
lemma removeHead_spec {fresh : ℕ} (h : LinkRing heap list (pre ++ p :: post))
    (hfresh : heap.nextOf fresh = none) :
    ∃ heap₁ cell heap₂ heap₃, unlinkNodeBack heap p.1 = .ok heap₁ ∧ heap₁.load p.1 = .ok cell ∧
      insertHeadManagerList (some fresh) heap₁ list cell.data = .ok heap₂ ∧
      heap₂.release p.1 = .ok heap₃ ∧ LinkRing heap₃ list ((fresh, p.2) :: (pre ++ post)) := by
  have hnew := notMem_of_fresh h hfresh
  have hsome := Option.isSome_of_eq_some h.cell.1
  have hnep : p.1 ≠ fresh := by
    rintro heq
    rw [heq, hfresh] at hsome
    cases hsome
  have hnelast : fresh ≠ lastAddr list pre := by
    rintro rfl
    exact Option.isSome_iff_ne_none.mp (neighbours_isSome h).1 hfresh
  obtain ⟨heap₁, hunlink, h₁⟩ := unlinkNodeBack_spec h
  obtain ⟨cell, hload, hcell⟩ := exists_load_unlinked h h₁
  have hring₁ : LinkRing heap₁ list (pre ++ post) :=
    h.unlink (fun a _ => by rw [h₁.next_eq])
      (fun a _ => by rw [h₁.pre_eq]) fun a _ => by rw [h₁.data_eq]
  have hfresh₁ : heap₁.nextOf fresh = none := by
    rw [h₁.next_eq, Function.update_of_ne hnelast, hfresh]
  obtain ⟨heap₂, hinsert, hring₂, hsome₂⟩ := insertHeadManagerList_spec hring₁ hfresh₁ cell.data
  have hsome₁ : (heap₁.nextOf p.1).isSome := by
    rw [h₁.next_eq]
    exact isSome_update hsome _ _
  obtain ⟨heap₃, hrelease, h₃⟩ :=
    (Heap.hasLinks_self heap₂).exists_release p.1 (hsome₂ p.1 hsome₁)
  refine ⟨heap₁, cell, heap₂, heap₃, hunlink, hload, hinsert, hrelease, ?_⟩
  rw [hcell] at hring₂
  refine hring₂.congr fun a ha => ?_
  have hne : a ≠ p.1 := by
    rintro rfl
    have hnodup := h.nodup
    rw [List.map_append, List.map_cons, ← List.cons_append, List.nodup_middle, List.nodup_cons,
      List.cons_append, ← List.map_append] at hnodup
    rcases List.mem_cons.mp ha with heq | ha
    · exact hnodup.1 (heq ▸ List.mem_cons_self)
    · rcases List.mem_cons.mp ha with heq | ha
      · exact hnep heq
      · exact hnodup.1 (List.mem_cons_of_mem _ ha)
  rw [h₃.next_eq, h₃.pre_eq, h₃.data_eq, Function.update_of_ne hne, Function.update_of_ne hne,
    Function.update_of_ne hne]
  exact ⟨rfl, rfl, rfl⟩

end Remove

/-! ### Sequences of calls -/

/-- The calls of the interface.  The calls that allocate a node carry its address, a callback is the
function that it computes. -/
inductive ListOp (α : Type)
  | insertHead (node : ℕ) (data : α)
  | insertTail (node : ℕ) (data : α)
  | remove (cb : ℕ → α → ℤ)
  | del (cb : ℕ → α → ℤ)
  | removeHead (node : ℕ) (parament : ℕ)
  | query (cb : Option (ℕ → α → ℤ))
  | count
  | countThe (cb : ℕ → α → ℤ)
  | clean

/-- What a call returns. -/
inductive ListAnswer
  | void
  | code (c : ℤ)
  | node (n : Option ℕ)
  | number (n : ℕ)
  deriving DecidableEq, Repr

/-- The allocator gives a call a cell that is not in use. -/
def ListOp.Fresh (heap : Heap α) : ListOp α → Prop
  | .insertHead node _ => heap node = none
  | .insertTail node _ => heap node = none
  | .removeHead node _ => heap node = none
  | _ => True

/-- A call on a list. -/
def ListOp.exec (list fuel : ℕ) (mem : ListMem α) : ListOp α → Run (ListAnswer × ListMem α)
  | .insertHead node data => do
    let heap ← Run.ofExcept (insertHeadManagerList (some node) mem.heap list data)
    return (.void, { mem with heap := heap })
  | .insertTail node data => do
    let heap ← Run.ofExcept (insertTailManagerList (some node) mem.heap list data)
    return (.void, { mem with heap := heap })
  | .remove cb => (removeManagerNode fuel mem list cb).map fun r => (.code r.1, r.2)
  | .del cb => (delManagerNode fuel mem list cb).map fun r => (.code r.1, r.2)
  | .removeHead node parament =>
    (removeHeadManagerNode (some node) fuel mem list parament).map fun r => (.code r.1, r.2)
  | .query cb => (queryHeadList fuel mem.heap list cb).map fun r => (.node r, mem)
  | .count => (countManagerList fuel mem.heap list).map fun r => (.number r, mem)
  | .countThe cb => (countTheManagerList fuel mem.heap list cb).map fun r => (.number r, mem)
  | .clean => (cleanManagerList fuel mem list).map fun mem' => (.void, mem')

/-- The nodes that a callback accepts. -/
def accepted (cb : Option (ℕ → α → ℤ)) (p : ℕ × α) : Bool :=
  matchesCb cb p.1 p.2

/-- What a call does to the sequence of the nodes, with their data pointers, and what it returns. -/
def ListOp.spec (nodes : List (ℕ × α)) : ListOp α → ListAnswer × List (ℕ × α)
  | .insertHead node data => (.void, (node, data) :: nodes)
  | .insertTail node data => (.void, nodes ++ [(node, data)])
  | .remove cb =>
    (.code (if nodes.any (accepted (some cb)) then 0 else 1), nodes.eraseP (accepted (some cb)))
  | .del cb =>
    (.code (if nodes.any (accepted (some cb)) then 0 else 1), nodes.eraseP (accepted (some cb)))
  | .removeHead node parament =>
    match nodes.find? fun p => parament == p.1 with
    | none => (.code 1, nodes)
    | some p => (.code 0, (node, p.2) :: nodes.eraseP fun p => parament == p.1)
  | .query cb => (.node ((nodes.find? (accepted cb)).map Prod.fst), nodes)
  | .count => (.number nodes.length, nodes)
  | .countThe cb => (.number (nodes.countP (accepted (some cb))), nodes)
  | .clean => (.void, [])

/-- The data that a call frees. -/
def ListOp.frees (nodes : List (ℕ × α)) : ListOp α → List α
  | .del cb => (nodes.find? (accepted (some cb))).toList.map Prod.snd
  | .clean => nodes.map Prod.snd
  | _ => []

section Data

variable (nodes : List (ℕ × α)) (f : α → Bool)

/-- A callback that looks at the data only. -/
def dataCb (_node : ℕ) (data : α) : ℤ :=
  if f data then 0 else 1

lemma accepted_dataCb (p : ℕ × α) : accepted (some (dataCb f)) p = f p.2 := by
  cases hp : f p.2 with
  | true => simp [accepted, matchesCb, dataCb, hp]
  | false => simp [accepted, matchesCb, dataCb, hp]

/-- The node that is found is the one at the position that is found. -/
lemma find?_eq_queryHeadList :
    (nodes.find? (accepted (some (dataCb f)))).map Prod.fst =
      (WiotaAp.queryHeadList (nodes.map Prod.snd) f).bind fun i => nodes[i]?.map Prod.fst := by
  unfold WiotaAp.queryHeadList
  induction nodes with
  | nil => rfl
  | cons p nodes ih =>
    rw [List.find?_cons, accepted_dataCb, List.map_cons, List.findIdx?_cons]
    cases f p.2 with
    | true => rfl
    | false =>
      rw [ih]
      cases hidx : (nodes.map Prod.snd).findIdx? f with
      | none => rfl
      | some i => rfl

variable {nodes}

/-- On the data alone the calls are the functions on the sequences of `ManagerList`, where a node is
given by its position. -/
theorem ListOp.spec_data {pre post : List (ℕ × α)} {a : ℕ} {d : α}
    (hnodes : nodes = pre ++ (a, d) :: post) (ha : a ∉ pre.map Prod.fst) (node : ℕ) (data : α) :
    ((ListOp.insertHead node data).spec nodes).2.map Prod.snd =
        WiotaAp.insertHeadManagerList true (nodes.map Prod.snd) data ∧
      .ok (((ListOp.insertTail node data).spec nodes).2.map Prod.snd) =
        WiotaAp.insertTailManagerList true (nodes.map Prod.snd) data ∧
      ((ListOp.query (some (dataCb f))).spec nodes).1 = .node
        ((WiotaAp.queryHeadList (nodes.map Prod.snd) f).bind fun i => nodes[i]?.map Prod.fst) ∧
      ((ListOp.countThe (dataCb f)).spec nodes).1 =
        .number (WiotaAp.countTheManagerList (nodes.map Prod.snd) f) ∧
      ((ListOp.remove fun n _ => if a = n then 0 else 1).spec nodes).2.map Prod.snd =
        WiotaAp.removeManagerNode (nodes.map Prod.snd) pre.length ∧
      ((ListOp.removeHead node a).spec nodes).2.map Prod.snd =
        WiotaAp.removeHeadManagerNode true (nodes.map Prod.snd) pre.length := by
  have hpre : ∀ p ∈ pre, a ≠ p.1 := fun p hp heq => ha (heq ▸ List.mem_map_of_mem hp)
  have hdata : nodes.map Prod.snd = pre.map Prod.snd ++ d :: post.map Prod.snd := by
    rw [hnodes, List.map_append, List.map_cons]
  have hlength : pre.length = (pre.map Prod.snd).length := (List.length_map _).symm
  refine ⟨rfl, ?_, ?_, ?_, ?_, ?_⟩
  · exact congrArg Except.ok List.map_append
  · exact congrArg ListAnswer.node (find?_eq_queryHeadList nodes f)
  · refine congrArg ListAnswer.number ?_
    rw [WiotaAp.countTheManagerList, List.countP_map]
    refine List.countP_congr fun p _ => ?_
    rw [accepted_dataCb]
    rfl
  · have herase : nodes.eraseP (accepted (some fun n _ => if a = n then 0 else 1)) =
        pre ++ post := by
      rw [hnodes, List.eraseP_append_right _ fun p hp => by simp [accepted, matchesCb, hpre p hp],
        List.eraseP_cons_of_pos (by simp [accepted, matchesCb])]
    rw [ListOp.spec, herase, hdata, hlength, removeManagerNode_cut, List.map_append]
  · have hfind : (nodes.find? fun p => a == p.1) = some (a, d) := by
      refine List.find?_eq_some_iff_append.mpr ⟨by simp, pre, post, hnodes, fun p hp => ?_⟩
      simp [hpre p hp]
    have herase : (nodes.eraseP fun p => a == p.1) = pre ++ post := by
      rw [hnodes, List.eraseP_append_right _ fun p hp => by simp [hpre p hp],
        List.eraseP_cons_of_pos (by simp)]
    simp only [ListOp.spec, hfind, herase]
    rw [hdata, hlength, removeHeadManagerNode_cut, List.map_cons, List.map_append]

end Data

section Calls

variable {mem : ListMem α} {list fuel : ℕ} {nodes : List (ℕ × α)} {p : ℕ × α}
  {accepts : ℕ × α → Bool}

/-- Nothing is accepted: the answer is 1 and the sequence stays. -/
lemma spec_of_find?_eq_none (hfind : nodes.find? accepts = none) :
    nodes.any accepts = false ∧ nodes.eraseP accepts = nodes := by
  rw [List.find?_eq_none] at hfind
  exact ⟨List.any_eq_false.mpr hfind, List.eraseP_of_forall_not hfind⟩

/-- Something is accepted: the answer is 0. -/
lemma any_of_find?_eq_some (hfind : nodes.find? accepts = some p) : nodes.any accepts = true :=
  List.any_eq_true.mpr ⟨p, List.mem_of_find?_eq_some hfind, List.find?_some hfind⟩

/-- The answer 1 says that nothing is accepted. -/
lemma any_eq_false_of_code
    (h : ListAnswer.code (if nodes.any accepts = true then 0 else 1) = .code 1) :
    nodes.any accepts = false := by
  cases hany : nodes.any accepts with
  | true => simp [hany] at h
  | false => rfl

/-- A call that answers 1 leaves the sequence. -/
lemma ListOp.spec_of_code_one {op : ListOp α}
    (h : (op.spec nodes).1 = .code 1) : (op.spec nodes).2 = nodes := by
  cases op with
  | remove cb =>
    exact List.eraseP_of_forall_not (List.any_eq_false.mp (any_eq_false_of_code h))
  | del cb => exact List.eraseP_of_forall_not (List.any_eq_false.mp (any_eq_false_of_code h))
  | removeHead node parament =>
    simp only [ListOp.spec] at h ⊢
    split at h
    · rfl
    · cases h
  | insertHead node data => cases h
  | insertTail node data => cases h
  | query cb => cases h
  | count => cases h
  | countThe cb => cases h
  | clean => cases h

/-- What is said of a call that terminates in `mem'`: it returns what the sequence says and leaves
the ring of the new sequence, and if it returns 1 it has done nothing. -/
structure ListOp.Done (op : ListOp α) (list fuel : ℕ) (mem : ListMem α) (nodes : List (ℕ × α))
    (mem' : ListMem α) : Prop where
  exec_eq : op.exec list fuel mem = .done ((op.spec nodes).1, mem')
  ring : LinkRing mem'.heap list (op.spec nodes).2
  freed_eq : mem'.freed = mem.freed ++ op.frees nodes
  same : (op.spec nodes).1 = .code 1 → mem' = mem

/-- The functions that take out the first node that a callback accepts and free it, each with what
it frees of the data: the answer is 1 and nothing is done if there is none. -/
lemma exists_onFound_release {act : ℕ → Except Fault (ListMem α)} {cb : ℕ → α → ℤ}
    {call : Run (ℤ × ListMem α)} (hcall : call = onFound fuel mem list (matchesCb (some cb)) act)
    (frees : α → List α) (h : LinkRing mem.heap list nodes) (hfuel : nodes.length < fuel)
    (hact : ∀ {node heap₁ heap₂ cell}, unlinkNode mem.heap node = .ok heap₁ →
      heap₁.load node = .ok cell → heap₁.release node = .ok heap₂ →
      act node = .ok ⟨heap₂, mem.freed ++ frees cell.data⟩) :
    ∃ mem', call = .done (if nodes.any (accepted (some cb)) then 0 else 1, mem') ∧
      LinkRing mem'.heap list (nodes.eraseP (accepted (some cb))) ∧
      mem'.freed =
        mem.freed ++ (nodes.find? (accepted (some cb))).toList.flatMap (fun p => frees p.2) ∧
      (nodes.any (accepted (some cb)) = false → mem' = mem) := by
  rw [hcall]
  cases hfind : nodes.find? (accepted (some cb)) with
  | none =>
    obtain ⟨hany, herase⟩ := spec_of_find?_eq_none hfind
    refine ⟨mem, ?_, ?_, (List.append_nil _).symm, fun _ => rfl⟩
    · rw [onFound_of_none _ h hfuel hfind, hany]
      rfl
    · rwa [herase]
  | some p =>
    obtain ⟨pre, post, rfl, herase⟩ := exists_cut_of_find? hfind
    obtain ⟨heap₁, heap₂, cell, hunlink, hload, hdata, hrelease, hring⟩ :=
      unlinkNode_release_spec h
    have hany := any_of_find?_eq_some hfind
    refine ⟨⟨heap₂, mem.freed ++ frees cell.data⟩, ?_, ?_, ?_, fun hnone => ?_⟩
    · rw [onFound_of_some h hfuel hfind (hact hunlink hload hrelease), hany]
      rfl
    · rwa [herase]
    · rw [hdata, Option.toList_some, List.flatMap_singleton]
    · rw [hany] at hnone
      cases hnone

/-- `remove_manager_node` takes out the first node that the callback accepts. -/
lemma remove_done (cb : ℕ → α → ℤ) (h : LinkRing mem.heap list nodes)
    (hfuel : nodes.length < fuel) :
    ∃ mem', (ListOp.remove cb).Done list fuel mem nodes mem' := by
  have hcall : removeManagerNode fuel mem list cb = onFound fuel mem list _ _ := rfl
  obtain ⟨mem', hrun, hring, hfreed, hsame⟩ :=
    exists_onFound_release hcall (fun _ => []) h hfuel fun hunlink _ hrelease => by
      rw [hunlink, ok_bind, hrelease, List.append_nil]
      rfl
  refine ⟨mem', ?_, hring, ?_, fun hcode => hsame (any_eq_false_of_code hcode)⟩
  · rw [ListOp.exec, hrun]
    rfl
  · rw [hfreed]
    cases nodes.find? (accepted (some cb)) with
    | none => rfl
    | some p => rfl

/-- `del_manager_node` frees the data as well. -/
lemma del_done (cb : ℕ → α → ℤ) (h : LinkRing mem.heap list nodes) (hfuel : nodes.length < fuel) :
    ∃ mem', (ListOp.del cb).Done list fuel mem nodes mem' := by
  have hcall : delManagerNode fuel mem list cb = onFound fuel mem list _ _ := rfl
  obtain ⟨mem', hrun, hring, hfreed, hsame⟩ :=
    exists_onFound_release hcall (fun d => [d]) h hfuel fun hunlink hload hrelease => by
      rw [hunlink, ok_bind, hload, ok_bind, hrelease]
      rfl
  refine ⟨mem', ?_, hring, ?_, fun hcode => hsame (any_eq_false_of_code hcode)⟩
  · rw [ListOp.exec, hrun]
    rfl
  · rw [hfreed, ListOp.frees]
    cases nodes.find? (accepted (some cb)) with
    | none => rfl
    | some p => rfl

/-- `remove_head_manager_node` moves the data of the given node to the front. -/
lemma removeHead_done {node : ℕ} (parament : ℕ) (h : LinkRing mem.heap list nodes)
    (hfresh : mem.heap.nextOf node = none) (hfuel : nodes.length < fuel) :
    ∃ mem', (ListOp.removeHead node parament).Done list fuel mem nodes mem' := by
  cases hfind : nodes.find? fun p => parament == p.1 with
  | none =>
    refine ⟨mem, ?_, ?_, (List.append_nil _).symm, fun _ => rfl⟩
    · have hrun : removeHeadManagerNode (some node) fuel mem list parament = .done (1, mem) :=
        onFound_of_none _ h hfuel hfind
      simp only [ListOp.exec, hrun, ListOp.spec, hfind]
      rfl
    · rwa [ListOp.spec, hfind]
  | some p =>
    obtain ⟨pre, post, hnodes, herase⟩ := exists_cut_of_find? hfind
    obtain ⟨heap₁, cell, heap₂, heap₃, hunlink, hload, hinsert, hrelease, hring⟩ :=
      removeHead_spec (hnodes ▸ h) hfresh
    refine ⟨{ mem with heap := heap₃ }, ?_, ?_, (List.append_nil _).symm, fun hcode => ?_⟩
    · have hrun : removeHeadManagerNode (some node) fuel mem list parament =
          .done (0, { mem with heap := heap₃ }) := by
        refine onFound_of_some h hfuel hfind ?_
        rw [hunlink, ok_bind, hload, ok_bind, hinsert, ok_bind, hrelease]
        rfl
      simp only [ListOp.exec, hrun, ListOp.spec, hfind]
      rfl
    · simp only [ListOp.spec, hfind]
      rwa [herase]
    · simp [ListOp.spec, hfind] at hcode

/-- One call on a ring. -/
theorem ListOp.exists_done (op : ListOp α) (h : LinkRing mem.heap list nodes)
    (hfresh : op.Fresh mem.heap) (hfuel : nodes.length < fuel) :
    ∃ mem', op.Done list fuel mem nodes mem' := by
  have hnone : ∀ {node : ℕ}, mem.heap node = none → mem.heap.nextOf node = none := by
    intro node hnode
    rw [Heap.nextOf, hnode, Option.map_none]
  cases op with
  | insertHead node data =>
    obtain ⟨heap', hinsert, hring, -⟩ := insertHeadManagerList_spec h (hnone hfresh) data
    refine ⟨{ mem with heap := heap' }, ?_, hring, (List.append_nil _).symm, fun hcode => ?_⟩
    · rw [ListOp.exec, hinsert]
      rfl
    · cases hcode
  | insertTail node data =>
    obtain ⟨heap', hinsert, hring⟩ := insertTailManagerList_spec h (hnone hfresh) data
    refine ⟨{ mem with heap := heap' }, ?_, hring, (List.append_nil _).symm, fun hcode => ?_⟩
    · rw [ListOp.exec, hinsert]
      rfl
    · cases hcode
  | remove cb => exact remove_done cb h hfuel
  | del cb => exact del_done cb h hfuel
  | removeHead node parament => exact removeHead_done parament h (hnone hfresh) hfuel
  | query cb =>
    refine ⟨mem, ?_, h, (List.append_nil _).symm, fun _ => rfl⟩
    rw [ListOp.exec, queryHeadList, searchList_spec _ h hfuel]
    rfl
  | count =>
    refine ⟨mem, ?_, h, (List.append_nil _).symm, fun _ => rfl⟩
    rw [ListOp.exec, countManagerList, countList_spec _ h hfuel, List.countP_true]
    rfl
  | countThe cb =>
    refine ⟨mem, ?_, h, (List.append_nil _).symm, fun _ => rfl⟩
    rw [ListOp.exec, countTheManagerList, countList_spec _ h hfuel]
    rfl
  | clean =>
    obtain ⟨heap', hclean, hring⟩ := cleanManagerList_spec h hfuel
    refine ⟨⟨heap', mem.freed ++ nodes.map Prod.snd⟩, ?_, hring, rfl, fun hcode => ?_⟩
    · rw [ListOp.exec, hclean]
      rfl
    · cases hcode

end Calls

/-- The memories that sequences of calls behind `init_manager_list` lead to. -/
inductive ListRun (list : ℕ) : List (ListOp α) → ListMem α → Prop
  | init {heap heap' : Heap α} (hinit : initManagerList heap list = .ok heap') :
      ListRun list [] ⟨heap', []⟩
  | call {ops : List (ListOp α)} {op : ListOp α} {mem mem' : ListMem α} {answer : ListAnswer}
      (hrun : ListRun list ops mem) (hfresh : op.Fresh mem.heap)
      (hexec : Terminates (fun fuel => op.exec list fuel mem) (answer, mem')) :
      ListRun list (ops ++ [op]) mem'

/-- The sequence of nodes behind a sequence of calls. -/
def nodesAfter (ops : List (ListOp α)) : List (ℕ × α) :=
  ops.foldl (fun nodes op => (op.spec nodes).2) []

/-- Behind every sequence of calls the nodes form one ring. -/
theorem ListRun.ring {list : ℕ} {ops : List (ListOp α)} {mem : ListMem α}
    (hrun : ListRun list ops mem) : LinkRing mem.heap list (nodesAfter ops) := by
  induction hrun with
  | @init heap heap' hinit =>
    obtain ⟨heap₁, hset, -⟩ := exists_of_bind_eq_ok hinit
    obtain ⟨cell, hload, -⟩ := exists_of_bind_eq_ok hset
    have hsome : (heap.nextOf list).isSome := by
      rw [Heap.load] at hload
      rw [Heap.nextOf]
      cases hcell : heap list with
      | none =>
        rw [hcell] at hload
        cases hload
      | some cell => rfl
    obtain ⟨heap₂, hinit₂, hring⟩ := initManagerList_spec hsome
    rw [hinit] at hinit₂
    cases hinit₂
    exact hring
  | @call ops op mem mem' answer hrun hfresh hexec ih =>
    -- the call is compared with the specification at a number of rounds that is enough for both
    obtain ⟨n, hn⟩ := hexec
    obtain ⟨m, hdone⟩ := op.exists_done ih hfresh (Nat.lt_of_succ_le (le_max_right n _))
    have heq := (hn _ (le_max_left n _)).symm.trans hdone.exec_eq
    cases heq
    rw [nodesAfter, List.foldl_append]
    exact hdone.ring

/-- The lists of the manager are sequences.  Behind every sequence of calls the nodes form one
circular doubly linked list, in which following `next` and following `pre` meets the same nodes in
opposite orders; its nodes are those of the sequence that the calls have made, and every next call
terminates, returns what it returns on the sequence, and leaves the list of the new sequence. -/
theorem manager_list_sequence (list : ℕ) (ops : List (ListOp α)) (mem : ListMem α)
    (hrun : ListRun list ops mem) :
    LinkRing mem.heap list (nodesAfter ops) ∧
      (∀ n > (nodesAfter ops).length,
        followLinks mem.heap.nextOf list n list = some ((nodesAfter ops).map Prod.fst) ∧
        followLinks mem.heap.preOf list n list = some ((nodesAfter ops).map Prod.fst).reverse) ∧
      ∀ op : ListOp α, op.Fresh mem.heap → ∀ fuel > (nodesAfter ops).length,
        ∃ mem', op.exec list fuel mem = .done ((op.spec (nodesAfter ops)).1, mem') ∧
          LinkRing mem'.heap list (op.spec (nodesAfter ops)).2 ∧
          mem'.freed = mem.freed ++ op.frees (nodesAfter ops) ∧
          ((op.spec (nodesAfter ops)).1 = .code 1 →
            mem' = mem ∧ (op.spec (nodesAfter ops)).2 = nodesAfter ops) := by
  have hring := hrun.ring
  refine ⟨hring, fun n hn => ⟨hring.followLinks_next hn, hring.followLinks_pre hn⟩, ?_⟩
  intro op hfresh fuel hfuel
  obtain ⟨mem', hexec, hring', hfreed, hsame⟩ := op.exists_done hring hfresh hfuel
  refine ⟨mem', hexec, hring', hfreed, fun hcode => ⟨hsame hcode, ?_⟩⟩
  exact ListOp.spec_of_code_one hcode

/-- Two nodes at 2 and 3; the data of the second is moved to the front in a new node at 4. -/
theorem manager_list_sequence_moved :
    ∃ mem : ListMem ℕ, ListRun 1 [.insertTail 2 5, .insertTail 3 7] mem ∧
      ∃ mem', (ListOp.removeHead 4 3).exec 1 3 mem = .done (.code 0, mem') ∧
        LinkRing mem'.heap 1 [(4, 7), (2, 5)] := by
  have hinit : ListRun 1 ([] : List (ListOp ℕ)) _ := .init
    (show initManagerList (Function.update (fun _ => none) 1 (some ⟨0, 0, 0⟩)) 1 = .ok _ from rfl)
  have hfirst : ListRun 1 [ListOp.insertTail 2 5] _ := hinit.call rfl ⟨0, fun _ _ => rfl⟩
  have hsecond : ListRun 1 [ListOp.insertTail 2 5, ListOp.insertTail 3 7] _ :=
    hfirst.call rfl ⟨0, fun _ _ => rfl⟩
  refine ⟨_, hsecond, ?_⟩
  obtain ⟨-, -, hnext⟩ := manager_list_sequence 1 _ _ hsecond
  obtain ⟨mem', hexec, hring, -⟩ := hnext (ListOp.removeHead 4 3) rfl 3 (by decide)
  exact ⟨mem', hexec, hring⟩

end Linked

end WiotaAp
