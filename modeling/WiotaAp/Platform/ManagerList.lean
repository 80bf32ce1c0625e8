import WiotaAp.Foundation.Slice

/-!
# The lists of the manager

`manager_list.c` keeps pointers to data in a circular doubly linked list.  Here such a list is the
sequence of what its nodes point to, and a node is its position in the sequence.  `malloc` says
whether the node that a function allocates can be allocated.

`exists_of_queryHeadList` cuts a list at the node that a query finds, and `exists_flatten_set` cuts
a table of lists at one of them.
-/

namespace WiotaAp

open Buffers

variable {α : Type}

/-- `insert_head_manager_list`, which drops the data if there is no memory for the node. -/
def insertHeadManagerList (malloc : Bool) (list : List α) (data : α) : List α :=
  if malloc then data :: list else list

/-- `insert_tail_manager_list`. -/
def insertTailManagerList (malloc : Bool) (list : List α) (data : α) : Except Fault (List α) :=
  if malloc then .ok (list ++ [data]) else .error .assertion

/-- `query_head_list`: the first node whose data the callback accepts. -/
def queryHeadList (list : List α) (cb : α → Bool) : Option ℕ :=
  list.findIdx? cb

/-- `count_the_manager_list`: the number of nodes whose data the callback accepts. -/
def countTheManagerList (list : List α) (cb : α → Bool) : ℕ :=
  list.countP cb

/-- `remove_manager_node` with a callback that compares the node. -/
def removeManagerNode (list : List α) (node : ℕ) : List α :=
  list.eraseIdx node

/-- `remove_head_manager_node`: the node is taken out, and a new one with its data put at the
head. -/
def removeHeadManagerNode (malloc : Bool) (list : List α) (node : ℕ) : List α :=
  match list[node]? with
  | none => list
  | some data => insertHeadManagerList malloc (list.eraseIdx node) data

/-- A node that a query finds cuts the list: it holds data that the callback accepts, and no node in
front of it does. -/
lemma exists_of_queryHeadList {list : List α} {cb : α → Bool} {node : ℕ}
    (h : queryHeadList list cb = some node) :
    ∃ pre data post, list = pre ++ data :: post ∧ node = pre.length ∧ cb data = true ∧
      ∀ d ∈ pre, cb d = false := by
  obtain ⟨hlt, hdata, hpre⟩ := List.findIdx?_eq_some_iff_getElem.mp h
  refine ⟨list.take node, list[node], list.drop (node + 1), ?_, ?_, hdata, ?_⟩
  · rw [List.cons_getElem_drop_succ, List.take_append_drop]
  · rw [List.length_take, Nat.min_eq_left (le_of_lt hlt)]
  · intro d hd
    obtain ⟨j, hj, rfl⟩ := List.mem_iff_getElem.mp hd
    rw [List.length_take] at hj
    rw [List.getElem_take]
    exact Bool.eq_false_iff.mpr (hpre j (lt_of_lt_of_le hj (Nat.min_le_left _ _)))

/-- A query finds nothing exactly if the callback accepts nothing. -/
lemma queryHeadList_eq_none {list : List α} {cb : α → Bool} :
    queryHeadList list cb = none ↔ ∀ d ∈ list, cb d = false :=
  List.findIdx?_eq_none_iff

/-- A query finds the first node that the callback accepts. -/
lemma queryHeadList_cut {pre post : List α} {data : α} {cb : α → Bool} (hdata : cb data = true)
    (hpre : ∀ d ∈ pre, cb d = false) :
    queryHeadList (pre ++ data :: post) cb = some pre.length := by
  have hnone : pre.findIdx? cb = none := List.findIdx?_eq_none_iff.mpr hpre
  rw [queryHeadList, List.findIdx?_append, hnone, List.findIdx?_cons, hdata]
  simp

section Cut

variable (pre post : List α) (data data' : α)

/-- The data of the node at a cut. -/
lemma getElem?_cut : (pre ++ data :: post)[pre.length]? = some data := by
  rw [List.getElem?_append_right le_rfl, Nat.sub_self, List.getElem?_cons_zero]

/-- Changing the data of the node at a cut. -/
lemma set_cut : (pre ++ data :: post).set pre.length data' = pre ++ data' :: post := by
  rw [List.set_append_right _ _ le_rfl, Nat.sub_self, List.set_cons_zero]

/-- Taking out the node at a cut. -/
lemma removeManagerNode_cut : removeManagerNode (pre ++ data :: post) pre.length = pre ++ post := by
  unfold removeManagerNode
  rw [List.eraseIdx_append_of_length_le le_rfl, Nat.sub_self, List.eraseIdx_cons_zero]

/-- Moving the node at a cut to the head. -/
lemma removeHeadManagerNode_cut :
    removeHeadManagerNode true (pre ++ data :: post) pre.length = data :: (pre ++ post) := by
  unfold removeHeadManagerNode
  rw [getElem?_cut]
  exact congrArg (data :: ·) (removeManagerNode_cut pre post data)

/-- Without memory for the new node, its data is gone. -/
lemma removeHeadManagerNode_cut_of_fail :
    removeHeadManagerNode false (pre ++ data :: post) pre.length = pre ++ post := by
  unfold removeHeadManagerNode
  rw [getElem?_cut]
  exact removeManagerNode_cut pre post data

/-- The move to the head keeps the data, up to the order, exactly if the new node can be
allocated. -/
lemma removeHeadManagerNode_perm_iff (malloc : Bool) :
    (removeHeadManagerNode malloc (pre ++ data :: post) pre.length).Perm (pre ++ data :: post) ↔
      malloc = true := by
  cases malloc with
  | false =>
    rw [removeHeadManagerNode_cut_of_fail]
    refine iff_of_false ?_ Bool.false_ne_true
    intro hperm
    have hlen := hperm.length_eq
    simp only [List.length_append, List.length_cons] at hlen
    omega
  | true =>
    rw [removeHeadManagerNode_cut]
    exact iff_of_true List.perm_middle.symm rfl

end Cut

/-- A list of a table cuts the sequence of all data, and changing it changes this part only. -/
lemma exists_flatten_set {table : List (List α)} {i : ℕ} {list : List α}
    (h : table[i]? = some list) :
    ∃ pre post, table.flatten = pre ++ (list ++ post) ∧
      ∀ list', (table.set i list').flatten = pre ++ (list' ++ post) := by
  obtain ⟨hlt, rfl⟩ := List.getElem?_eq_some_iff.mp h
  refine ⟨(table.take i).flatten, (table.drop (i + 1)).flatten, ?_, fun list' => ?_⟩
  · rw [← List.flatten_cons, List.cons_getElem_drop_succ, ← List.flatten_append,
      List.take_append_drop]
  · rw [List.set_eq_take_append_cons_drop, if_pos hlt, List.flatten_append, List.flatten_cons]

/-- Inserting at the head of a list of a table is inserting into all data, up to the order. -/
lemma flatten_insertHead_perm {table : List (List α)} {i : ℕ} {list : List α}
    (h : table[i]? = some list) (malloc : Bool) (data : α) :
    (table.set i (insertHeadManagerList malloc list data)).flatten.Perm
      (insertHeadManagerList malloc table.flatten data) := by
  obtain ⟨pre, post, hflatten, hset⟩ := exists_flatten_set h
  rw [hset, hflatten]
  cases malloc with
  | false => exact List.Perm.refl _
  | true => exact List.perm_middle

end WiotaAp
