import WiotaAp.Manager.WiotaFrame
import WiotaAp.Platform.LinkedList

/-!
# Messages that are sent again

A message that is sent again is moved to the head of its list: `remove_head_manager_node` takes its
node out, `insert_head_manager_list` allocates a new one, and the old one is freed.  Nobody is told
when there is no memory for the new node.

`exists_removeHead` is the call on the cells of the heap for both outcomes of the allocation, and
says that it is the move on the sequence of the data.  `managerOperateResult_resend` is the use that
the operation task makes of it.
-/

namespace WiotaAp

open Buffers

/-! ### The move on the heap -/

namespace Linked

variable {α : Type} {mem : ListMem α} {list fuel : ℕ} {pre post : List (ℕ × α)} {p : ℕ × α}

/-- The node with an address is found by it. -/
lemma find?_addr {heap : Heap α} (h : LinkRing heap list (pre ++ p :: post)) :
    ((pre ++ p :: post).find? fun q => p.1 == q.1) = some p := by
  refine List.find?_eq_some_iff_append.mpr ⟨beq_self_eq_true p.1, pre, post, rfl, ?_⟩
  intro q hq
  obtain ⟨-, -, -, hback⟩ := nodup_cut h.nodup
  have hne : p.1 ≠ q.1 := by
    intro heq
    exact hback p.1 List.mem_cons_self (heq ▸ List.mem_cons_of_mem _ (List.mem_map_of_mem hq))
  simpa using hne

/-- Without memory for the new node, `remove_head_manager_node` takes the node out. -/
lemma removeHead_of_fail (h : LinkRing mem.heap list (pre ++ p :: post))
    (hfuel : (pre ++ p :: post).length < fuel) :
    ∃ mem', removeHeadManagerNode none fuel mem list p.1 = .done (0, mem') ∧
      LinkRing mem'.heap list (pre ++ post) := by
  obtain ⟨heap₁, hunlink, h₁⟩ := unlinkNodeBack_spec h
  obtain ⟨cell, hload, -⟩ := exists_load_unlinked h h₁
  obtain ⟨heap₂, hrelease, hring⟩ := exists_release_unlinked h h₁
  refine ⟨{ mem with heap := heap₂ }, ?_, hring⟩
  apply onFound_of_some h hfuel (find?_addr h)
  rw [hunlink, ok_bind, hload, ok_bind]
  simp only [insertHeadManagerList, ok_bind, hrelease]
  rfl

/-- `remove_head_manager_node` at a node of the list, for both outcomes of the allocation: on the
data it is the move in the sequence. -/
lemma exists_removeHead {malloc : Option ℕ} (hfresh : ∀ node, malloc = some node →
      mem.heap node = none)
    (h : LinkRing mem.heap list (pre ++ p :: post)) (hfuel : (pre ++ p :: post).length < fuel) :
    ∃ mem' nodes', removeHeadManagerNode malloc fuel mem list p.1 = .done (0, mem') ∧
      LinkRing mem'.heap list nodes' ∧
      nodes'.map Prod.snd = WiotaAp.removeHeadManagerNode malloc.isSome
        (pre.map Prod.snd ++ p.2 :: post.map Prod.snd) (pre.map Prod.snd).length := by
  cases malloc with
  | none =>
    obtain ⟨mem', hrun, hring⟩ := removeHead_of_fail h hfuel
    refine ⟨mem', pre ++ post, hrun, hring, ?_⟩
    rw [Option.isSome_none, removeHeadManagerNode_cut_of_fail, List.map_append]
  | some node =>
    have hnext : mem.heap.nextOf node = none := by
      rw [Heap.nextOf, hfresh node rfl, Option.map_none]
    obtain ⟨heap₁, cell, heap₂, heap₃, hunlink, hload, hinsert, hrelease, hring⟩ :=
      removeHead_spec h hnext
    refine ⟨{ mem with heap := heap₃ }, (node, p.2) :: (pre ++ post), ?_, hring, ?_⟩
    · refine onFound_of_some h hfuel (find?_addr h) ?_
      rw [hunlink, ok_bind, hload, ok_bind, hinsert, ok_bind, hrelease]
      rfl
    · rw [Option.isSome_some, removeHeadManagerNode_cut, List.map_cons, List.map_append]

end Linked

/-! ### The use by the operation task -/

section Resend

variable {malloc : Bool} {list pre post : List OperationPage} {process : OperationPage}
  {res : SendRecv}

/-- A failure that is not the last one: the message is sent again, with its count increased, and
moved to the head. -/
lemma managerOperateResult_resend (h : FirstFor list res.userId pre process post)
    (hres : res.result ≠ ucOpSucc) (hstate : process.data.state < 2) :
    managerOperateResult malloc list res =
      (removeHeadManagerNode malloc (pre ++ process.setState (process.data.state + 1) :: post)
        pre.length, [.sendData process]) := by
  have hquery : queryHeadList list (queryResultCallback res.userId) = some pre.length := by
    rw [h.list_eq]
    apply queryHeadList_cut
    · exact beq_iff_eq.mpr h.id_eq
    · intro d hd
      exact beq_eq_false_iff_ne.mpr (h.pre_ne d hd)
  have hlimit : ¬process.data.state > managerMaxSendNum - 2 := Nat.not_lt.mpr
    (Nat.le_of_lt_succ hstate)
  rw [managerOperateResult, hquery]
  simp only [h.list_eq, getElem?_cut, if_neg hres, if_neg hlimit, set_cut]

/-- A result that is about the message in a block finds it. -/
def FindsMessage (list : List OperationPage) (userId : UInt32) (block : ℕ) : Prop :=
  ∃ node page, queryHeadList list (queryResultCallback userId) = some node ∧
    list[node]? = some page ∧ page.block = block

/-- What is found is in the list. -/
lemma FindsMessage.mem {userId : UInt32} {block : ℕ} (h : FindsMessage list userId block) :
    block ∈ list.map OperationPage.block := by
  obtain ⟨node, page, -, hpage, rfl⟩ := h
  exact List.mem_map_of_mem (List.mem_of_getElem? hpage)

/-- The message is found at the head, or has been dropped. -/
lemma findsMessage_resend_iff (hid : process.data.id = res.userId)
    (hblock : process.block ∉ (pre ++ post).map OperationPage.block) (state : ℕ) :
    FindsMessage (removeHeadManagerNode malloc (pre ++ process.setState state :: post) pre.length)
        res.userId process.block ↔ malloc = true := by
  cases malloc with
  | false =>
    rw [removeHeadManagerNode_cut_of_fail]
    exact iff_of_false (fun hfound => hblock hfound.mem) Bool.false_ne_true
  | true =>
    rw [removeHeadManagerNode_cut]
    have hcallback : queryResultCallback res.userId (process.setState state) = true :=
      beq_iff_eq.mpr hid
    have hquery : queryHeadList ([] ++ process.setState state :: (pre ++ post))
        (queryResultCallback res.userId) = some 0 :=
      queryHeadList_cut hcallback fun d hd => absurd hd List.not_mem_nil
    exact iff_of_true ⟨0, process.setState state, hquery, rfl, rfl⟩ rfl

end Resend

/-- The message that is sent again.  `remove_head_manager_node` returns 0 for every node of a list,
whatever becomes of the allocation, and the list holds the same data pointers as before exactly if
it succeeds.  The operation task sends a message again in any case, and its result finds the message
exactly if the allocation has succeeded. -/
theorem retry_keeps_message_iff {α : Type} {mem : Linked.ListMem α} {list fuel : ℕ}
    {nodes : List (ℕ × α)} (hring : LinkRing mem.heap list nodes) (hfuel : nodes.length < fuel)
    {p : ℕ × α} (hp : p ∈ nodes) {malloc : Option ℕ}
    (hfresh : ∀ node, malloc = some node → mem.heap node = none) :
    (∃ mem' nodes', Linked.removeHeadManagerNode malloc fuel mem list p.1 = .done (0, mem') ∧
      LinkRing mem'.heap list nodes' ∧
      ((nodes'.map Prod.snd).Perm (nodes.map Prod.snd) ↔ malloc.isSome = true)) ∧
    ∀ (messages pre post : List OperationPage) (process : OperationPage) (res : SendRecv),
      FirstFor messages res.userId pre process post →
      process.block ∉ (pre ++ post).map OperationPage.block →
      res.result ≠ ucOpSucc → process.data.state < 2 →
      (managerOperateResult malloc.isSome messages res).2 = [.sendData process] ∧
        (FindsMessage (managerOperateResult malloc.isSome messages res).1 res.userId
          process.block ↔ malloc.isSome = true) := by
  constructor
  · obtain ⟨pre, post, rfl⟩ := List.append_of_mem hp
    obtain ⟨mem', nodes', hrun, hring', hdata⟩ := Linked.exists_removeHead hfresh hring hfuel
    refine ⟨mem', nodes', hrun, hring', ?_⟩
    rw [hdata, List.map_append, List.map_cons]
    exact removeHeadManagerNode_perm_iff _ _ _ _
  · intro messages pre post process res hfirst hblock hres hstate
    rw [managerOperateResult_resend hfirst hres hstate]
    exact ⟨rfl, findsMessage_resend_iff hfirst.id_eq hblock _⟩

/-- A list at 1 with two nodes, at 2 and 3. -/
def twoNodes : Linked.ListMem ℕ where
  heap
    | 1 => some ⟨0, 2, 3⟩
    | 2 => some ⟨5, 3, 1⟩
    | 3 => some ⟨7, 1, 2⟩
    | _ => none
  freed := []

lemma twoNodes_ring : LinkRing twoNodes.heap 1 [(2, 5), (3, 7)] := by
  refine ⟨?_, by decide, ?_⟩
  · -- every neighbour points back
    exact .cons_cons ⟨rfl, rfl⟩ (.cons_cons ⟨rfl, rfl⟩ (.cons_cons ⟨rfl, rfl⟩ (.singleton 1)))
  · intro p hp
    fin_cases hp
    · rfl
    · rfl

/-- The new node gets the address 4. -/
theorem retry_keeps_message_allocated :
    ∃ mem' nodes', Linked.removeHeadManagerNode (some 4) 3 twoNodes 1 3 = .done (0, mem') ∧
      LinkRing mem'.heap 1 nodes' ∧ (nodes'.map Prod.snd).Perm [5, 7] := by
  obtain ⟨⟨mem', nodes', hrun, hring, hperm⟩, -⟩ := retry_keeps_message_iff twoNodes_ring
    (show 2 < 3 by decide) (show (3, 7) ∈ [(2, 5), (3, 7)] by decide)
    (show ∀ node, some 4 = some node → twoNodes.heap node = none by
      rintro node ⟨⟩
      rfl)
  exact ⟨mem', nodes', hrun, hring, hperm.mpr rfl⟩

/-- A message for the device 9. -/
def lonelyMessage : OperationPage :=
  ⟨1, managerLogicSendToOperater 0 0 0 9 [] none none⟩

/-- Without memory for the new node, one of two nodes is left although the call returns 0.  A
message that is sent again is not found when its result comes. -/
theorem retry_drops_message :
    (∃ mem', Linked.removeHeadManagerNode none 3 twoNodes 1 3 = .done (0, mem') ∧
      Linked.countManagerList 3 mem'.heap 1 = .done 1) ∧
    managerOperateResult false [lonelyMessage] ⟨9, 1⟩ = ([], [.sendData lonelyMessage]) ∧
    managerOperateResult true [] ⟨9, ucOpSucc⟩ = ([], []) := by
  refine ⟨⟨_, rfl, rfl⟩, ?_, rfl⟩
  decide

end WiotaAp
