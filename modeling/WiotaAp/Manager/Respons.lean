import WiotaAp.Foundation.Logs
import WiotaAp.Foundation.Runs
import WiotaAp.Manager.NetMessager

/-!
# Responses to network requests

The segments of a request to one device share a record, and `manager_network_to_wiota_result` counts
it down with every result.  The last result sends the response and frees the record.

The system takes requests and results in any order.  Each record has an account: the results that
were counted, and the operations that are still without one.  `ResponseInv` says that the record and
the responses are what the results make of them, and `oneResponse_of_run` that every destination of
every request gets one response, at its last result and with the right value.
-/

namespace WiotaAp

open Buffers

/-! ### The result function -/

/-- `manager_network_to_wiota_result`: the records, and the calls of
`manager_response_message_result` with their result and number.  A record that has been freed must
not be used. -/
def managerNetworkToWiotaResult (heap : SegmentHeap) (op : OperationData) :
    Except Fault (SegmentHeap × List (ℕ × UInt32)) :=
  match op.segment with
  | some segment =>
    match heap[segment]? with
    | some (some record) =>
      let state := if op.state = managerSendFail then managerSendFail else record.state
      let remaining := record.remaining - 1
      if remaining = 0 then
        .ok (heap.set segment none,
          if serverDefaultAddress = op.srcAddress then [(state, op.requestNumber)] else [])
      else .ok (heap.set segment (some ⟨state, remaining⟩), [])
    | _ => .error .outOfBounds
  | none =>
    .ok (heap, if serverDefaultAddress = op.srcAddress then [(op.state, op.requestNumber)] else [])

/-! ### Requests and results -/

/-- The requests, their operations and the responses.  `requests` has the number and the number of
segments for each record, and `outstanding` the operations without a result.  The results and the
responses are logged with the record of their operation. -/
structure ResponseState where
  heap : SegmentHeap
  requests : List (UInt32 × ℕ)
  outstanding : List OperationData
  results : List (Option ℕ × ℕ)
  responses : List (Option ℕ × ℕ × UInt32)
  deriving DecidableEq, Repr

/-- The state before the first request. -/
def ResponseState.init : ResponseState :=
  ⟨[], [], [], [], []⟩

/-- What can happen: a request from the network, with the ids that the devices have at that time, or
the result of an operation. -/
inductive ResponseEvent
  | request (queryWiotaid : UInt32 → UInt32) (page : FromNetworkMessage)
  | result (op : OperationData) (state : ℕ)

/-- The operations for single devices among the calls. -/
def operationsOf (calls : List (List NetAction)) : List OperationData :=
  calls.flatten.filterMap fun
    | .operationMsg data => some data
    | _ => none

/-- The responses among the calls; they belong to no record. -/
def responsesOf (calls : List (List NetAction)) : List (Option ℕ × ℕ × UInt32) :=
  calls.flatten.filterMap fun
    | .response result number => some (none, result, number)
    | _ => none

/-- The state after the calls for the destinations `dests` of a request. -/
def ResponseState.record (s : ResponseState) (page : FromNetworkMessage) (dests : List UInt32)
    (heap : SegmentHeap) (calls : List (List NetAction)) : ResponseState :=
  { s with
    heap := heap
    requests := s.requests ++ dests.map fun dest => (page.requestNumber, destTotal page dest)
    outstanding := s.outstanding ++ operationsOf calls
    responses := s.responses ++ responsesOf calls }

/-- A request is sent to its destinations, or a result is counted. -/
def responseStep (env : NetEnv) (event : ResponseEvent) (s : ResponseState) :
    Except Fault ResponseState :=
  match event with
  | .request queryWiotaid page => do
    let (heap, calls) ←
      managerSendMsgToWiota { env with queryWiotaid := queryWiotaid } page s.heap
    return s.record page page.destAddress heap calls
  | .result op state => do
    let (heap, responses) ← managerNetworkToWiotaResult s.heap { op with state := state }
    return { s with
      heap := heap
      outstanding := s.outstanding.erase op
      results := s.results ++ [(op.segment, state)]
      responses := s.responses ++ responses.map (Prod.mk op.segment) }

/-- A destination is a single device, and the text is split into 2 to 255 segments for it. -/
structure SplitDest (page : FromNetworkMessage) (dest : UInt32) : Prop where
  not_broadcast : isBroadcast dest = false
  two_le : 2 ≤ destTotal page dest
  le_255 : destTotal page dest ≤ 255

instance (page : FromNetworkMessage) (dest : UInt32) : Decidable (SplitDest page dest) :=
  decidable_of_iff (isBroadcast dest = false ∧ 2 ≤ destTotal page dest ∧ destTotal page dest ≤ 255)
    ⟨fun h => ⟨h.1, h.2.1, h.2.2⟩, fun h => ⟨h.1, h.2, h.3⟩⟩

/-- Requests are to single devices and are split; a result, success or failure, is one of an
operation that has none. -/
def ResponseGuard (_ : List ResponseEvent) (event : ResponseEvent) (s : ResponseState) : Prop :=
  match event with
  | .request _ page => ∀ dest ∈ page.destAddress, SplitDest page dest
  | .result op state =>
    op ∈ s.outstanding ∧ (state = managerSendSuccess ∨ state = managerSendFail)

instance (events : List ResponseEvent) (event : ResponseEvent) (s : ResponseState) :
    Decidable (ResponseGuard events event s) :=
  match event with
  | .request _ page => List.decidableBAll (SplitDest page) page.destAddress
  | .result _ _ => inferInstanceAs (Decidable (_ ∧ _))

/-! ### The account of a record -/

/-- The result of a request with the results `results` of its segments. -/
def overall (results : List ℕ) : ℕ :=
  if managerSendFail ∈ results then managerSendFail else managerSendSuccess

/-- The record of a request with `total` segments after the results `results`. -/
def recordAfter (total : ℕ) (results : List ℕ) : Option SegmentRecord :=
  if results.length < total then
    some ⟨overall results, UInt8.ofNat (total - results.length)⟩
  else none

/-- The responses to a request with `total` segments after the results `results`. -/
def responsesAfter (number : UInt32) (total : ℕ) (results : List ℕ) : List (ℕ × UInt32) :=
  if results.length = total then [(overall results, number)] else []

/-- A failure is kept. -/
lemma overall_snoc (results : List ℕ) (state : ℕ) :
    overall (results ++ [state]) =
      if state = managerSendFail then managerSendFail else overall results := by
  unfold overall
  by_cases hstate : state = managerSendFail
  · rw [if_pos hstate, if_pos (List.mem_append_right _ (List.mem_singleton.mpr hstate.symm))]
  · have hmem : managerSendFail ∈ results ++ [state] ↔ managerSendFail ∈ results := by
      rw [List.mem_append, List.mem_singleton, or_iff_left (Ne.symm hstate)]
    rw [if_neg hstate]
    exact if_congr hmem rfl rfl

/-- There is no response before the last result. -/
lemma responsesAfter_of_lt (number : UInt32) {total : ℕ} {results : List ℕ}
    (hlt : results.length < total) : responsesAfter number total results = [] :=
  if_neg (ne_of_lt hlt)

/-- Counting down one result. -/
lemma counter_succ_sub_one (n : ℕ) : UInt8.ofNat (n + 1) - 1 = UInt8.ofNat n := by
  rw [UInt8.ofNat_add]
  exact add_sub_cancel_right _ _

/-- A number of results that fits into the counter is zero when the counter is. -/
lemma counter_eq_zero_iff {n : ℕ} (hn : n ≤ 255) : UInt8.ofNat n = 0 ↔ n = 0 := by
  constructor
  · intro hzero
    have htoNat := congrArg UInt8.toNat hzero
    rw [UInt8.toNat_ofNat_of_lt' (Nat.lt_succ_of_le hn)] at htoNat
    exact htoNat
  · rintro rfl
    rfl

/-- What one result does to the record of its operation. -/
lemma managerNetworkToWiotaResult_eq {heap : SegmentHeap} {op : OperationData} {segment : ℕ}
    (hsegment : op.segment = some segment) (hsrc : serverDefaultAddress = op.srcAddress)
    {total : ℕ} {results : List ℕ} (hheap : heap[segment]? = some (recordAfter total results))
    (hlt : results.length < total) (hle : total ≤ 255) (state : ℕ) :
    managerNetworkToWiotaResult heap { op with state := state } =
      .ok (heap.set segment (recordAfter total (results ++ [state])),
        responsesAfter op.requestNumber total (results ++ [state])) := by
  obtain ⟨rest, rfl⟩ := Nat.exists_eq_add_of_lt hlt
  have hsub : results.length + rest + 1 - results.length = rest + 1 := by omega
  have hsub' : results.length + rest + 1 - (results.length + 1) = rest := by omega
  rw [recordAfter, if_pos hlt, hsub] at hheap
  unfold managerNetworkToWiotaResult recordAfter responsesAfter
  simp only [hsegment, hheap, counter_succ_sub_one, overall_snoc, List.length_append,
    List.length_singleton, if_pos hsrc, hsub', counter_eq_zero_iff (show rest ≤ 255 by omega)]
  by_cases hrest : rest = 0
  · subst hrest
    rw [if_pos rfl, if_neg (lt_irrefl _), if_pos rfl]
  · have hmore : results.length + 1 < results.length + rest + 1 := by omega
    rw [if_neg hrest, if_pos hmore, if_neg (ne_of_lt hmore)]

/-- The account of a record: its results and its operations without a result are together all
segments, and the record and the responses are what the results make of them. -/
structure Account (s : ResponseState) (segment : ℕ) (number : UInt32) (total : ℕ) : Prop where
  le_255 : total ≤ 255
  sum_eq : s.outstanding.countP (fun op => op.segment = some segment) +
    (entriesOf s.results (some segment)).length = total
  heap_eq : s.heap[segment]? = some (recordAfter total (entriesOf s.results (some segment)))
  responses_eq : entriesOf s.responses (some segment) =
    responsesAfter number total (entriesOf s.results (some segment))

/-- The invariant of requests and results. -/
structure ResponseInv (s : ResponseState) : Prop where
  length_eq : s.requests.length = s.heap.length
  account : ∀ (segment : ℕ) number total, s.requests[segment]? = some (number, total) →
    Account s segment number total
  outstanding : ∀ op ∈ s.outstanding, ∃ segment total, op.segment = some segment ∧
    s.requests[segment]? = some (op.requestNumber, total) ∧ serverDefaultAddress = op.srcAddress
  fresh : ∀ segment, s.requests.length ≤ segment →
    entriesOf s.results (some segment) = [] ∧ entriesOf s.responses (some segment) = []
  other : entriesOf s.responses none = []

/-- The invariant holds before the first request. -/
lemma responseInv_init : ResponseInv ResponseState.init where
  length_eq := rfl
  account := fun _ _ _ h => by cases h
  outstanding := fun _ h => by cases h
  fresh := fun _ _ => ⟨rfl, rfl⟩
  other := rfl

/-! ### A request -/

section Request

variable {env : NetEnv} {page : FromNetworkMessage} {dest : UInt32}

/-- A text of several segments is split. -/
lemma SplitDest.isSplit (h : SplitDest page dest) : IsSplit page dest := by
  by_contra hsplit
  have hle : page.text.length ≤ maxLen (isBroadcast dest) := not_lt.mp hsplit
  have hpos := maxLen_pos (isBroadcast dest)
  have htwo := h.two_le
  unfold destTotal at htwo
  rw [Nat.le_div_iff_mul_le hpos] at htwo
  omega

/-- The operations for a destination. -/
def destOps (env : NetEnv) (page : FromNetworkMessage) (segment : ℕ) (dest : UInt32) :
    List OperationData :=
  (destChunks page dest).mapIdx (segmentOp env page segment dest)

/-- There is an operation for each segment. -/
lemma length_destOps (env : NetEnv) (page : FromNetworkMessage) (segment : ℕ) (dest : UInt32) :
    (destOps env page segment dest).length = destTotal page dest := by
  unfold destOps
  rw [List.length_mapIdx, destChunks, length_chunks (maxLen_pos _) le_rfl]
  rfl

/-- The operations for a destination belong to its record and to the request. -/
lemma of_mem_destOps {segment : ℕ} {op : OperationData}
    (hop : op ∈ destOps env page segment dest) : op.segment = some segment ∧
      op.requestNumber = page.requestNumber ∧ serverDefaultAddress = op.srcAddress := by
  obtain ⟨k, hk, rfl⟩ := List.mem_mapIdx.mp hop
  exact ⟨rfl, rfl, rfl⟩

/-- The calls for a destination are its operations, and there is no response among them. -/
lemma SplitDest.calls_eq (h : SplitDest page dest) (env : NetEnv) (segment : ℕ) :
    operationsOf [destActions env page segment dest] = destOps env page segment dest ∧
      responsesOf [destActions env page segment dest] = [] := by
  unfold operationsOf responsesOf
  rw [destActions_of_split env segment h.not_broadcast h.isSplit, List.flatten_singleton,
    List.filterMap_map, List.filterMap_map]
  exact ⟨List.filterMap_some, List.filterMap_eq_nil_iff.mpr fun _ _ => rfl⟩

/-- The state with a new record, for a request with the number `number` and the operations `ops` of
its `total` segments. -/
def ResponseState.openRecord (s : ResponseState) (number : UInt32) (total : ℕ)
    (ops : List OperationData) : ResponseState :=
  { s with
    heap := s.heap ++ [recordAfter total []]
    requests := s.requests ++ [(number, total)]
    outstanding := s.outstanding ++ ops }

/-- The calls for one destination open a record. -/
lemma SplitDest.record_eq (h : SplitDest page dest) (env : NetEnv) (s : ResponseState) :
    s.record page [dest] (destHeap page s.heap dest) [destActions env page s.heap.length dest] =
      s.openRecord page.requestNumber (destTotal page dest)
        (destOps env page s.heap.length dest) := by
  have hpos : ([] : List ℕ).length < destTotal page dest := lt_of_lt_of_le Nat.two_pos h.two_le
  obtain ⟨hops, hresponses⟩ := h.calls_eq env s.heap.length
  unfold ResponseState.record ResponseState.openRecord destHeap
  rw [hops, hresponses, if_pos h.isSplit, List.append_nil, recordAfter, if_pos hpos]
  rfl

/-- The operations for a destination are counted for its record only. -/
lemma countP_destOps (env : NetEnv) (page : FromNetworkMessage) (segment segment' : ℕ)
    (dest : UInt32) :
    (destOps env page segment dest).countP (fun op => op.segment = some segment') =
      if segment = segment' then destTotal page dest else 0 := by
  split
  · rename_i heq
    rw [← length_destOps env page segment dest]
    refine List.countP_eq_length.mpr fun op hop => ?_
    exact decide_eq_true ((of_mem_destOps hop).1.trans (congrArg some heq))
  · rename_i hne
    refine List.countP_eq_zero.mpr fun op hop => ?_
    rw [decide_eq_true_iff, (of_mem_destOps hop).1]
    exact fun heq => hne (Option.some.inj heq)

/-- An operation without a result belongs to a record that is there. -/
lemma ResponseInv.countP_fresh {s : ResponseState} (hinv : ResponseInv s) {segment : ℕ}
    (hle : s.requests.length ≤ segment) :
    s.outstanding.countP (fun op => op.segment = some segment) = 0 := by
  refine List.countP_eq_zero.mpr fun op hop => ?_
  obtain ⟨segment', total, hsegment, hrequest, -⟩ := hinv.outstanding op hop
  have hlt : segment' < s.requests.length := (List.getElem?_eq_some_iff.mp hrequest).1
  rw [decide_eq_true_iff, hsegment]
  exact fun heq => absurd (Option.some.inj heq) (by omega)

/-- The account of a new record: there is no result yet. -/
lemma ResponseInv.account_openRecord {s : ResponseState} (hinv : ResponseInv s)
    (h : SplitDest page dest) (number : UInt32) (env : NetEnv) :
    Account (s.openRecord number (destTotal page dest) (destOps env page s.heap.length dest))
      s.requests.length number (destTotal page dest) := by
  have hpos : ([] : List ℕ).length < destTotal page dest := lt_of_lt_of_le Nat.two_pos h.two_le
  obtain ⟨hresults, hresponses⟩ := hinv.fresh s.requests.length le_rfl
  unfold ResponseState.openRecord
  refine ⟨h.le_255, ?_, ?_, ?_⟩
  · rw [List.countP_append, countP_destOps, if_pos hinv.length_eq.symm, hinv.countP_fresh le_rfl,
      hresults, Nat.zero_add]
    rfl
  · rw [hresults, hinv.length_eq, List.getElem?_concat_length]
  · rw [hresponses, hresults]
    exact (responsesAfter_of_lt _ hpos).symm

/-- The other accounts stay as they are. -/
lemma Account.openRecord {s : ResponseState} {segment : ℕ} {number number' : UInt32} {total : ℕ}
    (h : Account s segment number total) (total' : ℕ) (env : NetEnv) (page : FromNetworkMessage)
    (dest : UInt32) :
    Account (s.openRecord number' total' (destOps env page s.heap.length dest)) segment number
      total := by
  obtain ⟨hle, hsum, hheap, hresponses⟩ := h
  have hlt : segment < s.heap.length := (List.getElem?_eq_some_iff.mp hheap).1
  unfold ResponseState.openRecord
  refine ⟨hle, ?_, ?_, hresponses⟩
  · rw [List.countP_append, countP_destOps, if_neg (ne_of_gt hlt)]
    exact hsum
  · rwa [List.getElem?_append_left hlt]

/-- The invariant is kept by the calls for one destination. -/
lemma ResponseInv.sendToDest {s : ResponseState} (hinv : ResponseInv s)
    (h : SplitDest page dest) (env : NetEnv) :
    ResponseInv (s.record page [dest] (destHeap page s.heap dest)
      [destActions env page s.heap.length dest]) := by
  rw [h.record_eq env s]
  refine ⟨?_, ?_, ?_, ?_, hinv.other⟩
  · unfold ResponseState.openRecord
    rw [List.length_append, List.length_append, hinv.length_eq]
    rfl
  · intro segment number total hrequest
    change (s.requests ++ [_])[segment]? = _ at hrequest
    rcases Nat.lt_or_ge segment s.requests.length with hlt | hge
    · rw [List.getElem?_append_left hlt] at hrequest
      exact (hinv.account segment number total hrequest).openRecord _ env page dest
    · have hlast : segment = s.requests.length := by
        have hlt := (List.getElem?_eq_some_iff.mp hrequest).1
        rw [List.length_append, List.length_singleton] at hlt
        exact le_antisymm (Nat.le_of_lt_succ hlt) hge
      subst hlast
      rw [List.getElem?_concat_length] at hrequest
      obtain ⟨rfl, rfl⟩ := Prod.mk.inj (Option.some.inj hrequest)
      exact hinv.account_openRecord h page.requestNumber env
  · intro op hop
    rcases List.mem_append.mp hop with hop | hop
    · obtain ⟨segment, total, hsegment, hrequest, hsrc⟩ := hinv.outstanding op hop
      have hlt : segment < s.requests.length := (List.getElem?_eq_some_iff.mp hrequest).1
      exact ⟨segment, total, hsegment, (List.getElem?_append_left hlt).trans hrequest, hsrc⟩
    · obtain ⟨hsegment, hnumber, hsrc⟩ := of_mem_destOps hop
      refine ⟨s.heap.length, destTotal page dest, hsegment, ?_, hsrc⟩
      rw [ResponseState.openRecord, ← hinv.length_eq, List.getElem?_concat_length, hnumber]
  · intro segment hle
    unfold ResponseState.openRecord at hle
    rw [List.length_append] at hle
    exact hinv.fresh segment (le_trans (Nat.le_add_right _ _) hle)

/-- The calls for the destinations are recorded one after the other. -/
lemma ResponseState.record_cons (s : ResponseState) (page : FromNetworkMessage) (dest : UInt32)
    (dests : List UInt32) (heap heap' : SegmentHeap) (actions : List NetAction)
    (calls : List (List NetAction)) :
    s.record page (dest :: dests) heap' (actions :: calls) =
      (s.record page [dest] heap [actions]).record page dests heap' calls := by
  simp [ResponseState.record, operationsOf, responsesOf]

/-- The invariant is kept by the calls for all destinations. -/
lemma ResponseInv.sendToDests {s : ResponseState} (hinv : ResponseInv s) {dests : List UInt32}
    (h : ∀ dest ∈ dests, SplitDest page dest) (env : NetEnv) (hmalloc : ∀ n, env.malloc n = true) :
    ∃ heap calls, WiotaAp.sendToDests env page s.heap dests = .ok (heap, calls) ∧
      ResponseInv (s.record page dests heap calls) := by
  induction dests generalizing s with
  | nil =>
    have hnil : s.record page [] s.heap [] = s := by
      simp [ResponseState.record, operationsOf, responsesOf]
    refine ⟨s.heap, [], rfl, ?_⟩
    rwa [hnil]
  | cons dest dests ih =>
    obtain ⟨hdest, hdests⟩ := List.forall_mem_cons.mp h
    have hfirst := hinv.sendToDest hdest env
    obtain ⟨heap, calls, hrun, hrest⟩ := ih hfirst hdests
    refine ⟨heap, destActions env page s.heap.length dest :: calls, ?_, ?_⟩
    · rw [WiotaAp.sendToDests, sendToDest_eq hmalloc, ok_bind]
      simp only [show WiotaAp.sendToDests env page (destHeap page s.heap dest) dests =
        .ok (heap, calls) from hrun, ok_bind]
      rfl
    · rwa [s.record_cons page dest dests (destHeap page s.heap dest)]

end Request

/-! ### A result -/

/-- The state after the result `state` of the operation `op` of a record. -/
def ResponseState.enter (s : ResponseState) (segment total : ℕ) (op : OperationData)
    (state : ℕ) : ResponseState :=
  let results := entriesOf s.results (some segment) ++ [state]
  { s with
    heap := s.heap.set segment (recordAfter total results)
    outstanding := s.outstanding.erase op
    results := s.results ++ [(some segment, state)]
    responses := s.responses ++
      (responsesAfter op.requestNumber total results).map (Prod.mk (some segment)) }

section Result

variable {s : ResponseState} {op : OperationData} {segment : ℕ}

/-- The operation of a result is taken from those of its record. -/
lemma countP_outstanding_erase (hop : op ∈ s.outstanding) (hsegment : op.segment = some segment)
    (segment' : ℕ) :
    (s.outstanding.erase op).countP (fun op => op.segment = some segment') =
      s.outstanding.countP (fun op => op.segment = some segment') -
        if segment = segment' then 1 else 0 := by
  rw [List.countP_erase]
  simp [hop, hsegment]

/-- As long as an operation is without a result, not all results are there. -/
lemma Account.results_lt {number : UInt32} {total : ℕ} (h : Account s segment number total)
    (hop : op ∈ s.outstanding) (hsegment : op.segment = some segment) :
    (entriesOf s.results (some segment)).length < total := by
  have hpos : 0 < s.outstanding.countP fun op => op.segment = some segment :=
    List.countP_pos_iff.mpr ⟨op, hop, decide_eq_true hsegment⟩
  have hsum := h.sum_eq
  omega

/-- The result is entered into the account of its record. -/
lemma Account.enter {total : ℕ} (h : Account s segment op.requestNumber total)
    (hop : op ∈ s.outstanding) (hsegment : op.segment = some segment) (state : ℕ) :
    Account (s.enter segment total op state) segment op.requestNumber total := by
  have hlt := h.results_lt hop hsegment
  obtain ⟨hle, hsum, hheap, hresponses⟩ := h
  have hbound : segment < s.heap.length := (List.getElem?_eq_some_iff.mp hheap).1
  unfold ResponseState.enter
  refine ⟨hle, ?_, ?_, ?_⟩
  · rw [entriesOf_snoc_self, countP_outstanding_erase hop hsegment, if_pos rfl, List.length_append,
      List.length_singleton]
    omega
  · rw [entriesOf_snoc_self, List.getElem?_set_self hbound]
  · rw [entriesOf_append_self, entriesOf_snoc_self, hresponses, responsesAfter_of_lt _ hlt,
      List.nil_append]

/-- The other accounts stay as they are. -/
lemma Account.enter_of_ne {segment' : ℕ} {number' : UInt32} {total' : ℕ}
    (h : Account s segment' number' total') (hop : op ∈ s.outstanding)
    (hsegment : op.segment = some segment) (hne : segment ≠ segment') (total state : ℕ) :
    Account (s.enter segment total op state) segment' number' total' := by
  have hkey : some segment' ≠ some segment := fun heq => hne (Option.some.inj heq).symm
  obtain ⟨hle, hsum, hheap, hresponses⟩ := h
  unfold ResponseState.enter
  refine ⟨hle, ?_, ?_, ?_⟩
  · rw [entriesOf_snoc_of_ne _ hkey, countP_outstanding_erase hop hsegment, if_neg hne]
    exact hsum
  · rw [entriesOf_snoc_of_ne _ hkey, List.getElem?_set_ne hne]
    exact hheap
  · rw [entriesOf_append_of_ne _ hkey, entriesOf_snoc_of_ne _ hkey]
    exact hresponses

/-- The invariant is kept when a result is entered. -/
lemma ResponseInv.enter (hinv : ResponseInv s) {total : ℕ}
    (hrequest : s.requests[segment]? = some (op.requestNumber, total)) (hop : op ∈ s.outstanding)
    (hsegment : op.segment = some segment) (state : ℕ) :
    ResponseInv (s.enter segment total op state) := by
  have hlt : segment < s.requests.length := (List.getElem?_eq_some_iff.mp hrequest).1
  refine ⟨?_, ?_, ?_, ?_, ?_⟩
  · unfold ResponseState.enter
    rw [List.length_set, hinv.length_eq]
  · intro segment' number' total' hrequest'
    by_cases heq : segment = segment'
    · subst heq
      obtain ⟨rfl, rfl⟩ := Prod.mk.inj (Option.some.inj (hrequest.symm.trans hrequest'))
      exact (hinv.account segment _ total hrequest).enter hop hsegment state
    · exact (hinv.account segment' number' total' hrequest').enter_of_ne hop hsegment heq total
        state
  · intro op' hop'
    exact hinv.outstanding op' (List.mem_of_mem_erase hop')
  · intro segment' hle
    have hne : some segment' ≠ some segment :=
      fun heq => absurd (Option.some.inj heq) (Nat.ne_of_gt (lt_of_lt_of_le hlt hle))
    unfold ResponseState.enter
    rw [entriesOf_snoc_of_ne _ hne, entriesOf_append_of_ne _ hne]
    exact hinv.fresh segment' hle
  · unfold ResponseState.enter
    rw [entriesOf_append_of_ne _ (Option.some_ne_none segment).symm]
    exact hinv.other

/-- The result of an operation is entered into the account of its record. -/
lemma ResponseInv.result (hinv : ResponseInv s) (hop : op ∈ s.outstanding) (state : ℕ)
    (env : NetEnv) : ∃ s', responseStep env (.result op state) s = .ok s' ∧ ResponseInv s' := by
  obtain ⟨segment, total, hsegment, hrequest, hsrc⟩ := hinv.outstanding op hop
  have haccount := hinv.account segment _ total hrequest
  refine ⟨s.enter segment total op state, ?_, hinv.enter hrequest hop hsegment state⟩
  rw [responseStep, managerNetworkToWiotaResult_eq hsegment hsrc haccount.heap_eq
    (haccount.results_lt hop hsegment) haccount.le_255 state, ok_bind, hsegment]
  rfl

end Result

/-! ### Every run -/

/-- The invariant is kept by every event that is admitted, and no such event faults. -/
lemma ResponseInv.step {env : NetEnv} (hmalloc : ∀ n, env.malloc n = true) {s : ResponseState}
    (hinv : ResponseInv s) {events : List ResponseEvent} {event : ResponseEvent}
    (hguard : ResponseGuard events event s) :
    ∃ s', responseStep env event s = .ok s' ∧ ResponseInv s' := by
  cases event with
  | request queryWiotaid page =>
    obtain ⟨heap, calls, hrun, hnext⟩ :=
      hinv.sendToDests hguard { env with queryWiotaid := queryWiotaid } hmalloc
    refine ⟨_, ?_, hnext⟩
    rw [responseStep, managerSendMsgToWiota, hrun]
    rfl
  | result op state => exact hinv.result hguard.1 state env

/-- In every run of requests to single devices, each split into 2 to 255 segments, and of results of
their segments in any order, no admitted event faults.  The operations of a record without a result
and those with one are together its segments.  There is no response for it as long as an operation
is without a result; with the last result there is one, with the number of the request, and it is a
failure exactly if one of the segments failed.  There are no other responses. -/
theorem oneResponse_of_run (env : NetEnv) (hmalloc : ∀ n, env.malloc n = true)
    {events : List ResponseEvent} {s : ResponseState}
    (hrun : GuardedRun (responseStep env) ResponseGuard ResponseState.init events s) :
    (∀ event, ResponseGuard events event s → ∃ s', responseStep env event s = .ok s') ∧
    (∀ (segment : ℕ) number total, s.requests[segment]? = some (number, total) →
      s.outstanding.countP (fun op => op.segment = some segment) +
        (entriesOf s.results (some segment)).length = total ∧
      entriesOf s.responses (some segment) =
        if s.outstanding.countP (fun op => op.segment = some segment) = 0 then
          [(if managerSendFail ∈ entriesOf s.results (some segment) then managerSendFail
            else managerSendSuccess, number)]
        else []) ∧
    ∀ entry ∈ s.responses, ∃ segment < s.requests.length, entry.1 = some segment := by
  have hinv : ResponseInv s := by
    refine hrun.invariant (P := fun _ s => ResponseInv s) responseInv_init ?_
    intro events event s s' hinv hguard hstep
    obtain ⟨s'', hstep', hnext⟩ := hinv.step hmalloc hguard
    cases hstep.symm.trans hstep'
    exact hnext
  refine ⟨fun event hguard => ?_, fun segment number total hrequest => ?_, fun entry hentry => ?_⟩
  · obtain ⟨s', hstep, -⟩ := hinv.step hmalloc hguard
    exact ⟨s', hstep⟩
  · obtain ⟨-, hsum, -, hresponses⟩ := hinv.account segment number total hrequest
    refine ⟨hsum, ?_⟩
    rw [hresponses, responsesAfter]
    exact if_congr (by omega) rfl rfl
  · have hmem := mem_entriesOf hentry
    cases htag : entry.1 with
    | none =>
      rw [htag, hinv.other] at hmem
      cases hmem
    | some segment =>
      refine ⟨segment, ?_, rfl⟩
      by_contra hge
      rw [htag, (hinv.fresh segment (not_lt.mp hge)).2] at hmem
      cases hmem

/-- A request of two segments to one device. -/
def twoSegmentPage : FromNetworkMessage :=
  samplePage 1 (List.replicate 295 0x61)

/-- The request, the failure of its second segment and the success of its first one. -/
def twoSegmentEvents : List ResponseEvent :=
  [.request id twoSegmentPage,
    .result (segmentOp sampleEnv twoSegmentPage 0 1 1 [0x61]) managerSendFail,
    .result (segmentOp sampleEnv twoSegmentPage 0 1 0 (List.replicate 294 0x61)) managerSendSuccess]

/-- The request gets one response, a failure. -/
theorem oneResponse_two :
    ∃ s, GuardedRun (responseStep sampleEnv) ResponseGuard ResponseState.init twoSegmentEvents s ∧
      entriesOf s.responses (some 0) = [(managerSendFail, 1)] := by
  have hexec : (execGuarded (responseStep sampleEnv) ResponseGuard [] twoSegmentEvents
      ResponseState.init).map (fun s => (s.requests, s.outstanding, s.results)) =
        some ([(1, 2)], [], [(some 0, managerSendFail), (some 0, managerSendSuccess)]) := by
    decide +kernel
  obtain ⟨s, hs, hfields⟩ := Option.map_eq_some_iff.mp hexec
  obtain ⟨hrequests, hrest⟩ := Prod.mk.inj hfields
  obtain ⟨houtstanding, hresults⟩ := Prod.mk.inj hrest
  have hrun := guardedRun_of_exec hs
  obtain ⟨-, haccount, -⟩ := oneResponse_of_run sampleEnv (fun _ => rfl) hrun
  obtain ⟨-, hresponses⟩ := haccount 0 1 2 (by rw [hrequests]; rfl)
  refine ⟨s, hrun, ?_⟩
  rw [hresponses, houtstanding, hresults]
  rfl

end WiotaAp
