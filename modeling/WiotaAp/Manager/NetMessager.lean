import WiotaAp.Foundation.Chunks
import WiotaAp.Manager.Codec
import WiotaAp.Manager.RecvMsg
import WiotaAp.Manager.WiotaFrame

/-!
# Messages from the network to the devices

`manager_send_msg_to_wiota` sends the text of a network request to each of its destinations.  A text
that is too long for one frame is cut into segments, which share a record that counts the results
still to come.  For a broadcast destination every frame is answered at once.

The calls that leave the function are recorded in order, destination by destination.
`sendToDests_eq` says what they are when allocations succeed, and `oneResponse_iff` for
which texts a broadcast request gets one response.
-/

namespace WiotaAp

open Buffers

/-! ### The functions -/

/-- `t_from_network_message`.  The text is followed by a zero byte in memory. -/
structure FromNetworkMessage where
  destAddress : List UInt32
  cmd : UInt32
  requestNumber : UInt32
  jsonData : List UInt8
  deriving DecidableEq, Repr

/-- The record that the segments of a message share: `segment[0]` is the result so far, `segment[1]`
the number of results to come. -/
structure SegmentRecord where
  state : ℕ
  remaining : UInt8
  deriving DecidableEq, Repr

/-- The segment records, by their addresses; a record that has been freed is `none`. -/
abbrev SegmentHeap := List (Option SegmentRecord)

/-- What the functions use from the rest of the system. -/
structure NetEnv where
  compress : List UInt8 → Option (List UInt8)
  malloc : ℕ → Bool
  queryWiotaid : UInt32 → UInt32

/-- The calls that leave the functions: `manager_logic_send_to_operater` with
`MANAGER_OPERATION_MSG` or `MANAGER_OPERATION_RADIO`, and `manager_response_message_result`. -/
inductive NetAction
  | operationMsg (data : OperationData)
  | operationRadio (data : OperationData)
  | response (result : ℕ) (number : UInt32)
  deriving DecidableEq, Repr

/-- `rt_strlen`. -/
def rtStrlen (text : List UInt8) : ℕ :=
  (text.takeWhile (· ≠ 0)).length

/-- The text of a request. -/
def FromNetworkMessage.text (page : FromNetworkMessage) : List UInt8 :=
  page.jsonData.take (rtStrlen page.jsonData)

/-- `AP_DEFAULT_RADIO_ADDRESS`. -/
def apDefaultRadioAddress : UInt32 := 0xDFFFFFFF

/-- `AP_MULTICAST_ADDRESS`. -/
def apMulticastAddress : UInt32 := 0xE0000000

/-- `is_broadcast`. -/
def isBroadcast (dest : UInt32) : Bool :=
  dest &&& apDefaultAddress == apDefaultAddress ||
    dest &&& apDefaultRadioAddress == apDefaultRadioAddress ||
    dest &&& apMulticastAddress == apMulticastAddress

/-- `max_len`. -/
def maxLen (broadcast : Bool) : ℕ :=
  if broadcast then 1024 - 16 else 310 - 16

/-- `manager_send_packet`: the header as the coder leaves it, and the calls. -/
def managerSendPacket (env : NetEnv) (psHeader : AppPsHeader) (segment : Option ℕ)
    (broadcast : Bool) (requestNumber : UInt32) (inputData : List UInt8) :
    Except Fault (AppPsHeader × List NetAction) := do
  match ← appDataCoding env.compress env.malloc psHeader inputData with
  | .failed _ => return (psHeader, [])
  | .coded psHeader outputData =>
    let send := managerLogicSendToOperater requestNumber psHeader.srcAddr
      psHeader.cmdType.toUInt32 (env.queryWiotaid psHeader.destAddr) outputData segment
    if broadcast = false then
      return (psHeader, [.operationMsg (send (some .managerNetworkToWiotaResult))])
    else
      return (psHeader,
        [.operationRadio (send none), .response managerSendSuccess requestNumber])

/-- `ps_header.segment_info.current_num++`. -/
def AppPsHeader.nextSegment (h : AppPsHeader) : AppPsHeader :=
  { h with currentNum := h.currentNum + 1 }

/-- The loop over the segments. -/
def sendSegments (env : NetEnv) (segment : Option ℕ) (broadcast : Bool) (requestNumber : UInt32) :
    ℕ → AppPsHeader → List UInt8 → Except Fault (List NetAction)
  | 0, _, _ => .ok []
  | fuel + 1, psHeader, inputData =>
    if inputData.length > 0 then do
      let segmentLen :=
        if inputData.length > maxLen broadcast then maxLen broadcast else inputData.length
      let (psHeader, actions) ← managerSendPacket env psHeader segment broadcast requestNumber
        (inputData.take segmentLen)
      let rest ← sendSegments env segment broadcast requestNumber fuel psHeader.nextSegment
        (inputData.drop segmentLen)
      return actions ++ rest
    else .ok []

/-- The header for a destination. -/
def destHeader (page : FromNetworkMessage) (dest : UInt32) : AppPsHeader where
  property :=
    { reserved := false
      compressFlag := false
      segmentFlag := false
      responseFlag := false
      isNeedRes := !isBroadcast dest
      isPacketNum := false
      isDestAddr := true
      isSrcAddr := true }
  srcAddr := serverDefaultAddress
  destAddr := dest
  packetNum := page.requestNumber.toUInt8
  totalNum := 0
  currentNum := 0
  cmdType := page.cmd.toUInt8

/-- The header of the first of `totalNum` segments. -/
def AppPsHeader.segmented (h : AppPsHeader) (totalNum : UInt8) : AppPsHeader :=
  { h with
    property := { h.property with segmentFlag := true, isPacketNum := true }
    totalNum := totalNum
    currentNum := 0 }

/-- The body of the loop of `manager_send_msg_to_wiota`: the records and the calls for one
destination. -/
def sendToDest (env : NetEnv) (page : FromNetworkMessage) (heap : SegmentHeap) (dest : UInt32) :
    Except Fault (SegmentHeap × List NetAction) :=
  let inputData := page.text
  let broadcast := isBroadcast dest
  let psHeader := destHeader page dest
  if inputData.length > maxLen broadcast then
    let totalNum :=
      UInt8.ofNat ((inputData.length + maxLen broadcast - 1) / maxLen broadcast)
    -- the record is written without looking at the result of the allocation
    if env.malloc 4 = false then .error .outOfBounds
    else do
      let actions ← sendSegments env (some heap.length) broadcast page.requestNumber
        inputData.length (psHeader.segmented totalNum) inputData
      return (heap ++ [some ⟨managerSendSuccess, totalNum⟩], actions)
  else do
    let (_, actions) ← managerSendPacket env psHeader none broadcast page.requestNumber inputData
    return (heap, actions)

/-- The loop of `manager_send_msg_to_wiota` over the destinations. -/
def sendToDests (env : NetEnv) (page : FromNetworkMessage) :
    SegmentHeap → List UInt32 → Except Fault (SegmentHeap × List (List NetAction))
  | heap, [] => .ok (heap, [])
  | heap, dest :: dests => do
    let (heap, actions) ← sendToDest env page heap dest
    let (heap, rest) ← sendToDests env page heap dests
    return (heap, actions :: rest)

/-- `manager_send_msg_to_wiota`: the records, and the calls for each destination. -/
def managerSendMsgToWiota (env : NetEnv) (page : FromNetworkMessage) (heap : SegmentHeap) :
    Except Fault (SegmentHeap × List (List NetAction)) :=
  sendToDests env page heap page.destAddress

/-! ### The calls for a destination -/

/-- The data of an operation with a frame. -/
def packetOp (env : NetEnv) (psHeader : AppPsHeader) (segment : Option ℕ) (requestNumber : UInt32)
    (data : List UInt8) (func : Option ResultFunction) : OperationData :=
  managerLogicSendToOperater requestNumber psHeader.srcAddr psHeader.cmdType.toUInt32
    (env.queryWiotaid psHeader.destAddr) (psHeader.bytes ++ data) segment func

/-- The calls for one frame. -/
def packetActions (env : NetEnv) (psHeader : AppPsHeader) (segment : Option ℕ) (broadcast : Bool)
    (requestNumber : UInt32) (data : List UInt8) : List NetAction :=
  if broadcast = false then
    [.operationMsg (packetOp env psHeader segment requestNumber data
      (some .managerNetworkToWiotaResult))]
  else
    [.operationRadio (packetOp env psHeader segment requestNumber data none),
      .response managerSendSuccess requestNumber]

/-- The header of the segment `k`. -/
def AppPsHeader.atSegment (h : AppPsHeader) (k : ℕ) : AppPsHeader :=
  { h with currentNum := h.currentNum + UInt8.ofNat k }

/-- `total_num` of the segments for a destination. -/
def destTotal (page : FromNetworkMessage) (dest : UInt32) : ℕ :=
  (page.text.length + maxLen (isBroadcast dest) - 1) / maxLen (isBroadcast dest)

/-- The text is too long for one frame to the destination. -/
def IsSplit (page : FromNetworkMessage) (dest : UInt32) : Prop :=
  page.text.length > maxLen (isBroadcast dest)

instance (page : FromNetworkMessage) (dest : UInt32) : Decidable (IsSplit page dest) :=
  inferInstanceAs (Decidable (_ > _))

/-- The pieces of the text for a destination. -/
def destChunks (page : FromNetworkMessage) (dest : UInt32) : List (List UInt8) :=
  chunks (maxLen (isBroadcast dest)) page.text.length page.text

/-- The header of the segment `k` for a destination. -/
def segmentHeader (page : FromNetworkMessage) (dest : UInt32) (k : ℕ) : AppPsHeader :=
  ((destHeader page dest).segmented (UInt8.ofNat (destTotal page dest))).atSegment k

/-- The calls for a destination; `segment` is the address of the record. -/
def destActions (env : NetEnv) (page : FromNetworkMessage) (segment : ℕ) (dest : UInt32) :
    List NetAction :=
  if IsSplit page dest then
    ((destChunks page dest).mapIdx fun k data =>
      packetActions env (segmentHeader page dest k) (some segment) (isBroadcast dest)
        page.requestNumber data).flatten
  else
    packetActions env (destHeader page dest) none (isBroadcast dest) page.requestNumber page.text

/-- The records after the calls for a destination. -/
def destHeap (page : FromNetworkMessage) (heap : SegmentHeap) (dest : UInt32) : SegmentHeap :=
  if IsSplit page dest then
    heap ++ [some ⟨managerSendSuccess, UInt8.ofNat (destTotal page dest)⟩]
  else heap

/-- A frame has room for some data. -/
lemma maxLen_pos (broadcast : Bool) : 0 < maxLen broadcast := by
  cases broadcast <;> decide

/-- The coder takes as much data as a frame has room for. -/
lemma maxLen_le (broadcast : Bool) : maxLen broadcast ≤ appMaxCodingDataLen := by
  cases broadcast <;> decide

/-- The header of a segment is reached one segment after the other. -/
lemma AppPsHeader.atSegment_nextSegment (h : AppPsHeader) (k : ℕ) :
    h.nextSegment.atSegment k = h.atSegment (k + 1) := by
  have hsum : h.currentNum + 1 + UInt8.ofNat k = h.currentNum + UInt8.ofNat (k + 1) := by
    rw [UInt8.ofNat_add, add_assoc, add_comm (1 : UInt8)]
    rfl
  unfold AppPsHeader.atSegment AppPsHeader.nextSegment
  rw [hsum]

/-- The length of a piece never matters beyond the length of a chunk. -/
lemma take_drop_segmentLen (n : ℕ) (l : List UInt8) :
    l.take (if l.length > n then n else l.length) = l.take n ∧
      l.drop (if l.length > n then n else l.length) = l.drop n := by
  split
  · exact ⟨rfl, rfl⟩
  · rename_i hle
    rw [List.take_length, List.drop_length, List.take_of_length_le (not_lt.mp hle),
      List.drop_of_length_le (not_lt.mp hle)]
    exact ⟨rfl, rfl⟩

section Calls

variable {env : NetEnv} (hmalloc : ∀ n, env.malloc n = true)

include hmalloc

/-- A payload without compression is coded as it is. -/
lemma appDataCoding_of_not {psHeader : AppPsHeader}
    (hflag : psHeader.property.compressFlag = false) {inputData : List UInt8}
    (hlen : inputData.length ≤ appMaxCodingDataLen) :
    appDataCoding env.compress env.malloc psHeader inputData =
      .ok (.coded psHeader (psHeader.bytes ++ inputData)) := by
  unfold appDataCoding
  simp only [if_neg (Nat.not_lt.mpr hlen), hmalloc, Bool.true_eq_false, if_false, hflag,
    Bool.false_eq_true]
  split
  · rfl
  · rename_i hzero
    rw [List.length_eq_zero_iff.mp (not_not.mp hzero), List.append_nil]

/-- One frame is sent. -/
lemma managerSendPacket_eq {psHeader : AppPsHeader}
    (hflag : psHeader.property.compressFlag = false) {inputData : List UInt8}
    (hlen : inputData.length ≤ appMaxCodingDataLen) (segment : Option ℕ) (broadcast : Bool)
    (requestNumber : UInt32) :
    managerSendPacket env psHeader segment broadcast requestNumber inputData =
      .ok (psHeader, packetActions env psHeader segment broadcast requestNumber inputData) := by
  unfold managerSendPacket packetActions packetOp
  rw [appDataCoding_of_not hmalloc hflag hlen, ok_bind]
  cases broadcast <;> rfl

/-- The frames of the segments are sent one after the other. -/
lemma sendSegments_eq {psHeader : AppPsHeader} (hflag : psHeader.property.compressFlag = false)
    (segment : Option ℕ) (broadcast : Bool) (requestNumber : UInt32) (fuel : ℕ)
    (inputData : List UInt8) :
    sendSegments env segment broadcast requestNumber fuel psHeader inputData =
      .ok ((chunks (maxLen broadcast) fuel inputData).mapIdx fun k data =>
        packetActions env (psHeader.atSegment k) segment broadcast requestNumber data).flatten := by
  induction fuel generalizing psHeader inputData with
  | zero => rfl
  | succ fuel ih =>
    rw [sendSegments, chunks]
    split
    · obtain ⟨htake, hdrop⟩ := take_drop_segmentLen (maxLen broadcast) inputData
      have hlen : (inputData.take (maxLen broadcast)).length ≤ appMaxCodingDataLen :=
        le_trans (List.length_take_le _ _) (maxLen_le broadcast)
      have hzero : psHeader.atSegment 0 = psHeader := by
        unfold AppPsHeader.atSegment
        simp
      have hrest := ih (show psHeader.nextSegment.property.compressFlag = false from hflag)
        (inputData.drop (maxLen broadcast))
      simp only [AppPsHeader.atSegment_nextSegment] at hrest
      simp only [htake, hdrop, managerSendPacket_eq hmalloc hflag hlen, hrest, ok_bind,
        List.mapIdx_cons, List.flatten_cons, hzero]
      rfl
    · rfl

/-- What is done for one destination. -/
lemma sendToDest_eq (page : FromNetworkMessage) (heap : SegmentHeap) (dest : UInt32) :
    sendToDest env page heap dest =
      .ok (destHeap page heap dest, destActions env page heap.length dest) := by
  unfold sendToDest destHeap destActions
  by_cases hsplit : IsSplit page dest
  · have hflag : ((destHeader page dest).segmented
        (UInt8.ofNat (destTotal page dest))).property.compressFlag = false := rfl
    rw [if_pos hsplit, if_pos hsplit]
    simp only [if_pos (show page.text.length > maxLen (isBroadcast dest) from hsplit), hmalloc,
      Bool.true_eq_false, if_false]
    have hsend := sendSegments_eq hmalloc hflag (some heap.length) (isBroadcast dest)
      page.requestNumber page.text.length page.text
    unfold destTotal at hsend
    rw [hsend, ok_bind]
    rfl
  · have hlen : page.text.length ≤ maxLen (isBroadcast dest) := not_lt.mp hsplit
    have hsend := managerSendPacket_eq hmalloc (show (destHeader page dest).property.compressFlag
      = false from rfl) (le_trans hlen (maxLen_le _)) none (isBroadcast dest) page.requestNumber
    rw [if_neg hsplit, if_neg hsplit]
    simp only [if_neg (not_lt.mpr hlen), hsend, ok_bind]
    rfl

/-- What is done for all destinations: they are taken one after the other, and allocate their
records one after the other. -/
lemma sendToDests_eq (page : FromNetworkMessage) (heap : SegmentHeap) (dests : List UInt32) :
    ∃ heap' calls, sendToDests env page heap dests = .ok (heap', calls) ∧
      ∀ (num : ℕ) dest, dests[num]? = some dest →
        ∃ segment, calls[num]? = some (destActions env page segment dest) := by
  induction dests generalizing heap with
  | nil => exact ⟨heap, [], rfl, fun num dest hnum => by cases hnum⟩
  | cons dest dests ih =>
    obtain ⟨heap', calls, hrun, hcalls⟩ := ih (destHeap page heap dest)
    refine ⟨heap', destActions env page heap.length dest :: calls, ?_, ?_⟩
    · rw [sendToDests, sendToDest_eq hmalloc, ok_bind]
      simp only [hrun, ok_bind]
      rfl
    · intro num dest' hnum
      cases num with
      | zero =>
        cases hnum
        exact ⟨heap.length, rfl⟩
      | succ num => exact hcalls num dest' hnum

end Calls

/-- The data of an operation with the segment `k` for one device. -/
def segmentOp (env : NetEnv) (page : FromNetworkMessage) (segment : ℕ) (dest : UInt32) (k : ℕ)
    (data : List UInt8) : OperationData :=
  packetOp env (segmentHeader page dest k) (some segment) page.requestNumber data
    (some .managerNetworkToWiotaResult)

/-- The calls for one device when the text is split: an operation for each piece. -/
lemma destActions_of_split (env : NetEnv) {page : FromNetworkMessage} (segment : ℕ)
    {dest : UInt32} (hdest : isBroadcast dest = false) (hsplit : IsSplit page dest) :
    destActions env page segment dest =
      ((destChunks page dest).mapIdx (segmentOp env page segment dest)).map
        NetAction.operationMsg := by
  have hpacket : ∀ k data, packetActions env (segmentHeader page dest k) (some segment)
      (isBroadcast dest) page.requestNumber data =
        [.operationMsg (segmentOp env page segment dest k data)] := by
    intro k data
    rw [hdest]
    rfl
  unfold destActions
  rw [if_pos hsplit]
  simp only [hpacket]
  rw [flatten_mapIdx_singleton, map_mapIdx]

/-! ### Responses to broadcast requests -/

/-- The number of responses to a request among the calls. -/
def responseCount (number : UInt32) (actions : List NetAction) : ℕ :=
  actions.countP fun
    | .response _ n => n == number
    | _ => false

/-- There is one response to a frame that is broadcast. -/
lemma responseCount_packetActions (env : NetEnv) (psHeader : AppPsHeader) (segment : Option ℕ)
    (number : UInt32) (data : List UInt8) :
    responseCount number (packetActions env psHeader segment true number data) = 1 := by
  simp [responseCount, packetActions]

/-- The number of responses for a broadcast destination is the number of frames. -/
lemma responseCount_destActions (env : NetEnv) (page : FromNetworkMessage) (segment : ℕ)
    {dest : UInt32} (hdest : isBroadcast dest = true) :
    responseCount page.requestNumber (destActions env page segment dest) =
      if IsSplit page dest then destTotal page dest else 1 := by
  unfold destActions
  split
  · have hone : ∀ actions ∈ (destChunks page dest).mapIdx fun k data =>
        packetActions env (segmentHeader page dest k) (some segment) (isBroadcast dest)
          page.requestNumber data,
        responseCount page.requestNumber actions = 1 := by
      intro actions hactions
      obtain ⟨k, hk, rfl⟩ := List.mem_mapIdx.mp hactions
      rw [hdest]
      exact responseCount_packetActions _ _ _ _ _
    unfold responseCount at hone ⊢
    rw [List.countP_flatten, List.map_congr_left hone, List.map_const', List.sum_replicate,
      smul_eq_mul, mul_one, List.length_mapIdx, destChunks,
      length_chunks (maxLen_pos _) le_rfl]
    rfl
  · rw [hdest]
    exact responseCount_packetActions _ _ _ _ _

/-- A text that is split for a destination has at least two frames. -/
lemma two_le_destTotal {page : FromNetworkMessage} {dest : UInt32} (h : IsSplit page dest) :
    2 ≤ destTotal page dest := by
  have hpos := maxLen_pos (isBroadcast dest)
  unfold IsSplit at h
  unfold destTotal
  rw [Nat.le_div_iff_mul_le hpos]
  omega

/-- The length of the text is what `rt_strlen` says. -/
lemma FromNetworkMessage.length_text (page : FromNetworkMessage) :
    page.text.length = rtStrlen page.jsonData := by
  unfold FromNetworkMessage.text
  rw [List.length_take]
  exact Nat.min_eq_left (List.takeWhile_sublist _).length_le

/-- A text without a zero byte is taken as it is. -/
lemma FromNetworkMessage.text_eq {page : FromNetworkMessage} (hnul : 0 ∉ page.jsonData) :
    page.text = page.jsonData := by
  have hall : page.jsonData.takeWhile (· ≠ 0) = page.jsonData := by
    refine List.takeWhile_eq_self_iff.mpr fun b hb => ?_
    simpa using fun hzero : b = 0 => hnul (hzero ▸ hb)
  unfold FromNetworkMessage.text rtStrlen
  rw [hall, List.take_length]

/-- A request to a broadcast destination gets exactly one response if its text fits into one frame,
and one for every frame otherwise. -/
theorem oneResponse_iff (env : NetEnv) (hmalloc : ∀ n, env.malloc n = true)
    (page : FromNetworkMessage) (heap : SegmentHeap) :
    ∃ heap' calls, managerSendMsgToWiota env page heap = .ok (heap', calls) ∧
      ∀ (num : ℕ) dest, page.destAddress[num]? = some dest → isBroadcast dest = true →
        ∃ actions, calls[num]? = some actions ∧
          (responseCount page.requestNumber actions = 1 ↔ rtStrlen page.jsonData ≤ 1008) := by
  obtain ⟨heap', calls, hrun, hcalls⟩ := sendToDests_eq hmalloc page heap page.destAddress
  refine ⟨heap', calls, hrun, fun num dest hnum hdest => ?_⟩
  obtain ⟨segment, hactions⟩ := hcalls num dest hnum
  refine ⟨_, hactions, ?_⟩
  have hsplit : IsSplit page dest ↔ ¬ rtStrlen page.jsonData ≤ 1008 := by
    unfold IsSplit
    rw [hdest, page.length_text]
    exact not_le.symm
  rw [responseCount_destActions env page segment hdest]
  by_cases h : IsSplit page dest
  · have htwo := two_le_destTotal h
    rw [if_pos h]
    exact iff_of_false (by omega) (hsplit.mp h)
  · rw [if_neg h]
    exact iff_of_true rfl (not_not.mp (mt hsplit.mpr h))

/-- The rest of the system with the compression of the program. -/
def sampleEnv : NetEnv where
  compress := fastlzLibrary.compress
  malloc := fun _ => true
  queryWiotaid := id

/-- A request with the text `text` to the destination `dest`. -/
def samplePage (dest : UInt32) (text : List UInt8) : FromNetworkMessage :=
  ⟨[dest], 40, 1, text⟩

/-- A short broadcast request gets one response. -/
theorem oneResponse_short :
    ∃ heap' calls, managerSendMsgToWiota sampleEnv (samplePage 0xE0000001 [0x61]) [] =
        .ok (heap', calls) ∧
      ∃ actions, calls[0]? = some actions ∧ responseCount 1 actions = 1 := by
  obtain ⟨heap', calls, hrun, hcalls⟩ :=
    oneResponse_iff sampleEnv (fun _ => rfl) (samplePage 0xE0000001 [0x61]) []
  obtain ⟨actions, hactions, hiff⟩ := hcalls 0 0xE0000001 rfl (by decide)
  exact ⟨heap', calls, hrun, actions, hactions, hiff.mpr (by decide)⟩

/-- The length of a text of one letter. -/
lemma rtStrlen_replicate {letter : UInt8} (hletter : letter ≠ 0) (n : ℕ) :
    rtStrlen (List.replicate n letter) = n := by
  unfold rtStrlen
  rw [List.takeWhile_eq_self_iff.mpr, List.length_replicate]
  intro b hb
  rw [List.eq_of_mem_replicate hb]
  simpa using hletter

/-- A broadcast request with a text of 1009 bytes gets two responses. -/
theorem twoResponses_long :
    ∃ heap' calls,
      managerSendMsgToWiota sampleEnv (samplePage 0xE0000001 (List.replicate 1009 0x61)) [] =
        .ok (heap', calls) ∧
      ∃ actions, calls[0]? = some actions ∧ responseCount 1 actions = 2 := by
  have hmalloc : ∀ n, sampleEnv.malloc n = true := fun _ => rfl
  have hdest : isBroadcast 0xE0000001 = true := by decide
  have hlen : (samplePage 0xE0000001 (List.replicate 1009 0x61)).text.length = 1009 := by
    rw [FromNetworkMessage.length_text]
    exact rtStrlen_replicate (by decide) 1009
  have hsplit : IsSplit (samplePage 0xE0000001 (List.replicate 1009 0x61)) 0xE0000001 := by
    rw [IsSplit, hlen, hdest]
    decide
  obtain ⟨heap', calls, hrun, hcalls⟩ := sendToDests_eq hmalloc
    (samplePage 0xE0000001 (List.replicate 1009 0x61)) [] [0xE0000001]
  obtain ⟨segment, hactions⟩ := hcalls 0 0xE0000001 rfl
  refine ⟨heap', calls, hrun, _, hactions, ?_⟩
  have hcount := responseCount_destActions sampleEnv
    (samplePage 0xE0000001 (List.replicate 1009 0x61)) segment hdest
  rw [if_pos hsplit, destTotal, hlen, hdest] at hcount
  exact hcount

end WiotaAp
