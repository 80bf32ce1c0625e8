import WiotaAp.Manager.NetMessager

/-!
# From the access point to a device

The frames that `manager_send_msg_to_wiota` sends to one device are decoded and put together there
as `manager_recv_wiota_msg` does it.  `endToEnd_iff` says for which texts this gives the text that
was sent: the decoder takes at most 294 bytes, and the frames are longer than the text by their
headers.
-/

namespace WiotaAp

open Buffers

/-! ### The receiving side -/

/-- What the decoding and the reassembly of a frame come to. -/
inductive RecvOutcome
  | rejected
  | incomplete
  | complete (header : AppPsHeader) (data : DecodeData)
  deriving DecidableEq, Repr

/-- The part of `manager_recv_wiota_msg` in front of the `switch`: decoding, and reassembly of a
segment. -/
def recvFrame (env : ManagerEnv) (store : List DataPacket) (id : UInt32) (frame : List UInt8) :
    Except Fault (List DataPacket × RecvOutcome) := do
  match ← appDataDecoding env.decompress env.malloc frame with
  | .failed _ => return (store, .rejected)
  | .accepted header decodeData =>
    if header.property.segmentFlag then
      match ← recvSegment store id header.packetNum header.totalNum header.currentNum
        decodeData with
      | (store, none) => return (store, .incomplete)
      | (store, some decodeData) => return (store, .complete header decodeData)
    else return (store, .complete header (.ofOption decodeData))

/-- What follows on what was received. -/
def RecvOutcome.finish (env : ManagerEnv) (id : UInt32) (frame : List UInt8) :
    RecvOutcome → Except Fault (List MsgAction)
  | .rejected => .ok []
  | .incomplete => .ok []
  | .complete header data => finishMsg env id header data frame

/-- `manager_recv_wiota_msg` receives the frame and acts on the message. -/
lemma managerRecvWiotaMsg_eq (env : ManagerEnv) (store : List DataPacket) (id : UInt32)
    (frame : List UInt8) :
    managerRecvWiotaMsg env store id frame = do
      let (store, received) ← recvFrame env store id frame
      return (store, ← received.finish env id frame) := by
  unfold managerRecvWiotaMsg recvFrame
  cases appDataDecoding env.decompress env.malloc frame with
  | error fault => rfl
  | ok decoded =>
    cases decoded with
    | failed error => rfl
    | accepted header decodeData =>
      simp only [ok_bind]
      split
      · cases recvSegment store id header.packetNum header.totalNum header.currentNum
          decodeData with
        | error fault => rfl
        | ok result =>
          obtain ⟨store', complete⟩ := result
          cases complete with
          | none => rfl
          | some decodeData => rfl
      · rfl

/-- Frames of one source are received one after the other. -/
def recvFrames (env : ManagerEnv) (id : UInt32) :
    List (List UInt8) → List DataPacket → Except Fault (List DataPacket × List RecvOutcome)
  | [], store => .ok (store, [])
  | frame :: frames, store => do
    let (store, received) ← recvFrame env store id frame
    let (store, rest) ← recvFrames env id frames store
    return (store, received :: rest)

/-- The payload of a complete message. -/
def RecvOutcome.payload? : RecvOutcome → Option (List UInt8)
  | .rejected => none
  | .incomplete => none
  | .complete _ .null => some []
  | .complete _ (.block data) => some data
  | .complete _ .freed => none

/-- A frame that the decoder rejects. -/
lemma recvFrame_of_failed {env : ManagerEnv} {frame : List UInt8} {error : ℤ}
    (h : appDataDecoding env.decompress env.malloc frame = .ok (.failed error))
    (store : List DataPacket) (id : UInt32) :
    recvFrame env store id frame = .ok (store, .rejected) := by
  unfold recvFrame
  rw [h]
  rfl

/-- A frame that is not a segment is a message. -/
lemma recvFrame_of_accepted {env : ManagerEnv} {frame : List UInt8} {header : AppPsHeader}
    {data : Option (List UInt8)}
    (h : appDataDecoding env.decompress env.malloc frame = .ok (.accepted header data))
    (hsegment : header.property.segmentFlag = false) (store : List DataPacket) (id : UInt32) :
    recvFrame env store id frame = .ok (store, .complete header (.ofOption data)) := by
  unfold recvFrame
  simp only [h, ok_bind, hsegment, Bool.false_eq_true, if_false]
  rfl

/-- What a segment comes to: nothing yet, or the message. -/
def RecvOutcome.ofSegment (header : AppPsHeader) : Option DecodeData → RecvOutcome
  | none => .incomplete
  | some data => .complete header data

/-- A frame that is a segment is put into the store. -/
lemma recvFrame_of_segment {env : ManagerEnv} {frame : List UInt8} {header : AppPsHeader}
    {data : Option (List UInt8)}
    (h : appDataDecoding env.decompress env.malloc frame = .ok (.accepted header data))
    (hsegment : header.property.segmentFlag = true) {store store' : List DataPacket} {id : UInt32}
    {complete : Option DecodeData}
    (hrecv : recvSegment store id header.packetNum header.totalNum header.currentNum data =
      .ok (store', complete)) :
    recvFrame env store id frame = .ok (store', .ofSegment header complete) := by
  unfold recvFrame
  simp only [h, ok_bind, hsegment, if_true, hrecv]
  cases complete <;> rfl

/-- Among the received frames, one that the decoder rejects shows. -/
lemma rejected_mem_of_failed {env : ManagerEnv} {frame : List UInt8} {error : ℤ}
    (h : appDataDecoding env.decompress env.malloc frame = .ok (.failed error)) {id : UInt32}
    {frames : List (List UInt8)} (hmem : frame ∈ frames) {store store' : List DataPacket}
    {received : List RecvOutcome}
    (hrecv : recvFrames env id frames store = .ok (store', received)) : .rejected ∈ received := by
  induction frames generalizing store received with
  | nil => cases hmem
  | cons first frames ih =>
    rw [recvFrames] at hrecv
    obtain ⟨⟨store₁, r⟩, hfirst, hrecv⟩ := exists_of_bind_eq_ok hrecv
    obtain ⟨⟨store₂, rest⟩, hrest, hrecv⟩ := exists_of_bind_eq_ok hrecv
    cases hrecv
    rcases List.mem_cons.mp hmem with rfl | hmem
    · rw [recvFrame_of_failed h] at hfirst
      cases hfirst
      exact List.mem_cons_self
    · exact List.mem_cons_of_mem _ (ih hmem hrest)

/-! ### The frames of a request -/

/-- The frames for one device among the calls. -/
def framesOf (actions : List NetAction) : List (List UInt8) :=
  actions.filterMap fun
    | .operationMsg data => some data.pload
    | _ => none

/-- `UC_WIOTA_MAX_SEND_NORMAL_DATA_LEN`. -/
def ucWiotaMaxSendNormalDataLen : ℕ := 310

/-- The frames have the length that can be sent, and in whatever order they are received, all of
them are accepted and give the payload once. -/
def EndToEnd (peer : ManagerEnv) (store : List DataPacket) (id : UInt32)
    (frames : List (List UInt8)) (payload : List UInt8) : Prop :=
  (∀ frame ∈ frames, frame.length ≤ ucWiotaMaxSendNormalDataLen) ∧
    ∀ order : List (List UInt8), order.Perm frames →
      ∃ store' received, recvFrames peer id order store = .ok (store', received) ∧
        .rejected ∉ received ∧ received.filterMap RecvOutcome.payload? = [payload]

/-- The frames for one device: one with the text, or one for each piece of it. -/
lemma framesOf_destActions (env : NetEnv) (page : FromNetworkMessage) (segment : ℕ) {dest : UInt32}
    (hdest : isBroadcast dest = false) :
    framesOf (destActions env page segment dest) =
      if IsSplit page dest then
        (destChunks page dest).mapIdx fun k data => (segmentHeader page dest k).bytes ++ data
      else [(destHeader page dest).bytes ++ page.text] := by
  unfold framesOf
  split
  · rename_i hsplit
    rw [destActions_of_split env segment hdest hsplit, List.filterMap_map]
    change List.filterMap (fun op : OperationData => some op.pload) _ = _
    rw [List.filterMap_eq_map', map_mapIdx]
    rfl
  · rename_i hsplit
    rw [destActions, if_neg hsplit, hdest]
    rfl

/-- The header of a frame that is not a segment takes ten bytes. -/
lemma headerLen_destHeader (page : FromNetworkMessage) (dest : UInt32) :
    (destHeader page dest).property.headerLen = 10 := rfl

/-- The header of a segment takes thirteen bytes. -/
lemma headerLen_segmentHeader (page : FromNetworkMessage) (dest : UInt32) (k : ℕ) :
    (segmentHeader page dest k).property.headerLen = 13 := rfl

/-- Every frame for one device has a length that can be sent. -/
lemma length_le_of_mem_framesOf (env : NetEnv) (page : FromNetworkMessage) (segment : ℕ)
    {dest : UInt32} (hdest : isBroadcast dest = false) {frame : List UInt8}
    (hframe : frame ∈ framesOf (destActions env page segment dest)) :
    frame.length ≤ ucWiotaMaxSendNormalDataLen := by
  have hmax : maxLen (isBroadcast dest) = 294 := by rw [hdest]; rfl
  rw [framesOf_destActions env page segment hdest] at hframe
  unfold ucWiotaMaxSendNormalDataLen
  split at hframe
  · obtain ⟨k, hk, rfl⟩ := List.mem_mapIdx.mp hframe
    have hchunk := length_le_of_mem_chunks (List.getElem_mem hk)
    rw [List.length_append, AppPsHeader.length_bytes, headerLen_segmentHeader]
    omega
  · rename_i hsplit
    have hlen : page.text.length ≤ maxLen (isBroadcast dest) := not_lt.mp hsplit
    rw [List.mem_singleton.mp hframe, List.length_append, AppPsHeader.length_bytes,
      headerLen_destHeader]
    omega

/-- A text of more than 284 bytes has a frame that is too long for the decoder. -/
lemma exists_long_frame (env : NetEnv) {page : FromNetworkMessage} (segment : ℕ) {dest : UInt32}
    (hdest : isBroadcast dest = false) (hlong : 284 < page.text.length) :
    ∃ frame ∈ framesOf (destActions env page segment dest),
      appMaxDecodingDataLen < frame.length := by
  have hlimit : appMaxDecodingDataLen = 294 := rfl
  rw [framesOf_destActions env page segment hdest]
  split
  · -- the first piece is as long as a frame has room for
    rename_i hsplit
    obtain ⟨rest, hchunks⟩ : ∃ rest, destChunks page dest =
        page.text.take (maxLen (isBroadcast dest)) :: rest :=
      exists_chunks_eq_cons (by omega) le_rfl
    have hlen : maxLen (isBroadcast dest) < page.text.length := hsplit
    have hmax : maxLen (isBroadcast dest) = 294 := by rw [hdest]; rfl
    rw [hchunks, List.mapIdx_cons]
    refine ⟨_, List.mem_cons_self, ?_⟩
    rw [List.length_append, AppPsHeader.length_bytes, headerLen_segmentHeader, List.length_take]
    omega
  · refine ⟨_, List.mem_cons_self, ?_⟩
    rw [List.length_append, AppPsHeader.length_bytes, headerLen_destHeader]
    omega

/-- A text of at most 284 bytes is received. -/
lemma recvFrames_of_short {peer : ManagerEnv} (hpeer : ∀ n, peer.malloc n = true)
    {page : FromNetworkMessage} (dest : UInt32) (hshort : page.text.length ≤ 284)
    (store : List DataPacket) (id : UInt32) :
    ∃ received, received.payload? = some page.text ∧ received ≠ .rejected ∧
      recvFrames peer id [(destHeader page dest).bytes ++ page.text] store =
        .ok (store, [received]) := by
  have hlen : ((destHeader page dest).bytes ++ page.text).length ≤ appMaxDecodingDataLen := by
    rw [List.length_append, AppPsHeader.length_bytes, headerLen_destHeader]
    exact Nat.add_le_add_left hshort 10
  have hdecode : appDataDecoding peer.decompress peer.malloc
      ((destHeader page dest).bytes ++ page.text) =
        .ok (.accepted ((destHeader page dest).writeTo AppPsHeader.zero)
          (if page.text = [] then none else some page.text)) :=
    appDataDecoding_bytes peer.decompress hpeer hlen
  have hrecv : recvFrames peer id [(destHeader page dest).bytes ++ page.text] store =
      .ok (store, [.complete ((destHeader page dest).writeTo AppPsHeader.zero)
        (.ofOption (if page.text = [] then none else some page.text))]) := by
    rw [recvFrames, recvFrame_of_accepted hdecode rfl, ok_bind]
    rfl
  refine ⟨_, ?_, RecvOutcome.noConfusion, hrecv⟩
  split
  · rename_i hnil
    exact congrArg some hnil.symm
  · rfl

/-- **From the access point to a device.**  When allocations succeed, the frames for one device can
be sent, and they are accepted there and give the text, in whatever order they arrive, exactly if
the text has at most 284 bytes. -/
theorem endToEnd_iff (env : NetEnv) (hmalloc : ∀ n, env.malloc n = true) (peer : ManagerEnv)
    (hpeer : ∀ n, peer.malloc n = true) (page : FromNetworkMessage) (hnul : 0 ∉ page.jsonData)
    (heap : SegmentHeap) :
    ∃ heap' calls, managerSendMsgToWiota env page heap = .ok (heap', calls) ∧
      ∀ (num : ℕ) dest, page.destAddress[num]? = some dest → isBroadcast dest = false →
        ∃ actions, calls[num]? = some actions ∧
          ∀ store id, EndToEnd peer store id (framesOf actions) page.jsonData ↔
            page.jsonData.length ≤ 284 := by
  obtain ⟨heap', calls, hrun, hcalls⟩ := sendToDests_eq hmalloc page heap page.destAddress
  refine ⟨heap', calls, hrun, fun num dest hnum hdest => ?_⟩
  obtain ⟨segment, hactions⟩ := hcalls num dest hnum
  refine ⟨_, hactions, fun store id => ?_⟩
  have htext := FromNetworkMessage.text_eq hnul
  rw [← htext]
  constructor
  · rintro ⟨-, horder⟩
    by_contra hlong
    obtain ⟨frame, hframe, hlen⟩ := exists_long_frame env segment hdest (Nat.not_le.mp hlong)
    obtain ⟨store', received, hrecv, hnot, -⟩ := horder _ (List.Perm.refl _)
    exact hnot (rejected_mem_of_failed (appDataDecoding_of_lt _ _ hlen) hframe hrecv)
  · intro hshort
    refine ⟨fun frame hframe => length_le_of_mem_framesOf env page segment hdest hframe, ?_⟩
    intro order horder
    have hsplit : ¬ IsSplit page dest := by
      rw [IsSplit, hdest]
      exact not_lt.mpr (le_trans hshort (by decide))
    rw [framesOf_destActions env page segment hdest, if_neg hsplit] at horder
    obtain ⟨received, hpayload, haccepted, hrecv⟩ :=
      recvFrames_of_short hpeer dest hshort store id
    rw [List.perm_singleton.mp horder]
    refine ⟨store, [received], hrecv, fun hmem => ?_, ?_⟩
    · exact haccepted (List.mem_singleton.mp hmem).symm
    · rw [List.filterMap_cons, hpayload]
      rfl

/-- A text of one letter is received. -/
theorem endToEnd_short :
    ∃ heap' calls, managerSendMsgToWiota sampleEnv (samplePage 5 [0x61]) [] =
        .ok (heap', calls) ∧
      ∃ actions, calls[0]? = some actions ∧ EndToEnd startEnv [] 7 (framesOf actions) [0x61] := by
  obtain ⟨heap', calls, hrun, hcalls⟩ := endToEnd_iff sampleEnv (fun _ => rfl) startEnv
    (fun _ => rfl) (samplePage 5 [0x61]) (by decide) []
  obtain ⟨actions, hactions, hiff⟩ := hcalls 0 5 rfl (by decide)
  exact ⟨heap', calls, hrun, actions, hactions, (hiff [] 7).mpr (by decide)⟩

/-- A text of 285 bytes is sent in a frame of 295 bytes, which the decoder of the device rejects. -/
theorem endToEnd_rejected :
    ∃ heap' calls, managerSendMsgToWiota sampleEnv (samplePage 5 (List.replicate 285 0x61)) [] =
        .ok (heap', calls) ∧
      ∃ actions, calls[0]? = some actions ∧
        ¬ EndToEnd startEnv [] 7 (framesOf actions) (List.replicate 285 0x61) := by
  have hmalloc : ∀ n, sampleEnv.malloc n = true := fun _ => rfl
  obtain ⟨heap', calls, hrun, hcalls⟩ := sendToDests_eq hmalloc
    (samplePage 5 (List.replicate 285 0x61)) [] [5]
  obtain ⟨segment, hactions⟩ := hcalls 0 5 rfl
  refine ⟨heap', calls, hrun, _, hactions, ?_⟩
  rintro ⟨-, horder⟩
  have hlen : 284 < (samplePage 5 (List.replicate 285 0x61)).text.length := by
    rw [FromNetworkMessage.length_text]
    exact Nat.lt_of_lt_of_eq (by decide) (rtStrlen_replicate (by decide) 285).symm
  obtain ⟨frame, hframe, hlong⟩ := exists_long_frame sampleEnv segment
    (show isBroadcast 5 = false by decide) hlen
  obtain ⟨store', received, hrecv, hnot, -⟩ := horder _ (List.Perm.refl _)
  exact hnot (rejected_mem_of_failed (appDataDecoding_of_lt _ _ hlong) hframe hrecv)

end WiotaAp
