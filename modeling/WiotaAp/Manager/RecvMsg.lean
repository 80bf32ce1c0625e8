import WiotaAp.Codec.FastlzBlock
import WiotaAp.Foundation.Runs
import WiotaAp.Manager.Coding
import WiotaAp.Manager.DataPacket

/-!
# Messages from the devices

`manager_recv_wiota_msg` decodes a frame of a device, puts it into the store of segments if it is
one, and acts on a message that is complete.  What it does with the message are calls into other
parts of the manager, recorded in order.

The block of `decode_data` has an owner: the function itself, or the slot of the store into which it
has been put.  When a message is complete the slots are freed, and the pointer still points at the
last of them if the message has no bytes.

`manager_noHalt_of_guarded` says when frames of the devices cannot halt the access point: a frame
that announces a total of zero segments must not be the first one of its source and packet number,
and no frame may complete a message whose segments are all empty.
-/

namespace WiotaAp

open Buffers

/-! ### The segment branch -/

/-- `decode_data`: the null pointer, a block that the function owns, or a block that has been
freed. -/
inductive DecodeData
  | null
  | block (data : List UInt8)
  | freed
  deriving DecidableEq, Repr

/-- What the decoder returns. -/
def DecodeData.ofOption : Option (List UInt8) → DecodeData
  | none => .null
  | some data => .block data

/-- The data that can be read. -/
def DecodeData.bytes? : DecodeData → Option (List UInt8)
  | .null => none
  | .block data => some data
  | .freed => none

/-- `decode_data` behind `recv_data_packet_remove`.  The reader has written a new block, or left the
pointer as it was; a segment that was stored (`ret` is 0) has then been freed with its slot. -/
def dataAfterRemove (read : Option (List UInt8)) (ret : ℕ) (decodeData : Option (List UInt8)) :
    DecodeData :=
  match read with
  | some bytes => .block bytes
  | none => if ret = 0 then .freed else .ofOption decodeData

/-- The part of `manager_recv_wiota_msg` for a data segment: the store, and `none` if the message is
not complete, or otherwise what `decode_data` is then. -/
def recvSegment (store : List DataPacket) (id : UInt32) (packetNum totalNum currentNum : UInt8)
    (decodeData : Option (List UInt8)) : Except Fault (List DataPacket × Option DecodeData) := do
  let i := (recvDataPacketFind store id packetNum.toUInt32).getD store.length
  let store :=
    if (recvDataPacketFind store id packetNum.toUInt32).isNone then
      store ++ [recvDataPacketAppend id packetNum.toUInt32 totalNum]
    else store
  match store[i]? with
  | none => .error .assertion
  | some packet =>
    let (packet, ret) ← recvDataPacketAddSegment packet currentNum decodeData
    match ← recvDataPacketReader packet with
    | none => return (store.set i packet, none)
    | some read => return (store.eraseIdx i, some (dataAfterRemove read ret decodeData))

/-- The segment branch on the entry `packet`, which stands between `pre` and `post` in the store. -/
def recvIntoEntry (pre : List DataPacket) (packet : DataPacket) (post : List DataPacket)
    (currentNum : UInt8) (decodeData : Option (List UInt8)) :
    Except Fault (List DataPacket × Option DecodeData) := do
  let (packet, ret) ← recvDataPacketAddSegment packet currentNum decodeData
  match ← recvDataPacketReader packet with
  | none => return (pre ++ packet :: post, none)
  | some read => return (pre ++ post, some (dataAfterRemove read ret decodeData))

section Branch

variable {store pre post : List DataPacket} {packet : DataPacket} {id : UInt32}
  {packetNum totalNum currentNum : UInt8} {decodeData : Option (List UInt8)}

/-- The position of the first entry of the pair. -/
lemma recvDataPacketFind_of_found (hpre : ∀ p ∈ pre, ¬ p.Has id packetNum.toUInt32)
    (hpacket : packet.Has id packetNum.toUInt32) :
    recvDataPacketFind (pre ++ packet :: post) id packetNum.toUInt32 = some pre.length := by
  unfold recvDataPacketFind
  have hnone : pre.findIdx? (fun p => decide (p.Has id packetNum.toUInt32)) = none :=
    List.findIdx?_eq_none_iff.mpr fun p hp => decide_eq_false (hpre p hp)
  rw [List.findIdx?_append, hnone, List.findIdx?_cons, if_pos (decide_eq_true hpacket)]
  simp

/-- There is no entry of the pair. -/
lemma recvDataPacketFind_eq_none :
    recvDataPacketFind store id packetNum.toUInt32 = none ↔
      ∀ p ∈ store, ¬ p.Has id packetNum.toUInt32 := by
  unfold recvDataPacketFind
  simp [List.findIdx?_eq_none_iff]

/-- A segment goes into the first entry of its pair. -/
lemma recvSegment_of_found (hpre : ∀ p ∈ pre, ¬ p.Has id packetNum.toUInt32)
    (hpacket : packet.Has id packetNum.toUInt32) :
    recvSegment (pre ++ packet :: post) id packetNum totalNum currentNum decodeData =
      recvIntoEntry pre packet post currentNum decodeData := by
  unfold recvSegment recvIntoEntry
  simp only [recvDataPacketFind_of_found hpre hpacket, Option.getD_some, Option.isNone_some,
    Bool.false_eq_true, if_false, List.getElem?_append_right le_rfl, Nat.sub_self,
    List.getElem?_cons_zero, List.set_append_right _ _ le_rfl, List.set_cons_zero,
    List.eraseIdx_append_of_length_le le_rfl, List.eraseIdx_cons_zero]

/-- Without an entry of its pair, a segment goes into a new entry at the end. -/
lemma recvSegment_of_new (hstore : ∀ p ∈ store, ¬ p.Has id packetNum.toUInt32) :
    recvSegment store id packetNum totalNum currentNum decodeData =
      recvIntoEntry store (recvDataPacketAppend id packetNum.toUInt32 totalNum) [] currentNum
        decodeData := by
  unfold recvSegment recvIntoEntry
  simp only [recvDataPacketFind_eq_none.mpr hstore, Option.getD_none, Option.isNone_none, if_true,
    List.getElem?_append_right le_rfl, Nat.sub_self, List.getElem?_cons_zero,
    List.set_append_right _ _ le_rfl, List.set_cons_zero,
    List.eraseIdx_append_of_length_le le_rfl, List.eraseIdx_cons_zero]

/-- When the entry is in good order after the segment has been added, the branch ends with the
message if every slot has data, and otherwise with the entry in its place. -/
lemma recvIntoEntry_of_add {packet' : DataPacket} {segment' : List (Option DataSegment)} {ret : ℕ}
    (hadd : recvDataPacketAddSegment packet currentNum decodeData = .ok (packet', ret))
    (hok : PacketOk packet' segment') :
    recvIntoEntry pre packet post currentNum decodeData =
      .ok (if slotCount segment' = segment'.length then
        (pre ++ post,
          some (dataAfterRemove (if (segment'.map slotLength).sum % 2 ^ 32 > 0 then
            some (segment'.flatMap slotBytes) else none) ret decodeData))
      else (pre ++ packet' :: post, none)) := by
  unfold recvIntoEntry
  rw [hadd, ok_bind]
  simp only [hok.reader, ok_bind]
  by_cases hfull : slotCount segment' = segment'.length
  · simp only [if_pos hfull]
    rfl
  · simp only [if_neg hfull]
    rfl

end Branch

/-! ### The whole function -/

/-- `MANAGER_UPDATE_STATE`. -/
inductive ManagerUpdateState
  | default
  | requestMsg
  | responseMsg
  | downPage
  | startTransferData
  | system
  | stop
  deriving DecidableEq, Repr

/-- `MANAGER_OTA_STATE`. -/
inductive ManagerOtaState
  | stop
  | gonging
  | nodata
  deriving DecidableEq, Repr

/-- The calls that a complete message leads to. -/
inductive MsgAction
  | sendDataLogicToNet (cmd : UInt8) (data : Option (List UInt8)) (srcAddr : UInt32)
  | sendToOperater (packetNum : UInt8) (srcAddr wiotaId : UInt32) (data : List UInt8)
  | otaSendState (state : ManagerOtaState)
  | otaResendData (data : Option (List UInt8))
  | reallocatedWiotaid (srcAddr id : UInt32)
  deriving DecidableEq, Repr

/-- What the function reads from the rest of the manager. -/
structure ManagerEnv where
  decompress : List UInt8 → List UInt8
  malloc : ℕ → Bool
  otaState : ManagerUpdateState
  queryWiotaid : UInt32 → UInt32

/-- `SERVER_DEFAULT_ADDRESS`. -/
def serverDefaultAddress : UInt32 := 0xFFFFFFF1

/-- `AP_DEFAULT_ADDRESS`. -/
def apDefaultAddress : UInt32 := 0xD0000000

/-- The `switch` over the command of a complete message that is not a response; `ulData` is the
frame that was received last. -/
def runCmd (env : ManagerEnv) (id : UInt32) (header : AppPsHeader)
    (decodeData : Option (List UInt8)) (ulData : List UInt8) : List MsgAction :=
  match header.cmdType.toNat with
  | 0 | 11 | 30 | 100 => [.sendDataLogicToNet header.cmdType decodeData header.srcAddr]
  | 40 =>
    if serverDefaultAddress ≠ header.destAddr ∧ header.property.isDestAddr = true then
      let srcAddr :=
        if header.property.isNeedRes = false ∨ apDefaultAddress ≠ header.destAddr then 0
        else header.srcAddr
      [.sendToOperater header.packetNum srcAddr (env.queryWiotaid header.destAddr) ulData]
    else []
  | 50 =>
    if env.otaState = .stop ∨ env.otaState = .default then
      [.sendDataLogicToNet header.cmdType decodeData header.srcAddr]
    else [.otaSendState .stop]
  | 52 =>
    if env.otaState ≠ .stop ∧ env.otaState ≠ .default then [.otaSendState .gonging]
    else if env.otaState = .stop then [.otaResendData decodeData]
    else [.otaSendState .nodata]
  | 130 => [.reallocatedWiotaid header.srcAddr id]
  | _ => []

/-- What follows on a complete message; there is nothing to do for a response. -/
def runMsg (env : ManagerEnv) (id : UInt32) (header : AppPsHeader)
    (decodeData : Option (List UInt8)) (ulData : List UInt8) : List MsgAction :=
  if header.property.responseFlag then [] else runCmd env id header decodeData ulData

/-- The call gets the pointer `decode_data`. -/
def MsgAction.takesData : MsgAction → Bool
  | .sendDataLogicToNet _ _ _ => true
  | .otaResendData _ => true
  | _ => false

/-- The rest of `manager_recv_wiota_msg` for a complete message: the calls, and `rt_free` of
`decode_data` unless the network task has taken it.  A block that has been freed is handed on, or
freed once more, which fails the assertion `mem->used` of `rt_free`.  For a response the pointer is
not touched any more. -/
def finishMsg (env : ManagerEnv) (id : UInt32) (header : AppPsHeader) (decodeData : DecodeData)
    (ulData : List UInt8) : Except Fault (List MsgAction) :=
  let actions := runMsg env id header decodeData.bytes? ulData
  if header.property.responseFlag = false ∧ decodeData = .freed then
    if actions.any MsgAction.takesData then .error .dangling else .error .assertion
  else .ok actions

/-- `manager_recv_wiota_msg` on a frame from the device `id`: the store and the calls. -/
def managerRecvWiotaMsg (env : ManagerEnv) (store : List DataPacket) (id : UInt32)
    (ulData : List UInt8) : Except Fault (List DataPacket × List MsgAction) := do
  match ← appDataDecoding env.decompress env.malloc ulData with
  | .failed _ => return (store, [])
  | .accepted header decodeData =>
    if header.property.segmentFlag then
      match ← recvSegment store id header.packetNum header.totalNum header.currentNum
        decodeData with
      | (store, none) => return (store, [])
      | (store, some decodeData) => return (store, ← finishMsg env id header decodeData ulData)
    else return (store, ← finishMsg env id header (.ofOption decodeData) ulData)

/-- A message whose data has not been freed, or a response, is acted on. -/
lemma finishMsg_of_not (env : ManagerEnv) (id : UInt32) {header : AppPsHeader}
    {decodeData : DecodeData} (ulData : List UInt8)
    (h : ¬ (header.property.responseFlag = false ∧ decodeData = .freed)) :
    finishMsg env id header decodeData ulData =
      .ok (runMsg env id header decodeData.bytes? ulData) :=
  if_neg h

lemma finishMsg_ok_iff {env : ManagerEnv} {id : UInt32} {header : AppPsHeader}
    {decodeData : DecodeData} {ulData : List UInt8} :
    (∃ actions, finishMsg env id header decodeData ulData = .ok actions) ↔
      ¬ (header.property.responseFlag = false ∧ decodeData = .freed) := by
  refine ⟨fun ⟨actions, hactions⟩ hfreed => ?_, fun h => ⟨_, finishMsg_of_not env id ulData h⟩⟩
  unfold finishMsg at hactions
  rw [if_pos hfreed] at hactions
  split at hactions
  · cases hactions
  · cases hactions

@[simp] lemma DecodeData.bytes?_ofOption (data : Option (List UInt8)) :
    (DecodeData.ofOption data).bytes? = data := by
  cases data <;> rfl

lemma DecodeData.ofOption_ne_freed (data : Option (List UInt8)) :
    DecodeData.ofOption data ≠ .freed := by
  cases data <;> exact DecodeData.noConfusion

/-- The data of a frame that is not a segment has not been freed. -/
@[simp] lemma finishMsg_ofOption (env : ManagerEnv) (id : UInt32) (header : AppPsHeader)
    (data : Option (List UInt8)) (ulData : List UInt8) :
    finishMsg env id header (.ofOption data) ulData = .ok (runMsg env id header data ulData) := by
  rw [finishMsg_of_not env id ulData fun h => DecodeData.ofOption_ne_freed data h.2,
    DecodeData.bytes?_ofOption]

/-! ### The store while frames arrive -/

/-- Every entry of the store is in good order and lacks a segment. -/
def StoreOk (store : List DataPacket) : Prop :=
  ∀ p ∈ store, ∃ segment, PacketOk p segment ∧ slotCount segment < segment.length

/-- The segment is the last one of a message without any bytes: it is empty itself, and the other
slots hold empty segments. -/
def CompletesEmpty (slots : List (Option DataSegment)) (currentNum : UInt8)
    (decodeData : Option (List UInt8)) : Prop :=
  currentNum.toNat < slots.length ∧
    (∃ data, decodeData = some data ∧ data.length % 2 ^ 16 = 0) ∧
    ∀ k ≠ currentNum.toNat, ∀ slot, slots[k]? = some slot →
      ∃ seg, slot = some seg ∧ seg.length = 0

/-- The slots with the segment are those of a message without any bytes. -/
lemma allEmpty_set_iff {segment : List (Option DataSegment)} {currentNum : UInt8}
    (hlt : currentNum.toNat < segment.length) (data : List UInt8) :
    AllEmpty (segment.set currentNum.toNat (some ⟨data.length % 2 ^ 16, data⟩)) ↔
      CompletesEmpty segment currentNum (some data) := by
  constructor
  · intro hall
    refine ⟨hlt, ⟨data, rfl, ?_⟩, fun k hk slot hslot => ?_⟩
    · obtain ⟨seg, hseg, hzero⟩ := hall _ (List.mem_set hlt _)
      cases hseg
      exact hzero
    · refine hall slot (List.mem_of_getElem? (i := k) ?_)
      rw [List.getElem?_set_ne (Ne.symm hk), hslot]
  · rintro ⟨-, ⟨data', hdata, hzero⟩, hothers⟩ slot hslot
    cases hdata
    obtain ⟨k, hk⟩ := List.getElem?_of_mem hslot
    by_cases hkn : k = currentNum.toNat
    · subst hkn
      rw [List.getElem?_set_self hlt] at hk
      exact ⟨_, (Option.some.inj hk).symm, hzero⟩
    · rw [List.getElem?_set_ne (Ne.symm hkn)] at hk
      exact hothers k hkn slot hk

section Entry

variable {pre post : List DataPacket} {packet : DataPacket} {segment : List (Option DataSegment)}
  {currentNum : UInt8} {decodeData : Option (List UInt8)}

/-- A segment that is not stored leaves everything as it was. -/
lemma recvIntoEntry_of_ignored (h : PacketOk packet segment)
    (hopen : slotCount segment < segment.length)
    (hadd : recvDataPacketAddSegment packet currentNum decodeData = .ok (packet, 1)) :
    recvIntoEntry pre packet post currentNum decodeData = .ok (pre ++ packet :: post, none) := by
  rw [recvIntoEntry_of_add hadd h, if_neg (Nat.ne_of_lt hopen)]

/-- A store in good order with one more entry. -/
lemma StoreOk.insert (hpre : StoreOk pre) (hpost : StoreOk post) (h : PacketOk packet segment)
    (hopen : slotCount segment < segment.length) : StoreOk (pre ++ packet :: post) := by
  intro p hp
  rcases List.mem_append.mp hp with hp | hp
  · exact hpre p hp
  · rcases List.mem_cons.mp hp with rfl | hp
    · exact ⟨segment, h, hopen⟩
    · exact hpost p hp

lemma StoreOk.append (hpre : StoreOk pre) (hpost : StoreOk post) : StoreOk (pre ++ post) := by
  intro p hp
  rcases List.mem_append.mp hp with hp | hp
  · exact hpre p hp
  · exact hpost p hp

/-- The segment branch on an entry in good order that lacks a segment keeps the store in good order.
The data has been freed exactly if the segment completes a message without any bytes. -/
lemma recvIntoEntry_storeOk (hpre : StoreOk pre) (hpost : StoreOk post)
    (h : PacketOk packet segment) (hopen : slotCount segment < segment.length)
    (currentNum : UInt8) (decodeData : Option (List UInt8)) :
    ∃ store' complete,
      recvIntoEntry pre packet post currentNum decodeData = .ok (store', complete) ∧
        StoreOk store' ∧
        (complete = some .freed ↔ CompletesEmpty segment currentNum decodeData) := by
  have hsame := hpre.insert hpost h hopen
  have hadd := h.addSegment currentNum decodeData
  cases decodeData with
  | none =>
    refine ⟨_, _, recvIntoEntry_of_ignored h hopen hadd, hsame, iff_of_false nofun ?_⟩
    rintro ⟨-, ⟨data, hdata, -⟩, -⟩
    cases hdata
  | some data =>
    by_cases hlt : currentNum.toNat < packet.segTotal.toNat
    · simp only [if_pos hlt] at hadd
      have hok := h.store hlt data
      rw [recvIntoEntry_of_add hadd hok]
      rw [← h.length_eq] at hlt
      rw [← allEmpty_set_iff hlt, hok.allEmpty_iff]
      by_cases hfull : slotCount (segment.set currentNum.toNat
          (some ⟨data.length % 2 ^ 16, data⟩)) =
          (segment.set currentNum.toNat (some ⟨data.length % 2 ^ 16, data⟩)).length
      · rw [if_pos hfull]
        refine ⟨_, _, rfl, hpre.append hpost, ?_⟩
        -- the reader leaves the pointer exactly if there is nothing to read
        split
        · next hsum => exact iff_of_false nofun fun hempty => hempty.2 hsum
        · next hsum => exact iff_of_true rfl ⟨hfull, hsum⟩
      · rw [if_neg hfull]
        exact ⟨_, _, rfl, hpre.insert hpost hok (lt_of_le_of_ne List.countP_le_length hfull),
          iff_of_false nofun fun hempty => hfull hempty.1⟩
    · simp only [if_neg hlt] at hadd
      refine ⟨_, _, recvIntoEntry_of_ignored h hopen hadd, hsame, iff_of_false nofun ?_⟩
      rintro ⟨hslot, -⟩
      rw [h.length_eq] at hslot
      exact hlt hslot

end Entry

/-- The slots that a segment of the pair goes into: those of the first entry of the pair, or of a
new one. -/
def slotsFor (store : List DataPacket) (id : UInt32) (packetNum totalNum : UInt8) :
    List (Option DataSegment) :=
  match store.find? fun p => decide (p.Has id packetNum.toUInt32) with
  | some packet => packet.segment.getD []
  | none => List.replicate totalNum.toNat none

/-- A segment that announces some segments, or has an entry already, leaves the store in good order.
-/
lemma recvSegment_storeOk {store : List DataPacket} (hstore : StoreOk store) {id : UInt32}
    {packetNum totalNum : UInt8}
    (htotal : totalNum ≠ 0 ∨ recvDataPacketFind store id packetNum.toUInt32 ≠ none)
    (currentNum : UInt8) (decodeData : Option (List UInt8)) :
    ∃ store' complete,
      recvSegment store id packetNum totalNum currentNum decodeData = .ok (store', complete) ∧
        StoreOk store' ∧ (complete = some .freed ↔
          CompletesEmpty (slotsFor store id packetNum totalNum) currentNum decodeData) := by
  unfold slotsFor
  cases hpacket : store.find? fun p => decide (p.Has id packetNum.toUInt32) with
  | none =>
    have hfind : ∀ p ∈ store, ¬ p.Has id packetNum.toUInt32 := by
      intro p hp
      simpa using List.find?_eq_none.mp hpacket p hp
    have hne : totalNum ≠ 0 := htotal.resolve_right (not_not.mpr
      (recvDataPacketFind_eq_none.mpr hfind))
    have hpos : 0 < totalNum.toNat :=
      Nat.pos_of_ne_zero fun hzero => hne (UInt8.toNat_inj.mp hzero)
    have hopen : slotCount (List.replicate totalNum.toNat none) <
        (List.replicate totalNum.toNat (none : Option DataSegment)).length :=
      slotCount_lt (List.getElem?_replicate_of_lt hpos)
    rw [recvSegment_of_new hfind]
    exact recvIntoEntry_storeOk hstore (by rintro p ⟨⟩) (packetOk_append _ _ hpos) hopen _ _
  | some packet =>
    -- the store is split at the first entry of the pair
    obtain ⟨hhas, pre, post, rfl, hpre⟩ := List.find?_eq_some_iff_append.mp hpacket
    have hfirst : ∀ p ∈ pre, ¬ p.Has id packetNum.toUInt32 := by
      intro p hp
      simpa using hpre p hp
    obtain ⟨segment, hok, hopen⟩ := hstore packet (by simp)
    rw [recvSegment_of_found hfirst (of_decide_eq_true hhas)]
    dsimp only
    rw [hok.segment_eq, Option.getD_some]
    exact recvIntoEntry_storeOk (fun p hp => hstore p (by simp [hp]))
      (fun p hp => hstore p (by simp [hp])) hok hopen _ _

/-- The first segment of its pair, announcing no segments, fails the assertion. -/
lemma recvSegment_halts {store : List DataPacket} {id : UInt32} {packetNum : UInt8}
    (hfind : recvDataPacketFind store id packetNum.toUInt32 = none) (currentNum : UInt8)
    (decodeData : Option (List UInt8)) :
    recvSegment store id packetNum 0 currentNum decodeData = .error .assertion := by
  rw [recvSegment_of_new (recvDataPacketFind_eq_none.mp hfind)]
  rfl

/-! ### Runs -/

/-- A frame from a device, and the rest of the manager at that time. -/
structure UlFrame where
  env : ManagerEnv
  id : UInt32
  data : List UInt8

/-- `manager_recv_wiota_msg` as a step on the store. -/
def managerStep (frame : UlFrame) (store : List DataPacket) : Except Fault (List DataPacket) := do
  let (store, _) ← managerRecvWiotaMsg frame.env store frame.id frame.data
  return store

/-- `app_data_decoding` accepts the frame, with this header and data. -/
def UlFrame.Accepted (frame : UlFrame) (header : AppPsHeader) (decodeData : Option (List UInt8)) :
    Prop :=
  appDataDecoding frame.env.decompress frame.env.malloc frame.data =
    .ok (.accepted header decodeData)

/-- A data segment announces some segments, or there is an entry for it already. -/
def Announces (header : AppPsHeader) (id : UInt32) (store : List DataPacket) : Prop :=
  header.property.segmentFlag = true →
    header.totalNum ≠ 0 ∨ recvDataPacketFind store id header.packetNum.toUInt32 ≠ none

/-- A data segment completes a message without any bytes that is not a response. -/
def EmptyMessage (header : AppPsHeader) (decodeData : Option (List UInt8)) (id : UInt32)
    (store : List DataPacket) : Prop :=
  header.property.segmentFlag = true ∧ header.property.responseFlag = false ∧
    CompletesEmpty (slotsFor store id header.packetNum header.totalNum) header.currentNum decodeData

/-- The frames under which the manager cannot halt: those that are accepted, announce some segments
unless there is an entry for them, and do not complete a message without any bytes. -/
def FrameGuard (_ : List UlFrame) (frame : UlFrame) (store : List DataPacket) : Prop :=
  ∃ header decodeData, frame.Accepted header decodeData ∧ Announces header frame.id store ∧
    ¬ EmptyMessage header decodeData frame.id store

/-- An accepted frame that announces some segments, or has an entry, leaves the store in good order,
unless it completes a message without any bytes. -/
lemma managerRecvWiotaMsg_storeOk {frame : UlFrame} {header : AppPsHeader}
    {decodeData : Option (List UInt8)} {store : List DataPacket} (hstore : StoreOk store)
    (hframe : frame.Accepted header decodeData) (hannounces : Announces header frame.id store)
    (hempty : ¬ EmptyMessage header decodeData frame.id store) :
    ∃ store' actions,
      managerRecvWiotaMsg frame.env store frame.id frame.data = .ok (store', actions) ∧
        StoreOk store' := by
  unfold managerRecvWiotaMsg
  rw [hframe, ok_bind]
  by_cases hsegment : header.property.segmentFlag = true
  · obtain ⟨store', complete, hbranch, hstore', hfreed⟩ :=
      recvSegment_storeOk hstore (hannounces hsegment) header.currentNum decodeData
    simp only [if_pos hsegment, hbranch, ok_bind]
    cases complete with
    | none => exact ⟨store', [], rfl, hstore'⟩
    | some complete =>
      have hnot : ¬ (header.property.responseFlag = false ∧ complete = .freed) := by
        rintro ⟨hresponse, rfl⟩
        exact hempty ⟨hsegment, hresponse, hfreed.mp rfl⟩
      dsimp only
      rw [finishMsg_of_not _ _ _ hnot]
      exact ⟨store', _, rfl, hstore'⟩
  · simp only [if_neg hsegment, finishMsg_ofOption]
    exact ⟨store, _, rfl, hstore⟩

/-- An accepted frame that completes a message without any bytes halts the manager, or hands on a
block that has been freed. -/
lemma managerRecvWiotaMsg_of_empty {frame : UlFrame} {header : AppPsHeader}
    {decodeData : Option (List UInt8)} {store : List DataPacket} (hstore : StoreOk store)
    (hframe : frame.Accepted header decodeData) (hannounces : Announces header frame.id store)
    (hempty : EmptyMessage header decodeData frame.id store) (result) :
    managerRecvWiotaMsg frame.env store frame.id frame.data ≠ .ok result := by
  obtain ⟨hsegment, hresponse, hcompletes⟩ := hempty
  obtain ⟨store', complete, hbranch, -, hfreed⟩ :=
    recvSegment_storeOk hstore (hannounces hsegment) header.currentNum decodeData
  unfold managerRecvWiotaMsg
  rw [hframe, ok_bind]
  simp only [if_pos hsegment, hbranch, ok_bind, hfreed.mpr hcompletes]
  intro hok
  obtain ⟨actions, hactions, -⟩ := exists_of_bind_eq_ok hok
  exact finishMsg_ok_iff.mp ⟨actions, hactions⟩ ⟨hresponse, rfl⟩

/-- An accepted frame that announces no segments and has no entry halts the manager. -/
lemma managerRecvWiotaMsg_halts {frame : UlFrame} {header : AppPsHeader}
    {decodeData : Option (List UInt8)} {store : List DataPacket}
    (hframe : frame.Accepted header decodeData) (h : ¬ Announces header frame.id store) :
    managerRecvWiotaMsg frame.env store frame.id frame.data = .error .assertion := by
  unfold Announces at h
  push Not at h
  obtain ⟨hsegment, htotal, hfind⟩ := h
  unfold managerRecvWiotaMsg
  rw [hframe, ok_bind]
  simp only [if_pos hsegment, htotal, recvSegment_halts hfind, error_bind]

/-- The store is in good order after every guarded run. -/
lemma storeOk_of_guardedRun {frames : List UlFrame} {store : List DataPacket}
    (hrun : GuardedRun managerStep FrameGuard [] frames store) : StoreOk store := by
  refine hrun.invariant (P := fun _ store => StoreOk store) ?_ ?_
  · rintro p ⟨⟩
  · rintro frames frame store store' hstore ⟨header, decodeData, hframe, hannounces, hempty⟩ hstep
    obtain ⟨store'', actions, hrecv, hstore''⟩ :=
      managerRecvWiotaMsg_storeOk hstore hframe hannounces hempty
    rw [managerStep, hrecv, ok_bind] at hstep
    cases hstep
    exact hstore''

/-- What the store is while no frame has halted the manager: no entry counts more segments than it
announces, and it counts the slots with data. -/
def CountsTruly (store : List DataPacket) : Prop :=
  ∀ p ∈ store, p.segCount ≤ p.segTotal ∧
    ∃ segment, p.segment = some segment ∧ segment.length = p.segTotal.toNat ∧
      p.segCount.toNat = slotCount segment

/-- In a run of accepted frames that announce some segments unless they have an entry, and do not
complete a message without any bytes, the entries count truly at every time.  The next accepted
frame is taken exactly if it is such a frame too. -/
theorem manager_noHalt_of_guarded {frames : List UlFrame} {store : List DataPacket}
    (hrun : GuardedRun managerStep FrameGuard [] frames store) :
    CountsTruly store ∧
      ∀ (frame : UlFrame) header decodeData, frame.Accepted header decodeData →
        ((∃ result, managerRecvWiotaMsg frame.env store frame.id frame.data = .ok result) ↔
          Announces header frame.id store ∧ ¬ EmptyMessage header decodeData frame.id store) := by
  have hstore := storeOk_of_guardedRun hrun
  constructor
  · intro p hp
    obtain ⟨segment, hok, hlt⟩ := hstore p hp
    refine ⟨?_, segment, hok.segment_eq, hok.length_eq, hok.count_eq⟩
    rw [UInt8.le_iff_toNat_le, hok.count_eq, ← hok.length_eq]
    exact le_of_lt hlt
  · intro frame header decodeData hframe
    constructor
    · rintro ⟨result, hresult⟩
      have hannounces : Announces header frame.id store := by
        by_contra hnot
        rw [managerRecvWiotaMsg_halts hframe hnot] at hresult
        cases hresult
      exact ⟨hannounces, fun hempty =>
        managerRecvWiotaMsg_of_empty hstore hframe hannounces hempty result hresult⟩
    · rintro ⟨hannounces, hempty⟩
      obtain ⟨store', actions, hrecv, -⟩ :=
        managerRecvWiotaMsg_storeOk hstore hframe hannounces hempty
      exact ⟨_, hrecv⟩

/-- The rest of the manager when it starts. -/
def startEnv : ManagerEnv where
  decompress comp := decompressBlock comp appMaxDecodingDataLen
  malloc := fun _ => true
  otaState := .default
  queryWiotaid := fun _ => 0

/-- The second of two segments with the packet number 0: one byte of data, command 0. -/
def secondSegment : UlFrame where
  env := startEnv
  id := 7
  data := [0x04, 2, 1, 0, 0xAA]

/-- A run with one segment of a message of two. -/
theorem manager_noHalt_of_secondSegment :
    ∃ store, GuardedRun managerStep FrameGuard [] [secondSegment] store ∧ store ≠ [] ∧
      CountsTruly store := by
  have hstep : managerStep secondSegment [] =
      .ok [⟨7, 0, 2, 1, some [none, some ⟨1, [0xAA]⟩]⟩] := by decide
  have hguard : FrameGuard [] secondSegment [] := by
    refine ⟨_, some [0xAA], rfl, fun _ => Or.inl (by decide), ?_⟩
    rintro ⟨-, -, -, ⟨data, hdata, hzero⟩, -⟩
    cases hdata
    cases hzero
  have hrun : GuardedRun managerStep FrameGuard [] ([] ++ [secondSegment]) _ :=
    .snoc .nil hguard hstep
  exact ⟨_, hrun, by decide, (manager_noHalt_of_guarded hrun).1⟩

/-- A data segment that announces no segments: `segment_flag` is set, the total is zero. -/
def noSegments : UlFrame where
  env := startEnv
  id := 7
  data := [0x04, 0, 0, 0]

/-- The only segment of a message, whose byte decompresses to nothing; the command is
`APP_CMD_NET_CTRL_IOTE`. -/
def emptySegment : UlFrame where
  env := startEnv
  id := 7
  data := [0x06, 1, 0, 0x28, 0xFF]

/-- The same segment with the command `APP_CMD_IOTE_PROPERTY_REPORT`. -/
def emptyReport : UlFrame where
  env := startEnv
  id := 7
  data := [0x06, 1, 0, 0, 0xFF]

/-- Four or five bytes from a device halt the access point: the frame is accepted, and the assertion
on the array of segments fails, or the one of the second `rt_free` of an empty segment.  A report
hands the freed block on to the network task. -/
theorem manager_halts_on_noSegments :
    ((∃ header decodeData, noSegments.Accepted header decodeData) ∧
      managerStep noSegments [] = .error .assertion) ∧
    ((∃ header decodeData, emptySegment.Accepted header decodeData ∧
        Announces header emptySegment.id []) ∧
      managerStep emptySegment [] = .error .assertion) ∧
    managerStep emptyReport [] = .error .dangling := by
  have haccepted : emptySegment.Accepted ⟨AppPsProperty.ofByte 0x06, 0, 0, 0, 1, 0, 0x28⟩
      (some []) := by
    unfold UlFrame.Accepted
    decide +kernel
  exact ⟨⟨⟨_, _, rfl⟩, by decide⟩, ⟨⟨_, _, haccepted, fun _ => .inl (by decide)⟩,
    by decide +kernel⟩, by decide +kernel⟩

end WiotaAp
