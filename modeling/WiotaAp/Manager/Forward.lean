import WiotaAp.Manager.EndToEnd
import WiotaAp.Manager.Reassembly

/-!
# From one device to another

A device sends a message for another one as a command `APP_CMD_NET_CTRL_IOTE` with the address of
that device.  `manager_recv_wiota_msg` passes on the frame that was received last, unless it is a
response.  For a message in segments this is one segment, and `forwardsWhole_iff` says that the
other device gets the message only if this is all of it.
-/

namespace WiotaAp

open Buffers Reassembly

/-! ### Segmented messages for another device -/

/-- `APP_CMD_NET_CTRL_IOTE`. -/
def appCmdNetCtrlIote : UInt8 := 40

/-- A message for another device in segments with data: its frames in the order of the segments, and
the headers that the decoder finds in them. -/
structure CtrlMessage (env : ManagerEnv) where
  msg : Message
  frame : ℕ → List UInt8
  header : ℕ → AppPsHeader
  decoded : ∀ k < msg.total, appDataDecoding env.decompress env.malloc (frame k) =
    .ok (.accepted (header k) (msg.data k))
  nonempty : ∀ d ∈ msg.segs, ∃ data, d = some data ∧ data ≠ []
  segmentFlag : ∀ k < msg.total, (header k).property.segmentFlag = true
  isDestAddr : ∀ k < msg.total, (header k).property.isDestAddr = true
  destAddr : ∀ k < msg.total, serverDefaultAddress ≠ (header k).destAddr
  packetNum : ∀ k < msg.total, (header k).packetNum = msg.packetNum
  totalNum : ∀ k < msg.total, (header k).totalNum = UInt8.ofNat msg.total
  currentNum : ∀ k < msg.total, (header k).currentNum = UInt8.ofNat k
  cmdType : ∀ k < msg.total, (header k).cmdType = appCmdNetCtrlIote

/-- The frames of a device are taken one after the other. -/
def recvMsgs (env : ManagerEnv) (id : UInt32) :
    List (List UInt8) → List DataPacket → Except Fault (List DataPacket × List MsgAction)
  | [], store => .ok (store, [])
  | frame :: frames, store => do
    let (store, actions) ← managerRecvWiotaMsg env store id frame
    let (store, rest) ← recvMsgs env id frames store
    return (store, actions ++ rest)

/-- The frames that are passed on to another device. -/
def forwardedFrames (actions : List MsgAction) : List (List UInt8) :=
  actions.filterMap fun
    | .sendToOperater _ _ _ data => some data
    | _ => none

/-- In whatever order the segments arrive, the other device gets the message from the frames that
are passed on. -/
def ForwardsWhole {env : ManagerEnv} (m : CtrlMessage env) (destId : UInt32) : Prop :=
  ∀ order : List ℕ, order.Perm (List.range m.msg.total) →
    ∃ store actions, recvMsgs env m.msg.sourceId (order.map m.frame) [] = .ok (store, actions) ∧
      ∃ store' received, recvFrames env destId (forwardedFrames actions) [] =
          .ok (store', received) ∧
        received.filterMap RecvOutcome.payload? = [m.msg.payload]

/-! ### The access point -/

/-- Taking one more frame. -/
lemma recvMsgs_snoc {env : ManagerEnv} {id : UInt32} {frames : List (List UInt8)}
    {store store' store'' : List DataPacket} {actions actions' : List MsgAction}
    {frame : List UInt8} (hframes : recvMsgs env id frames store = .ok (store', actions))
    (hframe : managerRecvWiotaMsg env store' id frame = .ok (store'', actions')) :
    recvMsgs env id (frames ++ [frame]) store = .ok (store'', actions ++ actions') := by
  induction frames generalizing store actions with
  | nil =>
    cases hframes
    simp only [List.nil_append, recvMsgs, hframe, ok_bind, List.append_nil]
    rfl
  | cons first frames ih =>
    rw [recvMsgs] at hframes
    obtain ⟨⟨store₁, actions₁⟩, hfirst, hframes⟩ := exists_of_bind_eq_ok hframes
    obtain ⟨⟨store₂, rest⟩, hrest, hframes⟩ := exists_of_bind_eq_ok hframes
    cases hframes
    simp only [List.cons_append, recvMsgs, hfirst, ih hrest, ok_bind, List.append_assoc]
    rfl

namespace CtrlMessage

variable {env : ManagerEnv} (m : CtrlMessage env)

/-- The messages of one message. -/
def msgs (_ : Unit) : Message :=
  m.msg

/-- The arrivals of the segments. -/
def history (order : List ℕ) : List (Unit × ℕ) :=
  order.map fun k => ((), k)

/-- Every segment has data. -/
lemma nonEmptySegs : NonEmptySegs m.msgs :=
  fun _ => m.nonempty

/-- There is only one message. -/
lemma keys_injective : Function.Injective fun i => (m.msgs i).key :=
  fun _ _ _ => rfl

/-- The received segments are those that have arrived. -/
lemma receivedSegs_history (order : List ℕ) :
    receivedSegs (history order) () = order.toFinset := by
  unfold receivedSegs history
  congr 1
  induction order with
  | nil => rfl
  | cons k order ih =>
    rw [List.map_cons, List.filter_cons_of_pos (by rfl), List.map_cons, ih]

/-- What is passed on when the segment `k` completes the message. -/
def forward (k : ℕ) : List MsgAction :=
  runMsg env m.msg.sourceId (m.header k) (some m.msg.payload) (m.frame k)

/-- The frame that completes the message is passed on, unless it is a response. -/
lemma forwardedFrames_forward {k : ℕ} (hk : k < m.msg.total) :
    forwardedFrames (m.forward k) =
      if (m.header k).property.responseFlag then [] else [m.frame k] := by
  have hcmd : (m.header k).cmdType.toNat = 40 := by
    rw [m.cmdType k hk]
    rfl
  unfold forward runMsg runCmd
  simp only [hcmd, m.isDestAddr k hk, and_true, if_pos (m.destAddr k hk)]
  split
  · rfl
  · rfl

/-- A frame of the message is put into the store. -/
lemma recvFrame_frame {k : ℕ} (hk : k < m.msg.total) {store store' : List DataPacket} {id : UInt32}
    {complete : Option DecodeData}
    (hrecv : recvSegment store id m.msg.packetNum (UInt8.ofNat m.msg.total) (UInt8.ofNat k)
      (m.msg.data k) = .ok (store', complete)) :
    recvFrame env store id (m.frame k) = .ok (store', .ofSegment (m.header k) complete) := by
  refine recvFrame_of_segment (m.decoded k hk) (m.segmentFlag k hk) ?_
  rw [m.packetNum k hk, m.totalNum k hk, m.currentNum k hk]
  exact hrecv

/-- One more frame: it is stored, or completes the message and is passed on. -/
lemma managerRecvWiotaMsg_frame {order : List ℕ} (h : Schedule m.msgs (history order))
    {store : List DataPacket}
    (hrep : Represents m.msgs (arriveAll (wholes m.msgs) (arrivals m.msgs (history order))) store)
    {k : ℕ} (hk : k < m.msg.total) (hne : order.toFinset ≠ m.msg.whole) :
    ∃ store', managerRecvWiotaMsg env store m.msg.sourceId (m.frame k) =
        .ok (store', if (order ++ [k]).toFinset = m.msg.whole then m.forward k else []) ∧
      Schedule m.msgs (history (order ++ [k])) ∧
      Represents m.msgs (arriveAll (wholes m.msgs) (arrivals m.msgs (history (order ++ [k]))))
        store' := by
  have hsnoc : history (order ++ [k]) = history order ++ [((), k)] := List.map_append
  have hne' : receivedSegs (history order) () ≠ (m.msgs ()).whole := by
    rw [receivedSegs_history]
    exact hne
  obtain ⟨store', hrecv, hrep', -⟩ := h.recvOf_eq m.keys_injective m.nonEmptySegs hrep hk hne'
  rw [← hsnoc, receivedSegs_history] at hrecv
  rw [← hsnoc] at hrep'
  refine ⟨store', ?_, hsnoc ▸ .snoc h hk hne', hrep'⟩
  have hframe : recvFrame env store m.msg.sourceId (m.frame k) =
      .ok (store', .ofSegment (m.header k)
        (if (order ++ [k]).toFinset = m.msg.whole then some (.block m.msg.payload) else none)) :=
    m.recvFrame_frame hk hrecv
  rw [managerRecvWiotaMsg_eq, hframe, ok_bind]
  by_cases hwhole : (order ++ [k]).toFinset = m.msg.whole
  · have hfinish : finishMsg env m.msg.sourceId (m.header k) (.block m.msg.payload) (m.frame k) =
        .ok (m.forward k) := finishMsg_ofOption env _ _ (some m.msg.payload) _
    rw [if_pos hwhole, if_pos hwhole]
    dsimp only [RecvOutcome.ofSegment, RecvOutcome.finish]
    rw [hfinish]
    rfl
  · rw [if_neg hwhole, if_neg hwhole]
    rfl

/-- As long as a segment is missing, nothing is passed on. -/
lemma recvMsgs_part {order : List ℕ} (hlt : ∀ k ∈ order, k < m.msg.total) {j : ℕ}
    (hj : j < m.msg.total) (hmissing : j ∉ order) :
    ∃ store, recvMsgs env m.msg.sourceId (order.map m.frame) [] = .ok (store, []) ∧
      Schedule m.msgs (history order) ∧
      Represents m.msgs (arriveAll (wholes m.msgs) (arrivals m.msgs (history order))) store := by
  induction order using List.reverseRecOn with
  | nil => exact ⟨[], rfl, .nil, represents_empty⟩
  | append_singleton order k ih =>
    -- the missing segment keeps the message from being whole
    have hne : ∀ part : List ℕ, j ∉ part → part.toFinset ≠ m.msg.whole := by
      intro part hpart hwhole
      have hmem : j ∈ part.toFinset := hwhole ▸ Finset.mem_range.mpr hj
      exact hpart (List.mem_toFinset.mp hmem)
    have hmissing' : j ∉ order := fun hmem => hmissing (List.mem_append_left _ hmem)
    obtain ⟨store, hrun, hsched, hrep⟩ :=
      ih (fun i hi => hlt i (List.mem_append_left _ hi)) hmissing'
    obtain ⟨store', hframe, hsched', hrep'⟩ := m.managerRecvWiotaMsg_frame hsched hrep
      (hlt k (List.mem_append_right _ List.mem_cons_self)) (hne order hmissing')
    rw [if_neg (hne _ hmissing)] at hframe
    refine ⟨store', ?_, hsched', hrep'⟩
    rw [List.map_append]
    exact recvMsgs_snoc hrun hframe

/-- The frame that arrives last, and nothing else, is passed on, unless it is a response. -/
lemma recvMsgs_whole {order : List ℕ} {k : ℕ}
    (horder : (order ++ [k]).Perm (List.range m.msg.total)) :
    k < m.msg.total ∧
      ∃ store actions, recvMsgs env m.msg.sourceId ((order ++ [k]).map m.frame) [] =
          .ok (store, actions) ∧
        forwardedFrames actions =
          if (m.header k).property.responseFlag then [] else [m.frame k] := by
  have hlt : ∀ i ∈ order ++ [k], i < m.msg.total :=
    fun i hi => List.mem_range.mp (horder.mem_iff.mp hi)
  have hk := hlt k (List.mem_append_right _ List.mem_cons_self)
  have hmissing : k ∉ order := by
    have hnodup := horder.nodup_iff.mpr List.nodup_range
    rw [List.nodup_append_comm] at hnodup
    exact (List.nodup_cons.mp hnodup).1
  have hne : order.toFinset ≠ m.msg.whole := by
    intro hwhole
    have hmem : k ∈ order.toFinset := hwhole ▸ Finset.mem_range.mpr hk
    exact hmissing (List.mem_toFinset.mp hmem)
  have hwhole : (order ++ [k]).toFinset = m.msg.whole := by
    rw [List.toFinset_eq_of_perm _ _ horder]
    ext i
    simp [Message.whole]
  obtain ⟨store, hrun, hsched, hrep⟩ :=
    m.recvMsgs_part (fun i hi => hlt i (List.mem_append_left _ hi)) hk hmissing
  obtain ⟨store', hframe, -, -⟩ := m.managerRecvWiotaMsg_frame hsched hrep hk hne
  rw [if_pos hwhole] at hframe
  refine ⟨hk, store', m.forward k, ?_, m.forwardedFrames_forward hk⟩
  rw [List.map_append]
  exact recvMsgs_snoc hrun hframe

/-! ### The other device -/

/-- The message with the source that the other device sees. -/
def msgFrom (id : UInt32) (_ : Unit) : Message :=
  { m.msg with sourceId := id }

/-- A segment is the whole message exactly if there is no other one. -/
lemma toFinset_eq_whole {k : ℕ} (hk : k < m.msg.total) :
    [k].toFinset = m.msg.whole ↔ m.msg.total = 1 := by
  constructor
  · intro hwhole
    have hcard := congrArg Finset.card hwhole
    rw [Message.whole, Finset.card_range] at hcard
    exact hcard.symm
  · intro hone
    have hzero : k = 0 := by omega
    rw [Message.whole, hone, hzero]
    rfl

/-- One frame of the message gives the message only if it is all of it. -/
lemma recvFrames_one {k : ℕ} (hk : k < m.msg.total) (destId : UInt32) :
    ∃ store, recvFrames env destId [m.frame k] [] =
      .ok (store, [.ofSegment (m.header k)
        (if m.msg.total = 1 then some (.block m.msg.payload) else none)]) := by
  have hkeys : Function.Injective fun i => (m.msgFrom destId i).key := fun _ _ _ => rfl
  have hempty : receivedSegs ([] : List (Unit × ℕ)) () ≠ (m.msgFrom destId ()).whole := by
    intro hwhole
    have hmem : k ∈ receivedSegs ([] : List (Unit × ℕ)) () := hwhole ▸ Finset.mem_range.mpr hk
    cases hmem
  obtain ⟨store, hrecv, -, -⟩ := Schedule.nil.recvOf_eq hkeys (fun _ => m.nonempty)
    represents_empty hk hempty
  have hframe : recvFrame env [] destId (m.frame k) =
      .ok (store, .ofSegment (m.header k)
        (if receivedSegs (history [k]) () = m.msg.whole then some (.block m.msg.payload)
          else none)) :=
    m.recvFrame_frame hk hrecv
  rw [receivedSegs_history] at hframe
  simp only [m.toFinset_eq_whole hk] at hframe
  refine ⟨store, ?_⟩
  rw [recvFrames, hframe, ok_bind]
  rfl

/-- If the other device gets the message, it has one segment, which is not a response. -/
lemma total_of_forwardsWhole {destId : UInt32} (hforward : ForwardsWhole m destId) :
    m.msg.total = 1 ∧ (m.header 0).property.responseFlag = false := by
  obtain ⟨order, k, hsnoc⟩ : ∃ order k, List.range m.msg.total = order ++ [k] := by
    have hpos : m.msg.total ≠ 0 := Nat.pos_iff_ne_zero.mp m.msg.total_pos
    refine ⟨List.range (m.msg.total - 1), m.msg.total - 1, ?_⟩
    rw [← List.range_succ, Nat.succ_eq_add_one, Nat.sub_one_add_one hpos]
  have hperm : (order ++ [k]).Perm (List.range m.msg.total) := hsnoc ▸ List.Perm.refl _
  obtain ⟨store, actions, hrun, store', received, hrecv, hpayload⟩ := hforward _ hperm
  obtain ⟨hk, store₁, actions₁, hrun₁, hframes⟩ := m.recvMsgs_whole hperm
  rw [hrun₁] at hrun
  cases hrun
  rw [hframes] at hrecv
  cases hresponse : (m.header k).property.responseFlag with
  | true =>
    -- nothing is passed on
    rw [hresponse] at hrecv
    cases hrecv
    cases hpayload
  | false =>
    obtain ⟨store₂, hone⟩ := m.recvFrames_one hk destId
    rw [hresponse] at hrecv
    cases hone.symm.trans hrecv
    have htotal : m.msg.total = 1 := by
      by_contra hne
      rw [if_neg hne] at hpayload
      cases hpayload
    have hzero : k = 0 := by omega
    exact ⟨htotal, hzero ▸ hresponse⟩

/-- A message of one segment reaches the other device, unless it is a response. -/
lemma forwardsWhole_of_total (hone : m.msg.total = 1)
    (hresponse : (m.header 0).property.responseFlag = false) (destId : UInt32) :
    ForwardsWhole m destId := by
  intro order horder
  obtain rfl : order = [] ++ [0] := by
    rw [hone] at horder
    exact List.perm_singleton.mp horder
  obtain ⟨hk, store, actions, hrun, hframes⟩ := m.recvMsgs_whole horder
  obtain ⟨store', hrecv⟩ := m.recvFrames_one hk destId
  rw [hresponse] at hframes
  refine ⟨store, actions, hrun, store', _, by rw [hframes]; exact hrecv, ?_⟩
  rw [if_pos hone]
  rfl

end CtrlMessage

/-- **From one device to another.**  The other device gets a segmented message from the frames that
are passed on exactly if the message has only one segment, which is not a response. -/
theorem forwardsWhole_iff {env : ManagerEnv} (m : CtrlMessage env) (destId : UInt32) :
    ForwardsWhole m destId ↔
      m.msg.total = 1 ∧ (m.header 0).property.responseFlag = false :=
  ⟨m.total_of_forwardsWhole,
    fun ⟨hone, hresponse⟩ => m.forwardsWhole_of_total hone hresponse destId⟩

/-- A message of two segments for the device 9, with the packet number 1. -/
def twoSegmentCtrl : CtrlMessage startEnv where
  msg :=
    { sourceId := 7
      packetNum := 1
      segs := [some [0xA0], some [0xA1]]
      total_pos := by decide
      total_lt := by decide
      data_lt := by
        intro data hdata
        simp only [List.mem_cons, Option.some.injEq, List.not_mem_nil, or_false] at hdata
        rcases hdata with rfl | rfl <;> decide }
  frame k := [0x64, 9, 0, 0, 0, 1, 2, UInt8.ofNat k, 40, 0xA0 + UInt8.ofNat k]
  header k := ⟨AppPsProperty.ofByte 0x64, 0, 9, 1, 2, UInt8.ofNat k, 40⟩
  decoded := by decide
  nonempty := by
    intro d hd
    simp only [List.mem_cons, List.not_mem_nil, or_false] at hd
    rcases hd with rfl | rfl
    · exact ⟨_, rfl, List.cons_ne_nil _ _⟩
    · exact ⟨_, rfl, List.cons_ne_nil _ _⟩
  segmentFlag := by decide
  isDestAddr := by decide
  destAddr := by decide
  packetNum := by decide
  totalNum := by decide
  currentNum := by decide
  cmdType := by decide

/-- Of a message of two segments, the other device gets only the segment that arrived last. -/
theorem forwardsPart_two :
    twoSegmentCtrl.msg.total = 2 ∧ ¬ ForwardsWhole twoSegmentCtrl 3 := by
  have htwo : twoSegmentCtrl.msg.total = 2 := rfl
  refine ⟨htwo, fun hforward => ?_⟩
  obtain ⟨hone, -⟩ := twoSegmentCtrl.total_of_forwardsWhole hforward
  omega

end WiotaAp
