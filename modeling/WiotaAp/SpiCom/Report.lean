import WiotaAp.Foundation.Runs
import WiotaAp.SpiCom.Uplink

/-!
# What the uplink reports

The callers of `uc_wiota_send_data_to_gateway` take a returned zero for a frame that is on its way.
The function returns zero when the read position of the gateway was valid; whether the put found
room for the frame is not looked at.  `CallFits` is the condition under which the two agree, and
`uplinkReport_of_fitting` says that they do in every run whose calls meet it.
-/

namespace WiotaAp

open Buffers

/-- `uc_send_recv_t`. -/
structure UcSendRecv where
  userId : UInt32
  dataId : UInt32
  result : UInt32

/-- The parameters with which `uc_wiota_handle_send_result` reports a result. -/
def resultPara (res : UcSendRecv) (cmd : UInt8) : CmdSendPara where
  cmdHeader := CmdHeader.ofCmd 4 cmd.toNat
  paras := [leBytes 4 res.userId.toNat ++ leBytes 4 res.dataId.toNat ++ leBytes 4 res.result.toNat]
  para_num_le := Nat.succ_le_succ (Nat.zero_le 1)
  para_len_lt := by simp

section Report

variable (crc32 crc8 : List UInt8 → UInt32)

/-- `uc_wiota_handle_send_result`: the report, and the count of the reports taken for delivered. -/
def ucWiotaHandleSendResult (mallocOk : Bool) (retry : RbReadState) (res : UcSendRecv) (cmd : UInt8)
    (s : SpiCom) : Except Fault SpiCom := do
  let (s', result) ← ucWiotaSendDataToGateway crc32 crc8 mallocOk retry (resultPara res cmd) s
  if result ≠ 0 then return s'
  else if cmd = 0 then return { s' with gDelCnt := (s'.gDelCnt + 1) % 2 ^ 32 }
  else return s'

/-- What can happen on the uplink: a call, a reported result, or a read position that the gateway
publishes, valid or not. -/
inductive UplinkEvent
  | send (mallocOk : Bool) (retry : RbReadState) (para : CmdSendPara)
  | sendResult (mallocOk : Bool) (retry : RbReadState) (res : UcSendRecv) (cmd : UInt8)
  | gatewayRead (state : RbReadState)

/-- One event on the uplink. -/
def uplinkStep : UplinkEvent → SpiCom → Except Fault SpiCom
  | .send mallocOk retry para, s => do
    let (s', _) ← ucWiotaSendDataToGateway crc32 crc8 mallocOk retry para s
    return s'
  | .sendResult mallocOk retry res cmd, s =>
    ucWiotaHandleSendResult crc32 crc8 mallocOk retry res cmd s
  | .gatewayRead state, s => .ok { s with ulRbReadState := state }

end Report

namespace CmdSendPara

variable (para : CmdSendPara)

/-- The length of the frame of the parameters. -/
def frameLen : ℕ :=
  if para.data = [] then 8 else 8 + rtAlign para.data.length ringBufferAlignSize + 4

/-- The frame of the parameters. -/
def frame (crc32 : List UInt8 → UInt32) (channel : UInt8) : List UInt8 :=
  let hdr := (para.sentHeader crc32 channel para.data.length).toBytes
  if para.data = [] then hdr
  else hdr ++ para.data ++ Command.zeroPadding para.data.length ++
    leBytes 4 (crc32 (hdr ++ para.data ++ Command.zeroPadding para.data.length)).toNat

/-- It is the frame of the command they stand for. -/
lemma command_frame (crc32 : List UInt8 → UInt32) (channel : UInt8) (h : para.NoWrap) :
    (para.command channel h).frame crc32 = para.frame crc32 channel ∧
      (para.command channel h).frameLen = para.frameLen :=
  ⟨(uplinkFrame_command crc32 channel para h).bytes, rfl⟩

end CmdSendPara

/-- The call can keep what it reports: the 16-bit lengths do not wrap, and either it reports a
failure, for want of memory or of a valid read position, or there is room for its frame. -/
def CallFits (crc8 : List UInt8 → UInt32) (size : RingSize) (mallocOk : Bool) (retry : RbReadState)
    (para : CmdSendPara) (s : SpiCom) : Prop :=
  para.NoWrap ∧
    (mallocOk = false ∧ para.data ≠ [] ∨ (ucWiotaRingbufferGetUlReadIdx crc8 retry s).2 ≠ 0 ∨
      para.frameLen ≤ size.cells ∧ para.frameLen ≤
        rtRingbufferSpaceLen (ucWiotaRingbufferGetUlReadIdx crc8 retry s).1.ulRb % 2 ^ 16)

/-- The event, if it is a call, can keep what it reports. -/
def EventFits (crc8 : List UInt8 → UInt32) (size : RingSize) :
    List UplinkEvent → UplinkEvent → SpiCom → Prop
  | _, .send mallocOk retry para, s => CallFits crc8 size mallocOk retry para s
  | _, .sendResult mallocOk retry res cmd, s =>
    CallFits crc8 size mallocOk retry (resultPara res cmd) s
  | _, .gatewayRead _, _ => True

/-- The call returns, and returns zero exactly when its whole frame has been appended to the ring.
-/
def ReportsTruly (crc32 crc8 : List UInt8 → UInt32) (size : RingSize) (mallocOk : Bool)
    (retry : RbReadState) (para : CmdSendPara) (s : SpiCom) : Prop :=
  ∃ s' result, ucWiotaSendDataToGateway crc32 crc8 mallocOk retry para s = .ok (s', result) ∧
    (result = 0 ↔ Appended size s s' (para.frame crc32 s.apChannelId))

/-! ### One call -/

section Call

variable {crc32 crc8 : List UInt8 → UInt32} {size : RingSize} {mallocOk : Bool}
  {retry : RbReadState} {para : CmdSendPara} {s : SpiCom}

/-- Nothing has been appended while the write position stays where it was. -/
lemma not_appended_of_cursor {s' : SpiCom} {frame : List UInt8} (hpos : 0 < frame.length)
    (hcursor : s'.ulRb.writeCursor = s.ulRb.writeCursor) : ¬ Appended size s s' frame := by
  intro happ
  have hmoved := happ.moved
  rw [hcursor] at hmoved
  exact Cursor.advance_ne hpos hmoved.symm

/-- The frame of a call is not empty. -/
lemma length_frame_pos (h : para.NoWrap) (channel : UInt8) :
    (para.frame crc32 channel).length = para.frameLen ∧ 0 < (para.frame crc32 channel).length := by
  obtain ⟨hframe, hlen⟩ := para.command_frame crc32 channel h
  have hL := (para.command channel h).frameLen_bounds
  rw [← hframe, Command.length_frame, ← hlen]
  omega

/-- Putting a frame into the ring keeps the ring as it was set up. -/
lemma UlRing.afterPut (hring : UlRing size s) {frame : List UInt8}
    (hle : frame.length ≤ size.cells) : UlRing size (afterPut crc8 s frame) := by
  obtain ⟨hsize, hpool, hw⟩ := hring
  refine ⟨hsize, ?_, ?_⟩
  · change (ringSplice _ _ _ frame).length = _
    rw [hsize]
    exact length_ringSplice hpool hw hle
  · change (Cursor.advance _ _ _).index < _
    rw [hsize]
    exact Cursor.advance_index_lt hw hle

/-- A call that does not run out of memory has it, or has no need of it. -/
lemma memory_of_not (h : ¬ (mallocOk = false ∧ para.data ≠ [])) :
    mallocOk = true ∨ para.data = [] := by
  cases mallocOk with
  | true => exact Or.inl rfl
  | false => exact Or.inr (not_not.mp fun hdata => h ⟨rfl, hdata⟩)

/-- A call that fits reports a failure and appends nothing, or reports success and appends its
frame. -/
lemma send_of_fits (hring : UlRing size s) (hfits : CallFits crc8 size mallocOk retry para s) :
    ∃ s' result, ucWiotaSendDataToGateway crc32 crc8 mallocOk retry para s = .ok (s', result) ∧
      UlRing size s' ∧ s'.gDelCnt = s.gDelCnt ∧
      (result ≠ 0 ∧ ¬ Appended size s s' (para.frame crc32 s.apChannelId) ∨
        result = 0 ∧ Appended size s s' (para.frame crc32 s.apChannelId)) := by
  obtain ⟨hwrap, hcase⟩ := hfits
  obtain ⟨hframe, hframeLen⟩ := para.command_frame crc32 s.apChannelId hwrap
  obtain ⟨hlen, hpos⟩ := @length_frame_pos crc32 para hwrap s.apChannelId
  obtain ⟨-, hcursor, -, hcount⟩ := fetchUl_frame crc8 retry s
  by_cases hmem : mallocOk = false ∧ para.data ≠ []
  · obtain ⟨rfl, hdata⟩ := hmem
    exact ⟨s, -3, send_noMemory hwrap hdata, hring, rfl,
      Or.inl ⟨by decide, not_appended_of_cursor hpos rfl⟩⟩
  have hmem' := memory_of_not hmem
  by_cases hfetch : (ucWiotaRingbufferGetUlReadIdx crc8 retry s).2 = 0
  · obtain ⟨hle, hroom⟩ := (hcase.resolve_left hmem).resolve_left (not_not.mpr hfetch)
    refine ⟨_, 0, send_appended hring hwrap hmem' hfetch (hframeLen ▸ hle) (hframeLen ▸ hroom),
      (hring.fetch crc8 retry).afterPut (by rw [hframe, hlen]; exact hle), hcount, Or.inr ⟨rfl, ?_⟩⟩
    rw [hframe]
    exact afterPut_appended hring (by rw [hlen]; exact hle)
  · exact ⟨_, 1, send_rejected hwrap hmem' hfetch, hring.fetch crc8 retry, hcount,
      Or.inl ⟨by decide, not_appended_of_cursor hpos hcursor⟩⟩

/-- A call that fits reports truly. -/
lemma reportsTruly_of_fits (hring : UlRing size s)
    (hfits : CallFits crc8 size mallocOk retry para s) :
    ReportsTruly crc32 crc8 size mallocOk retry para s := by
  obtain ⟨s', result, hsend, -, -, hcase⟩ := @send_of_fits crc32 _ _ _ _ _ _ hring hfits
  refine ⟨s', result, hsend, ?_⟩
  rcases hcase with ⟨hres, happ⟩ | ⟨hres, happ⟩
  · exact iff_of_false hres happ
  · exact iff_of_true hres happ

/-- A valid read position makes every call that returns report success. -/
lemma send_result_zero (hwrap : para.NoWrap) (hmem : mallocOk = true ∨ para.data = [])
    (hfetch : (ucWiotaRingbufferGetUlReadIdx crc8 retry s).2 = 0) {s' : SpiCom} {result : ℤ}
    (hsend : ucWiotaSendDataToGateway crc32 crc8 mallocOk retry para s = .ok (s', result)) :
    result = 0 := by
  unfold ucWiotaSendDataToGateway at hsend
  rw [writeFrame_of_memory hwrap hmem, ok_bind] at hsend
  simp only at hsend
  rw [if_pos hfetch] at hsend
  obtain ⟨out, -, hsend⟩ := exists_of_bind_eq_ok hsend
  cases hsend
  rfl

/-- A call whose lengths do not wrap reports truly only if it fits. -/
lemma fits_of_reportsTruly (hwrap : para.NoWrap)
    (hreport : ReportsTruly crc32 crc8 size mallocOk retry para s) :
    CallFits crc8 size mallocOk retry para s := by
  obtain ⟨hframe, hframeLen⟩ := para.command_frame crc32 s.apChannelId hwrap
  obtain ⟨hlen, hpos⟩ := @length_frame_pos crc32 para hwrap s.apChannelId
  obtain ⟨-, hcursor, -, -⟩ := fetchUl_frame crc8 retry s
  refine ⟨hwrap, ?_⟩
  by_contra hnot
  rw [not_or, not_or, not_not] at hnot
  obtain ⟨hmem, hfetch, hroom⟩ := hnot
  have hmem' := memory_of_not hmem
  obtain ⟨s', result, hsend, hiff⟩ := hreport
  have happ := hiff.mp (send_result_zero hwrap hmem' hfetch hsend)
  have hle : para.frameLen ≤ size.cells := hlen ▸ happ.length_le
  have hspace := not_le.mp fun h => hroom ⟨hle, h⟩
  rw [send_dropped hwrap hmem' hfetch (hframeLen ▸ hspace)] at hsend
  cases hsend
  refine not_appended_of_cursor hpos ?_ happ
  exact hcursor

/-- A reported result that fits is counted as delivered exactly when its frame has been appended. -/
lemma handleSendResult_of_fits (hring : UlRing size s) {res : UcSendRecv} {cmd : UInt8}
    (hfits : CallFits crc8 size mallocOk retry (resultPara res cmd) s) :
    ∃ s', ucWiotaHandleSendResult crc32 crc8 mallocOk retry res cmd s = .ok s' ∧ UlRing size s' ∧
      (¬ Appended size s s' ((resultPara res cmd).frame crc32 s.apChannelId) ∧
          s'.gDelCnt = s.gDelCnt ∨
        Appended size s s' ((resultPara res cmd).frame crc32 s.apChannelId) ∧
          s'.gDelCnt = if cmd = 0 then (s.gDelCnt + 1) % 2 ^ 32 else s.gDelCnt) := by
  obtain ⟨s', result, hsend, hring', hcount, hcase⟩ := @send_of_fits crc32 _ _ _ _ _ _ hring hfits
  unfold ucWiotaHandleSendResult
  rw [hsend, ok_bind]
  rcases hcase with ⟨hres, happ⟩ | ⟨rfl, happ⟩
  · simp only [ne_eq, hres, not_false_eq_true, if_true]
    exact ⟨s', rfl, hring', Or.inl ⟨happ, hcount⟩⟩
  · simp only [ne_eq, not_true_eq_false, if_false]
    by_cases hcmd : cmd = 0
    · rw [if_pos hcmd, if_pos hcmd]
      exact ⟨_, rfl, ⟨hring'.1, hring'.2, hring'.3⟩,
        Or.inr ⟨⟨happ.1, happ.2, happ.3⟩, by rw [← hcount]⟩⟩
    · rw [if_neg hcmd, if_neg hcmd]
      exact ⟨s', rfl, hring', Or.inr ⟨happ, hcount⟩⟩

end Call

/-! ### Whole runs -/

section Run

variable {crc32 crc8 : List UInt8 → UInt32} {channel : UInt8} {evs : List UplinkEvent} {s : SpiCom}

/-- An event that fits keeps the ring as it was set up. -/
lemma UlRing.step {size : RingSize} {ev : UplinkEvent} {s s' : SpiCom} (hring : UlRing size s)
    (hfits : EventFits crc8 size evs ev s) (hstep : uplinkStep crc32 crc8 ev s = .ok s') :
    UlRing size s' := by
  cases ev with
  | send mallocOk retry para =>
    obtain ⟨t, result, hsend, hring', -⟩ := @send_of_fits crc32 _ _ _ _ _ _ hring hfits
    simp only [uplinkStep, hsend, ok_bind, pure_eq_ok] at hstep
    cases hstep
    exact hring'
  | sendResult mallocOk retry res cmd =>
    obtain ⟨t, hsend, hring', -⟩ := @handleSendResult_of_fits crc32 _ _ _ _ _ hring _ _ hfits
    simp only [uplinkStep, hsend] at hstep
    cases hstep
    exact hring'
  | gatewayRead state =>
    simp only [uplinkStep] at hstep
    cases hstep
    exact ⟨hring.1, hring.2, hring.3⟩

/-- In every run whose calls fit, from the initialisation on and with any read positions published
in between: a call that fits returns zero exactly when its whole frame has been appended to the
uplink ring, a reported result is counted exactly when its frame has been appended, and a call whose
lengths do not wrap reports truly only if it fits. -/
theorem uplinkReport_of_fitting
    (hrun : GuardedRun (uplinkStep crc32 crc8) (EventFits crc8 ulRingBufferSize)
      (ucWiotaSpiComInit channel crc8) evs s) :
    (∀ mallocOk retry para, CallFits crc8 ulRingBufferSize mallocOk retry para s →
      ReportsTruly crc32 crc8 ulRingBufferSize mallocOk retry para s) ∧
    (∀ mallocOk retry res cmd,
      CallFits crc8 ulRingBufferSize mallocOk retry (resultPara res cmd) s →
      ∃ s', ucWiotaHandleSendResult crc32 crc8 mallocOk retry res cmd s = .ok s' ∧
        (¬ Appended ulRingBufferSize s s' ((resultPara res cmd).frame crc32 s.apChannelId) ∧
            s'.gDelCnt = s.gDelCnt ∨
          Appended ulRingBufferSize s s' ((resultPara res cmd).frame crc32 s.apChannelId) ∧
            s'.gDelCnt = if cmd = 0 then (s.gDelCnt + 1) % 2 ^ 32 else s.gDelCnt)) ∧
    (∀ mallocOk retry para, para.NoWrap →
      ReportsTruly crc32 crc8 ulRingBufferSize mallocOk retry para s →
      CallFits crc8 ulRingBufferSize mallocOk retry para s) := by
  have hring : UlRing ulRingBufferSize s := by
    refine hrun.invariant (P := fun _ s => UlRing ulRingBufferSize s) ?_ ?_
    · exact ucWiotaSpiComInit_ulRing channel crc8
    · intro evs ev s s' hring hfits hstep
      exact hring.step hfits hstep
  refine ⟨fun mallocOk retry para hfits => reportsTruly_of_fits hring hfits, ?_,
    fun mallocOk retry para hwrap hreport => fits_of_reportsTruly hwrap hreport⟩
  intro mallocOk retry res cmd hfits
  obtain ⟨s', hhandle, -, hcase⟩ := @handleSendResult_of_fits crc32 _ _ _ _ _ hring _ _ hfits
  exact ⟨s', hhandle, hcase⟩

end Run

/-- After the initialisation and a published read position, a call with two parameters reports
truly. -/
theorem uplinkReport_of_fitting_twoParas :
    ReportsTruly byteSum (fun _ => 0) ulRingBufferSize true RbReadState.zero twoParas
      { ucWiotaSpiComInit 0 (fun _ => 0) with ulRbReadState := RbReadState.zero } := by
  have hrun : GuardedRun (uplinkStep byteSum fun _ => 0) (EventFits (fun _ => 0) ulRingBufferSize)
      (ucWiotaSpiComInit 0 fun _ => 0) [.gatewayRead RbReadState.zero]
      { ucWiotaSpiComInit 0 (fun _ => 0) with ulRbReadState := RbReadState.zero } :=
    GuardedRun.snoc .nil trivial rfl
  exact (uplinkReport_of_fitting hrun).1 true RbReadState.zero twoParas
    ⟨by decide, Or.inr (Or.inr ⟨by decide, by decide⟩)⟩

/-! ### A full ring -/

/-- A result of zeros, reported for `WIOTA_SEND_DATA`. -/
def zeroResult : UplinkEvent :=
  .sendResult true RbReadState.zero ⟨0, 0, 0⟩ 0

/-- The state after `n` reports of 24 bytes that the gateway has not read. -/
structure Unread (n : ℕ) (s : SpiCom) : Prop where
  ulRb : s.ulRb = ⟨false, 0, false, 24 * n, 7148⟩
  poolLength : s.ulBuf.length = 7148
  count : s.gDelCnt = n
  channel : s.apChannelId = 0
  readState : s.ulRbReadState = RbReadState.zero

/-- What a call finds there: a valid read position, and `24 * n` bytes in the ring. -/
lemma Unread.fetch {n : ℕ} {s : SpiCom} (h : Unread n s) :
    ucWiotaRingbufferGetUlReadIdx (fun _ => 0) RbReadState.zero s = (s, 0) := by
  obtain ⟨dlRb, dlBuf⟩ := s
  obtain ⟨rfl, -, -, rfl, rfl⟩ := h
  rfl

/-- The free space there. -/
lemma Unread.spaceLen {n : ℕ} {s : SpiCom} (h : Unread n s) (hn : n ≤ 297) :
    rtRingbufferSpaceLen s.ulRb % 2 ^ 16 = 7148 - 24 * n := by
  have hsize : s.ulRb.bufferSize = 7148 := by rw [h.ulRb]
  have hread : s.ulRb.readIndex = 0 := by rw [h.ulRb]
  have hN : s.ulRb.bufferSize < 2 ^ 15 := by
    rw [hsize]
    decide
  have hwrite : s.ulRb.writeCursor = s.ulRb.readCursor.advance s.ulRb.bufferSize (24 * n) := by
    rw [h.ulRb, Cursor.advance, RtRingbuffer.readCursor, if_pos (show 0 + 24 * n < 7148 by omega),
      Nat.zero_add]
    rfl
  have hdata : rtRingbufferDataLen s.ulRb = 24 * n := by
    rw [rtRingbufferDataLen_eq_gap (by omega) hN, hwrite]
    exact Cursor.gap_advance (show s.ulRb.readIndex < _ by omega) (by omega)
  rw [rtRingbufferSpaceLen_eq hN (by omega), hdata, hsize]
  omega

/-- The ring is the uplink ring. -/
lemma Unread.ulRing {n : ℕ} {s : SpiCom} (h : Unread n s) (hn : n ≤ 297) :
    UlRing ulRingBufferSize s := by
  refine ⟨by rw [h.ulRb]; rfl, h.poolLength, ?_⟩
  rw [h.ulRb]
  exact lt_of_le_of_lt (Nat.mul_le_mul_left 24 hn) (show 24 * 297 < 7148 by decide)

/-- The frame of the result takes 24 bytes. -/
lemma resultPara_frameLen : (resultPara ⟨0, 0, 0⟩ 0).NoWrap ∧
    (resultPara ⟨0, 0, 0⟩ 0).frameLen = 24 := by
  decide

/-- A report with 24 bytes of room is appended and counted. -/
lemma Unread.report {n : ℕ} {s : SpiCom} (h : Unread n s) (hn : n < 297) :
    ∃ s', uplinkStep byteSum (fun _ => 0) zeroResult s = .ok s' ∧ Unread (n + 1) s' := by
  obtain ⟨hwrap, hlen⟩ := resultPara_frameLen
  obtain ⟨hframe, hframeLen⟩ := (resultPara ⟨0, 0, 0⟩ 0).command_frame byteSum s.apChannelId hwrap
  have hring := h.ulRing hn.le
  have hspace := h.spaceLen hn.le
  have hsend := @send_appended byteSum (fun _ => 0) RbReadState.zero s _ _ hring hwrap true
    (Or.inl rfl) (by rw [h.fetch]) (by rw [hframeLen, hlen]; decide)
    (by rw [hframeLen, hlen, h.fetch, hspace]; omega)
  rw [h.fetch, hframe] at hsend
  generalize hbytes : (resultPara ⟨0, 0, 0⟩ 0).frame byteSum s.apChannelId = bytes at hsend hframe
  have hblen : bytes.length = 24 := by rw [← hframe, Command.length_frame, hframeLen, hlen]
  have hstep : uplinkStep byteSum (fun _ => 0) zeroResult s =
      .ok { afterPut (fun _ => 0) s bytes with gDelCnt := (s.gDelCnt + 1) % 2 ^ 32 } := by
    simp only [uplinkStep, zeroResult, ucWiotaHandleSendResult, hsend, ok_bind]
    rfl
  refine ⟨_, hstep, ?_, ?_, ?_, h.channel, h.readState⟩
  · change s.ulRb.setWrite (Cursor.advance _ _ _) = _
    rw [h.ulRb, hblen, Cursor.advance, if_pos]
    · rfl
    · change 24 * n + 24 < 7148
      omega
  · exact (@UlRing.afterPut (fun _ => 0) _ _ hring bytes (by rw [hblen]; decide)).poolLength
  · change (s.gDelCnt + 1) % 2 ^ 32 = n + 1
    rw [h.count]
    omega

/-- Up to 297 reports fit into the ring. -/
lemma unread_after {n : ℕ} (hn : n ≤ 297) :
    ∃ s, runInputs (uplinkStep byteSum fun _ => 0) (List.replicate n zeroResult)
      (ucWiotaSpiComInit 0 fun _ => 0) = .ok s ∧ Unread n s := by
  induction n with
  | zero => exact ⟨_, rfl, rfl, List.length_replicate, rfl, rfl, rfl⟩
  | succ n ih =>
    obtain ⟨s, hrun, hunread⟩ := ih (Nat.le_of_succ_le hn)
    obtain ⟨s', hstep, hunread'⟩ := hunread.report hn
    refine ⟨s', ?_, hunread'⟩
    rw [List.replicate_succ', runInputs_append, hrun, ok_bind, runInputs, hstep]
    rfl

/-- After 297 reports that the gateway has not read, the next report is dropped: the call returns
zero and the report is counted as delivered, but the ring is as it was. -/
theorem uplinkReport_dropped :
    ∃ s s', runInputs (uplinkStep byteSum fun _ => 0) (List.replicate 297 zeroResult)
        (ucWiotaSpiComInit 0 fun _ => 0) = .ok s ∧
      uplinkStep byteSum (fun _ => 0) zeroResult s = .ok s' ∧
      s'.gDelCnt = s.gDelCnt + 1 ∧ s'.ulRb = s.ulRb ∧ s'.ulBuf = s.ulBuf ∧
      ¬ ReportsTruly byteSum (fun _ => 0) ulRingBufferSize true RbReadState.zero
        (resultPara ⟨0, 0, 0⟩ 0) s := by
  obtain ⟨s, hrun, hunread⟩ := unread_after le_rfl
  obtain ⟨hwrap, hlen⟩ := resultPara_frameLen
  obtain ⟨-, hframeLen⟩ := (resultPara ⟨0, 0, 0⟩ 0).command_frame byteSum s.apChannelId hwrap
  have hspace := hunread.spaceLen le_rfl
  have hsend := @send_dropped byteSum (fun _ => 0) RbReadState.zero s _ hwrap true (Or.inl rfl)
    (by rw [hunread.fetch]) (by rw [hunread.fetch, hframeLen, hlen, hspace]; decide)
  rw [hunread.fetch] at hsend
  refine ⟨s, { ucWiotaEnableUlIrq (ucWiotaRingbufferSetUlWriteIdx (fun _ => 0) s) with
    gDelCnt := (s.gDelCnt + 1) % 2 ^ 32 }, hrun, ?_, ?_, rfl, rfl, ?_⟩
  · simp only [uplinkStep, zeroResult, ucWiotaHandleSendResult, hsend, ok_bind]
    rfl
  · change (s.gDelCnt + 1) % 2 ^ 32 = s.gDelCnt + 1
    rw [hunread.count]
    decide
  · intro hreport
    obtain ⟨-, hcase⟩ := fits_of_reportsTruly hwrap hreport
    rw [hunread.fetch] at hcase
    rcases hcase with ⟨hmem, -⟩ | hfetch | ⟨-, hroom⟩
    · cases hmem
    · exact hfetch rfl
    · rw [hlen, hspace] at hroom
      omega

end WiotaAp
