import WiotaAp.Manager.RecvMsg
import WiotaAp.NetPassthrough.Dec2Str

/-!
# Property reports of the devices

A complete message with the command `APP_CMD_IOTE_PROPERTY_REPORT` goes to the network task, where
`cmd_iote_property_report` puts its payload into a text and publishes it.  The block for the text is
four times as long as the payload, and the payload is copied up to a terminator that only one of
the ways through the manager has put behind it.

### Outline

* `payloadBlock` is the block that the manager hands over, and `cmdIotePropertyReport` the function;
* `cmdIotePropertyReport_of_room` is what it publishes if there is room and a terminator, and
  `room_of_cmdIotePropertyReport` says that otherwise nothing can be published;
* `property_report_intact_iff` puts both together for the frames that the manager accepts.
-/

namespace WiotaAp

open Buffers

/-! ### The functions -/

/-- `APP_CMD_IOTE_PROPERTY_REPORT`. -/
def appCmdIotePropertyReport : UInt8 := 0

/-- The block in which `app_data_decoding` leaves the payload: `APP_MAX_DECODING_DATA_LEN` zeros if
it is decompressed, else one byte more than the payload has. -/
def decodingBlock (compressFlag : Bool) (outputData : List UInt8) : Except Fault (List UInt8) :=
  if compressFlag then writeAt (List.replicate appMaxDecodingDataLen 0) 0 outputData
  else writeAt (List.replicate (outputData.length + 1) 0) 0 outputData

/-- The block behind the data pointer of a complete message with some bytes.  The one that
`recv_data_packet_reader` allocates for the segments has just the length of the payload. -/
def payloadBlock (header : AppPsHeader) (data : List UInt8) : Except Fault (List UInt8) :=
  if header.property.segmentFlag then .ok data
  else decodingBlock header.property.compressFlag data

/-- `"{\"sub_client_"`. -/
def subClient : List UInt8 := textBytes "\x7b\"sub_client_"

/-- `"\":"`. -/
def quoteColon : List UInt8 := textBytes "\":"

/-- `"}"`. -/
def closeBrace : List UInt8 := textBytes "\x7d"

/-- `rt_memcpy` of `src` to `payload + rt_strlen(payload)`. -/
def memcpyEnd (payload src : List UInt8) : Except Fault (List UInt8) := do
  let offset ← strlen payload
  writeAt payload offset src

/-- `cmd_data->src_addr` as an `int`. -/
def addrInt (srcAddr : UInt32) : ℤ :=
  srcAddr.toBitVec.toInt

/-- `cmd_iote_property_report` with the payload in the block `data`: what is published.  The block
for the text can be allocated. -/
def cmdIotePropertyReport (data : List UInt8) (dataLen : ℕ) (srcAddr : UInt32) :
    Except Fault (List UInt8) := do
  let payload ← writeAt (List.replicate (dataLen * 4) 0) 0 subClient
  let payload ← dec2str (addrInt srcAddr) payload
  let payload ← memcpyEnd payload quoteColon
  let payload ← memcpyEnd payload (← readAt data 0 (← strlen data))
  let payload ← memcpyEnd payload closeBrace
  readAt payload 0 (← strlen payload)

/-- What is published for a payload that the manager hands over. -/
def reportPayload (header : AppPsHeader) (data : List UInt8) (srcAddr : UInt32) :
    Except Fault (List UInt8) := do
  let block ← payloadBlock header data
  cmdIotePropertyReport block data.length srcAddr

/-- The text that is to be published. -/
def reportText (srcAddr : UInt32) (data : List UInt8) : List UInt8 :=
  subClient ++ dec2strText (addrInt srcAddr) ++ quoteColon ++ data ++ closeBrace

/-! ### The text in the block -/

lemma natAbs_addrInt_le (srcAddr : UInt32) : (addrInt srcAddr).natAbs ≤ 2 ^ 31 := by
  have hlow := BitVec.le_toInt srcAddr.toBitVec
  have hhigh := @BitVec.toInt_lt _ srcAddr.toBitVec
  unfold addrInt
  omega

lemma dec2strText_addrInt (srcAddr : UInt32) :
    dec2strText (addrInt srcAddr) = signedText (addrInt srcAddr) :=
  dec2strText_eq (natAbs_addrInt_le srcAddr)

lemma length_reportText (srcAddr : UInt32) (data : List UInt8) :
    (reportText srcAddr data).length =
      16 + (dec2strText (addrInt srcAddr)).length + data.length := by
  have hlengths : subClient.length = 13 ∧ quoteColon.length = 2 ∧ closeBrace.length = 1 := by decide
  simp only [reportText, List.length_append, hlengths]
  omega

/-- A text with zeros behind it is a string. -/
lemma strlen_zeros {text : List UInt8} (h : NoNul text) {k : ℕ} (hk : 0 < k) :
    strlen (text ++ List.replicate k 0) = .ok text.length := by
  obtain ⟨k, rfl⟩ := Nat.exists_eq_add_of_le' hk
  exact strlen_text h _

/-- Zeros are left behind what is written to the front of a zeroed block. -/
lemma writeAt_zeros {data : List UInt8} {k : ℕ} (h : data.length ≤ k) :
    writeAt (List.replicate k 0) 0 data = .ok (data ++ List.replicate (k - data.length) 0) := by
  have hsplit : List.replicate k (0 : UInt8) =
      [] ++ (List.replicate data.length 0 ++ List.replicate (k - data.length) 0) := by
    rw [List.nil_append, ← List.replicate_add, Nat.add_sub_cancel' h]
  rw [writeAt_part hsplit List.length_nil.symm List.length_replicate]
  rfl

/-- A text is put behind another one, over some of the zeros. -/
lemma memcpyEnd_zeros {text src : List UInt8} (h : NoNul text) {k : ℕ} (hsrc : src.length < k) :
    memcpyEnd (text ++ List.replicate k 0) src =
      .ok (text ++ src ++ List.replicate (k - src.length) 0) := by
  have hsplit : text ++ List.replicate k (0 : UInt8) =
      text ++ (List.replicate src.length 0 ++ List.replicate (k - src.length) 0) := by
    rw [← List.replicate_add, Nat.add_sub_cancel' hsrc.le]
  rw [memcpyEnd, strlen_zeros h (Nat.zero_lt_of_lt hsrc), ok_bind,
    writeAt_part hsplit rfl List.length_replicate, List.append_assoc]

/-- So is a number. -/
lemma dec2str_zeros (num : ℤ) {text : List UInt8} (h : NoNul text) {k : ℕ}
    (hk : (signedText num).length < k) :
    dec2str num (text ++ List.replicate k 0) =
      .ok (text ++ signedText num ++ List.replicate (k - (signedText num).length) 0) := by
  obtain ⟨m, rfl⟩ := Nat.exists_eq_add_of_lt hk
  have hzeros : List.replicate ((signedText num).length + m + 1) (0 : UInt8) =
      0 :: List.replicate ((signedText num).length + m) 0 := rfl
  have hleft : (signedText num).length + m + 1 - (signedText num).length = m + 1 := by omega
  rw [hzeros, dec2str_spec num h (by rw [List.length_replicate]; omega), List.drop_replicate,
    Nat.add_sub_cancel_left, hleft, List.append_assoc]
  rfl

/-- With room for the text, its terminator and a terminator behind the payload, the text is
published. -/
lemma cmdIotePropertyReport_of_room {data rest : List UInt8} (hdata : NoNul data)
    {srcAddr : UInt32} (hroom : (reportText srcAddr data).length < data.length * 4) :
    cmdIotePropertyReport (data ++ 0 :: rest) data.length srcAddr =
      .ok (reportText srcAddr data) := by
  have hlengths : subClient.length = 13 ∧ quoteColon.length = 2 ∧ closeBrace.length = 1 := by decide
  obtain ⟨hsub, hquote, hbrace⟩ := hlengths
  have hsubFree : NoNul subClient := by decide
  have hquoteFree : NoNul quoteColon := by decide
  have hbraceFree : NoNul closeBrace := by decide
  rw [length_reportText, dec2strText_addrInt] at hroom
  rw [reportText, dec2strText_addrInt]
  generalize hA : signedText (addrInt srcAddr) = A at hroom ⊢
  have hAFree : NoNul A := hA ▸ noNul_signedText _
  have hstart := writeAt_zeros (show subClient.length ≤ data.length * 4 by omega)
  have hnum := dec2str_zeros (addrInt srcAddr) hsubFree
    (show (signedText (addrInt srcAddr)).length < data.length * 4 - subClient.length by
      rw [hA]
      omega)
  rw [hA] at hnum
  have htext₁ := hsubFree.append hAFree
  have htext₂ := htext₁.append hquoteFree
  have htext₃ := htext₂.append hdata
  have hread : readAt (data ++ 0 :: rest) 0 data.length = .ok data :=
    readAt_part (List.nil_append _).symm rfl rfl
  unfold cmdIotePropertyReport
  rw [hstart, ok_bind, hnum, ok_bind, memcpyEnd_zeros htext₁ (by omega), ok_bind,
    strlen_text hdata, ok_bind, hread, ok_bind, memcpyEnd_zeros htext₂ (by omega), ok_bind,
    memcpyEnd_zeros htext₃ (by omega), ok_bind,
    strlen_zeros (htext₃.append hbraceFree) (by omega), ok_bind]
  exact readAt_part (List.nil_append _).symm rfl rfl

/-- What is published leaves room for its terminator in the block. -/
lemma room_of_cmdIotePropertyReport {data text : List UInt8} {dataLen : ℕ} {srcAddr : UInt32}
    (h : cmdIotePropertyReport data dataLen srcAddr = .ok text) :
    text.length < dataLen * 4 ∧ ∃ n, strlen data = .ok n := by
  have hmemcpy : ∀ {payload payload' src : List UInt8},
      memcpyEnd payload src = .ok payload' → payload'.length = payload.length := by
    intro payload payload' src hcpy
    obtain ⟨offset, -, hwrite⟩ := exists_of_bind_eq_ok hcpy
    exact length_of_writeAt hwrite
  unfold cmdIotePropertyReport at h
  obtain ⟨payload₁, h₁, h⟩ := exists_of_bind_eq_ok h
  obtain ⟨payload₂, h₂, h⟩ := exists_of_bind_eq_ok h
  obtain ⟨payload₃, h₃, h⟩ := exists_of_bind_eq_ok h
  obtain ⟨n, hn, h⟩ := exists_of_bind_eq_ok h
  obtain ⟨copied, hcopied, h⟩ := exists_of_bind_eq_ok h
  obtain ⟨payload₄, h₄, h⟩ := exists_of_bind_eq_ok h
  obtain ⟨payload₅, h₅, h⟩ := exists_of_bind_eq_ok h
  obtain ⟨m, hm, h⟩ := exists_of_bind_eq_ok h
  -- no step changes the length of the block, and the terminator is found in it
  have hlen : payload₅.length = dataLen * 4 := by
    rw [hmemcpy h₅, hmemcpy h₄, hmemcpy h₃, length_of_dec2str h₂, length_of_writeAt h₁,
      List.length_replicate]
  have hlt := lt_of_strlen hm
  rw [readAt_of_le (by omega)] at h
  refine ⟨?_, n, hn⟩
  rw [← Except.ok.inj h, length_slice (by omega), ← hlen]
  exact hlt

/-! ### The blocks that are handed over -/

/-- There is a terminator behind a payload that has not come in segments and does not fill the block
into which it was decompressed. -/
lemma exists_payloadBlock {header : AppPsHeader} {data : List UInt8}
    (hsegment : header.property.segmentFlag = false)
    (hcompress : header.property.compressFlag = true → data.length < appMaxDecodingDataLen) :
    ∃ rest, payloadBlock header data = .ok (data ++ 0 :: rest) := by
  have hzeros : ∀ k, data.length < k → ∃ rest,
      writeAt (List.replicate k 0) 0 data = .ok (data ++ 0 :: rest) := by
    intro k hk
    obtain ⟨m, rfl⟩ := Nat.exists_eq_add_of_lt hk
    refine ⟨List.replicate m 0, ?_⟩
    rw [writeAt_zeros hk.le, Nat.add_assoc, Nat.add_sub_cancel_left]
    rfl
  rw [payloadBlock, hsegment, decodingBlock]
  by_cases hflag : header.property.compressFlag = true
  · obtain ⟨rest, hrest⟩ := hzeros appMaxDecodingDataLen (hcompress hflag)
    refine ⟨rest, ?_⟩
    simpa [hflag] using hrest
  · obtain ⟨rest, hrest⟩ := hzeros (data.length + 1) (Nat.lt_succ_self _)
    refine ⟨rest, ?_⟩
    simpa [hflag] using hrest

/-- Only such a payload has a terminator behind it. -/
lemma terminated_of_payloadBlock {header : AppPsHeader} {data block : List UInt8}
    (hdata : NoNul data) (hblock : payloadBlock header data = .ok block) {n : ℕ}
    (hend : strlen block = .ok n) :
    header.property.segmentFlag = false ∧
      (header.property.compressFlag = true → data.length < appMaxDecodingDataLen) := by
  -- the payload itself has no terminator
  have hne : block ≠ data := by
    rintro rfl
    rw [strlen_of_noNul hdata] at hend
    cases hend
  rw [payloadBlock] at hblock
  by_cases hsegment : header.property.segmentFlag = true
  · rw [if_pos hsegment] at hblock
    exact absurd (Except.ok.inj hblock).symm hne
  · rw [if_neg hsegment, decodingBlock] at hblock
    refine ⟨Bool.eq_false_iff.mpr hsegment, ?_⟩
    intro hcompress
    rw [if_pos hcompress] at hblock
    rcases Nat.lt_trichotomy data.length appMaxDecodingDataLen with hlt | heq | hgt
    · exact hlt
    · rw [writeAt_zeros heq.le, ← heq, Nat.sub_self, List.replicate_zero, List.append_nil] at hblock
      exact absurd (Except.ok.inj hblock).symm hne
    · rw [writeAt_of_lt (by rw [List.length_replicate]; omega)] at hblock
      cases hblock

/-- A message goes to the network with the command and the source address of its header. -/
lemma mem_runCmd {env : ManagerEnv} {id srcAddr : UInt32} {header : AppPsHeader} {cmd : UInt8}
    {decodeData data : Option (List UInt8)} {ulData : List UInt8}
    (h : .sendDataLogicToNet cmd data srcAddr ∈ runCmd env id header decodeData ulData) :
    srcAddr = header.srcAddr := by
  unfold runCmd at h
  repeat' split at h
  all_goals simp only [List.mem_singleton, List.not_mem_nil, MsgAction.sendDataLogicToNet.injEq,
    reduceCtorEq] at h
  all_goals exact h.2.2

/-- So it does after a frame that is accepted, in one piece or as the last of its segments. -/
lemma srcAddr_of_managerRecvWiotaMsg {frame : UlFrame} {header : AppPsHeader}
    {decodeData data : Option (List UInt8)} {store store' : List DataPacket}
    {actions : List MsgAction} {cmd : UInt8} {srcAddr : UInt32}
    (hframe : frame.Accepted header decodeData)
    (hrecv : managerRecvWiotaMsg frame.env store frame.id frame.data = .ok (store', actions))
    (hreport : .sendDataLogicToNet cmd data srcAddr ∈ actions) : srcAddr = header.srcAddr := by
  have hmsg : ∀ decodeData, .sendDataLogicToNet cmd data srcAddr ∈
      runMsg frame.env frame.id header decodeData frame.data → srcAddr = header.srcAddr := by
    intro decodeData hmem
    unfold runMsg at hmem
    split at hmem
    · cases hmem
    · exact mem_runCmd hmem
  unfold managerRecvWiotaMsg at hrecv
  rw [hframe, ok_bind] at hrecv
  by_cases hsegment : header.property.segmentFlag = true
  · simp only [if_pos hsegment] at hrecv
    obtain ⟨⟨store₁, complete⟩, -, hrest⟩ := exists_of_bind_eq_ok hrecv
    cases complete with
    | none =>
      cases hrest
      cases hreport
    | some decodeData' =>
      obtain ⟨actions, hactions, hrest⟩ := exists_of_bind_eq_ok hrest
      cases hrest
      have hok := finishMsg_ok_iff.mp ⟨_, hactions⟩
      rw [finishMsg_of_not _ _ _ hok] at hactions
      cases hactions
      exact hmsg decodeData'.bytes? hreport
  · simp only [if_neg hsegment, finishMsg_ofOption] at hrecv
    cases hrecv
    exact hmsg decodeData hreport

/-- Property reports.  A report of a device with a payload without zero bytes, in one piece or in
segments, is published under the source address of its header; the function stays inside its blocks
and publishes the text with the payload exactly if the payload has not come in segments, does not
fill the block into which it was decompressed, and is long enough for a block of four times its
length to hold the text with its terminator. -/
theorem property_report_intact_iff {frame : UlFrame} {header : AppPsHeader}
    {decodeData : Option (List UInt8)} {store store' : List DataPacket} {actions : List MsgAction}
    {srcAddr : UInt32} {data : List UInt8} (hframe : frame.Accepted header decodeData)
    (hrecv : managerRecvWiotaMsg frame.env store frame.id frame.data = .ok (store', actions))
    (hreport : .sendDataLogicToNet appCmdIotePropertyReport (some data) srcAddr ∈ actions)
    (hdata : NoNul data) :
    srcAddr = header.srcAddr ∧
      (reportPayload header data srcAddr = .ok (reportText srcAddr data) ↔
        header.property.segmentFlag = false ∧
          (header.property.compressFlag = true → data.length < appMaxDecodingDataLen) ∧
          17 + (dec2strText (addrInt srcAddr)).length ≤ 3 * data.length) := by
  refine ⟨srcAddr_of_managerRecvWiotaMsg hframe hrecv hreport, ?_⟩
  have hlen := length_reportText srcAddr data
  constructor
  · intro hrun
    obtain ⟨block, hblock, hpublished⟩ := exists_of_bind_eq_ok hrun
    obtain ⟨hroom, n, hend⟩ := room_of_cmdIotePropertyReport hpublished
    obtain ⟨hsegment, hcompress⟩ := terminated_of_payloadBlock hdata hblock hend
    refine ⟨hsegment, hcompress, ?_⟩
    omega
  · rintro ⟨hsegment, hcompress, hroom⟩
    obtain ⟨rest, hblock⟩ := exists_payloadBlock hsegment hcompress
    rw [reportPayload, hblock, ok_bind]
    apply cmdIotePropertyReport_of_room hdata
    omega

/-- A report of the device with the address 1, in one piece of six bytes. -/
def sixByteReport : UlFrame where
  env := startEnv
  id := 7
  data := [0x80, 1, 0, 0, 0, 0, 0x61, 0x62, 0x63, 0x64, 0x65, 0x66]

theorem property_report_intact_sixBytes :
    ∃ header, reportPayload header [0x61, 0x62, 0x63, 0x64, 0x65, 0x66] 1 =
      .ok (reportText 1 [0x61, 0x62, 0x63, 0x64, 0x65, 0x66]) := by
  have hframe : sixByteReport.Accepted ⟨AppPsProperty.ofByte 0x80, 1, 0, 0, 0, 0, 0⟩
      (some [0x61, 0x62, 0x63, 0x64, 0x65, 0x66]) := by
    unfold UlFrame.Accepted
    decide
  have hrecv : managerRecvWiotaMsg sixByteReport.env [] sixByteReport.id sixByteReport.data =
      .ok ([], [.sendDataLogicToNet appCmdIotePropertyReport
        (some [0x61, 0x62, 0x63, 0x64, 0x65, 0x66]) 1]) := by
    decide
  exact ⟨_, (property_report_intact_iff hframe hrecv List.mem_cons_self (by decide)).2.mpr
    (by decide)⟩

/-- A report of one byte: the text does not fit into four bytes. -/
def oneByteReport : UlFrame where
  env := startEnv
  id := 7
  data := [0x80, 1, 0, 0, 0, 0, 0x61]

/-- A report of six bytes as a message of one segment. -/
def oneSegmentReport : UlFrame where
  env := startEnv
  id := 7
  data := [0x84, 1, 0, 0, 0, 1, 0, 0, 0x61, 0x62, 0x63, 0x64, 0x65, 0x66]

/-- The first report is written beyond the end of the block for the text, and the second one read
beyond the end of the payload. -/
theorem property_report_outOfBounds :
    (managerRecvWiotaMsg oneByteReport.env [] oneByteReport.id oneByteReport.data =
        .ok ([], [.sendDataLogicToNet appCmdIotePropertyReport (some [0x61]) 1]) ∧
      oneByteReport.Accepted ⟨AppPsProperty.ofByte 0x80, 1, 0, 0, 0, 0, 0⟩ (some [0x61]) ∧
      reportPayload ⟨AppPsProperty.ofByte 0x80, 1, 0, 0, 0, 0, 0⟩ [0x61] 1 =
        .error .outOfBounds) ∧
    managerRecvWiotaMsg oneSegmentReport.env [] oneSegmentReport.id oneSegmentReport.data =
        .ok ([], [.sendDataLogicToNet appCmdIotePropertyReport
          (some [0x61, 0x62, 0x63, 0x64, 0x65, 0x66]) 1]) ∧
      oneSegmentReport.Accepted ⟨AppPsProperty.ofByte 0x84, 1, 0, 0, 1, 0, 0⟩
        (some [0x61, 0x62, 0x63, 0x64, 0x65, 0x66]) ∧
      reportPayload ⟨AppPsProperty.ofByte 0x84, 1, 0, 0, 1, 0, 0⟩
        [0x61, 0x62, 0x63, 0x64, 0x65, 0x66] 1 = .error .outOfBounds := by
  unfold UlFrame.Accepted
  decide

end WiotaAp
