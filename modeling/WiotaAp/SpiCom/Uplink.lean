import WiotaAp.SpiCom.DlBatch

/-!
# Sending to the gateway

`uc_wiota_send_data_to_gateway` builds a frame out of a header and up to two parameters, fetches the
read position of the gateway and puts the frame into the uplink ring.  `writeFrame_eq` says that
what it builds is the frame of a `Command`, as long as its 16-bit lengths do not wrap, so that the
frames of both directions are the same.
-/

namespace WiotaAp

open Buffers

/-- `struct cmd_send_para`: the header to fill in, and the bytes the parameters point to. -/
structure CmdSendPara where
  cmdHeader : CmdHeader
  paras : List (List UInt8)
  para_num_le : paras.length ≤ 2
  para_len_lt : ∀ p ∈ paras, p.length < 2 ^ 16

/-! ### Building the frame -/

/-- The loop that sums up the parameter lengths: `data_len` and `align_data_len`. -/
def sumParaLens (paras : List (List UInt8)) : ℕ × ℕ :=
  paras.foldl (fun acc p =>
    let dataLen := (acc.1 + p.length) % 2 ^ 16
    (dataLen, rtAlign dataLen ringBufferAlignSize % 2 ^ 16)) (0, 0)

/-- The loop that copies the parameters into the write buffer. -/
def copyParas : List UInt8 → ℕ → List (List UInt8) → Except Fault (List UInt8 × ℕ)
  | writeBuf, writeLen, [] => .ok (writeBuf, writeLen)
  | writeBuf, writeLen, p :: ps => do
    let writeBuf ← writeAt writeBuf writeLen p
    copyParas writeBuf ((writeLen + p.length) % 2 ^ 16) ps

section Send

variable (crc32 : List UInt8 → UInt32)

/-- The header as it is sent: length, channel, result and CRC are filled in. -/
def CmdSendPara.sentHeader (para : CmdSendPara) (channel : UInt8) (dataLen : ℕ) : CmdHeader :=
  CmdHeader.seal crc32
    { para.cmdHeader with
      dataLen := UInt16.ofNat dataLen
      channel := CmdHeader.channelField channel
      result := CmdHeader.wiotaCmdExecSuc }

/-- The first part of `uc_wiota_send_data_to_gateway`: the write buffer and the length to write, or
`none` when there is no memory for it.  An allocation of no bytes fails as well. -/
def writeFrame (mallocOk : Bool) (channel : UInt8) (para : CmdSendPara) :
    Except Fault (Option (List UInt8 × ℕ)) :=
  let dataLen := (sumParaLens para.paras).1
  let alignDataLen := (sumParaLens para.paras).2
  let cmdHeader := para.sentHeader crc32 channel dataLen
  if alignDataLen > 0 then
    let totalLen := (cmdHeaderSize + alignDataLen + ucCrc32Len) % 2 ^ 16
    if mallocOk = false ∨ totalLen = 0 then .ok none
    else do
      let writeBuf ← writeAt (List.replicate totalLen 0) 0 cmdHeader.toBytes
      let (writeBuf, writeLen) ← copyParas writeBuf cmdHeaderSize para.paras
      let writeLen := (writeLen + (alignDataLen - dataLen)) % 2 ^ 16
      let bytes ← readAt writeBuf 0 writeLen
      let writeBuf ← writeAt writeBuf writeLen (leBytes 4 (crc32 bytes).toNat)
      return some (writeBuf, (writeLen + ucCrc32Len) % 2 ^ 16)
  else .ok (some (cmdHeader.toBytes, cmdHeaderSize))

/-- `uc_wiota_send_data_to_gateway`: the state and the returned value.  What the put returns is not
looked at. -/
def ucWiotaSendDataToGateway (crc8 : List UInt8 → UInt32) (mallocOk : Bool) (retry : RbReadState)
    (para : CmdSendPara) (s : SpiCom) : Except Fault (SpiCom × ℤ) := do
  match ← writeFrame crc32 mallocOk s.apChannelId para with
  | none => return (s, -3)
  | some (writeBuf, writeLen) =>
    let fetched := ucWiotaRingbufferGetUlReadIdx crc8 retry s
    if fetched.2 = 0 then
      let (rb, pool, _) ← ucWiotaRingbufferPut fetched.1.ulRb fetched.1.ulBuf writeBuf writeLen
      return (ucWiotaEnableUlIrq
        (ucWiotaRingbufferSetUlWriteIdx crc8 { fetched.1 with ulRb := rb, ulBuf := pool }), 0)
    else return (fetched.1, 1)

end Send

/-! ### What is built -/

namespace CmdSendPara

variable (para : CmdSendPara)

/-- The data of all parameters. -/
def data : List UInt8 :=
  para.paras.flatten

/-- The frame with all its parts, before any length is cut to 16 bits, fits in 16 bits. -/
def NoWrap : Prop :=
  8 + rtAlign para.data.length ringBufferAlignSize + 4 < 2 ^ 16

instance : Decidable para.NoWrap :=
  inferInstanceAs (Decidable (_ < _))

/-- The command that the parameters stand for on a channel. -/
def command (channel : UInt8) (h : para.NoWrap) : Command where
  cmdType := para.cmdHeader.cmdType
  cmd := para.cmdHeader.cmd
  channel := CmdHeader.channelField channel
  result := CmdHeader.wiotaCmdExecSuc
  reserved := para.cmdHeader.reserved
  data := para.data
  padding := Command.zeroPadding para.data.length
  length_lt := by
    have hb := rtAlign_bounds para.data.length
    unfold NoWrap at h
    omega
  length_padded := Command.length_zeroPadding para.data.length

end CmdSendPara

/-- The sums of the parameter lengths, when nothing wraps. -/
lemma sumParaLens_eq {paras : List (List UInt8)}
    (h : 8 + rtAlign paras.flatten.length ringBufferAlignSize + 4 < 2 ^ 16) :
    sumParaLens paras =
      (paras.flatten.length, rtAlign paras.flatten.length ringBufferAlignSize) := by
  induction paras using List.reverseRecOn with
  | nil => rfl
  | append_singleton paras p ih =>
    have hsum : (paras ++ [p]).flatten.length = paras.flatten.length + p.length := by simp
    rw [hsum] at h ⊢
    have hb := rtAlign_bounds paras.flatten.length
    have hb' := rtAlign_bounds (paras.flatten.length + p.length)
    have hlen : (paras.flatten.length + p.length) % 2 ^ 16 = paras.flatten.length + p.length :=
      Nat.mod_eq_of_lt (by omega)
    unfold sumParaLens at ih ⊢
    rw [List.foldl_append, ih (by omega)]
    simp only [List.foldl_cons, List.foldl_nil, hlen]
    rw [Nat.mod_eq_of_lt (by omega)]

/-- Copying the parameters behind what is already in the buffer. -/
lemma copyParas_eq {paras : List (List UInt8)} {pre : List UInt8} {room : ℕ}
    (hroom : paras.flatten.length ≤ room) (hlen : pre.length + room < 2 ^ 16) :
    copyParas (pre ++ List.replicate room 0) pre.length paras =
      .ok (pre ++ (paras.flatten ++ List.replicate (room - paras.flatten.length) 0),
        pre.length + paras.flatten.length) := by
  induction paras generalizing pre room with
  | nil => rfl
  | cons p ps ih =>
    have hsum : (p :: ps).flatten.length = p.length + ps.flatten.length := by simp
    rw [hsum] at hroom ⊢
    have hcut : pre ++ List.replicate room (0 : UInt8) =
        pre ++ (List.replicate p.length 0 ++ List.replicate (room - p.length) 0) := by
      rw [← List.replicate_add, Nat.add_sub_cancel' (by omega)]
    have hwrite : writeAt (pre ++ List.replicate room 0) pre.length p =
        .ok ((pre ++ p) ++ List.replicate (room - p.length) 0) := by
      rw [writeAt_of_le (by rw [List.length_append, List.length_replicate]; omega),
        splice_part hcut rfl List.length_replicate, List.append_assoc]
    have hrest := @ih (pre ++ p) (room - p.length) (by omega) (by rw [List.length_append]; omega)
    rw [List.length_append] at hrest
    rw [copyParas, hwrite, ok_bind, Nat.mod_eq_of_lt (by omega), hrest, Nat.sub_sub]
    simp only [List.append_assoc, List.flatten_cons, Nat.add_assoc]

section Frame

variable {crc32 : List UInt8 → UInt32} {para : CmdSendPara} {channel : UInt8}

/-- The steps that fill the write buffer: header, parameters, padding and CRC. -/
lemma fillWriteBuf_eq {paras : List (List UInt8)} {hdr : List UInt8} (hhdr : hdr.length = 8)
    {n : ℕ} (hn : n = rtAlign paras.flatten.length ringBufferAlignSize)
    (hlen : 8 + n + 4 < 2 ^ 16) :
    (do
      let writeBuf ← writeAt (List.replicate (8 + n + 4) 0) 0 hdr
      let (writeBuf, writeLen) ← copyParas writeBuf cmdHeaderSize paras
      let writeLen := (writeLen + (n - paras.flatten.length)) % 2 ^ 16
      let bytes ← readAt writeBuf 0 writeLen
      let writeBuf ← writeAt writeBuf writeLen (leBytes 4 (crc32 bytes).toNat)
      return some (writeBuf, (writeLen + ucCrc32Len) % 2 ^ 16)) =
    (.ok (some (hdr ++ paras.flatten ++ Command.zeroPadding paras.flatten.length ++
      leBytes 4 (crc32 (hdr ++ paras.flatten ++
        Command.zeroPadding paras.flatten.length)).toNat, 8 + n + 4)) :
      Except Fault (Option (List UInt8 × ℕ))) := by
  have hb := rtAlign_bounds paras.flatten.length
  have hwrite : writeAt (List.replicate (8 + n + 4) 0) 0 hdr =
      .ok (hdr ++ List.replicate (n + 4) 0) := by
    have hcut : List.replicate (8 + n + 4) (0 : UInt8) =
        [] ++ (List.replicate 8 0 ++ List.replicate (n + 4) 0) := by
      rw [List.nil_append, ← List.replicate_add, Nat.add_assoc]
    have hsplice : splice (List.replicate (8 + n + 4) 0) 0 hdr =
        [] ++ (hdr ++ List.replicate (n + 4) 0) :=
      splice_part hcut rfl (by rw [List.length_replicate, hhdr])
    rw [writeAt_of_le (by rw [List.length_replicate]; omega), hsplice, List.nil_append]
  have hcopy := @copyParas_eq paras hdr (n + 4) (by omega) (by omega)
  rw [hhdr] at hcopy
  have hpad : List.replicate (n + 4 - paras.flatten.length) (0 : UInt8) =
      Command.zeroPadding paras.flatten.length ++ List.replicate 4 0 := by
    rw [Command.zeroPadding, ← List.replicate_add]
    congr 1
    omega
  generalize hbytes : hdr ++ paras.flatten ++ Command.zeroPadding paras.flatten.length = bytes
  have hbuf : hdr ++ (paras.flatten ++ List.replicate (n + 4 - paras.flatten.length) 0) =
      bytes ++ (List.replicate 4 0 ++ []) := by
    rw [hpad, ← hbytes]
    simp only [List.append_assoc, List.append_nil]
  have hblen : bytes.length = 8 + n := by
    have hzero := Command.length_zeroPadding paras.flatten.length
    rw [← hbytes, List.length_append, List.length_append, hhdr]
    omega
  have hread : slice (bytes ++ (List.replicate 4 0 ++ [])) 0 (8 + n) = bytes :=
    @slice_part _ _ [] bytes _ _ _ rfl rfl hblen.symm
  have hpos : (8 + paras.flatten.length + (n - paras.flatten.length)) % 2 ^ 16 = 8 + n := by omega
  rw [hwrite, ok_bind, hcopy, ok_bind, hbuf]
  simp only [hpos]
  rw [readAt_of_le (by rw [List.length_append, hblen]; omega), ok_bind, hread,
    writeAt_of_le (by simp only [List.length_append, List.length_replicate, hblen,
      length_leBytes]; omega), ok_bind,
    splice_part rfl hblen.symm (by rw [List.length_replicate, length_leBytes]), List.append_nil,
    Nat.mod_eq_of_lt hlen]
  rfl

/-- What is built is the frame of the command, unless memory is needed and there is none. -/
theorem writeFrame_eq (h : para.NoWrap) (mallocOk : Bool) :
    writeFrame crc32 mallocOk channel para =
      .ok (if mallocOk = false ∧ para.data ≠ [] then none
        else some ((para.command channel h).frame crc32, (para.command channel h).frameLen)) := by
  have hsum : sumParaLens para.paras =
      (para.data.length, rtAlign para.data.length ringBufferAlignSize) := sumParaLens_eq h
  have hheader : para.sentHeader crc32 channel para.data.length =
      (para.command channel h).header crc32 := rfl
  have hlen : 8 + rtAlign para.data.length ringBufferAlignSize + 4 < 2 ^ 16 := h
  have hcdata : (para.command channel h).data = para.data := rfl
  have hcpad : (para.command channel h).padding = Command.zeroPadding para.data.length := rfl
  generalize para.command channel h = c at hheader hcdata hcpad ⊢
  unfold writeFrame
  simp only [hsum, hheader]
  by_cases hdata : para.data = []
  · obtain ⟨hframe, hframeLen⟩ := c.frame_of_empty crc32 (hcdata.trans hdata)
    rw [if_neg (by rw [hdata]; decide), if_neg (fun hn => hn.2 hdata), hframe,
      hframeLen]
  · obtain ⟨hframe, hframeLen⟩ := c.frame_of_data crc32 (by rwa [hcdata])
    have hb := rtAlign_bounds para.data.length
    have hpos : 0 < para.data.length := List.length_pos_iff.mpr hdata
    have hfill := @fillWriteBuf_eq crc32 para.paras _
      (CmdHeader.length_toBytes (c.header crc32)) _ rfl
      hlen
    have htotal : (cmdHeaderSize + rtAlign para.data.length ringBufferAlignSize + ucCrc32Len) %
        2 ^ 16 = 8 + rtAlign para.data.length ringBufferAlignSize + 4 := Nat.mod_eq_of_lt hlen
    rw [if_pos (by omega), htotal]
    by_cases hmalloc : mallocOk = false
    · rw [if_pos (Or.inl hmalloc), if_pos ⟨hmalloc, hdata⟩]
    · have hroom : ¬ (mallocOk = false ∨
          8 + rtAlign para.data.length ringBufferAlignSize + 4 = 0) :=
        fun hn => hn.elim hmalloc (by omega)
      rw [if_neg hroom, if_neg (fun hn => hmalloc hn.1), hframe, hframeLen, hcdata, hcpad]
      exact hfill

/-- With memory, or without any need of it, the frame is built. -/
lemma writeFrame_of_memory (h : para.NoWrap) {mallocOk : Bool}
    (hmem : mallocOk = true ∨ para.data = []) :
    writeFrame crc32 mallocOk channel para =
      .ok (some ((para.command channel h).frame crc32, (para.command channel h).frameLen)) := by
  rw [writeFrame_eq h, if_neg]
  rintro ⟨hno, hdata⟩
  rcases hmem with hyes | hempty
  · rw [hno] at hyes
    cases hyes
  · exact hdata hempty

variable (para channel) in
/-- A frame whose parts do not wrap is shorter than 16 bits can say. -/
lemma CmdSendPara.frameLen_lt (h : para.NoWrap) : (para.command channel h).frameLen < 2 ^ 16 := by
  have hlen : 8 + rtAlign para.data.length ringBufferAlignSize + 4 < 2 ^ 16 := h
  have hcdata : (para.command channel h).data = para.data := rfl
  rw [Command.frameLen, hcdata]
  split <;> omega

end Frame

/-! ### What is sent -/

/-- The uplink ring as `uc_wiota_ringbuffer_init` sets it up, with the write index in the ring. -/
structure UlRing (size : RingSize) (s : SpiCom) : Prop where
  bufferSize : s.ulRb.bufferSize = size.cells
  poolLength : s.ulBuf.length = size.cells
  writeIndex_lt : s.ulRb.writeIndex < size.cells

/-- The frame fits in the ring, its bytes and no others have been stored behind the write position,
and the write position has been moved behind them. -/
structure Appended (size : RingSize) (s s' : SpiCom) (frame : List UInt8) : Prop where
  length_le : frame.length ≤ size.cells
  stored : s'.ulBuf = ringSplice size.cells s.ulBuf s.ulRb.writeIndex frame
  moved : s'.ulRb.writeCursor = s.ulRb.writeCursor.advance size.cells frame.length

/-- The state after a frame has been put into the uplink ring. -/
def afterPut (crc8 : List UInt8 → UInt32) (s : SpiCom) (frame : List UInt8) : SpiCom :=
  ucWiotaEnableUlIrq (ucWiotaRingbufferSetUlWriteIdx crc8
    { s with
      ulRb := s.ulRb.setWrite (s.ulRb.writeCursor.advance s.ulRb.bufferSize frame.length)
      ulBuf := ringSplice s.ulRb.bufferSize s.ulBuf s.ulRb.writeIndex frame })

section Sent

variable {crc32 crc8 : List UInt8 → UInt32} {retry : RbReadState} {s : SpiCom} {size : RingSize}
  {para : CmdSendPara}

variable (crc8 retry s) in
/-- Fetching the read position of the gateway changes nothing but that position. -/
lemma fetchUl_frame :
    (ucWiotaRingbufferGetUlReadIdx crc8 retry s).1.ulBuf = s.ulBuf ∧
      (ucWiotaRingbufferGetUlReadIdx crc8 retry s).1.ulRb.writeCursor = s.ulRb.writeCursor ∧
      (ucWiotaRingbufferGetUlReadIdx crc8 retry s).1.ulRb.bufferSize = s.ulRb.bufferSize ∧
      (ucWiotaRingbufferGetUlReadIdx crc8 retry s).1.gDelCnt = s.gDelCnt := by
  unfold ucWiotaRingbufferGetUlReadIdx
  split
  · exact ⟨rfl, rfl, rfl, rfl⟩
  · split
    · exact ⟨rfl, rfl, rfl, rfl⟩
    · split <;> exact ⟨rfl, rfl, rfl, rfl⟩

variable (crc8 retry) in
/-- The uplink ring stays as it was set up when the read position is fetched. -/
lemma UlRing.fetch (hring : UlRing size s) :
    UlRing size (ucWiotaRingbufferGetUlReadIdx crc8 retry s).1 := by
  obtain ⟨hbuf, hcursor, hsize, -⟩ := fetchUl_frame crc8 retry s
  refine ⟨hsize.trans hring.bufferSize, by rw [hbuf]; exact hring.poolLength, ?_⟩
  have hindex := congrArg Cursor.index hcursor
  exact lt_of_eq_of_lt hindex hring.writeIndex_lt

/-- Without memory for the frame nothing happens. -/
lemma send_noMemory (h : para.NoWrap) (hdata : para.data ≠ []) :
    ucWiotaSendDataToGateway crc32 crc8 false retry para s = .ok (s, -3) := by
  unfold ucWiotaSendDataToGateway
  rw [writeFrame_eq h, if_pos ⟨rfl, hdata⟩]
  rfl

/-- A read state that is rejected is reported. -/
lemma send_rejected (h : para.NoWrap) {mallocOk : Bool} (hmem : mallocOk = true ∨ para.data = [])
    (hfetch : (ucWiotaRingbufferGetUlReadIdx crc8 retry s).2 ≠ 0) :
    ucWiotaSendDataToGateway crc32 crc8 mallocOk retry para s =
      .ok ((ucWiotaRingbufferGetUlReadIdx crc8 retry s).1, 1) := by
  unfold ucWiotaSendDataToGateway
  rw [writeFrame_of_memory h hmem, ok_bind]
  simp only
  rw [if_neg hfetch]
  rfl

/-- With a valid read state and enough room the frame is put into the ring. -/
lemma send_appended (hring : UlRing size s) (h : para.NoWrap) {mallocOk : Bool}
    (hmem : mallocOk = true ∨ para.data = [])
    (hfetch : (ucWiotaRingbufferGetUlReadIdx crc8 retry s).2 = 0)
    (hle : (para.command s.apChannelId h).frameLen ≤ size.cells)
    (hroom : (para.command s.apChannelId h).frameLen ≤
      rtRingbufferSpaceLen (ucWiotaRingbufferGetUlReadIdx crc8 retry s).1.ulRb % 2 ^ 16) :
    ucWiotaSendDataToGateway crc32 crc8 mallocOk retry para s =
      .ok (afterPut crc8 (ucWiotaRingbufferGetUlReadIdx crc8 retry s).1
        ((para.command s.apChannelId h).frame crc32), 0) := by
  have hN := size.cells_bounds
  have hL := (para.command s.apChannelId h).frameLen_bounds
  have hlen := (para.command s.apChannelId h).length_frame crc32
  obtain ⟨hsize, hpool, hw⟩ := hring.fetch crc8 retry
  unfold ucWiotaSendDataToGateway
  rw [writeFrame_of_memory h hmem, ok_bind]
  simp only
  rw [if_pos hfetch, ← hlen, ucWiotaRingbufferPut_eq (by rw [hpool, hsize]) (by rwa [hsize])
    (by rw [hsize]; exact hN.2.1) (by omega) (by omega) (by omega), hlen, if_pos hroom]
  simp only [ok_bind, pure_eq_ok, afterPut, hlen]

/-- With a valid read state but not enough room the frame is dropped, and reported as sent. -/
lemma send_dropped (h : para.NoWrap) {mallocOk : Bool} (hmem : mallocOk = true ∨ para.data = [])
    (hfetch : (ucWiotaRingbufferGetUlReadIdx crc8 retry s).2 = 0)
    (hroom : rtRingbufferSpaceLen (ucWiotaRingbufferGetUlReadIdx crc8 retry s).1.ulRb % 2 ^ 16 <
      (para.command s.apChannelId h).frameLen) :
    ucWiotaSendDataToGateway crc32 crc8 mallocOk retry para s =
      .ok (ucWiotaEnableUlIrq (ucWiotaRingbufferSetUlWriteIdx crc8
        (ucWiotaRingbufferGetUlReadIdx crc8 retry s).1), 0) := by
  have hL := (para.command s.apChannelId h).frameLen_bounds
  have hlen := para.frameLen_lt s.apChannelId h
  unfold ucWiotaSendDataToGateway
  rw [writeFrame_of_memory h hmem, ok_bind]
  simp only
  rw [if_pos hfetch, ucWiotaRingbufferPut_of_noSpace hL.2 hlen hroom]
  rfl

/-- A frame that has been put into the ring has been appended to it. -/
lemma afterPut_appended (hring : UlRing size s) {frame : List UInt8}
    (hle : frame.length ≤ size.cells) :
    Appended size s (afterPut crc8 (ucWiotaRingbufferGetUlReadIdx crc8 retry s).1 frame) frame := by
  obtain ⟨hbuf, hcursor, hsize, -⟩ := fetchUl_frame crc8 retry s
  have hindex : (ucWiotaRingbufferGetUlReadIdx crc8 retry s).1.ulRb.writeIndex =
      s.ulRb.writeIndex :=
    congrArg Cursor.index hcursor
  refine ⟨hle, ?_, ?_⟩
  · change ringSplice _ _ _ frame = _
    rw [hsize, hring.bufferSize, hbuf, hindex]
  · change Cursor.advance _ _ _ = _
    rw [hsize, hring.bufferSize, hcursor]

/-- The free space of a ring whose indices lie in the ring is at most the ring. -/
lemma spaceLen_le (hring : UlRing size s) (hread : s.ulRb.readIndex < size.cells) :
    rtRingbufferSpaceLen s.ulRb ≤ size.cells := by
  have hN := size.cells_bounds
  have hsize := hring.bufferSize
  have hw : s.ulRb.writeCursor.index < s.ulRb.bufferSize := by
    rw [hsize]
    exact hring.writeIndex_lt
  have hdata : rtRingbufferDataLen s.ulRb ≤ s.ulRb.bufferSize := by
    rw [rtRingbufferDataLen_eq_gap (by rw [hsize]; exact hread) (by rw [hsize]; exact hN.2.1)]
    exact Cursor.gap_le hw
  rw [rtRingbufferSpaceLen_eq (by rw [hsize]; exact hN.2.1) hdata]
  omega

end Sent

/-! ### Both directions -/

/-- The bytes of an uplink frame: the header with the length of the data, the channel of the hand
shake and a valid CRC; then, if there is data, the data, zeros up to a multiple of four, and the CRC
of all of that. -/
structure UplinkFrame (crc32 : List UInt8 → UInt32) (channel : UInt8) (para : CmdSendPara)
    (hdr : CmdHeader) (frame : List UInt8) : Prop where
  cmdType : hdr.cmdType = para.cmdHeader.cmdType
  cmd : hdr.cmd = para.cmdHeader.cmd
  dataLen : hdr.dataLen.toNat = para.data.length
  channel : hdr.channel.val = channel.toNat % 8
  headerOk : HeaderOk crc32 hdr.toBytes
  bytes : frame = if para.data = [] then hdr.toBytes
    else hdr.toBytes ++ para.data ++ Command.zeroPadding para.data.length ++
      leBytes 4 (crc32 (hdr.toBytes ++ para.data ++ Command.zeroPadding para.data.length)).toNat
  length : frame.length = if para.data.length = 0 then 8
    else 8 + rtAlign para.data.length ringBufferAlignSize + 4

/-- The frame of the command that the parameters stand for. -/
lemma uplinkFrame_command (crc32 : List UInt8 → UInt32) (channel : UInt8) (para : CmdSendPara)
    (h : para.NoWrap) :
    UplinkFrame crc32 channel para ((para.command channel h).header crc32)
      ((para.command channel h).frame crc32) where
  cmdType := rfl
  cmd := rfl
  dataLen := Command.header_dataLen crc32 _
  channel := rfl
  headerOk := Command.headerOk_header crc32 _
  bytes := by
    by_cases hdata : para.data = []
    · rw [if_pos hdata]
      exact (Command.frame_of_empty crc32 _ hdata).1
    · rw [if_neg hdata]
      exact (Command.frame_of_data crc32 _ hdata).1
  length := by
    rw [Command.length_frame, Command.frameLen]
    change (if para.data = [] then _ else _) = _
    simp only [List.length_eq_zero_iff]
    rfl

/-- The downlink parser takes the doubled frame of one command back apart. -/
lemma parse_doubledFrame {crc32 crc8 : List UInt8 → UInt32} {c : Command} {size : RingSize}
    {t : SpiCom} {fuel : ℕ} {handler : Handler} (hhandled : c.handler? = some handler)
    (hbatch : PublishedBatch crc8 size t (c.frame crc32 ++ c.frame crc32)) (hfuel : 1 < fuel) :
    ∃ t' call, ucWiotaDlDataParse crc32 crc8 true fuel t =
        .done (t', (c.frame crc32 ++ c.frame crc32).length, [call]) ∧
      call.handler = handler ∧ slice call.dlData call.subData 8 = (c.header crc32).toBytes ∧
      slice call.dlData (call.subData + 8) c.data.length = c.data := by
  have hbytes : c.frame crc32 ++ c.frame crc32 = batchBytes crc32 [c] := by simp [batchBytes]
  rw [hbytes] at hbatch ⊢
  obtain ⟨hparse, -⟩ := dlDataParse_batch (by simp) (by simp [hhandled]) hbatch hfuel
  have hcalls := @forall₂_ownCalls crc32 [c] (by simp [hhandled]) []
  obtain ⟨call, hcall⟩ : ∃ call, ownCalls (batchBytes crc32 [c]) 0 [c] = [call] := by
    simp [ownCalls, hhandled]
  rw [List.nil_append, List.length_nil, hcall] at hcalls
  rw [hcall] at hparse
  obtain ⟨hsome, hslice⟩ := (List.forall₂_cons.mp hcalls).1
  refine ⟨_, call, hparse, ?_, slice_header_of_frame hslice, slice_data_of_frame hslice⟩
  rw [hhandled] at hsome
  exact (Option.some.inj hsome).symm

/-- A call with enough room appends exactly the frame of its parameters to the uplink ring, and that
frame, written twice in a row into the downlink ring, is accepted by the parser and handed to the
handler of its command type with the same length and the same data. -/
theorem uplinkFrame_roundTrip {crc32 crc8 : List UInt8 → UInt32} {size : RingSize} {s : SpiCom}
    (hring : UlRing size s) {para : CmdSendPara} {retry : RbReadState}
    (hfetch : (ucWiotaRingbufferGetUlReadIdx crc8 retry s).2 = 0)
    (hread : (ucWiotaRingbufferGetUlReadIdx crc8 retry s).1.ulRb.readIndex < size.cells)
    (hfree : 8 + rtAlign para.data.length ringBufferAlignSize + 4 ≤
      rtRingbufferSpaceLen (ucWiotaRingbufferGetUlReadIdx crc8 retry s).1.ulRb) :
    ∃ s' hdr frame,
      ucWiotaSendDataToGateway crc32 crc8 true retry para s = .ok (s', 0) ∧
      Appended size s s' frame ∧ UplinkFrame crc32 s.apChannelId para hdr frame ∧
      ∀ dlSize t fuel handler, PublishedBatch crc8 dlSize t (frame ++ frame) →
        handlerOf para.cmdHeader.cmdType para.cmdHeader.cmd = some handler → 1 < fuel →
        ∃ t' call, ucWiotaDlDataParse crc32 crc8 true fuel t =
            .done (t', (frame ++ frame).length, [call]) ∧
          call.handler = handler ∧ slice call.dlData call.subData 8 = hdr.toBytes ∧
          slice call.dlData (call.subData + 8) para.data.length = para.data := by
  have hN := size.cells_bounds
  have hspace := spaceLen_le (hring.fetch crc8 retry) hread
  have hwrap : para.NoWrap := by
    unfold CmdSendPara.NoWrap
    omega
  have hframe := uplinkFrame_command crc32 s.apChannelId para hwrap
  have hlen : (para.command s.apChannelId hwrap).frameLen ≤
      rtRingbufferSpaceLen (ucWiotaRingbufferGetUlReadIdx crc8 retry s).1.ulRb := by
    have h := hframe.length
    rw [Command.length_frame] at h
    rw [h]
    split <;> omega
  refine ⟨_, _, _, send_appended hring hwrap (Or.inl rfl) hfetch (by omega) (by omega),
    afterPut_appended hring (by rw [Command.length_frame]; omega), hframe, ?_⟩
  intro dlSize t fuel handler hbatch hhandler hfuel
  exact parse_doubledFrame (c := para.command s.apChannelId hwrap) hhandler hbatch hfuel

/-- A setup command with two parameters of one and two bytes. -/
def twoParas : CmdSendPara where
  cmdHeader := setupCmd.header byteSum
  paras := [[1], [2, 3]]
  para_num_le := by decide
  para_len_lt := by decide

/-- The uplink ring after the initialisation. -/
lemma ucWiotaSpiComInit_ulRing (channel : UInt8) (crc8 : List UInt8 → UInt32) :
    UlRing ulRingBufferSize (ucWiotaSpiComInit channel crc8) where
  bufferSize := rfl
  poolLength := List.length_replicate
  writeIndex_lt := Nat.lt_of_lt_of_le (Nat.succ_pos 3) ulRingBufferSize.cells_bounds.1

/-- The two parameters are sent in a frame of 16 bytes. -/
theorem uplinkFrame_roundTrip_twoParas :
    ∃ s' frame, ucWiotaSendDataToGateway byteSum (fun _ => 0) true RbReadState.zero twoParas
        (ucWiotaSpiComInit 0 fun _ => 0) = .ok (s', 0) ∧
      Appended ulRingBufferSize (ucWiotaSpiComInit 0 fun _ => 0) s' frame ∧ frame.length = 16 := by
  obtain ⟨s', hdr, frame, hsend, happ, hframe, -⟩ := @uplinkFrame_roundTrip byteSum (fun _ => 0)
    _ _ (ucWiotaSpiComInit_ulRing 0 fun _ => 0) twoParas RbReadState.zero (by decide) (by decide)
    (by decide)
  exact ⟨s', frame, hsend, happ, hframe.length⟩

end WiotaAp
