import WiotaAp.SpiCom.DlRead

/-!
# Well-formed downlink batches

The gateway writes every frame of a batch twice in a row.  `batchBytes` is such a batch and
`ownCalls` the handler calls it asks for: one for each command, in order, with a pointer to the
first copy of its frame in the untouched block.  `dlDataParseRound_intact` is one round of the parse
loop on an intact frame, and `dlDataParseLoop_batch` the whole loop.

`dlDataParse_batch` puts the ring half in front: the batch may lie anywhere in the ring.
-/

namespace WiotaAp

open Buffers

/-- A batch on the wire: every frame twice in a row. -/
def batchBytes (crc32 : List UInt8 → UInt32) (cmds : List Command) : List UInt8 :=
  cmds.flatMap fun c => c.frame crc32 ++ c.frame crc32

/-- The handler calls a batch asks for, when its first frame lies at `off` in the block `dlData`. -/
def ownCalls (dlData : List UInt8) : ℕ → List Command → List HandlerCall
  | _, [] => []
  | off, c :: cs =>
    (c.handler?.map fun handler => ⟨handler, off, dlData⟩).toList ++
      ownCalls dlData (off + 2 * c.frameLen) cs

variable {crc32 : List UInt8 → UInt32}

/-- A batch is its first frame, twice, and the rest. -/
lemma batchBytes_cons (c : Command) (cs : List Command) :
    batchBytes crc32 (c :: cs) = c.frame crc32 ++ (c.frame crc32 ++ batchBytes crc32 cs) := by
  simp [batchBytes]

/-- A batch with a command is at least two headers long. -/
lemma length_batchBytes_cons (c : Command) (cs : List Command) :
    (batchBytes crc32 (c :: cs)).length = 2 * c.frameLen + (batchBytes crc32 cs).length := by
  rw [batchBytes_cons, List.length_append, List.length_append, Command.length_frame]
  omega

variable (crc32) in
/-- A batch with a command has a multiple of four bytes, at least eight. -/
lemma length_batchBytes_bounds {cmds : List Command} (hne : cmds ≠ []) :
    8 ≤ (batchBytes crc32 cmds).length ∧ (batchBytes crc32 cmds).length % 4 = 0 := by
  induction cmds with
  | nil => exact absurd rfl hne
  | cons c cs ih =>
    have hL := c.frameLen_bounds
    rw [length_batchBytes_cons]
    by_cases hcs : cs = []
    · subst hcs
      simp only [batchBytes, List.flatMap_nil, List.length_nil]
      omega
    · have hrest := ih hcs
      omega

/-- The 16-bit frame length of the loop is the frame length, when the frame fits in 16 bits. -/
lemma subDataLenOf_eq {c : Command} (hdata : c.data ≠ []) (hlen : c.frameLen < 2 ^ 16) :
    subDataLenOf c.data.length = c.frameLen := by
  have h := c.frameLen_of_data hdata
  simp only [subDataLenOf, cmdHeaderSize, ucCrc32Len]
  omega

/-! ### One intact frame -/

/-- The header of a frame, as a window of a block that has the frame at `off`. -/
lemma slice_header_of_frame {c : Command} {dlData : List UInt8} {off : ℕ}
    (h : slice dlData off c.frameLen = c.frame crc32) :
    slice dlData off 8 = (c.header crc32).toBytes := by
  have hlen := c.frameLen_bounds.1
  have hinner := @slice_slice _ dlData off c.frameLen 0 8 (by omega)
  rw [h, Nat.add_zero] at hinner
  rw [← hinner, Command.frame]
  exact slice_part (List.nil_append _).symm rfl (by simp)

/-- The data of a frame, as a window of a block that has the frame at `off`. -/
lemma slice_data_of_frame {c : Command} {dlData : List UInt8} {off : ℕ}
    (h : slice dlData off c.frameLen = c.frame crc32) :
    slice dlData (off + 8) c.data.length = c.data := by
  by_cases hdata : c.data = []
  · simp [hdata]
  have hlen := c.frameLen_of_data hdata
  have hpad := c.length_padded
  have hinner := @slice_slice _ dlData off c.frameLen 8 c.data.length (by omega)
  rw [h] at hinner
  rw [← hinner, Command.frame, Command.body, if_neg hdata, List.append_assoc c.data]
  exact slice_part rfl (CmdHeader.length_toBytes _).symm rfl

/-- The handler of the command is called, and the header and the data it is handed are those of the
command. -/
structure HandedOver (crc32 : List UInt8 → UInt32) (c : Command) (call : HandlerCall) : Prop where
  handler : c.handler? = some call.handler
  header : slice call.dlData call.subData 8 = (c.header crc32).toBytes
  data : slice call.dlData (call.subData + 8) c.data.length = c.data

/-- A command is handed over by a pointer to its frame. -/
lemma HandedOver.of_frame {c : Command} {call : HandlerCall}
    (hhandler : c.handler? = some call.handler)
    (hframe : slice call.dlData call.subData c.frameLen = c.frame crc32) :
    HandedOver crc32 c call :=
  ⟨hhandler, slice_header_of_frame hframe, slice_data_of_frame hframe⟩

/-- Behind the header of a command without data there is nothing to check. -/
lemma locateSubData_noData {c : Command} {dlData : List UInt8} {off cmdHeader : ℕ}
    (hdata : c.data = []) (hhdr : slice dlData cmdHeader 8 = (c.header crc32).toBytes)
    (hb : cmdHeader + 8 ≤ dlData.length) :
    locateSubData crc32 dlData off cmdHeader = .ok (some (off, dlData, 2 * c.frameLen)) := by
  have hzero : (CmdHeader.ofBytes (slice dlData cmdHeader 8)).dataLen.toNat = 0 := by
    rw [hhdr, CmdHeader.ofBytes_toBytes, Command.header_dataLen, hdata, List.length_nil]
  rw [locateSubData_headerOnly hb hzero, Command.frameLen, if_pos hdata]

/-- Behind the header of a command with data the data check runs over the frame of the command. -/
lemma locateSubData_checked {c : Command} {dlData : List UInt8} {off cmdHeader : ℕ}
    (hdata : c.data ≠ []) (hhdr : slice dlData cmdHeader 8 = (c.header crc32).toBytes)
    (hb : cmdHeader + 8 ≤ dlData.length) (hlen : 2 * c.frameLen < 2 ^ 16)
    {found : Option (ℕ × List UInt8)}
    (hcheck : checkSubData crc32 dlData off cmdHeader c.frameLen = .ok found) :
    locateSubData crc32 dlData off cmdHeader =
      .ok (found.map fun p => (p.1, p.2, 2 * c.frameLen)) := by
  have hdl : (CmdHeader.ofBytes (slice dlData cmdHeader 8)).dataLen.toNat = c.data.length := by
    rw [hhdr, CmdHeader.ofBytes_toBytes, Command.header_dataLen]
  have hsub := subDataLenOf_eq hdata (show c.frameLen < 2 ^ 16 by omega)
  rw [← hsub, ← hdl] at hcheck
  rw [locateSubData_data hb (by rw [hdl]; exact List.length_pos_iff.mpr hdata) hcheck, hdl, hsub,
    Nat.mul_comm, Nat.mod_eq_of_lt hlen]

/-- One round on an intact frame: its handler is called with the frame, and the loop goes on behind
the second copy. -/
lemma dlDataParseRound_intact {c : Command} {handler : Handler} {st : ParseState}
    (hhandler : c.handler? = some handler)
    (hframe : slice st.dlData st.subDataOffset c.frameLen = c.frame crc32)
    (hb : st.subDataOffset + 2 * c.frameLen ≤ st.dlData.length)
    (hlen : st.dlData.length < 2 ^ 16) :
    dlDataParseRound crc32 st = .ok (.inl
      { dlData := st.dlData
        subDataOffset := st.subDataOffset + 2 * c.frameLen
        calls := st.calls ++ [⟨handler, st.subDataOffset, st.dlData⟩] }) := by
  have hL := c.frameLen_bounds
  have hhdr := slice_header_of_frame hframe
  have hheader := checkCmdHeader_first (show st.subDataOffset + 8 ≤ st.dlData.length by omega)
    (by rw [hhdr]; exact c.headerOk_header crc32)
  have hlocate : locateSubData crc32 st.dlData st.subDataOffset st.subDataOffset =
      .ok (some (st.subDataOffset, st.dlData, 2 * c.frameLen)) := by
    by_cases hdata : c.data = []
    · exact locateSubData_noData hdata hhdr (by omega)
    · exact locateSubData_checked hdata hhdr (by omega) (by omega)
        (checkSubData_first (by omega) (by omega) (by omega)
          (by rw [hframe]; exact c.frameOk_frame crc32 hdata))
  rw [dlDataParseRound_of_found (by omega) hheader hlocate (by omega) (by omega)
    (by rw [hhdr, CmdHeader.ofBytes_toBytes, Command.header_handler?, hhandler]),
    Nat.mod_eq_of_lt (by omega)]

/-! ### The whole loop -/

/-- The parse loop on an intact batch makes the calls the batch asks for and leaves at its end, when
it may take more rounds than there are commands. -/
theorem loop_batch {cmds : List Command} (hhandled : ∀ c ∈ cmds, c.handler? ≠ none)
    (pre : List UInt8) (hlen : (pre ++ batchBytes crc32 cmds).length < 2 ^ 16)
    (calls : List HandlerCall) {fuel : ℕ} (hfuel : cmds.length < fuel) :
    loop (dlDataParseRound crc32) fuel ⟨pre ++ batchBytes crc32 cmds, pre.length, calls⟩ =
      .done ⟨pre ++ batchBytes crc32 cmds, (pre ++ batchBytes crc32 cmds).length,
        calls ++ ownCalls (pre ++ batchBytes crc32 cmds) pre.length cmds⟩ := by
  -- by induction on the commands that are left; `pre` is what has been parsed
  induction cmds generalizing pre calls fuel with
  | nil =>
    obtain ⟨n, rfl⟩ := Nat.exists_eq_add_of_lt hfuel
    have hend : pre ++ batchBytes crc32 [] = pre := by simp [batchBytes]
    have hexit : dlDataParseRound crc32 ⟨pre, pre.length, calls⟩ =
        .ok (.inr ⟨pre, pre.length, calls⟩) := dlDataParseRound_of_end le_rfl
    rw [hend, ownCalls, List.append_nil]
    exact loop_of_exit hexit _
  | cons c cs ih =>
    obtain ⟨n, rfl⟩ := Nat.exists_eq_add_of_lt hfuel
    obtain ⟨handler, hhandler⟩ := Option.ne_none_iff_exists'.mp (hhandled c List.mem_cons_self)
    have hL := c.length_frame crc32
    have hcut : pre ++ batchBytes crc32 (c :: cs) =
        (pre ++ (c.frame crc32 ++ c.frame crc32)) ++ batchBytes crc32 cs := by
      simp only [batchBytes_cons, List.append_assoc]
    have hpre : (pre ++ (c.frame crc32 ++ c.frame crc32)).length = pre.length + 2 * c.frameLen := by
      simp only [List.length_append, hL]
      omega
    have hb : pre.length + 2 * c.frameLen ≤ (pre ++ batchBytes crc32 (c :: cs)).length := by
      rw [List.length_append, length_batchBytes_cons]
      omega
    have hround : dlDataParseRound crc32
        ⟨pre ++ batchBytes crc32 (c :: cs), pre.length, calls⟩ = _ :=
      dlDataParseRound_intact hhandler (slice_part (by rw [batchBytes_cons]) rfl hL.symm) hb hlen
    rw [loop_of_next hround, ownCalls, hhandler]
    have hrest := ih (fun d hd => hhandled d (List.mem_cons_of_mem c hd)) _ (hcut ▸ hlen)
      (calls ++ [⟨handler, pre.length, pre ++ batchBytes crc32 (c :: cs)⟩])
      (show cs.length < cs.length + 1 + n by omega)
    rw [← hcut, hpre] at hrest
    simpa using hrest

/-- The calls of an intact batch are made with the commands' own frames. -/
lemma forall₂_ownCalls {cmds : List Command} (hhandled : ∀ c ∈ cmds, c.handler? ≠ none)
    (pre : List UInt8) :
    List.Forall₂ (fun c (call : HandlerCall) => c.handler? = some call.handler ∧
        slice call.dlData call.subData c.frameLen = c.frame crc32)
      cmds (ownCalls (pre ++ batchBytes crc32 cmds) pre.length cmds) := by
  induction cmds generalizing pre with
  | nil => exact .nil
  | cons c cs ih =>
    obtain ⟨handler, hhandler⟩ := Option.ne_none_iff_exists'.mp (hhandled c List.mem_cons_self)
    have hL := c.length_frame crc32
    have hrest := ih (fun d hd => hhandled d (List.mem_cons_of_mem c hd))
      (pre ++ (c.frame crc32 ++ c.frame crc32))
    have hcut : pre ++ (c.frame crc32 ++ c.frame crc32) ++ batchBytes crc32 cs =
        pre ++ batchBytes crc32 (c :: cs) := by
      simp only [batchBytes_cons, List.append_assoc]
    have hpre : (pre ++ (c.frame crc32 ++ c.frame crc32)).length = pre.length + 2 * c.frameLen := by
      simp only [List.length_append, hL]
      omega
    rw [hcut, hpre] at hrest
    rw [ownCalls, hhandler]
    exact .cons ⟨hhandler, slice_part (by rw [batchBytes_cons]) rfl hL.symm⟩ hrest

/-! ### A batch in the ring -/

/-- The downlink ring holds `bytes`, at any read position, and the published write state is valid
and delimits exactly these bytes. -/
structure PublishedBatch (crc8 : List UInt8 → UInt32) (size : RingSize) (s : SpiCom)
    (bytes : List UInt8) : Prop where
  ring : DlRing size s
  length_le : bytes.length ≤ size.cells
  accepted : WriteStateOk crc8 s.apChannelId s.dlRbWriteState
  delimits : s.dlRbWriteState.cursor = s.dlRb.readCursor.advance s.dlRb.bufferSize bytes.length
  stored : ringSlice s.dlRb.bufferSize s.dlBuf s.dlRb.readIndex bytes.length = bytes

/-- The ring half of the parser takes out exactly a published batch, and publishes as its read
position the write position it fetched. -/
lemma PublishedBatch.readDlBatch_eq {crc8 : List UInt8 → UInt32} {size : RingSize} {s : SpiCom}
    {bytes : List UInt8} (h : PublishedBatch crc8 size s bytes) (h8 : 8 ≤ bytes.length)
    (h4 : bytes.length % 4 = 0) :
    readDlBatch crc8 true s = .ok (afterRead crc8 s bytes.length, some bytes) ∧
      (afterRead crc8 s bytes.length).dlRbReadState.cursor = s.dlRbWriteState.cursor := by
  have hN := size.cells_bounds
  have hsize := h.ring.bufferSize
  have hle := h.length_le
  have hr : s.dlRb.readCursor.index < s.dlRb.bufferSize := by
    rw [hsize]
    exact h.ring.readIndex_lt
  have hdata : rtRingbufferDataLen (s.dlRb.setWrite s.dlRbWriteState.cursor) = bytes.length := by
    rw [dataLen_fetched h.ring, h.delimits]
    exact Cursor.gap_advance hr (by omega)
  have hlen : fetchedDataLen s = bytes.length := by
    rw [fetchedDataLen, ucWiotaGetDlDataLen_eq, hdata, RtRingbuffer.setWrite_bufferSize,
      Nat.mod_eq_of_lt (by omega), if_pos ⟨h8, by omega⟩]
  constructor
  · rw [WiotaAp.readDlBatch_eq h.ring h.accepted, hlen, if_neg (by omega), if_pos h4, h.stored]
  · rw [afterRead_readState h.ring crc8 hle, h.delimits]

/-- The parser on a published batch: the loop on the batch decides what is returned and called. -/
lemma PublishedBatch.dlDataParse_eq {crc8 : List UInt8 → UInt32} {size : RingSize} {s : SpiCom}
    {bytes : List UInt8} (h : PublishedBatch crc8 size s bytes) (h8 : 8 ≤ bytes.length)
    (h4 : bytes.length % 4 = 0) {fuel : ℕ} {st : ParseState}
    (hloop : dlDataParseLoop crc32 fuel bytes = .done st) :
    ucWiotaDlDataParse crc32 crc8 true fuel s =
      .done (afterRead crc8 s bytes.length, st.subDataOffset, st.calls) := by
  rw [ucWiotaDlDataParse, (h.readDlBatch_eq h8 h4).1]
  simp only [hloop]

/-- The parser on a published intact batch. -/
lemma dlDataParse_batch {crc8 : List UInt8 → UInt32} {size : RingSize} {s : SpiCom}
    {cmds : List Command} (hne : cmds ≠ []) (hhandled : ∀ c ∈ cmds, c.handler? ≠ none)
    (hbatch : PublishedBatch crc8 size s (batchBytes crc32 cmds)) {fuel : ℕ}
    (hfuel : cmds.length < fuel) :
    ucWiotaDlDataParse crc32 crc8 true fuel s =
        .done (afterRead crc8 s (batchBytes crc32 cmds).length, (batchBytes crc32 cmds).length,
          ownCalls (batchBytes crc32 cmds) 0 cmds) ∧
      (afterRead crc8 s (batchBytes crc32 cmds).length).dlRbReadState.cursor =
        s.dlRbWriteState.cursor := by
  have hN := size.cells_bounds
  have hle := hbatch.length_le
  obtain ⟨h8, h4⟩ := length_batchBytes_bounds crc32 hne
  have hloop := @loop_batch crc32 cmds hhandled [] (by rw [List.nil_append]; omega) [] fuel hfuel
  exact ⟨hbatch.dlDataParse_eq h8 h4 hloop, (hbatch.readDlBatch_eq h8 h4).2⟩

/-! ### The gateway's side -/

/-- The gateway writes `bytes` at the read position of a drained downlink ring and publishes the
write position behind them. -/
def gatewayPublish (crc8 : List UInt8 → UInt32) (bytes : List UInt8) (s : SpiCom) : SpiCom :=
  let c := s.dlRb.readCursor.advance s.dlRb.bufferSize bytes.length
  let index := indexField c.index
  { s with
    dlBuf := ringSplice s.dlRb.bufferSize s.dlBuf s.dlRb.readIndex bytes
    dlRbWriteState :=
      { writeIndex := index
        writeMirror := c.mirror
        channel := s.apChannelId
        writeCrc := (crc8 (stateBytes index c.mirror s.apChannelId)).toUInt8 } }

/-- What the gateway publishes is accepted, with a CRC that fits its byte. -/
lemma gatewayPublish_published {crc8 : List UInt8 → UInt32} (hcrc8 : ∀ bs, (crc8 bs).toNat < 256)
    {size : RingSize} {s : SpiCom} (hring : DlRing size s) {bytes : List UInt8}
    (hlen : bytes.length ≤ size.cells) :
    PublishedBatch crc8 size (gatewayPublish crc8 bytes s) bytes := by
  have hN := size.cells_bounds
  obtain ⟨hsize, hpool, hr⟩ := hring
  have hidx : (s.dlRb.readCursor.advance s.dlRb.bufferSize bytes.length).index < 32768 := by
    rw [hsize]
    exact lt_trans (Cursor.advance_index_lt hr hlen) hN.2.1
  refine ⟨⟨hsize, ?_, hr⟩, hlen, ⟨rfl, ?_⟩, ?_, ?_⟩
  · simp only [gatewayPublish]
    rw [hsize]
    exact length_ringSplice hpool hr hlen
  · have h := hcrc8 (stateBytes
      (indexField (s.dlRb.readCursor.advance s.dlRb.bufferSize bytes.length).index)
      (s.dlRb.readCursor.advance s.dlRb.bufferSize bytes.length).mirror s.apChannelId)
    simp only [gatewayPublish, UInt32.toNat_toUInt8]
    omega
  · ext
    · exact Nat.mod_eq_of_lt hidx
    · rfl
  · simp only [gatewayPublish]
    rw [hsize]
    exact ringSlice_ringSplice hpool hr hlen

/-- The sum of the bytes, in place of the CRC of the radio library. -/
def byteSum (bs : List UInt8) : UInt32 :=
  (bs.map UInt8.toUInt32).sum

/-- A query without data. -/
def queryCmd : Command :=
  Command.ofData 2 1 [] (by decide)

/-- A setup with one byte of data. -/
def setupCmd : Command :=
  Command.ofData 1 3 [7] (by decide)

/-- A drained downlink ring whose read index is four bytes in front of the end. -/
def drainedNearEnd : SpiCom :=
  { ucWiotaSpiComInit 0 (fun _ => 0) with dlRb := ⟨false, 7148, false, 7148, 7152⟩ }

/-- Its read index is in the ring. -/
lemma drainedNearEnd_dlRing : DlRing dlRingBufferSize drainedNearEnd where
  bufferSize := rfl
  poolLength := List.length_replicate
  readIndex_lt := show 7148 < 7152 by decide

/-! ### Exactly-once dispatch -/

/-- One run of the parser over a batch that is intact in the ring: each command's handler is called
exactly once, in order, with a pointer to the command's own unmodified frame; the total length is
returned; and the published read position is the write position that was fetched. -/
theorem dlDataParse_exactlyOnce {crc8 : List UInt8 → UInt32} {size : RingSize} {s : SpiCom}
    {cmds : List Command} (hne : cmds ≠ []) (hhandled : ∀ c ∈ cmds, c.handler? ≠ none)
    (hbatch : PublishedBatch crc8 size s (batchBytes crc32 cmds)) {fuel : ℕ}
    (hfuel : cmds.length < fuel) :
    ∃ s' calls,
      ucWiotaDlDataParse crc32 crc8 true fuel s =
        .done (s', (batchBytes crc32 cmds).length, calls) ∧
      calls = ownCalls (batchBytes crc32 cmds) 0 cmds ∧
      List.Forall₂ (fun c (call : HandlerCall) => c.handler? = some call.handler ∧
        slice call.dlData call.subData c.frameLen = c.frame crc32) cmds calls ∧
      s'.dlRbReadState.cursor = s.dlRbWriteState.cursor := by
  obtain ⟨hparse, hread⟩ := dlDataParse_batch hne hhandled hbatch hfuel
  exact ⟨_, _, hparse, rfl, forall₂_ownCalls hhandled [], hread⟩

/-- The two commands are dispatched from a batch that wraps around the end of the ring. -/
theorem dlDataParse_exactlyOnce_wrapped :
    ∃ s' calls,
      ucWiotaDlDataParse byteSum (fun _ => 0) true 3
          (gatewayPublish (fun _ => 0) (batchBytes byteSum [queryCmd, setupCmd]) drainedNearEnd) =
        .done (s', (batchBytes byteSum [queryCmd, setupCmd]).length, calls) ∧
      calls = ownCalls (batchBytes byteSum [queryCmd, setupCmd]) 0 [queryCmd, setupCmd] ∧
      List.Forall₂ (fun c (call : HandlerCall) => c.handler? = some call.handler ∧
        slice call.dlData call.subData c.frameLen = c.frame byteSum) [queryCmd, setupCmd] calls ∧
      s'.dlRbReadState.cursor = ⟨44, true⟩ :=
  dlDataParse_exactlyOnce (by decide) (by decide)
    (gatewayPublish_published (fun _ => by decide) drainedNearEnd_dlRing (by decide)) (by decide)

end WiotaAp
