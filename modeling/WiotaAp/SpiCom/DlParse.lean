import WiotaAp.Foundation.Loop
import WiotaAp.SpiCom.Frame
import WiotaAp.SpiCom.Shared

/-!
# Reading and parsing a downlink batch

`uc_wiota_dl_data_parse` in its two halves.  `readDlBatch` fetches the write position of the
gateway, copies what the downlink ring holds into a fresh block and publishes the new read position.
The parse loop then walks the block: `checkCmdHeader` finds a valid header, `locateSubData` the
bytes of the command behind it, and `dispatch` calls the handler and moves on.

A handler is an opaque call, recorded with the pointer it gets and the block as it is at that time.
Every access to the block is checked, and the `RT_ASSERT(0)` on an unknown command type is a fault.
-/

namespace WiotaAp

open Buffers

/-! ### The ring half -/

/-- `uc_wiota_get_dl_data_len`: zero when there is nothing to read or the length is invalid. -/
def ucWiotaGetDlDataLen (rb : RtRingbuffer) : ℕ :=
  let dlDataLen := rtRingbufferDataLen rb % 2 ^ 16
  if dlDataLen = 0 then 0
  else if dlDataLen < cmdHeaderSize ∨ dlDataLen > rb.bufferSize then 0
  else dlDataLen

/-- The part of `uc_wiota_dl_data_parse` in front of the loop.  The batch is `none` when the
function returns without reading; `mallocOk` says whether the allocation succeeds. -/
def readDlBatch (crc8 : List UInt8 → UInt32) (mallocOk : Bool) (s : SpiCom) :
    Except Fault (SpiCom × Option (List UInt8)) :=
  let fetched := ucWiotaRingbufferGetDlWriteIdx crc8 s
  if fetched.2 ≠ 0 then .ok (fetched.1, none)
  else
    let dlDataLen := ucWiotaGetDlDataLen fetched.1.dlRb
    if dlDataLen = 0 then .ok (fetched.1, none)
    else if mallocOk = false then .ok (fetched.1, none)
    else do
      let (rb, dlData, _) ← ucWiotaRingbufferGet fetched.1.dlRb fetched.1.dlBuf
        (List.replicate dlDataLen 0) dlDataLen
      return (ucWiotaRingbufferSetDlReadIdx crc8 { fetched.1 with dlRb := rb }, some dlData)

/-! ### Dispatch -/

/-- The handlers of the parse loop.  Two of them are given the command number as well. -/
inductive Handler
  | exec
  | setup
  | query
  | other (cmd : Fin 64)
  | send (cmd : Fin 64)
  deriving DecidableEq, Repr

/-- The `switch` over the command type.  `CMD_TYPE_RECV` and the two unused codes have no handler.
-/
def handlerOf (cmdType : Fin 8) (cmd : Fin 64) : Option Handler :=
  match cmdType with
  | 0 => some .exec
  | 1 => some .setup
  | 2 => some .query
  | 3 => some (.other cmd)
  | 4 => some (.send cmd)
  | _ => none

/-- The handler selected by a header. -/
def CmdHeader.handler? (h : CmdHeader) : Option Handler :=
  handlerOf h.cmdType h.cmd

/-- The handler of a command. -/
def Command.handler? (c : Command) : Option Handler :=
  handlerOf c.cmdType c.cmd

/-- The header of a command selects its handler. -/
lemma Command.header_handler? (crc32 : List UInt8 → UInt32) (c : Command) :
    (c.header crc32).handler? = c.handler? := rfl

/-- One call of a handler: the pointer `sub_data`, as an offset, and the block it points into. -/
structure HandlerCall where
  handler : Handler
  subData : ℕ
  dlData : List UInt8
  deriving DecidableEq, Repr

/-- The state of the parse loop. -/
structure ParseState where
  dlData : List UInt8
  subDataOffset : ℕ
  calls : List HandlerCall
  deriving DecidableEq, Repr

/-- Read the header at a pointer into the block. -/
def readCmdHeader (dlData : List UInt8) (ptr : ℕ) : Except Fault CmdHeader := do
  let bytes ← readAt dlData ptr cmdHeaderSize
  return CmdHeader.ofBytes bytes

/-- Check the length, call the handler of the command and step over the frame and its copy. -/
def dispatch (st : ParseState) (cmdHeader subData : ℕ) (dlData : List UInt8) (subDataLen : ℕ) :
    Except Fault (ParseState ⊕ ParseState) :=
  if subDataLen > dlData.length then .ok (.inr st)
  else do
    let hdr ← readCmdHeader dlData cmdHeader
    match hdr.handler? with
    | none => .error .assertion
    | some handler =>
      return .inl
        { dlData := dlData
          subDataOffset := (st.subDataOffset + subDataLen) % 2 ^ 16
          calls := st.calls ++ [⟨handler, subData, dlData⟩] }

/-! ### The parse loop -/

section Parse

variable (crc32 : List UInt8 → UInt32)

/-- The header check at `off`, with one retry at the middle of the block.  The result is the pointer
`cmd_header` and the block, into which a valid second header is copied; it is `none` when both
checks fail. -/
def checkCmdHeader (dlData : List UInt8) (off : ℕ) :
    Except Fault (Option (ℕ × List UInt8)) := do
  let hdr ← readAt dlData off cmdHeaderSize
  if HeaderOk crc32 hdr then
    return some (off, dlData)
  else
    let backup := dlData.length / 2
    let hdr ← readAt dlData backup cmdHeaderSize
    if HeaderOk crc32 hdr then
      let dlData ← copyAt dlData off backup cmdHeaderSize
      return some (backup, dlData)
    else
      return none

/-- The CRC comparison over `subDataLen` bytes at the pointer `subData`. -/
def subDataCrcOk (dlData : List UInt8) (subData subDataLen : ℕ) : Except Fault Bool := do
  let bytes ← readAt dlData subData (toU32 ((subDataLen : ℤ) - ucCrc32Len))
  let oriCrc ← readAt dlData (subData + subDataLen - ucCrc32Len) ucCrc32Len
  return leValue oriCrc = (crc32 bytes).toNat

/-- The data check at `off`, with one retry at `&dl_data[sub_data_len]`, to which the header is
copied first.  The result is the pointer `sub_data` and the block. -/
def checkSubData (dlData : List UInt8) (off cmdHeader subDataLen : ℕ) :
    Except Fault (Option (ℕ × List UInt8)) := do
  if ← subDataCrcOk crc32 dlData off subDataLen then
    return some (off, dlData)
  else
    let dlData ← copyAt dlData subDataLen cmdHeader cmdHeaderSize
    if ← subDataCrcOk crc32 dlData subDataLen subDataLen then
      return some (subDataLen, dlData)
    else
      return none

/-- The length of a frame with `dataLen` bytes of data, in the 16-bit arithmetic of the loop. -/
def subDataLenOf (dataLen : ℕ) : ℕ :=
  (cmdHeaderSize + rtAlign dataLen ringBufferAlignSize % 2 ^ 16 + ucCrc32Len) % 2 ^ 16

/-- The bytes of the command whose header is at `cmdHeader`: the pointer `sub_data`, the block, and
the length of the frame together with its copy. -/
def locateSubData (dlData : List UInt8) (off cmdHeader : ℕ) :
    Except Fault (Option (ℕ × List UInt8 × ℕ)) := do
  let hdr ← readCmdHeader dlData cmdHeader
  if hdr.dataLen.toNat > 0 then
    let subDataLen := subDataLenOf hdr.dataLen.toNat
    match ← checkSubData crc32 dlData off cmdHeader subDataLen with
    | none => return none
    | some (subData, dlData) => return some (subData, dlData, subDataLen * 2 % 2 ^ 16)
  else
    return some (off, dlData, cmdHeaderSize + cmdHeaderSize)

/-- One round of the parse loop. -/
def dlDataParseRound (st : ParseState) : Except Fault (ParseState ⊕ ParseState) :=
  if st.subDataOffset ≥ st.dlData.length then .ok (.inr st)
  else do
    match ← checkCmdHeader crc32 st.dlData st.subDataOffset with
    | none => return .inr st
    | some (cmdHeader, dlData) =>
      match ← locateSubData crc32 dlData st.subDataOffset cmdHeader with
      | none => return .inr st
      | some (subData, dlData, subDataLen) => dispatch st cmdHeader subData dlData subDataLen

/-- The parse loop on a fresh block, for at most `fuel` rounds. -/
def dlDataParseLoop (fuel : ℕ) (dlData : List UInt8) : Run ParseState :=
  loop (dlDataParseRound crc32) fuel ⟨dlData, 0, []⟩

/-- `uc_wiota_dl_data_parse`, with at most `fuel` rounds of its loop: the state, the returned offset
and the handler calls. -/
def ucWiotaDlDataParse (crc8 : List UInt8 → UInt32) (mallocOk : Bool) (fuel : ℕ) (s : SpiCom) :
    Run (SpiCom × ℕ × List HandlerCall) :=
  match readDlBatch crc8 mallocOk s with
  | .error f => .faulted f
  | .ok (s', none) => .done (s', 0, [])
  | .ok (s', some dlData) =>
    match dlDataParseLoop crc32 fuel dlData with
    | .running => .running
    | .faulted f => .faulted f
    | .done st => .done (s', st.subDataOffset, st.calls)

/-- A parser that has returned is not changed by more rounds. -/
lemma ucWiotaDlDataParse_add {crc8 : List UInt8 → UInt32} {mallocOk : Bool} {fuel : ℕ} {s : SpiCom}
    {result : SpiCom × ℕ × List HandlerCall}
    (h : ucWiotaDlDataParse crc32 crc8 mallocOk fuel s = .done result) (k : ℕ) :
    ucWiotaDlDataParse crc32 crc8 mallocOk (fuel + k) s = .done result := by
  simp only [ucWiotaDlDataParse] at h ⊢
  split at h
  · cases h
  · exact h
  · split at h
    · cases h
    · cases h
    · rename_i hloop
      rw [dlDataParseLoop, loop_add_of_done hloop k]
      exact h

/-! ### What the stages do inside the block -/

variable {crc32} {dlData : List UInt8} {off cmdHeader subData subDataLen : ℕ}

/-- Reading a header inside the block. -/
lemma readCmdHeader_of_le (hb : cmdHeader + 8 ≤ dlData.length) :
    readCmdHeader dlData cmdHeader = .ok (CmdHeader.ofBytes (slice dlData cmdHeader 8)) := by
  rw [readCmdHeader, readAt_of_le hb]
  rfl

/-- A valid header at the offset is taken as it is. -/
lemma checkCmdHeader_first (hb : off + 8 ≤ dlData.length)
    (hok : HeaderOk crc32 (slice dlData off 8)) :
    checkCmdHeader crc32 dlData off = .ok (some (off, dlData)) := by
  rw [checkCmdHeader, readAt_of_le hb, ok_bind, if_pos hok]
  rfl

/-- Otherwise the header at the middle of the block decides. -/
lemma checkCmdHeader_second (hb : off + 8 ≤ dlData.length)
    (hbad : ¬ HeaderOk crc32 (slice dlData off 8))
    (hmid : dlData.length / 2 + 8 ≤ dlData.length) :
    checkCmdHeader crc32 dlData off =
      .ok (if HeaderOk crc32 (slice dlData (dlData.length / 2) 8) then
        some (dlData.length / 2, copyWithin dlData off (dlData.length / 2) 8)
      else none) := by
  rw [checkCmdHeader, readAt_of_le hb, ok_bind, if_neg hbad]
  simp only
  rw [readAt_of_le hmid, ok_bind]
  split
  · rw [copyAt_of_le hmid hb, ok_bind]
    rfl
  · rfl

/-- The CRC comparison inside the block is the one on the bytes at the pointer. -/
lemma subDataCrcOk_of_le (h4 : 4 ≤ subDataLen) (hlen : subDataLen < 2 ^ 16)
    (hb : subData + subDataLen ≤ dlData.length) :
    subDataCrcOk crc32 dlData subData subDataLen =
      .ok (decide (FrameOk crc32 (slice dlData subData subDataLen))) := by
  have hcount : toU32 ((subDataLen : ℤ) - (ucCrc32Len : ℕ)) = subDataLen - 4 := by
    simp only [toU32, ucCrc32Len]
    omega
  have hpos : subData + subDataLen - ucCrc32Len = subData + (subDataLen - 4) :=
    Nat.add_sub_assoc h4 subData
  have hword : subData + (subDataLen - 4) + ucCrc32Len ≤ dlData.length := by
    simp only [ucCrc32Len]
    omega
  rw [subDataCrcOk, hcount, hpos, readAt_of_le (by omega), ok_bind, readAt_of_le hword, ok_bind]
  simp only [FrameOk, length_slice hb, slice_slice (Nat.sub_add_cancel h4).le,
    slice_slice (show 0 + (subDataLen - 4) ≤ subDataLen by omega), Nat.add_zero]
  rfl

/-- Data that passes its CRC at the offset is taken as it is. -/
lemma checkSubData_first (h4 : 4 ≤ subDataLen) (hlen : subDataLen < 2 ^ 16)
    (hb : off + subDataLen ≤ dlData.length)
    (hok : FrameOk crc32 (slice dlData off subDataLen)) :
    checkSubData crc32 dlData off cmdHeader subDataLen = .ok (some (off, dlData)) := by
  rw [checkSubData, subDataCrcOk_of_le h4 hlen hb, ok_bind, if_pos (decide_eq_true hok)]
  rfl

/-- Otherwise the header is copied to `&dl_data[sub_data_len]`, and the bytes there decide. -/
lemma checkSubData_second (h4 : 4 ≤ subDataLen) (hlen : subDataLen < 2 ^ 16)
    (hb : off + subDataLen ≤ dlData.length)
    (hbad : ¬ FrameOk crc32 (slice dlData off subDataLen))
    (hsrc : cmdHeader + 8 ≤ dlData.length) (hdst : subDataLen + 8 ≤ dlData.length)
    (hb2 : subDataLen + subDataLen ≤ dlData.length) :
    checkSubData crc32 dlData off cmdHeader subDataLen =
      .ok (if FrameOk crc32
          (slice (copyWithin dlData subDataLen cmdHeader 8) subDataLen subDataLen) then
        some (subDataLen, copyWithin dlData subDataLen cmdHeader 8)
      else none) := by
  rw [checkSubData, subDataCrcOk_of_le h4 hlen hb, ok_bind, if_neg (by simpa using hbad),
    copyAt_of_le hsrc hdst, ok_bind,
    subDataCrcOk_of_le h4 hlen (by rw [length_copyWithin]; exact hb2), ok_bind]
  split <;> simp_all

/-- A header without data stands for two headers. -/
lemma locateSubData_headerOnly (hb : cmdHeader + 8 ≤ dlData.length)
    (hzero : (CmdHeader.ofBytes (slice dlData cmdHeader 8)).dataLen.toNat = 0) :
    locateSubData crc32 dlData off cmdHeader = .ok (some (off, dlData, 16)) := by
  rw [locateSubData, readCmdHeader_of_le hb, ok_bind, if_neg (by omega)]
  rfl

/-- With data, the data check decides, and the length counts twice. -/
lemma locateSubData_data (hb : cmdHeader + 8 ≤ dlData.length)
    (hpos : 0 < (CmdHeader.ofBytes (slice dlData cmdHeader 8)).dataLen.toNat)
    {found : Option (ℕ × List UInt8)}
    (hcheck : checkSubData crc32 dlData off cmdHeader
      (subDataLenOf (CmdHeader.ofBytes (slice dlData cmdHeader 8)).dataLen.toNat) = .ok found) :
    locateSubData crc32 dlData off cmdHeader =
      .ok (found.map fun p => (p.1, p.2,
        subDataLenOf (CmdHeader.ofBytes (slice dlData cmdHeader 8)).dataLen.toNat * 2
          % 2 ^ 16)) := by
  rw [locateSubData, readCmdHeader_of_le hb, ok_bind, if_pos hpos]
  simp only
  rw [hcheck, ok_bind]
  cases found <;> rfl

/-- A round that finds a header, its bytes and a handler calls the handler and goes on. -/
lemma dlDataParseRound_of_found {st : ParseState} {dlData dlData' : List UInt8}
    {cmdHeader subData len : ℕ} {handler : Handler}
    (hlt : st.subDataOffset < st.dlData.length)
    (hheader : checkCmdHeader crc32 st.dlData st.subDataOffset = .ok (some (cmdHeader, dlData)))
    (hlocate : locateSubData crc32 dlData st.subDataOffset cmdHeader =
      .ok (some (subData, dlData', len)))
    (hlen : len ≤ dlData'.length) (hb : cmdHeader + 8 ≤ dlData'.length)
    (hhandler : (CmdHeader.ofBytes (slice dlData' cmdHeader 8)).handler? = some handler) :
    dlDataParseRound crc32 st = .ok (.inl
      { dlData := dlData'
        subDataOffset := (st.subDataOffset + len) % 2 ^ 16
        calls := st.calls ++ [⟨handler, subData, dlData'⟩] }) := by
  rw [dlDataParseRound, if_neg (by omega), hheader, ok_bind]
  simp only
  rw [hlocate, ok_bind]
  simp only
  rw [dispatch, if_neg (by omega), readCmdHeader_of_le hb, ok_bind, hhandler]
  rfl

/-- A command type without a handler fails the assertion. -/
lemma dlDataParseRound_of_unknown {off cmdHeader subData len : ℕ} {dlData' dlData'' : List UInt8}
    {calls : List HandlerCall} (hlt : off < dlData.length)
    (hheader : checkCmdHeader crc32 dlData off = .ok (some (cmdHeader, dlData')))
    (hlocate : locateSubData crc32 dlData' off cmdHeader = .ok (some (subData, dlData'', len)))
    (hlen : len ≤ dlData''.length) (hb : cmdHeader + 8 ≤ dlData''.length)
    (hunknown : (CmdHeader.ofBytes (slice dlData'' cmdHeader 8)).handler? = none) :
    dlDataParseRound crc32 ⟨dlData, off, calls⟩ = .error .assertion := by
  rw [dlDataParseRound, if_neg (by simpa using hlt), hheader, ok_bind]
  simp only
  rw [hlocate, ok_bind]
  simp only
  rw [dispatch, if_neg (by omega), readCmdHeader_of_le hb, ok_bind, hunknown]

/-- The loop leaves when no valid header is found. -/
lemma dlDataParseRound_of_noHeader {off : ℕ} {calls : List HandlerCall} (hlt : off < dlData.length)
    (hheader : checkCmdHeader crc32 dlData off = .ok none) :
    dlDataParseRound crc32 ⟨dlData, off, calls⟩ = .ok (.inr ⟨dlData, off, calls⟩) := by
  rw [dlDataParseRound, if_neg (by simpa using hlt), hheader]
  rfl

/-- The loop leaves when the data behind a valid header is not found. -/
lemma dlDataParseRound_of_noData {off cmdHeader : ℕ} {dlData' : List UInt8}
    {calls : List HandlerCall} (hlt : off < dlData.length)
    (hheader : checkCmdHeader crc32 dlData off = .ok (some (cmdHeader, dlData')))
    (hlocate : locateSubData crc32 dlData' off cmdHeader = .ok none) :
    dlDataParseRound crc32 ⟨dlData, off, calls⟩ = .ok (.inr ⟨dlData, off, calls⟩) := by
  rw [dlDataParseRound, if_neg (by simpa using hlt), hheader, ok_bind]
  simp only
  rw [hlocate]
  rfl

/-- The loop leaves when the frame and its copy are longer than the block. -/
lemma dlDataParseRound_of_tooLong {off cmdHeader subData len : ℕ} {dlData' dlData'' : List UInt8}
    {calls : List HandlerCall} (hlt : off < dlData.length)
    (hheader : checkCmdHeader crc32 dlData off = .ok (some (cmdHeader, dlData')))
    (hlocate : locateSubData crc32 dlData' off cmdHeader = .ok (some (subData, dlData'', len)))
    (hlen : dlData''.length < len) :
    dlDataParseRound crc32 ⟨dlData, off, calls⟩ = .ok (.inr ⟨dlData, off, calls⟩) := by
  rw [dlDataParseRound, if_neg (by simpa using hlt), hheader, ok_bind]
  simp only
  rw [hlocate, ok_bind]
  simp only
  rw [dispatch, if_pos hlen]

/-- The loop leaves at the end of the block. -/
lemma dlDataParseRound_of_end {st : ParseState} (h : st.dlData.length ≤ st.subDataOffset) :
    dlDataParseRound crc32 st = .ok (.inr st) :=
  if_pos h

end Parse

end WiotaAp
