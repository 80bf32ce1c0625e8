import WiotaAp.Foundation.Memory
import WiotaAp.Foundation.Traced
import WiotaAp.SpiCom.DlBatch

/-!
# The handlers of the gateway's commands

The parse loop hands a pointer to a command to `uc_wiota_handle_setup_msg`,
`uc_wiota_handle_send_msg` or `uc_wiota_handle_other_msg`.  They lay a structure over the bytes
behind the pointer, read its fields and pass them on to the functions of the radio library, some of
them with a range of bytes whose length is a field as well.

A handler is a traced computation over the memory: the block of the batch, and whatever lies around
it.  Its events are the fields that it reads, the calls with the ranges that are passed, and the
answers to the gateway.  None of the handlers looks at the length in the header of the command.
`gateway_command_confined_iff` says which commands stay among their own bytes: those that are as
long as their fields say.
-/

namespace WiotaAp

open Buffers

/-! ### Events -/

/-- The functions `uc_wiota_*` of the radio library that the handlers call. -/
inductive WiotaFunction
  | setActiveTime | getSystemConfig | setSystemConfig | setApTxPower | setFreqInfo
  | setMaxNumOfActiveIote | setDataRate | setBroadcastMcs | setCrc | logSwitch | setDefaultDfe
  | setFrameBoundaryAlignFunc | setPagingTxCfg | setBroadcastFnCycle | setBroadcastSendRound
  | setTimeServiceFunc | setTimeServiceCycle | set1588ProtocolRtc | setSyncAssistantPps
  | setSingleTone | setUlSubframeMode | setSubframeModeCfg | setSmResendTimes | setPagingRxCfg
  | setAagcIdx | setBnackFunc | setOtaLastSubframeIdle | setDlRfMode | pagingRxEnter | setAfhFunc
  | setPwmCtrlPa | setRampPower
  | sendDataOrder | sendMulticastData | sendBroadcastData | scanFreq | readTemperature
  | syncPaging | recvSendSmByFn
  | addIoteToBlacklist | removeIoteFromBlacklist | setMulticastId | delMulticastId | getBlacklist
  | getVersion | addDlSubframeData | getModuleId | setAfhMap | setRampPowerCfg
  deriving DecidableEq, Repr

/-- A range of bytes: its address and its length. -/
structure ByteRange where
  start : ℕ
  len : ℕ
  deriving DecidableEq, Repr

/-- A call of the radio library: the values that are passed, as they are read, and the range of
bytes that is passed, if there is one. -/
structure WiotaCall where
  function : WiotaFunction
  args : List ℕ
  range : Option ByteRange
  deriving DecidableEq, Repr

/-- The answers to the gateway: `wiota_cmd_exec_result`, the results of a blocking request, and the
replies to a query. -/
inductive GatewayAnswer
  | execResult (cmdType : ℕ) (cmd : Fin 64)
  | sendResult (userId dataId : ℕ) (cmd : Fin 64)
  | scanResult
  | tempResult
  | pagingResult (userId : ℕ)
  | blacklist (cmd : Fin 64)
  | version (cmd : Fin 64)
  | moduleId (cmd : Fin 64)
  deriving DecidableEq, Repr

/-- What a handler does. -/
inductive HandlerEvent
  | read (range : ByteRange)
  | call (call : WiotaCall)
  | answer (answer : GatewayAnswer)
  deriving DecidableEq, Repr

/-- The bytes that an event reads or passes on. -/
def HandlerEvent.range? : HandlerEvent → Option ByteRange
  | .read range => some range
  | .call c => c.range
  | .answer _ => none

/-- A handler that has returned, with its events. -/
abbrev HandlerTrace := Traced HandlerEvent

/-- Call a function of the radio library without a range. -/
def wiotaCall (function : WiotaFunction) (args : List ℕ) : HandlerTrace Unit :=
  .emit (.call ⟨function, args, none⟩)

/-- Call a function of the radio library with a range. -/
def wiotaCallRange (function : WiotaFunction) (args : List ℕ) (start len : ℕ) : HandlerTrace Unit :=
  .emit (.call ⟨function, args, some ⟨start, len⟩⟩)

/-- Answer the gateway. -/
def answerGateway (answer : GatewayAnswer) : HandlerTrace Unit :=
  .emit (.answer answer)

section Handlers

variable (mem : ℕ → UInt8) (subData : ℕ)

/-- The bit fields `cmd_header.cmd_type` and `cmd_header.cmd`, in the first two bytes of the
header. -/
def readCmdFields : HandlerTrace (Fin 8 × Fin 64) :=
  let cmdHeader := CmdHeader.ofBytes (readRange mem subData 2)
  ⟨(cmdHeader.cmdType, cmdHeader.cmd), [.read ⟨subData, 2⟩]⟩

/-- A field of `len` bytes at the offset `off` behind the header. -/
def readMsgField (off len : ℕ) : HandlerTrace ℕ :=
  ⟨leValue (readRange mem (subData + cmdHeaderSize + off) len),
    [.read ⟨subData + cmdHeaderSize + off, len⟩]⟩

/-! ### Setup commands -/

/-- The first `num` values of `in_value`. -/
def readInValue : ℕ → HandlerTrace (List ℕ)
  | 0 => pure []
  | num + 1 => do
    let values ← readInValue num
    let value ← readMsgField mem subData (4 * num) 4
    return values ++ [value]

/-- The `switch` of `uc_wiota_handle_setup_msg`: the function that is called, and the number of
values of `in_value` that are read for it. -/
def setupFunction (cmd : Fin 64) : Option (WiotaFunction × ℕ) :=
  match cmd with
  | 0 => some (.setActiveTime, 1)
  | 1 => some (.setSystemConfig, 12)
  | 2 => some (.setApTxPower, 1)
  | 3 => some (.setFreqInfo, 1)
  -- `WIOTA_HOPPING_FREQ_SET` and `WIOTA_HOPPING_MODE_SET` do nothing
  | 6 => some (.setMaxNumOfActiveIote, 1)
  | 7 => some (.setDataRate, 2)
  | 8 => some (.setBroadcastMcs, 1)
  | 9 => some (.setCrc, 1)
  | 10 => some (.logSwitch, 2)
  | 11 => some (.setDefaultDfe, 1)
  | 12 => some (.setFrameBoundaryAlignFunc, 1)
  | 13 => some (.setPagingTxCfg, 7)
  | 14 => some (.setBroadcastFnCycle, 1)
  | 15 => some (.setBroadcastSendRound, 1)
  | 16 => some (.setTimeServiceFunc, 2)
  | 17 => some (.setTimeServiceCycle, 1)
  | 18 => some (.set1588ProtocolRtc, 2)
  | 19 => some (.setSyncAssistantPps, 1)
  | 20 => some (.setSingleTone, 1)
  | 21 => some (.setUlSubframeMode, 3)
  | 22 => some (.setSubframeModeCfg, 4)
  | 23 => some (.setSmResendTimes, 1)
  | 24 => some (.setPagingRxCfg, 14)
  | 25 => some (.setAagcIdx, 1)
  | 26 => some (.setBnackFunc, 1)
  | 27 => some (.setOtaLastSubframeIdle, 1)
  | 28 => some (.setDlRfMode, 1)
  | 29 => some (.pagingRxEnter, 2)
  | 30 => some (.setAfhFunc, 1)
  | 31 => some (.setPwmCtrlPa, 2)
  | 32 => some (.setRampPower, 1)
  | _ => none

/-- `wiota_cmd_exec_result(setup_cmd->cmd_header.cmd_type, setup_cmd->cmd_header.cmd)`. -/
def setupExecResult : HandlerTrace Unit := do
  let (cmdType, cmd) ← readCmdFields mem subData
  answerGateway (.execResult cmdType cmd)

/-- What two of the cases do in front of the values: `WIOTA_CONFIG_SET` fetches the configuration
that it changes, and `WIOTA_PAGING_RX_ENTER` answers in advance. -/
def setupPrologue : WiotaFunction → HandlerTrace Unit
  | .setSystemConfig => wiotaCall .getSystemConfig []
  | .pagingRxEnter => setupExecResult mem subData
  | _ => pure ()

/-- One case of `uc_wiota_handle_setup_msg`. -/
def setupCase : Option (WiotaFunction × ℕ) → HandlerTrace Unit
  | none => pure ()
  | some (function, num) => do
    setupPrologue mem subData function
    let inValue ← readInValue mem subData num
    wiotaCall function inValue

/-- `uc_wiota_handle_setup_msg`. -/
def ucWiotaHandleSetupMsg : HandlerTrace Unit := do
  let (_, cmd) ← readCmdFields mem subData
  setupCase mem subData (setupFunction cmd)
  setupExecResult mem subData

/-! ### Send commands -/

/-- The call of the cases over `send_info_t`; the address passed for the data is that behind the
fields, and a callback is passed unless the request is a blocking one. -/
def sendInfoCall (cmd : Fin 64) (userId timeout isBlock dataId dataLen : ℕ) : HandlerTrace Unit :=
  match cmd with
  | 0 => do
    let orderBusiness ← readMsgField mem subData 12 1
    wiotaCallRange .sendDataOrder [userId, timeout, orderBusiness, isBlock, dataId]
      (subData + cmdHeaderSize + 16) dataLen
  | 2 =>
    wiotaCallRange .sendMulticastData [userId, timeout, isBlock, dataId]
      (subData + cmdHeaderSize + 16) dataLen
  | _ =>
    wiotaCallRange .sendBroadcastData [userId, timeout, isBlock, dataId]
      (subData + cmdHeaderSize + 16) dataLen

/-- An answer that a blocking request gives itself. -/
def answerIfBlock (isBlock : ℕ) (answer : GatewayAnswer) : HandlerTrace Unit :=
  if isBlock ≠ 0 then answerGateway answer else pure ()

/-- The cases `WIOTA_SEND_DATA`, `WIOTA_SEND_BC` and `WIOTA_SEND_MC`, over `send_info_t`. -/
def handleSendInfo (cmd : Fin 64) : HandlerTrace Unit := do
  let dataLen ← readMsgField mem subData 14 2
  let userId ← readMsgField mem subData 0 4
  let timeout ← readMsgField mem subData 4 4
  let isBlock ← readMsgField mem subData 13 1
  let dataId ← readMsgField mem subData 8 4
  sendInfoCall mem subData cmd userId timeout isBlock dataId dataLen
  answerIfBlock isBlock (.sendResult userId dataId cmd)

/-- The call of `WIOTA_SCAN_FREQ`, which passes no range without frequencies. -/
def scanFreqCall (freqNum : ℕ) (args : List ℕ) : HandlerTrace Unit :=
  if freqNum = 0 then wiotaCall .scanFreq args
  else wiotaCallRange .scanFreq args (subData + cmdHeaderSize + 8) freqNum

/-- The case `WIOTA_SCAN_FREQ`, over `scan_info_t`. -/
def handleScanInfo : HandlerTrace Unit := do
  let freqNum ← readMsgField mem subData 6 1
  let scanType ← readMsgField mem subData 7 1
  let timeout ← readMsgField mem subData 0 4
  let isBlock ← readMsgField mem subData 4 2
  scanFreqCall subData freqNum [scanType, timeout, isBlock]
  answerIfBlock isBlock .scanResult

/-- The case `WIOTA_TEMP_QUERY`, over `temp_info_t`. -/
def handleTempInfo : HandlerTrace Unit := do
  let isBlock ← readMsgField mem subData 4 4
  let timeout ← readMsgField mem subData 0 4
  wiotaCall .readTemperature [isBlock, timeout]
  answerIfBlock isBlock .tempResult

/-- The case `WIOTA_SYNC_PAGING`, over `paging_info_t`. -/
def handlePagingInfo : HandlerTrace Unit := do
  let userId ← readMsgField mem subData 0 4
  let fnIndex ← readMsgField mem subData 4 4
  let detectionPeriod ← readMsgField mem subData 8 4
  let sendRound ← readMsgField mem subData 12 2
  let continueFn ← readMsgField mem subData 14 2
  let isBlock ← readMsgField mem subData 16 4
  wiotaCall .syncPaging [userId, fnIndex, detectionPeriod, sendRound, continueFn, isBlock]
  answerIfBlock isBlock (.pagingResult userId)

/-- The data of the case `WIOTA_RECV_SM_BY_FN`, which is passed on only with frames to send it. -/
def recvSmData (args : List ℕ) (dataLen sendFns : ℕ) : HandlerTrace Unit :=
  if sendFns > 0 then do
    let dataId ← readMsgField mem subData 4 4
    wiotaCallRange .recvSendSmByFn (args ++ [sendFns, dataId])
      (subData + cmdHeaderSize + 16) dataLen
  else wiotaCall .recvSendSmByFn (args ++ [0, 0])

/-- The case `WIOTA_RECV_SM_BY_FN`, over `rs_sm_by_fn_ex_t`. -/
def handleRecvSm : HandlerTrace Unit := do
  let userId ← readMsgField mem subData 0 4
  let startRecvFn ← readMsgField mem subData 8 4
  let recvFns ← readMsgField mem subData 12 1
  let dataLen ← readMsgField mem subData 14 2
  if dataLen ≠ 0 then do
    let sendFns ← readMsgField mem subData 13 1
    recvSmData mem subData [userId, startRecvFn, recvFns] dataLen sendFns
  else wiotaCall .recvSendSmByFn [userId, startRecvFn, recvFns, 0, 0]

/-- `uc_wiota_handle_send_msg`. -/
def ucWiotaHandleSendMsg (cmd : Fin 64) : Except Fault (HandlerTrace Unit) :=
  match cmd with
  | 0 => .ok (handleSendInfo mem subData cmd)
  | 1 => .ok (handleSendInfo mem subData cmd)
  | 2 => .ok (handleSendInfo mem subData cmd)
  | 3 => .ok (handleScanInfo mem subData)
  | 4 => .ok (handleTempInfo mem subData)
  | 5 => .ok (handlePagingInfo mem subData)
  | 6 => .ok (handleRecvSm mem subData)
  | _ => .error .assertion

/-! ### Other commands -/

/-- `CMD_TYPE_OTHER`. -/
def cmdTypeOther : ℕ := 3

/-- The cases over `id_info_t`; `idNum` is the number of identifiers in the type of the parameter of
the function. -/
def handleIdInfo (function : WiotaFunction) (idNum : ℕ → ℕ) (cmd : Fin 64) : HandlerTrace Unit := do
  let num ← readMsgField mem subData 0 4
  wiotaCallRange function [idNum num] (subData + cmdHeaderSize + 4) (4 * idNum num)
  answerGateway (.execResult cmdTypeOther cmd)

/-- The case `WIOTA_ADD_DL_SUBF_DATA`, over `subf_data_ex_t`. -/
def handleSubfData : HandlerTrace Unit := do
  let dataLen ← readMsgField mem subData 2 1
  let fn ← readMsgField mem subData 3 1
  wiotaCallRange .addDlSubframeData [fn] (subData + cmdHeaderSize + 4) dataLen

/-- The number of entries of a table that an `int` stands for. -/
def rampEntries (rampSize : ℕ) : ℕ :=
  if rampSize < 2 ^ 31 then rampSize else 0

/-- The case `WIOTA_RAMP_POWER_CFG_SET`, over `ramp_power_cfg_ex_t`: the size stands behind a table
of 34 entries of 16 bytes, and the call takes it as the number of entries. -/
def handleRampPower (cmd : Fin 64) : HandlerTrace Unit := do
  let rampSize ← readMsgField mem subData 544 4
  wiotaCallRange .setRampPowerCfg [rampSize] (subData + cmdHeaderSize) (16 * rampEntries rampSize)
  answerGateway (.execResult cmdTypeOther cmd)

/-- `uc_wiota_handle_other_msg`. -/
def ucWiotaHandleOtherMsg (cmd : Fin 64) : HandlerTrace Unit :=
  match cmd with
  | 0 => handleIdInfo mem subData .addIoteToBlacklist (· % 2 ^ 16) cmd
  | 1 => handleIdInfo mem subData .removeIoteFromBlacklist (· % 2 ^ 16) cmd
  | 2 => do
    wiotaCall .getBlacklist []
    answerGateway (.blacklist cmd)
  | 3 => handleIdInfo mem subData .setMulticastId id cmd
  | 4 => handleIdInfo mem subData .delMulticastId id cmd
  | 5 => do
    wiotaCall .getVersion []
    answerGateway (.version cmd)
  | 6 => handleSubfData mem subData
  | 7 => do
    wiotaCall .getModuleId []
    answerGateway (.moduleId cmd)
  | 8 => do
    wiotaCallRange .setAfhMap [] (subData + cmdHeaderSize) 26
    answerGateway (.execResult cmdTypeOther cmd)
  | 9 => handleRampPower mem subData cmd
  | _ => pure ()

end Handlers

/-! ### Which bytes are used -/

/-- Every byte that the event reads or passes on is one of the header or of the `dataLen` bytes
behind it. -/
def HandlerEvent.Confined (subData dataLen : ℕ) (e : HandlerEvent) : Prop :=
  ∀ range ∈ e.range?, ∀ addr, range.start ≤ addr → addr < range.start + range.len →
    subData ≤ addr ∧ addr < subData + cmdHeaderSize + dataLen

section Confined

variable {mem : ℕ → UInt8} {subData dataLen : ℕ}

/-- An event with a range is confined if the range is empty or lies in the command. -/
lemma HandlerEvent.confined_iff {e : HandlerEvent} {start len : ℕ}
    (he : e.range? = some ⟨start, len⟩) :
    e.Confined subData dataLen ↔
      len = 0 ∨ (subData ≤ start ∧ start + len ≤ subData + cmdHeaderSize + dataLen) := by
  constructor
  · intro h
    by_cases hzero : len = 0
    · exact .inl hzero
    · have hbytes : ∀ addr, start ≤ addr → addr < start + len →
          subData ≤ addr ∧ addr < subData + cmdHeaderSize + dataLen := h ⟨start, len⟩ he
      have hfirst := hbytes start le_rfl (by omega)
      have hlast := hbytes (start + len - 1) (by omega) (by omega)
      exact .inr ⟨hfirst.1, by omega⟩
  · intro h range hrange addr hle hlt
    cases Option.some.inj (he.symm.trans hrange)
    dsimp only at hle hlt
    omega

/-- An event without a range is confined. -/
lemma HandlerEvent.confined_of_none {e : HandlerEvent} (he : e.range? = none) :
    e.Confined subData dataLen := by
  intro range hrange
  cases he.symm.trans hrange

/-- A call without a range uses no bytes. -/
@[simp] lemma all_wiotaCall (function : WiotaFunction) (args : List ℕ) :
    (wiotaCall function args).All (HandlerEvent.Confined subData dataLen) :=
  (Traced.all_emit _ _).mpr (HandlerEvent.confined_of_none rfl)

/-- An answer uses no bytes. -/
@[simp] lemma all_answerGateway (answer : GatewayAnswer) :
    (answerGateway answer).All (HandlerEvent.Confined subData dataLen) :=
  (Traced.all_emit _ _).mpr (HandlerEvent.confined_of_none rfl)

/-- An answer of a blocking request uses no bytes. -/
@[simp] lemma all_answerIfBlock (isBlock : ℕ) (answer : GatewayAnswer) :
    (answerIfBlock isBlock answer).All (HandlerEvent.Confined subData dataLen) := by
  rw [answerIfBlock]
  split
  · exact all_answerGateway answer
  · exact Traced.all_pure _ ()

/-- A range behind the header that is passed on. -/
@[simp] lemma all_wiotaCallRange (function : WiotaFunction) (args : List ℕ) (off len : ℕ) :
    (wiotaCallRange function args (subData + cmdHeaderSize + off) len).All
        (HandlerEvent.Confined subData dataLen) ↔ len = 0 ∨ off + len ≤ dataLen := by
  rw [wiotaCallRange, Traced.all_emit, HandlerEvent.confined_iff rfl]
  omega

/-- A range that begins behind the header. -/
@[simp] lemma all_wiotaCallRange_zero (function : WiotaFunction) (args : List ℕ) (len : ℕ) :
    (wiotaCallRange function args (subData + cmdHeaderSize) len).All
        (HandlerEvent.Confined subData dataLen) ↔ len = 0 ∨ len ≤ dataLen := by
  rw [wiotaCallRange, Traced.all_emit, HandlerEvent.confined_iff rfl]
  omega

/-- A field behind the header. -/
@[simp] lemma all_readMsgField (off len : ℕ) :
    (readMsgField mem subData off len).All (HandlerEvent.Confined subData dataLen) ↔
      len = 0 ∨ off + len ≤ dataLen := by
  rw [readMsgField, Traced.All, List.forall_mem_singleton, HandlerEvent.confined_iff rfl]
  omega

/-- The bit fields are in the header. -/
@[simp] lemma all_readCmdFields :
    (readCmdFields mem subData).All (HandlerEvent.Confined subData dataLen) := by
  rw [readCmdFields, Traced.All, List.forall_mem_singleton, HandlerEvent.confined_iff rfl]
  refine .inr ⟨le_rfl, ?_⟩
  rw [cmdHeaderSize]
  omega

/-! ### The length that a command needs -/

/-- A field of the data of a command. -/
def dataField (data : List UInt8) (off len : ℕ) : ℕ :=
  leValue (slice data off len)

/-- The length that a setup command needs: its values. -/
def setupNeeded (cmd : Fin 64) : ℕ :=
  match setupFunction cmd with
  | none => 0
  | some (_, num) => 4 * num

/-- The length that a send command needs: its fields, and the bytes that it says follow them. -/
def sendNeeded (cmd : Fin 64) (data : List UInt8) : ℕ :=
  match cmd with
  | 0 => 16 + dataField data 14 2
  | 1 => 16 + dataField data 14 2
  | 2 => 16 + dataField data 14 2
  | 3 => 8 + dataField data 6 1
  | 4 => 8
  | 5 => 20
  | 6 => 16 + if dataField data 13 1 = 0 then 0 else dataField data 14 2
  | _ => 0

/-- The length that one of the other commands needs. -/
def otherNeeded (cmd : Fin 64) (data : List UInt8) : ℕ :=
  match cmd with
  | 0 => 4 + 4 * (dataField data 0 4 % 2 ^ 16)
  | 1 => 4 + 4 * (dataField data 0 4 % 2 ^ 16)
  | 3 => 4 + 4 * dataField data 0 4
  | 4 => 4 + 4 * dataField data 0 4
  | 6 => 4 + dataField data 2 1
  | 8 => 26
  | 9 => max 548 (16 * rampEntries (dataField data 544 4))
  | _ => 0

section Needed

variable {data : List UInt8} (hdata : readRange mem (subData + cmdHeaderSize) data.length = data)
include hdata

/-- A field inside the data is read from the data. -/
lemma readMsgField_value {off len : ℕ} (h : off + len ≤ data.length) :
    (readMsgField mem subData off len).value = dataField data off len := by
  have hslice := @slice_readRange _ mem (subData + cmdHeaderSize) _ _ _ h
  rw [hdata] at hslice
  exact congrArg leValue hslice.symm

/-- The cases over `send_info_t`. -/
lemma handleSendInfo_confined_iff (cmd : Fin 64) :
    (handleSendInfo mem subData cmd).All (HandlerEvent.Confined subData data.length) ↔
      16 + dataField data 14 2 ≤ data.length := by
  have hlen : 14 + 2 ≤ data.length → _ := readMsgField_value hdata
  unfold handleSendInfo sendInfoCall
  split
  all_goals
    simp only [Traced.all_bind, all_readMsgField, all_wiotaCallRange, all_answerIfBlock, and_true]
    omega

/-- The case over `scan_info_t`. -/
lemma handleScanInfo_confined_iff :
    (handleScanInfo mem subData).All (HandlerEvent.Confined subData data.length) ↔
      8 + dataField data 6 1 ≤ data.length := by
  have hnum : 6 + 1 ≤ data.length → _ := readMsgField_value hdata
  have hcall : ∀ freqNum args, (scanFreqCall subData freqNum args).All
      (HandlerEvent.Confined subData data.length) ↔ freqNum = 0 ∨ 8 + freqNum ≤ data.length := by
    intro freqNum args
    unfold scanFreqCall
    split
    · next hzero => exact iff_of_true (all_wiotaCall _ _) (.inl hzero)
    · exact all_wiotaCallRange _ _ 8 freqNum
  unfold handleScanInfo
  simp only [Traced.all_bind, all_readMsgField, hcall, all_answerIfBlock, and_true]
  omega

omit hdata in
/-- The case over `temp_info_t`. -/
lemma handleTempInfo_confined_iff :
    (handleTempInfo mem subData).All (HandlerEvent.Confined subData dataLen) ↔ 8 ≤ dataLen := by
  unfold handleTempInfo
  simp only [Traced.all_bind, all_readMsgField, all_wiotaCall, all_answerIfBlock, and_true]
  omega

omit hdata in
/-- The case over `paging_info_t`. -/
lemma handlePagingInfo_confined_iff :
    (handlePagingInfo mem subData).All (HandlerEvent.Confined subData dataLen) ↔ 20 ≤ dataLen := by
  unfold handlePagingInfo
  simp only [Traced.all_bind, all_readMsgField, all_wiotaCall, all_answerIfBlock, and_true]
  omega

/-- The case over `rs_sm_by_fn_ex_t`. -/
lemma handleRecvSm_confined_iff :
    (handleRecvSm mem subData).All (HandlerEvent.Confined subData data.length) ↔
      16 + (if dataField data 13 1 = 0 then 0 else dataField data 14 2) ≤ data.length := by
  have hlen : 14 + 2 ≤ data.length → _ := readMsgField_value hdata
  have hfns : 13 + 1 ≤ data.length → _ := readMsgField_value hdata
  unfold handleRecvSm recvSmData
  simp only [Traced.all_bind, all_readMsgField]
  split
  · simp only [Traced.all_bind, all_readMsgField]
    split
    · simp only [Traced.all_bind, all_readMsgField, all_wiotaCallRange]
      split <;> omega
    · simp only [all_wiotaCall, and_true]
      split <;> omega
  · simp only [all_wiotaCall, and_true]
    split <;> omega

/-- The cases over `id_info_t`. -/
lemma handleIdInfo_confined_iff (function : WiotaFunction) (idNum : ℕ → ℕ) (cmd : Fin 64) :
    (handleIdInfo mem subData function idNum cmd).All
        (HandlerEvent.Confined subData data.length) ↔
      4 + 4 * idNum (dataField data 0 4) ≤ data.length := by
  by_cases hlen : 0 + 4 ≤ data.length
  · unfold handleIdInfo
    simp only [Traced.all_bind, all_readMsgField, all_wiotaCallRange, all_answerGateway,
      readMsgField_value hdata hlen, and_true]
    omega
  · unfold handleIdInfo
    simp only [Traced.all_bind, all_readMsgField]
    omega

/-- The case over `subf_data_ex_t`. -/
lemma handleSubfData_confined_iff :
    (handleSubfData mem subData).All (HandlerEvent.Confined subData data.length) ↔
      4 + dataField data 2 1 ≤ data.length := by
  have hlen : 2 + 1 ≤ data.length → _ := readMsgField_value hdata
  unfold handleSubfData
  simp only [Traced.all_bind, all_readMsgField, all_wiotaCallRange]
  omega

/-- The case over `ramp_power_cfg_ex_t`. -/
lemma handleRampPower_confined_iff (cmd : Fin 64) :
    (handleRampPower mem subData cmd).All (HandlerEvent.Confined subData data.length) ↔
      max 548 (16 * rampEntries (dataField data 544 4)) ≤ data.length := by
  by_cases hlen : 544 + 4 ≤ data.length
  · unfold handleRampPower
    simp only [Traced.all_bind, all_readMsgField, all_wiotaCallRange_zero, all_answerGateway,
      readMsgField_value hdata hlen, and_true]
    omega
  · unfold handleRampPower
    simp only [Traced.all_bind, all_readMsgField]
    omega

omit hdata in
/-- The values of a setup command. -/
lemma readInValue_confined_iff (num : ℕ) :
    (readInValue mem subData num).All (HandlerEvent.Confined subData dataLen) ↔
      4 * num ≤ dataLen := by
  induction num with
  | zero => simp [readInValue]
  | succ num ih =>
    simp only [readInValue, Traced.all_bind, ih, all_readMsgField, Traced.all_pure, and_true]
    omega

omit hdata in
/-- The answer to a setup command reads the header. -/
lemma all_setupExecResult :
    (setupExecResult mem subData).All (HandlerEvent.Confined subData dataLen) := by
  unfold setupExecResult
  rw [Traced.all_bind]
  exact ⟨all_readCmdFields, all_answerGateway _⟩

omit hdata in
/-- `uc_wiota_handle_setup_msg`. -/
lemma ucWiotaHandleSetupMsg_confined_iff :
    (ucWiotaHandleSetupMsg mem subData).All (HandlerEvent.Confined subData dataLen) ↔
      setupNeeded (readCmdFields mem subData).value.2 ≤ dataLen := by
  have hprologue : ∀ function, (setupPrologue mem subData function).All
      (HandlerEvent.Confined subData dataLen) := by
    intro function
    unfold setupPrologue
    split
    · exact all_wiotaCall _ _
    · exact all_setupExecResult
    · exact Traced.all_pure _ ()
  unfold ucWiotaHandleSetupMsg setupNeeded setupCase
  simp only [Traced.all_bind, all_readCmdFields, all_setupExecResult, true_and, and_true]
  split
  · exact iff_of_true (Traced.all_pure _ ()) (Nat.zero_le _)
  · simp only [Traced.all_bind, hprologue, readInValue_confined_iff, all_wiotaCall, true_and,
      and_true]

/-- `uc_wiota_handle_send_msg`. -/
lemma ucWiotaHandleSendMsg_confined_iff {cmd : Fin 64} {trace : HandlerTrace Unit}
    (h : ucWiotaHandleSendMsg mem subData cmd = .ok trace) :
    trace.All (HandlerEvent.Confined subData data.length) ↔ sendNeeded cmd data ≤ data.length := by
  unfold ucWiotaHandleSendMsg at h
  unfold sendNeeded
  split at h <;> cases h
  · exact handleSendInfo_confined_iff hdata 0
  · exact handleSendInfo_confined_iff hdata 1
  · exact handleSendInfo_confined_iff hdata 2
  · exact handleScanInfo_confined_iff hdata
  · exact handleTempInfo_confined_iff
  · exact handlePagingInfo_confined_iff
  · exact handleRecvSm_confined_iff hdata

/-- `uc_wiota_handle_other_msg`. -/
lemma ucWiotaHandleOtherMsg_confined_iff (cmd : Fin 64) :
    (ucWiotaHandleOtherMsg mem subData cmd).All (HandlerEvent.Confined subData data.length) ↔
      otherNeeded cmd data ≤ data.length := by
  unfold ucWiotaHandleOtherMsg otherNeeded
  split
  · exact handleIdInfo_confined_iff hdata _ _ _
  · exact handleIdInfo_confined_iff hdata _ _ _
  · simp
  · exact handleIdInfo_confined_iff hdata _ _ _
  · exact handleIdInfo_confined_iff hdata _ _ _
  · simp
  · exact handleSubfData_confined_iff hdata
  · simp
  · simp
  · exact handleRampPower_confined_iff hdata _
  · refine iff_of_true (Traced.all_pure _ ()) ?_
    split <;> simp_all

end Needed

end Confined

/-! ### The commands of a batch -/

/-- The memory in which a handler runs: the block of the batch, and anything behind it. -/
def HandlerCall.memory (call : HandlerCall) (heap : ℕ → UInt8) : ℕ → UInt8 :=
  writeRange heap 0 call.dlData

/-- What the handlers of setup, send and other commands do.  A send command with an unknown number
fails an assertion and does nothing. -/
inductive HandlerRun (mem : ℕ → UInt8) (subData : ℕ) : Handler → HandlerTrace Unit → Prop
  | setup : HandlerRun mem subData .setup (ucWiotaHandleSetupMsg mem subData)
  | send {cmd : Fin 64} {trace : HandlerTrace Unit}
      (h : ucWiotaHandleSendMsg mem subData cmd = .ok trace) :
      HandlerRun mem subData (.send cmd) trace
  | other {cmd : Fin 64} :
      HandlerRun mem subData (.other cmd) (ucWiotaHandleOtherMsg mem subData cmd)

/-- The length of the data that a command needs. -/
def Command.needed (c : Command) : ℕ :=
  match c.handler? with
  | some .setup => setupNeeded c.cmd
  | some (.send cmd) => sendNeeded cmd c.data
  | some (.other cmd) => otherNeeded cmd c.data
  | _ => 0

section Batch

variable {crc32 : List UInt8 → UInt32} {c : Command} {call : HandlerCall}

/-- The window of a block in the memory. -/
lemma HandlerCall.readRange_memory (call : HandlerCall) (heap : ℕ → UInt8) {off : ℕ}
    {bytes : List UInt8} (h : slice call.dlData off bytes.length = bytes) :
    readRange (call.memory heap) off bytes.length = bytes := by
  by_cases hbytes : bytes = []
  · subst hbytes
    rfl
  · have hpos := List.length_pos_iff.mpr hbytes
    have hlen := congrArg List.length h
    simp only [slice, List.length_take, List.length_drop] at hlen
    rw [HandlerCall.memory, readRange_block heap (by omega), h]

/-- The number in the header that a handler reads is that of the command. -/
lemma HandedOver.readCmdFields_eq (h : HandedOver crc32 c call) (heap : ℕ → UInt8) :
    (readCmdFields (call.memory heap) call.subData).value = (c.cmdType, c.cmd) := by
  have hheader := call.readRange_memory heap
    (show slice call.dlData call.subData (c.header crc32).toBytes.length = _ by
      rw [CmdHeader.length_toBytes]; exact h.header)
  rw [CmdHeader.length_toBytes] at hheader
  have hflags := @slice_readRange _ (call.memory heap) call.subData 8 0 2 (by decide)
  have hself := @slice_readRange _ (call.memory heap) call.subData 2 0 2 (by decide)
  rw [hheader, Nat.add_zero] at hflags
  rw [Nat.add_zero] at hself
  have hback := (c.header crc32).ofBytes_toBytes
  simp only [CmdHeader.ofBytes, hflags] at hback
  simp only [readCmdFields, CmdHeader.ofBytes, hself]
  exact Prod.ext (congrArg CmdHeader.cmdType hback) (congrArg CmdHeader.cmd hback)

/-- A command stays among its own bytes exactly if its data is as long as its fields say. -/
theorem gateway_command_confined_iff (h : HandedOver crc32 c call) (heap : ℕ → UInt8)
    {trace : HandlerTrace Unit}
    (hrun : HandlerRun (call.memory heap) call.subData call.handler trace) :
    trace.All (HandlerEvent.Confined call.subData c.data.length) ↔ c.needed ≤ c.data.length := by
  have hdata := call.readRange_memory heap h.data
  have hneeded := h.handler
  unfold Command.needed
  generalize call.handler = handler at hrun hneeded
  cases hrun with
  | setup =>
    rw [ucWiotaHandleSetupMsg_confined_iff, h.readCmdFields_eq heap, hneeded]
  | send hsend =>
    rw [ucWiotaHandleSendMsg_confined_iff hdata hsend, hneeded]
  | other =>
    rw [ucWiotaHandleOtherMsg_confined_iff hdata, hneeded]

end Batch

/-- A broadcast of two bytes. -/
def fittingBroadcast : Command :=
  Command.ofData 4 1 (List.replicate 14 0 ++ leBytes 2 2 ++ [0xA1, 0xA2]) (by decide)

/-- The broadcast of two bytes, alone in its batch, stays among its bytes. -/
theorem gateway_command_confined_iff_fitting :
    ∃ trace, HandlerRun (writeRange (fun _ => 0xFF) 0 (batchBytes byteSum [fittingBroadcast])) 0
        (.send 1) trace ∧
      trace.All (HandlerEvent.Confined 0 18) := by
  have hover : HandedOver byteSum fittingBroadcast
      ⟨.send 1, 0, batchBytes byteSum [fittingBroadcast]⟩ :=
    .of_frame rfl (by decide +kernel)
  refine ⟨_, .send rfl, ?_⟩
  exact (gateway_command_confined_iff hover (fun _ => 0xFF) (.send rfl)).mpr (by decide +kernel)

/-- A broadcast that says 44 bytes follow its fields, where there are none. -/
def overlongBroadcast : Command :=
  Command.ofData 4 1 (List.replicate 14 0 ++ leBytes 2 44) (by decide)

/-- A message for one device. -/
def directMessage : Command :=
  Command.ofData 4 0 (leBytes 4 0x1234 ++ List.replicate 10 0 ++ leBytes 2 2 ++ [0xB1, 0xB2])
    (by decide)

/-- A batch of the two: the parser calls the handlers of both, and the first one broadcasts the
44 bytes behind its fields, which go up to the first fields of the second command. -/
theorem gateway_command_leaks :
    (dlDataParseLoop byteSum 3 (batchBytes byteSum [overlongBroadcast, directMessage])).map
        (fun st => st.calls.map fun call => (call.handler, call.subData)) =
      .done [(.send 1, 0), (.send 0, 56)] ∧
    ∃ trace, HandlerRun (writeRange (fun _ => 0xFF) 0
          (batchBytes byteSum [overlongBroadcast, directMessage])) 0 (.send 1) trace ∧
      HandlerEvent.call ⟨.sendBroadcastData, [0, 0, 0, 0], some ⟨24, 44⟩⟩ ∈ trace.events ∧
      readRange (writeRange (fun _ => 0xFF) 0
          (batchBytes byteSum [overlongBroadcast, directMessage])) 24 44 =
        (batchBytes byteSum [overlongBroadcast]).drop 24 ++
          (directMessage.frame byteSum).take 12 ∧
      ¬ trace.All (HandlerEvent.Confined 0 overlongBroadcast.data.length) := by
  refine ⟨by decide +kernel, _, .send rfl, by decide +kernel, by decide +kernel, ?_⟩
  intro hall
  have hcall := hall (.call ⟨.sendBroadcastData, [0, 0, 0, 0], some ⟨24, 44⟩⟩)
    (by decide +kernel) _ rfl 56 (by decide) (by decide)
  exact absurd hcall.2 (by decide)

end WiotaAp
