import WiotaAp.Codec.CJsonPrint
import WiotaAp.Manager.NetMessager
import WiotaAp.Manager.ResendFlag
import WiotaAp.SpiCom.Ringbuffer

/-!
# Updates over the air

`manager_update.c` takes an update message of the server, has the image downloaded, and then
broadcasts the image in chunks of 512 bytes, one after the end of the other.  Devices that have
missed chunks ask for them when the broadcast is over, and are sent those that are flagged.

The functions work on the record `manager_update_parment`.  What they pass to the operation task and
to the downloader is returned.  `managerStartSendPage_cases` and `managerResendData_cases` say what
the two functions that hand out chunks do.
-/

namespace WiotaAp

open Buffers

/-! ### The data -/

/-- `UC_OTA_PARTITION_START_ADDRESS`. -/
def ucOtaPartitionStartAddress : UInt32 := 1016 * 1024

/-- The part of `t_manager_update_info` that is used here.  A text that has never been set is a null
pointer. -/
structure ManagerUpdateInfo where
  activeState : Int32
  ioteId : List UInt32
  newVersion : Option (List UInt8)
  oldVersion : Option (List UInt8)
  devType : Option (List UInt8)
  updateType : Int32
  range : Int32
  fileName : Option (List UInt8)
  fileLen : Int32
  md5 : Option (List UInt8)
  address : Option (List UInt8)
  deriving DecidableEq, Repr

/-- `t_manager_update`. -/
structure ManagerUpdate where
  state : ManagerUpdateState
  otaOpAddress : UInt32
  info : ManagerUpdateInfo
  subFlagNum : ℤ
  remSubFlag : List UInt8
  deriving DecidableEq, Repr

/-- The information `{0}`. -/
def ManagerUpdateInfo.zero : ManagerUpdateInfo :=
  ⟨0, [], none, none, none, 0, 0, none, 0, none, none⟩

/-- `manager_update_parment` at the start. -/
def ManagerUpdate.init : ManagerUpdate :=
  ⟨.default, 0, .zero, 0, []⟩

/-- The object that describes a chunk. -/
structure OtaDescription where
  state : Int32
  range : Int32
  size : Int32
  md5 : Option (List UInt8)
  devList : Option (List UInt32)
  newVersion : Option (List UInt8)
  oldVersion : Option (List UInt8)
  devType : Option (List UInt8)
  offset : UInt32
  len : ℕ
  deriving DecidableEq, Repr

/-- The object as `manager_ota_msg_of_data` puts it together; `number` is `cJSON_CreateNumber`. -/
def OtaDescription.item {D : Type} (number : ℤ → JsonItem D) (description : OtaDescription) :
    JsonItem D :=
  .object <| .ofList <|
    [namedItem "state" (number description.state.toInt),
      namedItem "range" (number description.range.toInt),
      namedItem "size" (number description.size.toInt)] ++
    namedText "md5" description.md5 ++
    (description.devList.map fun devList => namedItem "dev_list"
      (.array (.ofList (devList.map fun id => (none, number id.toNat))))).toList ++
    namedText "new_version" description.newVersion ++
    namedText "old_version" description.oldVersion ++
    namedText "dev_type" description.devType ++
    [namedItem "info" (.object (.ofList
      [namedItem "offset" (number description.offset.toNat),
        namedItem "len" (number description.len)]))]

/-- The object that describes the state of the update. -/
structure OtaStateDescription where
  state : Int32
  range : Int32
  newVersion : Option (List UInt8)
  oldVersion : Option (List UInt8)
  devType : Option (List UInt8)
  otaState : ℕ
  deriving DecidableEq, Repr

/-- The object as `manager_ota_state_msg` puts it together. -/
def OtaStateDescription.item {D : Type} (number : ℤ → JsonItem D)
    (description : OtaStateDescription) : JsonItem D :=
  .object <| .ofList <|
    [namedItem "state" (number description.state.toInt),
      namedItem "range" (number description.range.toInt)] ++
    namedText "new_version" description.newVersion ++
    namedText "old_version" description.oldVersion ++
    namedText "dev_type" description.devType ++
    [namedItem "ota_state" (number description.otaState)]

/-- The object in an update message of the server: a field is `none` if it is missing or has another
type.  Of `update_type`, `size` and `access` the type is not looked at: they are the `valueint` of
an item of any type, and `none` only if it is missing.  `accessInfo` are the fields `access` and
`url`. -/
structure NetworkOtaJson where
  state : Option Int32
  range : Option Int32
  newVersion : Option (List UInt8)
  oldVersion : Option (List UInt8)
  devType : Option (List UInt8)
  updateType : Option Int32
  file : Option (List UInt8)
  size : Option Int32
  md5 : Option (List UInt8)
  accessInfo : Option (Option Int32 × Option (List UInt8))
  deriving DecidableEq, Repr

/-- The object in the request of a device, likewise; `dataInfo` are the fields `offset` and `len` of
the elements of the array. -/
structure IoteResendJson where
  devType : Option (List UInt8)
  oldVersion : Option (List UInt8)
  newVersion : Option (List UInt8)
  updateType : Option Int32
  dataInfo : Option (List (Option Int32 × Option Int32))
  deriving DecidableEq, Repr

/-- What the functions use from the rest of the system: `cJSON_Print` and `cJSON_Parse`, the flash,
the compression library and `manager_query_wiotaid`.  Allocations succeed. -/
structure UpdateEnv where
  print : OtaDescription → List UInt8
  printState : OtaStateDescription → List UInt8
  parseResend : Option (List UInt8) → Option IoteResendJson
  flash : UInt32 → UInt8
  compress : List UInt8 → Option (List UInt8)
  queryWiotaid : UInt32 → UInt32

/-- A chunk as it is handed out: its description and its bytes. -/
structure OtaData where
  description : OtaDescription
  bin : List UInt8
  deriving DecidableEq, Repr

/-! ### Chunks -/

/-- `manager_update_parment.ota_op_address - UC_OTA_PARTITION_START_ADDRESS`. -/
def ManagerUpdate.offset (u : ManagerUpdate) : UInt32 :=
  u.otaOpAddress - ucOtaPartitionStartAddress

/-- The length of the chunk at the current address; there is none behind the end of the file.  The
length of the file is converted to an unsigned number. -/
def ManagerUpdate.chunkLen (u : ManagerUpdate) : Option ℕ :=
  if u.offset + 512 > u.info.fileLen.toUInt32 ∧ u.offset < u.info.fileLen.toUInt32 then
    some (rtAlign (u.info.fileLen.toUInt32 - u.offset).toNat 4)
  else if u.offset ≥ u.info.fileLen.toUInt32 then none
  else some 512

/-- The description of a chunk at the current address. -/
def ManagerUpdate.describe (env : UpdateEnv) (u : ManagerUpdate) (len : ℕ) : OtaDescription where
  state := u.info.updateType
  range := u.info.range
  size := u.info.fileLen
  md5 := u.info.md5
  devList :=
    if u.info.updateType ≠ 0 ∧ 0 < u.info.ioteId.length then
      some (u.info.ioteId.map env.queryWiotaid)
    else none
  newVersion := u.info.newVersion
  oldVersion := u.info.oldVersion
  devType := u.info.devType
  offset := u.offset
  len := len

/-- `uc_wiota_flash_read`. -/
def ucWiotaFlashRead (env : UpdateEnv) (address : UInt32) (len : ℕ) : List UInt8 :=
  (List.range len).map fun i => env.flash (address + UInt32.ofNat i)

/-- The chunk at the current address. -/
def ManagerUpdate.chunk (env : UpdateEnv) (u : ManagerUpdate) (len : ℕ) : OtaData :=
  ⟨u.describe env len, ucWiotaFlashRead env u.otaOpAddress len⟩

/-- The bytes of a chunk with its description. -/
def OtaData.bytes (env : UpdateEnv) (data : OtaData) : List UInt8 :=
  env.print data.description ++ data.bin

/-- `manager_update_parment.ota_op_address += len`. -/
def ManagerUpdate.advance (u : ManagerUpdate) (len : ℕ) : ManagerUpdate :=
  { u with otaOpAddress := u.otaOpAddress + UInt32.ofNat len }

/-- `manager_ota_msg_of_data`: the chunk, if there is one.  Its bytes are put into a block of 1024
bytes.  The length that is returned is computed with `rt_strlen(data)` after `cJSON_free(data)`; it
is taken to be that of the text. -/
def managerOtaMsgOfData (env : UpdateEnv) (u : ManagerUpdate) :
    Except Fault (ManagerUpdate × Option OtaData) :=
  match u.chunkLen with
  | none => .ok (u, none)
  | some len =>
    if ((u.chunk env len).bytes env).length > 1024 then .error .outOfBounds
    else .ok (u.advance len, some (u.chunk env len))

/-- The header of the frames of an update. -/
def otaHeader (cmd : UInt8) : AppPsHeader :=
  { AppPsHeader.zero with
    property := { AppPsHeader.zero.property with isSrcAddr := true }
    srcAddr := serverDefaultAddress
    cmdType := cmd }

/-- `manager_ota_msg_coding`. -/
def managerOtaMsgCoding (env : UpdateEnv) (cmd : UInt8) (data : List UInt8) :
    Except Fault (Option (List UInt8)) := do
  match ← appDataCoding env.compress (fun _ => true) (otaHeader cmd) data with
  | .coded _ outputData => return some outputData
  | .failed _ => return none

/-- The data of a broadcast of an update. -/
def otaOperation (outputData : List UInt8) (func : ResultFunction) : OperationData :=
  managerLogicSendToOperater 0 serverDefaultAddress appCmdGetSpecificDataSponse 0 outputData none
    (some func)

/-- `manager_ota_state_msg`. -/
def managerOtaStateMsg (u : ManagerUpdate) (state : ManagerOtaState) : OtaStateDescription where
  state := u.info.updateType
  range := u.info.range
  newVersion := u.info.newVersion
  oldVersion := u.info.oldVersion
  devType := u.info.devType
  otaState :=
    match state with
    | .stop => 0
    | .gonging => 1
    | .nodata => 2 % 2

/-- `manager_ota_send_state`; the command is `APP_CMD_GET_UPDATE_STATE_REQUEST`. -/
def managerOtaSendState (env : UpdateEnv) (u : ManagerUpdate) (state : ManagerOtaState) :
    Except Fault (List OperationData) := do
  match ← managerOtaMsgCoding env 56 (env.printState (managerOtaStateMsg u state)) with
  | some outputData => return [otaOperation outputData .managerOtaStateResult]
  | none => return []

/-- The record at the end of the file. -/
def ManagerUpdate.finish (u : ManagerUpdate) : ManagerUpdate :=
  { u with state := .stop, otaOpAddress := ucOtaPartitionStartAddress }

/-- What `manager_start_send_page` leaves: the record, the broadcasts, and the chunk that it has
handed out. -/
structure SentPage where
  update : ManagerUpdate
  operations : List OperationData
  chunk : Option OtaData
  deriving DecidableEq, Repr

/-- `manager_start_send_page`.  The attempts to code a chunk are all alike. -/
def managerStartSendPage (env : UpdateEnv) (u : ManagerUpdate) : Except Fault SentPage := do
  match ← managerOtaMsgOfData env u with
  | (u, some data) =>
    match ← managerOtaMsgCoding env 53 (data.bytes env) with
    | some outputData => return ⟨u, [otaOperation outputData .managerOtaMsgResult], some data⟩
    | none =>
      let operations ← managerOtaSendState env u .stop
      return ⟨u, operations, none⟩
  | (u, none) =>
    let operations ← managerOtaSendState env u.finish .stop
    return ⟨u.finish, operations, none⟩

/-! ### An update -/

/-- The record when the broadcast of the file starts. -/
def ManagerUpdate.start (u : ManagerUpdate) : ManagerUpdate :=
  { u with otaOpAddress := ucOtaPartitionStartAddress, state := .startTransferData }

/-- `manager_start_iote_update`. -/
def managerStartIoteUpdate (env : UpdateEnv) (u : ManagerUpdate) : Except Fault SentPage :=
  if u.info.activeState ≠ 0 then managerStartSendPage env u.start else .ok ⟨u.start, [], none⟩

/-- `free_update_info`. -/
def freeUpdateInfo (_ : ManagerUpdateInfo) : ManagerUpdateInfo :=
  .zero

/-- `manager_ap_update` until the chip reboots. -/
def managerApUpdate (u : ManagerUpdate) : ManagerUpdate :=
  { u with state := .system, info := freeUpdateInfo u.info }

/-- `t_http_message`; `ok` is `state == HTTP_DOWNLOAD_OK`. -/
structure HttpMessage where
  downFileSize : Int32
  ok : Bool
  deriving DecidableEq, Repr

/-- The text "ap". -/
def apText : List UInt8 := [0x61, 0x70]

/-- `AP_DEMO_VERSION`, the text "v1.0". -/
def apDemoVersion : List UInt8 := [0x76, 0x31, 0x2E, 0x30]

/-- `strcmp` with a text: whether it is equal to it.  A null pointer cannot be read. -/
def textEq (text : Option (List UInt8)) (other : List UInt8) : Except Fault Bool :=
  match text with
  | none => .error .outOfBounds
  | some text => .ok (text == other)

/-- The update is one of the access point itself. -/
def ManagerUpdateInfo.isApUpdate (info : ManagerUpdateInfo) : Except Fault Bool :=
  match info.ioteId.head? with
  | none => .error .outOfBounds
  | some iote => if apDefaultAddress = iote then textEq info.devType apText else .ok false

/-- The record with the length of the file and clear flags. -/
def ManagerUpdate.setFile (u : ManagerUpdate) (fileLen : Int32) : ManagerUpdate :=
  { u with
    info := { u.info with fileLen := fileLen }
    remSubFlag := (managerInitResendSubFlag fileLen.toInt managerOtaSendBinSize).1
    subFlagNum := (managerInitResendSubFlag fileLen.toInt managerOtaSendBinSize).2 }

/-- `manager_start_update`. -/
def managerStartUpdate (env : UpdateEnv) (httpData : HttpMessage) (u : ManagerUpdate) :
    Except Fault SentPage :=
  if httpData.ok = false then .ok ⟨{ u with state := .stop }, [], none⟩
  else do
    match ← u.info.isApUpdate with
    | true => return ⟨managerApUpdate u, [], none⟩
    | false => managerStartIoteUpdate env (u.setFile httpData.downFileSize)

/-- The fields `access` and `url` of `access_info`.  The first one is read without a look whether it
is there. -/
def parseAccessInfo (accessInfo : Option (Option Int32 × Option (List UInt8)))
    (address : Option (List UInt8)) : Except Fault (Option (List UInt8)) :=
  match accessInfo with
  | none => .ok address
  | some (none, _) => .error .outOfBounds
  | some (some _, url) => .ok (url <|> address)

/-- `manager_parsing_network_ota_msg`, which returns 0.  A field that is missing keeps its value,
but `range` becomes 0, and `update_type` and `size` are read without a look whether they are
there. -/
def managerParsingNetworkOtaMsg (json : NetworkOtaJson) (info : ManagerUpdateInfo) :
    Except Fault ManagerUpdateInfo := do
  match json.updateType, json.size with
  | some updateType, some size =>
    let address ← parseAccessInfo json.accessInfo info.address
    return {
      activeState := json.state.getD info.activeState
      ioteId := info.ioteId
      newVersion := json.newVersion <|> info.newVersion
      oldVersion := json.oldVersion <|> info.oldVersion
      devType := json.devType <|> info.devType
      updateType := updateType
      range := json.range.getD 0
      fileName := json.file <|> info.fileName
      fileLen := size
      md5 := json.md5 <|> info.md5
      address := address }
  | _, _ => .error .outOfBounds

/-- `manager_check_ap_update_info`. -/
def managerCheckApUpdateInfo (ver : ManagerUpdateInfo) : Except Fault ℕ := do
  if (← textEq ver.devType apText) = false then return 1
  else if (← textEq ver.oldVersion apDemoVersion) = false then return 2
  else return 0

/-- The message for the downloader. -/
structure DownloadRequest where
  fileName : Option (List UInt8)
  md5 : Option (List UInt8)
  address : Option (List UInt8)
  deriving DecidableEq, Repr

/-- `manager_start_down`. -/
def managerStartDown (info : ManagerUpdateInfo) : List DownloadRequest :=
  if info.activeState ≠ 0 then [⟨info.fileName, info.md5, info.address⟩] else []

/-- `manager_update_response` on a message for the devices `dest`: the record and what is passed to
the downloader. -/
def managerUpdateResponse (dest : List UInt32) (json : NetworkOtaJson) (u : ManagerUpdate) :
    Except Fault (ManagerUpdate × List DownloadRequest) := do
  let info ← managerParsingNetworkOtaMsg json { u.info with ioteId := dest }
  let u := { u with info := info }
  if (← managerCheckApUpdateInfo info) = 2 then return (u, [])
  else
    return ({ u with otaOpAddress := ucOtaPartitionStartAddress, state := .downPage },
      managerStartDown info)

/-- The part of `manager_net_data_logic` for `APP_CMD_UPDATE_VERSION_SPONSE`. -/
def netUpdateVersionSponse (dest : List UInt32) (json : NetworkOtaJson) (u : ManagerUpdate) :
    Except Fault (ManagerUpdate × List DownloadRequest) :=
  managerUpdateResponse dest json { u with state := .responseMsg }

/-! ### Resending -/

/-- The record at the flagged chunk `loc`, with the flags `flag`. -/
def ManagerUpdate.seek (u : ManagerUpdate) (loc : ℕ) (flag : List UInt8) : ManagerUpdate :=
  { u with
    otaOpAddress := ucOtaPartitionStartAddress + UInt32.ofNat (loc * 512)
    remSubFlag := flag }

/-- `manager_resend_data`.  When there is no chunk at the flagged place, a pointer that was never
set is looked at and freed. -/
def managerResendData (env : UpdateEnv) (u : ManagerUpdate) :
    Except Fault (ManagerUpdate × List OperationData) := do
  let loc ← managerGetResendSubFlag u.remSubFlag u.subFlagNum
  if loc < 0 then return (u, [])
  else
    let flag ← managerCleanResendSubFlag u.remSubFlag loc.toNat
    match ← managerOtaMsgOfData env (u.seek loc.toNat flag) with
    | (_, none) => .error .outOfBounds
    | (u, some data) =>
      match ← managerOtaMsgCoding env 53 (data.bytes env) with
      | some outputData => return (u, [otaOperation outputData .managerOtaResendMsgResult])
      | none => return (u, [])

/-- `t_manager_iote_resend_info`. -/
structure IoteResendInfo where
  devType : List UInt8
  oldVersion : List UInt8
  newVersion : List UInt8
  updateType : Int32
  dataInfo : List DataOffset
  deriving DecidableEq, Repr

/-- The loop over the elements of `data_info`; the errors are those of the function. -/
def parseDataInfo : List (Option Int32 × Option Int32) → Except ℕ (List DataOffset)
  | [] => .ok []
  | (none, _) :: _ => .error 5
  | (some _, none) :: _ => .error 6
  | (some offset, some len) :: rest => do
    let infos ← parseDataInfo rest
    return ⟨offset, len⟩ :: infos

/-- `manager_parsing_iote_resend_ota_msg`, with the number that it returns as the error. -/
def managerParsingIoteResendOtaMsg (root : Option IoteResendJson) : Except ℕ IoteResendInfo :=
  match root with
  | none => .error 1
  | some json =>
    match json.devType, json.oldVersion, json.newVersion, json.updateType with
    | some devType, some oldVersion, some newVersion, some updateType =>
      match json.dataInfo with
      | none => .error 3
      | some dataInfo => do
        let infos ← parseDataInfo dataInfo
        return ⟨devType, oldVersion, newVersion, updateType, infos⟩
    | _, _, _, _ => .error 2

/-- `manager_check_iote_resend_quest`. -/
def managerCheckIoteResendQuest (ioteInfo : IoteResendInfo) (managerInfo : ManagerUpdateInfo) :
    Except Fault ℕ := do
  if (← textEq managerInfo.newVersion ioteInfo.newVersion) = false then return 1
  else if (← textEq managerInfo.oldVersion ioteInfo.oldVersion) = false then return 2
  else if ioteInfo.updateType ≠ managerInfo.updateType then return 3
  else return 0

/-- `manager_ota_resend_data`.  The flags are looked at before those of the request are set. -/
def managerOtaResendData (env : UpdateEnv) (msg : Option (List UInt8)) (u : ManagerUpdate) :
    Except Fault (ManagerUpdate × List OperationData) :=
  match managerParsingIoteResendOtaMsg (env.parseResend msg) with
  | .error _ => .ok (u, [])
  | .ok requst => do
    if (← managerCheckIoteResendQuest requst u.info) ≠ 0 then return (u, [])
    else
      let flag ← managerGetResendSubFlag u.remSubFlag u.subFlagNum
      let remSubFlag ← setResendRanges u.remSubFlag requst.dataInfo
      if flag ≠ 0 then managerResendData env { u with remSubFlag := remSubFlag }
      else return ({ u with remSubFlag := remSubFlag }, [])

/-! ### What the functions do -/

/-- The broadcasts are updates with the result function `func`. -/
def OtaOperations (func : ResultFunction) (operations : List OperationData) : Prop :=
  ∀ operation ∈ operations, ∃ outputData, operation = otaOperation outputData func

/-- No broadcasts. -/
lemma otaOperations_nil (func : ResultFunction) : OtaOperations func [] :=
  fun _ hmem => (List.not_mem_nil hmem).elim

/-- One broadcast. -/
lemma otaOperations_singleton (outputData : List UInt8) (func : ResultFunction) :
    OtaOperations func [otaOperation outputData func] := by
  intro operation hmem
  exact ⟨outputData, List.mem_singleton.mp hmem⟩

/-- What is not too long is coded. -/
lemma managerOtaMsgCoding_eq (env : UpdateEnv) (cmd : UInt8) (data : List UInt8) :
    managerOtaMsgCoding env cmd data =
      .ok (if data.length ≤ appMaxCodingDataLen then some ((otaHeader cmd).bytes ++ data)
        else none) := by
  unfold managerOtaMsgCoding
  by_cases hlen : data.length ≤ appMaxCodingDataLen
  · rw [@appDataCoding_of_not ⟨env.compress, fun _ => true, env.queryWiotaid⟩ (fun _ => rfl)
      (otaHeader cmd) rfl data hlen, ok_bind, if_pos hlen]
    rfl
  · rw [appDataCoding, if_pos (Nat.lt_of_not_le hlen), ok_bind, if_neg hlen]
    rfl

/-- A broadcast of the state, if it can be coded. -/
lemma exists_managerOtaSendState (env : UpdateEnv) (u : ManagerUpdate) (state : ManagerOtaState) :
    ∃ operations, managerOtaSendState env u state = .ok operations ∧
      OtaOperations .managerOtaStateResult operations := by
  unfold managerOtaSendState
  rw [managerOtaMsgCoding_eq, ok_bind]
  split
  · exact ⟨_, rfl, otaOperations_singleton _ _⟩
  · exact ⟨_, rfl, otaOperations_nil _⟩

/-- A chunk has some bytes, and at most 512. -/
lemma ManagerUpdate.chunkLen_bounds {u : ManagerUpdate} {len : ℕ} (h : u.chunkLen = some len) :
    0 < len ∧ len ≤ 512 := by
  unfold ManagerUpdate.chunkLen at h
  split at h
  · rename_i hlast
    obtain ⟨hend, hlt⟩ := hlast
    cases h
    rw [gt_iff_lt, UInt32.lt_iff_toNat_lt, UInt32.toNat_add] at hend
    rw [UInt32.lt_iff_toNat_lt] at hlt
    have hsub := UInt32.toNat_sub_of_le _ _ (UInt32.le_of_lt (UInt32.lt_iff_toNat_lt.mpr hlt))
    have hsize := UInt32.toNat_lt u.info.fileLen.toUInt32
    have hconst : (512 : UInt32).toNat = 512 := rfl
    rw [hsub]
    unfold rtAlign
    omega
  · split at h
    · cases h
    · cases h
      decide

/-- The length of the bytes of a chunk. -/
lemma ManagerUpdate.length_chunk_bytes (env : UpdateEnv) (u : ManagerUpdate) (len : ℕ) :
    ((u.chunk env len).bytes env).length = (env.print (u.describe env len)).length + len := by
  unfold ManagerUpdate.chunk OtaData.bytes ucWiotaFlashRead
  rw [List.length_append, List.length_map, List.length_range]

/-- What `manager_start_send_page` does: at the end of the file the state becomes
`MANAGER_UPDATE_STOP`; otherwise the next chunk is handed out if it can be coded, and skipped if
not.  In any case the state may be broadcast. -/
lemma managerStartSendPage_cases {env : UpdateEnv} {u : ManagerUpdate} {page : SentPage}
    (h : managerStartSendPage env u = .ok page) :
    (u.chunkLen = none ∧ page.update = u.finish ∧ page.chunk = none ∧
      OtaOperations .managerOtaStateResult page.operations) ∨
    ∃ len, u.chunkLen = some len ∧ page.update = u.advance len ∧
      ((((u.chunk env len).bytes env).length ≤ appMaxCodingDataLen ∧
          page.chunk = some (u.chunk env len) ∧
          ∃ outputData, page.operations = [otaOperation outputData .managerOtaMsgResult]) ∨
        (appMaxCodingDataLen < ((u.chunk env len).bytes env).length ∧ page.chunk = none ∧
          OtaOperations .managerOtaStateResult page.operations)) := by
  unfold managerStartSendPage managerOtaMsgOfData at h
  cases hchunk : u.chunkLen with
  | none =>
    obtain ⟨operations, hsend, hops⟩ := exists_managerOtaSendState env u.finish .stop
    simp only [hchunk, ok_bind, hsend] at h
    cases h
    exact .inl ⟨rfl, rfl, rfl, hops⟩
  | some len =>
    refine .inr ⟨len, rfl, ?_⟩
    simp only [hchunk] at h
    split at h
    · cases h
    · simp only [ok_bind, managerOtaMsgCoding_eq] at h
      by_cases hlen : ((u.chunk env len).bytes env).length ≤ appMaxCodingDataLen
      · simp only [if_pos hlen] at h
        cases h
        exact ⟨rfl, .inl ⟨hlen, rfl, _, rfl⟩⟩
      · obtain ⟨operations, hsend, hops⟩ := exists_managerOtaSendState env (u.advance len) .stop
        simp only [if_neg hlen, hsend, ok_bind] at h
        cases h
        exact ⟨rfl, .inr ⟨Nat.lt_of_not_le hlen, rfl, hops⟩⟩

/-- `manager_start_send_page` keeps the information on the update and the flags. -/
lemma managerStartSendPage_frame {env : UpdateEnv} {u : ManagerUpdate} {page : SentPage}
    (h : managerStartSendPage env u = .ok page) :
    (page.update.state = .stop ∨ page.update.state = u.state) ∧ page.update.info = u.info ∧
      page.update.subFlagNum = u.subFlagNum ∧ page.update.remSubFlag = u.remSubFlag := by
  rcases managerStartSendPage_cases h with ⟨-, hupdate, -⟩ | ⟨len, -, hupdate, -⟩
  · rw [hupdate]
    exact ⟨.inl rfl, rfl, rfl, rfl⟩
  · rw [hupdate]
    exact ⟨.inr rfl, rfl, rfl, rfl⟩

/-- What `manager_start_send_page` passes to the operation task. -/
lemma managerStartSendPage_operations {env : UpdateEnv} {u : ManagerUpdate} {page : SentPage}
    (h : managerStartSendPage env u = .ok page) :
    ∃ func, func ≠ .managerOtaResendMsgResult ∧ OtaOperations func page.operations := by
  rcases managerStartSendPage_cases h with
    ⟨-, -, -, hops⟩ | ⟨len, -, -, ⟨-, -, outputData, hops⟩ | ⟨-, -, hops⟩⟩
  · exact ⟨.managerOtaStateResult, by decide, hops⟩
  · exact ⟨.managerOtaMsgResult, by decide, hops ▸ otaOperations_singleton _ _⟩
  · exact ⟨.managerOtaStateResult, by decide, hops⟩

/-- What the end of a download does: after a failure the update is over; otherwise the access point
updates itself, or the broadcast of the file starts, of which nothing more comes unless the update
is active. -/
lemma managerStartUpdate_cases {env : UpdateEnv} {httpData : HttpMessage} {u : ManagerUpdate}
    {page : SentPage} (h : managerStartUpdate env httpData u = .ok page) :
    (httpData.ok = false ∧ page = ⟨{ u with state := .stop }, [], none⟩) ∨
    (httpData.ok = true ∧ u.info.isApUpdate = .ok true ∧ page = ⟨managerApUpdate u, [], none⟩) ∨
    (httpData.ok = true ∧ u.info.isApUpdate = .ok false ∧
      ((u.info.activeState = 0 ∧ page = ⟨(u.setFile httpData.downFileSize).start, [], none⟩) ∨
        (u.info.activeState ≠ 0 ∧
          managerStartSendPage env (u.setFile httpData.downFileSize).start = .ok page))) := by
  unfold managerStartUpdate at h
  split at h
  · rename_i hfail
    cases h
    exact .inl ⟨hfail, rfl⟩
  · rename_i hok
    obtain ⟨isAp, hap, h⟩ := exists_of_bind_eq_ok h
    cases isAp with
    | true =>
      cases h
      exact .inr (.inl ⟨eq_true_of_ne_false hok, hap, rfl⟩)
    | false =>
      refine .inr (.inr ⟨eq_true_of_ne_false hok, hap, ?_⟩)
      replace h : managerStartIoteUpdate env (u.setFile httpData.downFileSize) = .ok page := h
      unfold managerStartIoteUpdate at h
      split at h
      · rename_i hactive
        exact .inr ⟨hactive, h⟩
      · rename_i hactive
        cases h
        exact .inl ⟨not_not.mp hactive, rfl⟩

/-- What the end of a download passes to the operation task. -/
lemma managerStartUpdate_operations {env : UpdateEnv} {httpData : HttpMessage} {u : ManagerUpdate}
    {page : SentPage} (h : managerStartUpdate env httpData u = .ok page) :
    ∃ func, OtaOperations func page.operations := by
  rcases managerStartUpdate_cases h with
    ⟨-, rfl⟩ | ⟨-, -, rfl⟩ | ⟨-, -, ⟨-, rfl⟩ | ⟨-, hsend⟩⟩
  · exact ⟨.managerOtaStateResult, otaOperations_nil _⟩
  · exact ⟨.managerOtaStateResult, otaOperations_nil _⟩
  · exact ⟨.managerOtaStateResult, otaOperations_nil _⟩
  · obtain ⟨func, -, hops⟩ := managerStartSendPage_operations hsend
    exact ⟨func, hops⟩

/-- Whether an update message makes the update active: a message without the field leaves it as it
was. -/
def NetworkOtaJson.activeState (json : NetworkOtaJson) (info : ManagerUpdateInfo) : Int32 :=
  json.state.getD info.activeState

/-- The update message is for the access point itself, but not for its version. -/
def NetworkOtaJson.OtherVersion (json : NetworkOtaJson) (info : ManagerUpdateInfo) : Prop :=
  (json.devType <|> info.devType) = some apText ∧
    (json.oldVersion <|> info.oldVersion) ≠ some apDemoVersion

instance (json : NetworkOtaJson) (info : ManagerUpdateInfo) : Decidable (json.OtherVersion info) :=
  inferInstanceAs (Decidable (_ ∧ _))

/-- The check of an update of the access point fails for another version. -/
lemma managerCheckApUpdateInfo_eq_two {ver : ManagerUpdateInfo} {n : ℕ}
    (h : managerCheckApUpdateInfo ver = .ok n) :
    n = 2 ↔ ver.devType = some apText ∧ ver.oldVersion ≠ some apDemoVersion := by
  unfold managerCheckApUpdateInfo textEq at h
  cases hdev : ver.devType with
  | none =>
    rw [hdev] at h
    cases h
  | some dev =>
    simp only [hdev, ok_bind] at h
    by_cases hap : dev = apText
    · rw [if_neg (by rw [hap, beq_self_eq_true]; decide)] at h
      cases hold : ver.oldVersion with
      | none =>
        rw [hold] at h
        cases h
      | some old =>
        simp only [hold, ok_bind] at h
        by_cases hdemo : old = apDemoVersion
        · rw [if_neg (by rw [hdemo, beq_self_eq_true]; decide)] at h
          cases h
          simp [hdemo]
        · rw [if_pos (beq_eq_false_iff_ne.mpr hdemo)] at h
          cases h
          simp [hap, hdemo]
    · rw [if_pos (beq_eq_false_iff_ne.mpr hap)] at h
      cases h
      simp [hap]

/-- What an update message does: if it is for another version of the access point, the state stays
`MANAGER_UPDATE_RESPONSE_MSG`; otherwise it becomes `MANAGER_UPDATE_DOWN_PAGE`, and the image is
downloaded if the update is active. -/
lemma netUpdateVersionSponse_cases {dest : List UInt32} {json : NetworkOtaJson}
    {u u' : ManagerUpdate} {downloads : List DownloadRequest}
    (h : netUpdateVersionSponse dest json u = .ok (u', downloads)) :
    (json.OtherVersion u.info ∧ u'.state = .responseMsg ∧ downloads = []) ∨
    (¬ json.OtherVersion u.info ∧ u'.state = .downPage ∧
      (downloads = [] ↔ json.activeState u.info = 0)) := by
  unfold netUpdateVersionSponse managerUpdateResponse at h
  obtain ⟨info, hparse, h⟩ := exists_of_bind_eq_ok h
  obtain ⟨n, hcheck, h⟩ := exists_of_bind_eq_ok h
  have hinfo : info.activeState = json.activeState u.info ∧
      info.devType = (json.devType <|> u.info.devType) ∧
      info.oldVersion = (json.oldVersion <|> u.info.oldVersion) := by
    unfold managerParsingNetworkOtaMsg at hparse
    split at hparse
    · obtain ⟨address, -, hparse⟩ := exists_of_bind_eq_ok hparse
      cases hparse
      exact ⟨rfl, rfl, rfl⟩
    · cases hparse
  have htwo := managerCheckApUpdateInfo_eq_two hcheck
  rw [hinfo.2.1, hinfo.2.2] at htwo
  by_cases hn : n = 2
  · rw [if_pos hn] at h
    cases h
    exact .inl ⟨htwo.mp hn, rfl, rfl⟩
  · rw [if_neg hn] at h
    cases h
    refine .inr ⟨fun hother => hn (htwo.mpr hother), rfl, ?_⟩
    unfold managerStartDown
    rw [hinfo.1]
    split
    · rename_i hactive
      exact iff_of_false (List.cons_ne_nil _ _) hactive
    · rename_i hactive
      exact iff_of_true rfl (not_not.mp hactive)

/-- The chunk at the current address, if there is one, can be coded. -/
def ManagerUpdate.CanSend (env : UpdateEnv) (u : ManagerUpdate) : Prop :=
  ∀ len ∈ u.chunkLen, ((u.chunk env len).bytes env).length ≤ appMaxCodingDataLen

instance (env : UpdateEnv) (u : ManagerUpdate) : Decidable (u.CanSend env) :=
  inferInstanceAs (Decidable (∀ len ∈ u.chunkLen, _ ≤ _))

/-- The description of the chunk at the current address, if there is one, leaves room for 512 bytes
in a frame. -/
def ManagerUpdate.ShortDescription (env : UpdateEnv) (u : ManagerUpdate) : Prop :=
  ∀ len ∈ u.chunkLen, (env.print (u.describe env len)).length ≤ 496

instance (env : UpdateEnv) (u : ManagerUpdate) : Decidable (u.ShortDescription env) :=
  inferInstanceAs (Decidable (∀ len ∈ u.chunkLen, _ ≤ _))

/-- A chunk with a short description can be coded. -/
lemma ManagerUpdate.ShortDescription.canSend {env : UpdateEnv} {u : ManagerUpdate}
    (h : u.ShortDescription env) : u.CanSend env := by
  intro len hlen
  have htext := h len hlen
  have hbounds := ManagerUpdate.chunkLen_bounds hlen
  rw [u.length_chunk_bytes, appMaxCodingDataLen]
  omega

/-- If the next chunk can be coded, `manager_start_send_page` does not fault. -/
lemma ManagerUpdate.CanSend.exists_sendPage {env : UpdateEnv} {u : ManagerUpdate}
    (h : u.CanSend env) : ∃ page, managerStartSendPage env u = .ok page := by
  unfold managerStartSendPage managerOtaMsgOfData
  cases hchunk : u.chunkLen with
  | none =>
    obtain ⟨operations, hsend, -⟩ := exists_managerOtaSendState env u.finish .stop
    simp only [ok_bind, hsend]
    exact ⟨_, rfl⟩
  | some len =>
    have hlen := h len hchunk
    have hblock : ¬ ((u.chunk env len).bytes env).length > 1024 := by
      rw [appMaxCodingDataLen] at hlen
      omega
    simp only [if_neg hblock, ok_bind, managerOtaMsgCoding_eq, if_pos hlen]
    exact ⟨_, rfl⟩

/-- What `manager_resend_data` does: nothing without a flag; otherwise it goes to the first flag,
clears it, and hands out the chunk if it can be coded. -/
lemma managerResendData_cases {env : UpdateEnv} {u u' : ManagerUpdate}
    {operations : List OperationData} (h : managerResendData env u = .ok (u', operations)) :
    (∃ loc < 0, managerGetResendSubFlag u.remSubFlag u.subFlagNum = .ok loc ∧ u' = u ∧
      operations = []) ∨
    ∃ (loc : ℤ) (flag : List UInt8) (len : ℕ), 0 ≤ loc ∧
      managerGetResendSubFlag u.remSubFlag u.subFlagNum = .ok loc ∧
      managerCleanResendSubFlag u.remSubFlag loc.toNat = .ok flag ∧
      (u.seek loc.toNat flag).chunkLen = some len ∧ u' = (u.seek loc.toNat flag).advance len ∧
      (((u.seek loc.toNat flag).CanSend env ∧
          ∃ outputData, operations = [otaOperation outputData .managerOtaResendMsgResult]) ∨
        (¬ (u.seek loc.toNat flag).CanSend env ∧ operations = [])) := by
  obtain ⟨loc, hget, h⟩ := exists_of_bind_eq_ok h
  by_cases hloc : loc < 0
  · rw [if_pos hloc] at h
    cases h
    exact .inl ⟨loc, hloc, hget, rfl, rfl⟩
  · rw [if_neg hloc] at h
    obtain ⟨flag, hclean, h⟩ := exists_of_bind_eq_ok h
    obtain ⟨⟨u'', chunk⟩, hdata, h⟩ := exists_of_bind_eq_ok h
    unfold managerOtaMsgOfData at hdata
    cases hchunk : (u.seek loc.toNat flag).chunkLen with
    | none =>
      simp only [hchunk] at hdata
      cases hdata
      cases h
    | some len =>
      simp only [hchunk] at hdata
      split at hdata
      · cases hdata
      · cases hdata
        simp only [managerOtaMsgCoding_eq, ok_bind] at h
        refine .inr ⟨loc, flag, len, Int.not_lt.mp hloc, hget, hclean, hchunk, ?_⟩
        have hcan : (u.seek loc.toNat flag).CanSend env ↔
            (((u.seek loc.toNat flag).chunk env len).bytes env).length ≤ appMaxCodingDataLen := by
          rw [ManagerUpdate.CanSend, hchunk]
          exact ⟨fun h => h len rfl, fun h len' hmem => Option.some.inj hmem ▸ h⟩
        rw [hcan]
        by_cases hlen : (((u.seek loc.toNat flag).chunk env len).bytes env).length ≤
            appMaxCodingDataLen
        · simp only [if_pos hlen] at h
          cases h
          exact ⟨rfl, .inl ⟨hlen, _, rfl⟩⟩
        · simp only [if_neg hlen] at h
          cases h
          exact ⟨rfl, .inr ⟨hlen, rfl⟩⟩

/-- `manager_resend_data` keeps the state and the information on the update, and its broadcasts are
those of chunks that are resent. -/
lemma managerResendData_frame {env : UpdateEnv} {u u' : ManagerUpdate}
    {operations : List OperationData} (h : managerResendData env u = .ok (u', operations)) :
    u'.state = u.state ∧ u'.info = u.info ∧
      OtaOperations .managerOtaResendMsgResult operations := by
  rcases managerResendData_cases h with
    ⟨loc, -, -, rfl, rfl⟩ | ⟨loc, flag, len, -, -, -, -, rfl, hsent⟩
  · exact ⟨rfl, rfl, otaOperations_nil _⟩
  · rcases hsent with ⟨-, outputData, rfl⟩ | ⟨-, rfl⟩
    · exact ⟨rfl, rfl, otaOperations_singleton _ _⟩
    · exact ⟨rfl, rfl, otaOperations_nil _⟩

/-- A request of a device: it is not accepted and changes nothing; or its flags are set, and the
chunks are resent unless the first flag was set before. -/
lemma managerOtaResendData_cases {env : UpdateEnv} {msg : Option (List UInt8)}
    {u u' : ManagerUpdate} {operations : List OperationData}
    (h : managerOtaResendData env msg u = .ok (u', operations)) :
    ((∀ requst, managerParsingIoteResendOtaMsg (env.parseResend msg) = .ok requst →
        managerCheckIoteResendQuest requst u.info ≠ .ok 0) ∧ u' = u ∧ operations = []) ∨
    ∃ requst flag remSubFlag,
      managerParsingIoteResendOtaMsg (env.parseResend msg) = .ok requst ∧
      managerCheckIoteResendQuest requst u.info = .ok 0 ∧
      managerGetResendSubFlag u.remSubFlag u.subFlagNum = .ok flag ∧
      setResendRanges u.remSubFlag requst.dataInfo = .ok remSubFlag ∧
      ((flag ≠ 0 ∧ managerResendData env { u with remSubFlag := remSubFlag } =
          .ok (u', operations)) ∨
        (flag = 0 ∧ u' = { u with remSubFlag := remSubFlag } ∧ operations = [])) := by
  unfold managerOtaResendData at h
  split at h
  · rename_i error hparse
    cases h
    refine .inl ⟨fun requst hrequst => ?_, rfl, rfl⟩
    cases hparse.symm.trans hrequst
  · rename_i requst hparse
    obtain ⟨check, hcheck, h⟩ := exists_of_bind_eq_ok h
    split at h
    · rename_i hne
      cases h
      refine .inl ⟨fun requst' hrequst hzero => ?_, rfl, rfl⟩
      cases hparse.symm.trans hrequst
      cases hcheck.symm.trans hzero
      exact hne rfl
    · rename_i hzero
      rw [not_not.mp hzero] at hcheck
      obtain ⟨flag, hget, h⟩ := exists_of_bind_eq_ok h
      obtain ⟨remSubFlag, hset, h⟩ := exists_of_bind_eq_ok h
      refine .inr ⟨requst, flag, remSubFlag, hparse, hcheck, hget, hset, ?_⟩
      split at h
      · rename_i hflag
        exact .inl ⟨hflag, h⟩
      · rename_i hflag
        cases h
        exact .inr ⟨not_not.mp hflag, rfl, rfl⟩

/-- A request keeps the state and the information on the update, and its broadcasts are those of
chunks that are resent. -/
lemma managerOtaResendData_frame {env : UpdateEnv} {msg : Option (List UInt8)}
    {u u' : ManagerUpdate} {operations : List OperationData}
    (h : managerOtaResendData env msg u = .ok (u', operations)) :
    u'.state = u.state ∧ u'.info = u.info ∧
      OtaOperations .managerOtaResendMsgResult operations := by
  rcases managerOtaResendData_cases h with
    ⟨-, rfl, rfl⟩ | ⟨requst, flag, remSubFlag, -, -, -, -, hsent⟩
  · exact ⟨rfl, rfl, otaOperations_nil _⟩
  · rcases hsent with ⟨-, hresend⟩ | ⟨-, rfl, rfl⟩
    · have hframe := managerResendData_frame hresend
      exact hframe
    · exact ⟨rfl, rfl, otaOperations_nil _⟩

/-- No flag is set. -/
structure ManagerUpdate.FlagsClear (u : ManagerUpdate) : Prop where
  num_le : u.subFlagNum.toNat ≤ u.remSubFlag.length
  clear : ∀ k, bitAt u.remSubFlag k = false

/-- The flags are clear when the broadcast of a file starts. -/
lemma flagsClear_setFile (u : ManagerUpdate) (fileLen : Int32) :
    (u.setFile fileLen).start.FlagsClear :=
  ⟨managerInitResendSubFlag_num_le _ _, bitAt_managerInitResendSubFlag _ _⟩

/-- Without flags `manager_resend_data` does nothing. -/
lemma ManagerUpdate.FlagsClear.resendData {u : ManagerUpdate} (h : u.FlagsClear)
    (env : UpdateEnv) : managerResendData env u = .ok (u, []) := by
  unfold managerResendData
  rcases managerGetResendSubFlag_cases h.num_le with ⟨hget, -⟩ | ⟨k, -, -, hbit, -⟩
  · rw [hget, ok_bind, if_pos (by decide)]
    rfl
  · exact absurd (hbit.symm.trans (h.clear k)) (by decide)

end WiotaAp
