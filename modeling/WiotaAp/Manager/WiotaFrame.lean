import WiotaAp.Platform.ManagerList

/-!
# The operation task

`manager_wiota_frame.c` sends the messages of the manager to the devices.  A message for one device
waits in a list until the radio reports the result of its transmission; after a failure it is sent
again, at most three times in all, and moved to the head of the list.  A broadcast of an update
waits in the same list for the end of the broadcast.

`managerOperation` is the body of the loop of `manager_operation`.  The calls that leave the task
are recorded in order.  `managerOperateResult_cases` and `managerOtaResultMsg_cases` say what a
result does to the list.
-/

namespace WiotaAp

open Buffers

/-! ### The data of an operation -/

/-- `MANAGER_SEND_DEFAULT`. -/
def managerSendDefault : ℕ := 0

/-- `MANAGER_SEND_SUCCESS`. -/
def managerSendSuccess : ℕ := 1

/-- `MANAGER_SEND_FAIL`. -/
def managerSendFail : ℕ := 2

/-- `MANAGER_MAX_SEND_NUM`. -/
def managerMaxSendNum : ℕ := 3

/-- `APP_CMD_GET_SPECIFIC_DATA_SPONSE`, the command of the broadcasts of an update. -/
def appCmdGetSpecificDataSponse : UInt32 := 53

/-- The functions that are passed as `manager_message_exe_result`. -/
inductive ResultFunction
  | managerNetworkToWiotaResult
  | managerControlMessageResult
  | managerReplaceResponseToWiota
  | managerOtaStateResult
  | managerOtaMsgResult
  | managerOtaResendMsgResult
  deriving DecidableEq, Repr

/-- `t_app_operation_data`.  The field `state` counts the repeated transmissions until it holds the
result.  `segment` is the address of a segment record. -/
structure OperationData where
  srcAddress : UInt32
  id : UInt32
  state : ℕ
  resultFunction : Option ResultFunction
  cmd : UInt32
  requestNumber : UInt32
  pload : List UInt8
  segment : Option ℕ
  deriving DecidableEq, Repr

/-- The data that `manager_logic_send_to_operater` passes to the operation task. -/
def managerLogicSendToOperater (requestNumber srcAddress cmd id : UInt32) (data : List UInt8)
    (segment : Option ℕ) (func : Option ResultFunction) : OperationData where
  srcAddress := srcAddress
  id := id
  state := managerSendDefault
  resultFunction := func
  cmd := cmd
  requestNumber := requestNumber
  pload := data
  segment := segment

/-- A pointer to the data of an operation: the block and what it holds. -/
structure OperationPage where
  block : ℕ
  data : OperationData
  deriving DecidableEq, Repr

/-- `process->head.state = state`. -/
def OperationPage.setState (page : OperationPage) (state : ℕ) : OperationPage :=
  { page with data := { page.data with state := state } }

/-! ### The body of the loop -/

/-- `UC_OP_SUCC`. -/
def ucOpSucc : ℕ := 0

/-- The part of `uc_send_recv_t` that is used here. -/
structure SendRecv where
  userId : UInt32
  result : ℕ
  deriving DecidableEq, Repr

/-- The messages of the operation queue; `other` are those without a case. -/
inductive OperationMsg
  | msg (page : OperationPage)
  | msgResult (res : SendRecv)
  | radio (page : OperationPage)
  | otaRadio (page : OperationPage)
  | otaRadioResult
  | exit
  | other
  deriving DecidableEq, Repr

/-- The calls that leave the task: `uc_wiota_send_data`, `uc_wiota_send_broadcast_data` in its two
modes, and `to_queue_logic_data` with `MANAGER_LOGIC_SEND_RESULT`. -/
inductive OperationAction
  | sendData (page : OperationPage)
  | normalBroadcast (page : OperationPage)
  | otaBroadcast (page : OperationPage)
  | sendResult (page : OperationPage)
  deriving DecidableEq, Repr

/-- `query_result_callback`. -/
def queryResultCallback (userId : UInt32) (page : OperationPage) : Bool :=
  page.data.id == userId

/-- `manager_ota_remove_cb`. -/
def managerOtaRemoveCb (page : OperationPage) : Bool :=
  page.data.cmd == appCmdGetSpecificDataSponse

/-- `manager_operate_result`. -/
def managerOperateResult (malloc : Bool) (list : List OperationPage) (res : SendRecv) :
    List OperationPage × List OperationAction :=
  match queryHeadList list (queryResultCallback res.userId) with
  | none => (list, [])
  | some node =>
    match list[node]? with
    | none => (list, [])
    | some process =>
      if res.result = ucOpSucc then
        (removeManagerNode list node, [.sendResult (process.setState managerSendSuccess)])
      else if process.data.state > managerMaxSendNum - 2 then
        (removeManagerNode list node, [.sendResult (process.setState managerSendFail)])
      else
        let list := list.set node (process.setState (process.data.state + 1))
        (removeHeadManagerNode malloc list node, [.sendData process])

/-- `manager_ota_result_msg`. -/
def managerOtaResultMsg (list : List OperationPage) :
    List OperationPage × List OperationAction :=
  match queryHeadList list managerOtaRemoveCb with
  | none => (list, [])
  | some node =>
    match list[node]? with
    | none => (list, [])
    | some data => (removeManagerNode list node, [.sendResult data])

/-- The body of the loop of `manager_operation`: the list and the calls.  The message `exit` ends
the loop, and the list is cleared behind it. -/
def managerOperation (malloc : Bool) (message : OperationMsg) (list : List OperationPage) :
    Except Fault (List OperationPage × List OperationAction) :=
  match message with
  | .msg page => do
    let list ← insertTailManagerList malloc list page
    return (list, [.sendData page])
  | .msgResult res => .ok (managerOperateResult malloc list res)
  | .radio page => .ok (list, [.normalBroadcast page])
  | .otaRadio page => do
    let list ← insertTailManagerList malloc list page
    return (list, [.otaBroadcast page])
  | .otaRadioResult => .ok (managerOtaResultMsg list)
  | .exit => .ok ([], [])
  | .other => .ok (list, [])

/-! ### What a result does -/

/-- The first message for a device: it stands between `pre` and `post`, and there is no message for
the device in `pre`. -/
structure FirstFor (list : List OperationPage) (userId : UInt32) (pre : List OperationPage)
    (process : OperationPage) (post : List OperationPage) : Prop where
  list_eq : list = pre ++ process :: post
  id_eq : process.data.id = userId
  pre_ne : ∀ p ∈ pre, p.data.id ≠ userId

/-- The first message for a device is the one that a search finds. -/
lemma FirstFor.find?_eq {list pre post : List OperationPage} {userId : UInt32}
    {process : OperationPage} (h : FirstFor list userId pre process post) :
    list.find? (queryResultCallback userId) = some process := by
  refine List.find?_eq_some_iff_append.mpr ⟨beq_iff_eq.mpr h.id_eq, pre, post, h.list_eq, ?_⟩
  intro p hp
  simpa [queryResultCallback] using h.pre_ne p hp

/-- What a result does, when allocations succeed: nothing without a message for the device; and
otherwise the first message for the device is taken out and reported, after a success or the third
failure, or it is sent again and moved to the head. -/
lemma managerOperateResult_cases (list : List OperationPage) (res : SendRecv) :
    ((∀ p ∈ list, p.data.id ≠ res.userId) ∧ managerOperateResult true list res = (list, [])) ∨
    ∃ pre process post, FirstFor list res.userId pre process post ∧
      ((res.result = ucOpSucc ∧ managerOperateResult true list res =
          (pre ++ post, [.sendResult (process.setState managerSendSuccess)])) ∨
        (res.result ≠ ucOpSucc ∧ 2 ≤ process.data.state ∧ managerOperateResult true list res =
          (pre ++ post, [.sendResult (process.setState managerSendFail)])) ∨
        (res.result ≠ ucOpSucc ∧ process.data.state < 2 ∧ managerOperateResult true list res =
          (process.setState (process.data.state + 1) :: (pre ++ post), [.sendData process]))) := by
  unfold managerOperateResult
  cases hquery : queryHeadList list (queryResultCallback res.userId) with
  | none =>
    refine .inl ⟨fun p hp => ?_, rfl⟩
    simpa [queryResultCallback] using queryHeadList_eq_none.mp hquery p hp
  | some node =>
    obtain ⟨pre, process, post, rfl, rfl, hprocess, hpre⟩ := exists_of_queryHeadList hquery
    have hfirst : FirstFor (pre ++ process :: post) res.userId pre process post :=
      ⟨rfl, beq_iff_eq.mp hprocess, fun p hp => beq_eq_false_iff_ne.mp (hpre p hp)⟩
    refine .inr ⟨pre, process, post, hfirst, ?_⟩
    simp only [getElem?_cut, set_cut, removeManagerNode_cut, removeHeadManagerNode_cut]
    by_cases hsucc : res.result = ucOpSucc
    · exact .inl ⟨hsucc, if_pos hsucc⟩
    · rw [if_neg hsucc]
      by_cases hstate : process.data.state > managerMaxSendNum - 2
      · exact .inr (.inl ⟨hsucc, hstate, if_pos hstate⟩)
      · exact .inr (.inr ⟨hsucc, Nat.not_le.mp hstate, if_neg hstate⟩)

/-- What the end of a broadcast does: nothing without one in the list, and otherwise the first one
is taken out and reported. -/
lemma managerOtaResultMsg_cases (list : List OperationPage) :
    managerOtaResultMsg list = (list, []) ∨
    ∃ pre process post, list = pre ++ process :: post ∧
      process.data.cmd = appCmdGetSpecificDataSponse ∧
      managerOtaResultMsg list = (pre ++ post, [.sendResult process]) := by
  unfold managerOtaResultMsg
  cases hquery : queryHeadList list managerOtaRemoveCb with
  | none => exact .inl rfl
  | some node =>
    obtain ⟨pre, process, post, rfl, rfl, hprocess, -⟩ := exists_of_queryHeadList hquery
    refine .inr ⟨pre, process, post, rfl, beq_iff_eq.mp hprocess, ?_⟩
    simp only [getElem?_cut, removeManagerNode_cut]

end WiotaAp
