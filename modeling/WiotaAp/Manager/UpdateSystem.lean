import WiotaAp.Foundation.Runs
import WiotaAp.Manager.Update

/-!
# The tasks of an update

An update is carried on by three tasks and the radio.  The logic task runs the functions of
`manager_update.c`: on an update message of the server, on the end of a download, on the request of
a device and on the result of a broadcast.  The operation task keeps the broadcasts until the radio
has sent them, in one list with the messages for single devices.  The downloader takes one request
after the other.

`updateStep` is what happens next, in any order.  A page is pending from the time it is passed to
the operation task until its result function is called; `SystemInv.operate` says that the
operation task loses no page and adds none.
-/

namespace WiotaAp

open Buffers

/-! ### The system -/

/-- The state of the tasks: the record of the update, the requests of the downloader that are queued
or running, the queue and the list of the operation task, the results in the queue of the logic
task, and the number of broadcasts whose callback is to come.  `stream` is the length of the file of
the last broadcast that was started since the last update message, and `chunks` are the chunks that
have been handed out for it. -/
structure UpdateSystem where
  update : ManagerUpdate
  downloads : List DownloadRequest
  operationQueue : List OperationMsg
  sendList : List OperationPage
  results : List OperationPage
  broadcasts : ℕ
  stream : Option Int32
  chunks : List OtaData
  deriving DecidableEq, Repr

/-- The state at the start. -/
def UpdateSystem.init : UpdateSystem :=
  ⟨.init, [], [], [], [], 0, none, []⟩

/-- The result function is one of a broadcast of an update. -/
def ResultFunction.isOta : ResultFunction → Bool
  | .managerOtaStateResult => true
  | .managerOtaMsgResult => true
  | .managerOtaResendMsgResult => true
  | _ => false

/-- A message for one device: it has another command and another result function than the
broadcasts of an update. -/
structure UnicastData where
  data : OperationData
  cmd_ne : data.cmd ≠ appCmdGetSpecificDataSponse
  func_ne : ∀ func, data.resultFunction = some func → func.isOta = false

/-- The block of a message; the addresses of the blocks are not looked at. -/
def operationPage (data : OperationData) : OperationPage :=
  ⟨0, data⟩

/-- Broadcasts are passed to the operation task. -/
def UpdateSystem.post (s : UpdateSystem) (operations : List OperationData) : UpdateSystem :=
  { s with
    operationQueue :=
      s.operationQueue ++ operations.map fun operation => .otaRadio (operationPage operation) }

/-- What `manager_start_send_page` leaves is taken over. -/
def UpdateSystem.sendPage (s : UpdateSystem) (page : SentPage) : UpdateSystem :=
  UpdateSystem.post { s with update := page.update, chunks := s.chunks ++ page.chunk.toList }
    page.operations

/-- What can happen: an update message for the devices `dest`, the end of a download, a message of a
device, a message for a device, a broadcast of the state, the result of a message, the end of a
broadcast; and the operation task takes a message, or the logic task a result. -/
inductive UpdateEvent
  | networkUpdate (dest : List UInt32) (json : NetworkOtaJson)
  | downloaded (http : HttpMessage)
  | wiotaMsg (id : UInt32) (header : AppPsHeader) (decodeData : Option (List UInt8))
      (ulData : List UInt8)
  | unicast (message : UnicastData)
  | sendState (state : ManagerOtaState)
  | unicastResult (res : SendRecv)
  | broadcastDone
  | operate
  | handleResult

/-- An event, and the rest of the system at that time. -/
structure UpdateInput where
  env : UpdateEnv
  event : UpdateEvent

/-- The calls that leave the operation task. -/
def UpdateSystem.perform (s : UpdateSystem) (action : OperationAction) : UpdateSystem :=
  match action with
  | .otaBroadcast _ => { s with broadcasts := s.broadcasts + 1 }
  | .sendResult page => { s with results := s.results ++ [page] }
  | .sendData _ => s
  | .normalBroadcast _ => s

/-- The operation task takes the next message of its queue. -/
def UpdateSystem.operate (s : UpdateSystem) : Except Fault UpdateSystem :=
  match s.operationQueue with
  | [] => .ok s
  | message :: rest => do
    let (list, actions) ← managerOperation true message s.sendList
    return actions.foldl UpdateSystem.perform { s with operationQueue := rest, sendList := list }

/-- The logic task takes the next result: `manager_ota_msg_result` goes on with the next chunk and
`manager_ota_resend_msg_result` with the next flag; the others are done. -/
def UpdateSystem.handleResult (env : UpdateEnv) (s : UpdateSystem) : Except Fault UpdateSystem :=
  match s.results with
  | [] => .ok s
  | page :: rest =>
    match page.data.resultFunction with
    | some .managerOtaMsgResult => do
      let sent ← managerStartSendPage env s.update
      return UpdateSystem.sendPage { s with results := rest } sent
    | some .managerOtaResendMsgResult => do
      let (update, operations) ← managerResendData env s.update
      return UpdateSystem.post { s with results := rest, update := update } operations
    | _ => .ok { s with results := rest }

/-- The length of the file whose broadcast `manager_start_update` has started. -/
def startedStream (http : HttpMessage) (update : ManagerUpdate) (sent : SentPage) : Option Int32 :=
  if sent.update.state = .system ∨ http.ok = false ∨ update.info.activeState = 0 then none
  else some http.downFileSize

/-- The logic task takes the end of the running download. -/
def UpdateSystem.downloaded (env : UpdateEnv) (http : HttpMessage) (s : UpdateSystem) :
    Except Fault UpdateSystem :=
  match s.downloads with
  | [] => .ok s
  | _ :: rest => do
    let sent ← managerStartUpdate env http s.update
    return UpdateSystem.sendPage
      { s with downloads := rest, stream := startedStream http s.update sent, chunks := [] } sent

/-- The calls that a message of a device leads to.  The messages for devices among them are events
of their own. -/
def UpdateSystem.msgAction (env : UpdateEnv) (s : UpdateSystem) (action : MsgAction) :
    Except Fault UpdateSystem :=
  match action with
  | .otaSendState state => do
    let operations ← managerOtaSendState env s.update state
    return s.post operations
  | .otaResendData data => do
    let (update, operations) ← managerOtaResendData env data s.update
    return UpdateSystem.post { s with update := update } operations
  | _ => .ok s

/-- What the logic task knows of the rest of the manager when it takes a message of a device. -/
def UpdateSystem.managerEnv (env : UpdateEnv) (s : UpdateSystem) : ManagerEnv where
  decompress := id
  malloc := fun _ => true
  otaState := s.update.state
  queryWiotaid := env.queryWiotaid

/-- What happens next.  When the access point has updated itself, the chip reboots. -/
def updateStep (input : UpdateInput) (s : UpdateSystem) : Except Fault UpdateSystem :=
  if s.update.state = .system then .ok s
  else
    match input.event with
    | .networkUpdate dest json => do
      let (update, downloads) ← netUpdateVersionSponse dest json s.update
      return { s with update := update, downloads := s.downloads ++ downloads, stream := none }
    | .downloaded http => s.downloaded input.env http
    | .wiotaMsg id header decodeData ulData =>
      (runMsg (s.managerEnv input.env) id header decodeData ulData).foldlM
        (UpdateSystem.msgAction input.env) s
    | .unicast message =>
      .ok { s with operationQueue := s.operationQueue ++ [.msg (operationPage message.data)] }
    | .sendState state => s.msgAction input.env (.otaSendState state)
    | .unicastResult res => .ok { s with operationQueue := s.operationQueue ++ [.msgResult res] }
    | .broadcastDone =>
      if 0 < s.broadcasts then
        .ok { s with
          broadcasts := s.broadcasts - 1
          operationQueue := s.operationQueue ++ [.otaRadioResult] }
      else .ok s
    | .operate => s.operate
    | .handleResult => s.handleResult input.env

/-- `cJSON_CreateNumber` for examples, with numbers that are no fractions. -/
def intItem (n : ℤ) : JsonItem Int32 :=
  .number (Int32.ofInt n) (Int32.ofInt n)

/-- A system for examples: descriptions as `cJSON_Print` gives them, an empty flash and no
compression. -/
def sampleUpdateEnv (resend : Option IoteResendJson) : UpdateEnv where
  print := fun description => (jsonText .ints true 0 (description.item intItem)).getD []
  printState := fun description => (jsonText .ints true 0 (description.item intItem)).getD []
  parseResend := fun _ => resend
  flash := fun _ => 0
  compress := fun _ => none
  queryWiotaid := id

/-- An update message for devices of the type "iote". -/
def sampleOtaJson (state : Int32) : NetworkOtaJson where
  state := some state
  range := none
  newVersion := some (textBytes "v2.0")
  oldVersion := some (textBytes "v1.1")
  devType := some (textBytes "iote")
  updateType := some 0
  file := some (textBytes "iote_v2.bin")
  size := some 1024
  md5 := some (textBytes "900150983cd24fb0d6963f7d28e17f72")
  accessInfo := none

/-- An event in a system for examples. -/
def sampleInput (event : UpdateEvent) : UpdateInput :=
  ⟨sampleUpdateEnv none, event⟩

/-- The way of `n` broadcasts through the operation task, each until its result is handled. -/
def sampleRounds (n : ℕ) : List UpdateInput :=
  (List.replicate n [.operate, .broadcastDone, .operate, .handleResult]).flatten.map sampleInput

/-! ### Pending pages -/

/-- The page of a message of the queue. -/
def OperationMsg.page? : OperationMsg → Option OperationPage
  | .msg page => some page
  | .radio page => some page
  | .otaRadio page => some page
  | _ => none

/-- What a page keeps from its send to its result: the result function and the command. -/
def OperationPage.kind (page : OperationPage) : Option ResultFunction × UInt32 :=
  (page.data.resultFunction, page.data.cmd)

/-- The pages that are pending: in the queue or the list of the operation task, or in the queue of
the logic task. -/
def UpdateSystem.pending (s : UpdateSystem) : List OperationPage :=
  s.operationQueue.filterMap OperationMsg.page? ++ (s.sendList ++ s.results)

/-- The number of pending pages of some kinds. -/
def UpdateSystem.count (s : UpdateSystem) (p : Option ResultFunction × UInt32 → Bool) : ℕ :=
  s.pending.countP fun page => p page.kind

/-- The number of pending pages with a result function. -/
def UpdateSystem.countOf (s : UpdateSystem) (func : ResultFunction) : ℕ :=
  s.count fun kind => kind.1 == some func

/-- The pages are counted in each place. -/
lemma UpdateSystem.count_eq (s : UpdateSystem) (p : Option ResultFunction × UInt32 → Bool) :
    s.count p =
      (s.operationQueue.filterMap OperationMsg.page?).countP (fun page => p page.kind) +
        (s.sendList.countP (fun page => p page.kind) +
          s.results.countP (fun page => p page.kind)) := by
  rw [UpdateSystem.count, UpdateSystem.pending, List.countP_append, List.countP_append]

/-- The pages of new messages are pending. -/
lemma UpdateSystem.count_append (s : UpdateSystem) (messages : List OperationMsg)
    (p : Option ResultFunction × UInt32 → Bool) :
    UpdateSystem.count { s with operationQueue := s.operationQueue ++ messages } p =
      s.count p + (messages.filterMap OperationMsg.page?).countP fun page => p page.kind := by
  rw [UpdateSystem.count_eq, UpdateSystem.count_eq]
  dsimp only
  rw [List.filterMap_append, List.countP_append]
  omega

/-- The broadcasts that are passed to the operation task are pending. -/
lemma UpdateSystem.count_post (s : UpdateSystem) {func : ResultFunction}
    {operations : List OperationData} (h : OtaOperations func operations)
    (p : Option ResultFunction × UInt32 → Bool) :
    (s.post operations).count p = s.count p +
      if p (some func, appCmdGetSpecificDataSponse) then operations.length else 0 := by
  have hpages : (operations.map fun operation =>
      OperationMsg.otaRadio (operationPage operation)).filterMap OperationMsg.page? =
        operations.map operationPage := by
    rw [List.filterMap_map]
    exact congrFun List.filterMap_eq_map operations
  unfold UpdateSystem.post
  rw [UpdateSystem.count_append, hpages, List.countP_map]
  congr 1
  split
  · rename_i hp
    refine List.countP_eq_length.mpr fun operation hmem => ?_
    obtain ⟨outputData, rfl⟩ := h operation hmem
    exact hp
  · rename_i hp
    refine List.countP_eq_zero.mpr fun operation hmem => ?_
    obtain ⟨outputData, rfl⟩ := h operation hmem
    exact hp

/-- The same for one result function. -/
lemma UpdateSystem.countOf_post (s : UpdateSystem) {func : ResultFunction}
    {operations : List OperationData} (h : OtaOperations func operations) (func' : ResultFunction) :
    (s.post operations).countOf func' =
      s.countOf func' + if func = func' then operations.length else 0 := by
  rw [UpdateSystem.countOf, s.count_post h]
  by_cases hfunc : func = func'
  · rw [if_pos hfunc, if_pos (beq_iff_eq.mpr (congrArg some hfunc))]
    rfl
  · rw [if_neg hfunc, if_neg fun heq => hfunc (Option.some.inj (beq_iff_eq.mp heq))]
    rfl

/-- The broadcasts of `manager_start_send_page` are pending. -/
lemma UpdateSystem.countOf_sendPage (s : UpdateSystem) {sent : SentPage} {func : ResultFunction}
    (h : OtaOperations func sent.operations) (func' : ResultFunction) :
    (s.sendPage sent).countOf func' =
      s.countOf func' + if func = func' then sent.operations.length else 0 :=
  UpdateSystem.countOf_post
    { s with update := sent.update, chunks := s.chunks ++ sent.chunk.toList } h func'

/-- A result that is taken is not pending any more. -/
lemma UpdateSystem.count_results {s : UpdateSystem} {page : OperationPage}
    {rest : List OperationPage} (h : s.results = page :: rest)
    (p : Option ResultFunction × UInt32 → Bool) :
    s.count p = UpdateSystem.count { s with results := rest } p + if p page.kind then 1 else 0 := by
  rw [UpdateSystem.count_eq, UpdateSystem.count_eq, h, List.countP_cons]
  dsimp only
  omega

/-- The same for one result function. -/
lemma UpdateSystem.countOf_results {s : UpdateSystem} {page : OperationPage}
    {rest : List OperationPage} (h : s.results = page :: rest) {func : ResultFunction}
    (hpage : page.data.resultFunction = some func) (func' : ResultFunction) :
    s.countOf func' = UpdateSystem.countOf { s with results := rest } func' +
      if func = func' then 1 else 0 := by
  rw [UpdateSystem.countOf, UpdateSystem.count_results h, OperationPage.kind, hpage]
  by_cases hfunc : func = func'
  · rw [if_pos hfunc, if_pos (beq_iff_eq.mpr (congrArg some hfunc))]
    rfl
  · rw [if_neg hfunc, if_neg fun heq => hfunc (Option.some.inj (beq_iff_eq.mp heq))]
    rfl

/-! ### The operation task -/

/-- A page is a broadcast of an update for the operation task. -/
def OperationPage.isOta (page : OperationPage) : Bool :=
  managerOtaRemoveCb page

/-- The messages of the queue that can occur here. -/
def OperationMsg.Expected : OperationMsg → Prop
  | .msg page => page.isOta = false
  | .msgResult _ => True
  | .otaRadio _ => True
  | .otaRadioResult => True
  | _ => False

/-- The message is the end of a broadcast. -/
def OperationMsg.isEnd (message : OperationMsg) : Bool :=
  message == .otaRadioResult

/-- The kind has the result function of a broadcast of an update, but another command. -/
def mislabelled (kind : Option ResultFunction × UInt32) : Bool :=
  kind.1.any ResultFunction.isOta && kind.2 != appCmdGetSpecificDataSponse

/-- The queue holds messages that are expected, the pages with a result function of an update have
its command, and there are at least as many ends of broadcasts to come as there are broadcasts in
the list. -/
structure SystemInv (s : UpdateSystem) : Prop where
  expected : ∀ message ∈ s.operationQueue, message.Expected
  labelled : s.count mislabelled = 0
  accounted : s.sendList.countP OperationPage.isOta ≤
    s.broadcasts + s.operationQueue.countP OperationMsg.isEnd

/-- The invariant holds at the start. -/
lemma systemInv_init : SystemInv .init :=
  ⟨fun _ hmem => (List.not_mem_nil hmem).elim, rfl, le_rfl⟩

/-- How many steps a message of the queue can cause at most until its result is taken, if nothing
new is sent. -/
def OperationMsg.weight : OperationMsg → ℕ
  | .otaRadio _ => 4
  | .otaRadioResult => 2
  | .msgResult _ => 2
  | _ => 1

/-- The same for all that is pending. -/
def UpdateSystem.weight (s : UpdateSystem) : ℕ :=
  (s.operationQueue.map OperationMsg.weight).sum + 3 * s.broadcasts + s.results.length

/-- The weight of new broadcasts. -/
lemma UpdateSystem.weight_post (s : UpdateSystem) (operations : List OperationData) :
    (s.post operations).weight = s.weight + 4 * operations.length := by
  have hsum : ((operations.map fun operation =>
      OperationMsg.otaRadio (operationPage operation)).map OperationMsg.weight).sum =
        4 * operations.length := by
    have hconst : OperationMsg.weight ∘ (fun operation =>
        OperationMsg.otaRadio (operationPage operation)) = Function.const OperationData 4 := rfl
    rw [List.map_map, hconst, List.map_const, List.sum_replicate, smul_eq_mul, Nat.mul_comm]
  unfold UpdateSystem.weight UpdateSystem.post
  dsimp only
  rw [List.map_append, List.sum_append, hsum]
  omega

/-- The weight without the first result. -/
lemma UpdateSystem.weight_results {s : UpdateSystem} {page : OperationPage}
    {rest : List OperationPage} (h : s.results = page :: rest) :
    s.weight = UpdateSystem.weight { s with results := rest } + 1 := by
  unfold UpdateSystem.weight
  rw [h, List.length_cons]
  rfl

/-- The end of a broadcast changes nothing only if there is no broadcast in the list. -/
lemma countP_isOta_eq_zero {list : List OperationPage}
    (h : managerOtaResultMsg list = (list, [])) : list.countP OperationPage.isOta = 0 := by
  unfold managerOtaResultMsg at h
  cases hquery : queryHeadList list managerOtaRemoveCb with
  | none =>
    refine List.countP_eq_zero.mpr fun page hpage => ?_
    exact Bool.not_eq_true _ ▸ queryHeadList_eq_none.mp hquery page hpage
  | some node =>
    obtain ⟨pre, process, post, rfl, rfl, -, -⟩ := exists_of_queryHeadList hquery
    simp only [hquery, getElem?_cut] at h
    exact absurd (congrArg Prod.snd h) (List.cons_ne_nil _ _)

/-- Counting in a list around one of its elements. -/
lemma countP_cut {α : Type} (p : α → Bool) (pre post : List α) (a : α) :
    (pre ++ a :: post).countP p = (pre ++ post).countP p + [a].countP p := by
  rw [List.countP_append, ← List.singleton_append, List.countP_append, List.countP_append]
  omega

/-- What the operation task does keeps. -/
structure Operated (s s' : UpdateSystem) : Prop where
  inv : SystemInv s'
  count_eq : ∀ p, s'.count p = s.count p
  update_eq : s'.update = s.update
  downloads_eq : s'.downloads = s.downloads
  stream_eq : s'.stream = s.stream
  chunks_eq : s'.chunks = s.chunks
  weight_lt : s.operationQueue ≠ [] → s'.weight < s.weight

/-- A step of the operation task. -/
lemma Operated.of_lists {s s' : UpdateSystem} (hinv : SystemInv s) {message : OperationMsg}
    {rest : List OperationMsg} (hqueue : s.operationQueue = message :: rest)
    (hqueue' : s'.operationQueue = rest)
    (hrest : s'.update = s.update ∧ s'.downloads = s.downloads ∧ s'.stream = s.stream ∧
      s'.chunks = s.chunks)
    (hcount : ∀ p : Option ResultFunction × UInt32 → Bool,
      s'.sendList.countP (fun page => p page.kind) + s'.results.countP (fun page => p page.kind) =
        message.page?.toList.countP (fun page => p page.kind) +
          (s.sendList.countP (fun page => p page.kind) +
            s.results.countP (fun page => p page.kind)))
    (hota : s'.sendList.countP OperationPage.isOta = 0 ∨
      s'.sendList.countP OperationPage.isOta + s.broadcasts + (if message.isEnd then 1 else 0) ≤
        s.sendList.countP OperationPage.isOta + s'.broadcasts)
    (hweight : 3 * s'.broadcasts + s'.results.length <
      message.weight + 3 * s.broadcasts + s.results.length) : Operated s s' := by
  have hcounts : ∀ p, s'.count p = s.count p := by
    intro p
    have hpages : (message :: rest).filterMap OperationMsg.page? =
        message.page?.toList ++ rest.filterMap OperationMsg.page? := by
      cases hpage : message.page? with
      | none => rw [List.filterMap_cons_none hpage]; rfl
      | some page => rw [List.filterMap_cons_some hpage]; rfl
    rw [UpdateSystem.count_eq, UpdateSystem.count_eq, hqueue, hqueue', hpages, List.countP_append,
      hcount p]
    omega
  refine ⟨⟨?_, ?_, ?_⟩, hcounts, hrest.1, hrest.2.1, hrest.2.2.1, hrest.2.2.2, fun _ => ?_⟩
  · intro m hm
    exact hinv.expected m (hqueue ▸ List.mem_cons_of_mem message (hqueue' ▸ hm))
  · rw [hcounts]
    exact hinv.labelled
  · have haccounted := hinv.accounted
    rw [hqueue, List.countP_cons] at haccounted
    rw [hqueue']
    omega
  · rw [UpdateSystem.weight, UpdateSystem.weight, hqueue, hqueue', List.map_cons, List.sum_cons]
    omega

/-- A result that is not reported: the list may have been put into another order. -/
lemma Operated.keep {s : UpdateSystem} (hinv : SystemInv s) {message : OperationMsg}
    {rest : List OperationMsg} (hqueue : s.operationQueue = message :: rest)
    (hpage : message.page? = none) (hweight : message.weight = 2) {list : List OperationPage}
    (hcount : ∀ p : Option ResultFunction × UInt32 → Bool,
      list.countP (fun page => p page.kind) = s.sendList.countP (fun page => p page.kind))
    (hend : message.isEnd = true → list.countP OperationPage.isOta = 0) :
    Operated s { s with operationQueue := rest, sendList := list } := by
  refine .of_lists hinv hqueue rfl ⟨rfl, rfl, rfl, rfl⟩ (fun p => ?_) ?_ ?_
  · rw [hpage, hcount p]
    exact (Nat.zero_add _).symm
  · cases hmessage : message.isEnd with
    | true => exact .inl (hend hmessage)
    | false => exact .inr (Nat.add_le_add_right
        (hcount fun kind => kind.2 == appCmdGetSpecificDataSponse).le s.broadcasts)
  · rw [hweight]
    dsimp only
    omega

/-- A result that is reported: the page goes from the list to the queue of the logic task. -/
lemma Operated.report {s : UpdateSystem} (hinv : SystemInv s) {message : OperationMsg}
    {rest : List OperationMsg} (hqueue : s.operationQueue = message :: rest)
    (hpage : message.page? = none) (hweight : message.weight = 2)
    {pre post : List OperationPage} {process page : OperationPage}
    (hlist : s.sendList = pre ++ process :: post) (hkind : page.kind = process.kind)
    (hend : message.isEnd = true → process.isOta = true) :
    Operated s { s with
      operationQueue := rest, sendList := pre ++ post, results := s.results ++ [page] } := by
  refine .of_lists hinv hqueue rfl ⟨rfl, rfl, rfl, rfl⟩ (fun p => ?_) (.inr ?_) ?_
  · have hsame : [page].countP (fun page => p page.kind) =
        [process].countP fun page => p page.kind := by
      rw [List.countP_singleton, List.countP_singleton, hkind]
    have hresults : (s.results ++ [page]).countP (fun page => p page.kind) =
        s.results.countP (fun page => p page.kind) + [page].countP fun page => p page.kind :=
      List.countP_append
    have hcut := countP_cut (fun page => p page.kind) pre post process
    rw [hpage, hlist, hcut, ← hsame, hresults]
    dsimp only [Option.toList]
    rw [List.countP_nil]
    omega
  · rw [hlist, countP_cut, List.countP_singleton]
    dsimp only
    cases hmessage : message.isEnd with
    | true =>
      rw [hend hmessage]
      omega
    | false =>
      rw [if_neg Bool.false_ne_true]
      omega
  · rw [hweight]
    dsimp only
    rw [List.length_append, List.length_singleton]
    omega

/-- A page that is sent waits in the list; the callback of a broadcast is to come. -/
lemma Operated.send {s : UpdateSystem} (hinv : SystemInv s) {message : OperationMsg}
    {rest : List OperationMsg} (hqueue : s.operationQueue = message :: rest) {page : OperationPage}
    (hpage : message.page? = some page) {n : ℕ} (hweight : message.weight = 3 * n + 1)
    (hota : [page].countP OperationPage.isOta ≤ n) (hend : message.isEnd = false) :
    Operated s { s with
      operationQueue := rest
      sendList := s.sendList ++ [page]
      broadcasts := s.broadcasts + n } := by
  refine .of_lists hinv hqueue rfl ⟨rfl, rfl, rfl, rfl⟩ (fun p => ?_) (.inr ?_) ?_
  · rw [hpage]
    dsimp only [Option.toList]
    rw [List.countP_append]
    omega
  · rw [hend, if_neg Bool.false_ne_true]
    dsimp only
    rw [List.countP_append]
    omega
  · rw [hweight]
    dsimp only
    omega

/-- The operation task can always go on.  It loses no page and adds none, and takes the weight
down. -/
lemma SystemInv.exists_operate {s : UpdateSystem} (hinv : SystemInv s) :
    ∃ s', s.operate = .ok s' ∧ Operated s s' := by
  unfold UpdateSystem.operate
  cases hqueue : s.operationQueue with
  | nil => exact ⟨s, rfl, hinv, fun _ => rfl, rfl, rfl, rfl, rfl, fun h => (h hqueue).elim⟩
  | cons message rest =>
    have hexpected := hinv.expected message (hqueue ▸ List.mem_cons_self)
    cases message with
    | msg page =>
      have hota : [page].countP OperationPage.isOta ≤ 0 := by
        rw [List.countP_singleton, hexpected]
        exact le_rfl
      exact ⟨_, rfl, .send hinv hqueue rfl rfl hota rfl⟩
    | otaRadio page => exact ⟨_, rfl, .send hinv hqueue rfl rfl List.countP_le_length rfl⟩
    | msgResult res =>
      have hnot : ∀ {q : Prop}, (OperationMsg.msgResult res).isEnd = true → q :=
        fun h => (Bool.false_ne_true h).elim
      simp only [managerOperation, ok_bind]
      rcases managerOperateResult_cases s.sendList res with
        ⟨-, hres⟩ | ⟨pre, process, post, hfirst, ⟨-, hres⟩ | ⟨-, -, hres⟩ | ⟨-, -, hres⟩⟩
      · rw [hres]
        exact ⟨_, rfl, .keep hinv hqueue rfl rfl (fun _ => rfl) hnot⟩
      · rw [hres]
        exact ⟨_, rfl, .report hinv hqueue rfl rfl hfirst.list_eq rfl hnot⟩
      · rw [hres]
        exact ⟨_, rfl, .report hinv hqueue rfl rfl hfirst.list_eq rfl hnot⟩
      · rw [hres]
        refine ⟨_, rfl, .keep hinv hqueue rfl rfl (fun p => ?_) hnot⟩
        rw [hfirst.list_eq, countP_cut, List.countP_cons, List.countP_singleton]
        rfl
    | otaRadioResult =>
      simp only [managerOperation, ok_bind]
      rcases managerOtaResultMsg_cases s.sendList with
        hres | ⟨pre, process, post, hlist, hcmd, hres⟩
      · rw [hres]
        exact ⟨_, rfl, .keep hinv hqueue rfl rfl (fun _ => rfl) fun _ => countP_isOta_eq_zero hres⟩
      · rw [hres]
        exact ⟨_, rfl, .report hinv hqueue rfl rfl hlist rfl fun _ => beq_iff_eq.mpr hcmd⟩
    | radio page => exact hexpected.elim
    | exit => exact hexpected.elim
    | other => exact hexpected.elim

/-! ### What a step does -/

/-- New messages in the queue keep the invariant, if they are expected. -/
lemma SystemInv.append {s : UpdateSystem} (h : SystemInv s) {messages : List OperationMsg} {n : ℕ}
    (hexpected : ∀ message ∈ messages, message.Expected)
    (hlabelled :
      (messages.filterMap OperationMsg.page?).countP (fun page => mislabelled page.kind) = 0)
    (hcount : s.broadcasts ≤ n + messages.countP OperationMsg.isEnd) :
    SystemInv { s with operationQueue := s.operationQueue ++ messages, broadcasts := n } := by
  refine ⟨?_, ?_, ?_⟩
  · intro message hmem
    rcases List.mem_append.mp hmem with hmem | hmem
    · exact h.expected message hmem
    · exact hexpected message hmem
  · have hsum := s.count_append messages mislabelled
    rw [h.labelled, hlabelled] at hsum
    exact hsum
  · have haccounted := h.accounted
    dsimp only
    rw [List.countP_append]
    omega

/-- Broadcasts that are passed to the operation task keep the invariant. -/
lemma SystemInv.post {s : UpdateSystem} (h : SystemInv s) {func : ResultFunction}
    {operations : List OperationData} (hops : OtaOperations func operations) :
    SystemInv (s.post operations) := by
  refine ⟨?_, ?_, ?_⟩
  · intro message hmem
    rcases List.mem_append.mp hmem with hmem | hmem
    · exact h.expected message hmem
    · obtain ⟨operation, -, rfl⟩ := List.mem_map.mp hmem
      trivial
  · rw [s.count_post hops, h.labelled, mislabelled, bne_self_eq_false, Bool.and_false,
      if_neg Bool.false_ne_true]
  · have haccounted := h.accounted
    unfold UpdateSystem.post
    dsimp only
    rw [List.countP_append]
    omega

/-- Taking a result keeps the invariant. -/
lemma SystemInv.results {s : UpdateSystem} (h : SystemInv s) {page : OperationPage}
    {rest : List OperationPage} (hresults : s.results = page :: rest) :
    SystemInv { s with results := rest } := by
  refine ⟨h.expected, ?_, h.accounted⟩
  have hsum := UpdateSystem.count_results hresults mislabelled
  rw [h.labelled] at hsum
  omega

/-- The invariant does not look at the rest of the state. -/
lemma SystemInv.congr {s s' : UpdateSystem} (h : SystemInv s)
    (hqueue : s'.operationQueue = s.operationQueue) (hlist : s'.sendList = s.sendList)
    (hresults : s'.results = s.results) (hbroadcasts : s'.broadcasts = s.broadcasts) :
    SystemInv s' := by
  refine ⟨?_, ?_, ?_⟩
  · rw [hqueue]
    exact h.expected
  · rw [UpdateSystem.count_eq, hqueue, hlist, hresults, ← UpdateSystem.count_eq]
    exact h.labelled
  · rw [hqueue, hlist, hbroadcasts]
    exact h.accounted

/-- The step has to do with neither the update nor the chunks: the number of pending pages with the
result function of a chunk stays. -/
structure Kept (s s' : UpdateSystem) : Prop where
  update_eq : s'.update = s.update
  downloads_eq : s'.downloads = s.downloads
  stream_eq : s'.stream = s.stream
  chunks_eq : s'.chunks = s.chunks
  countOf_eq : ∀ func, func.isOta = true → func ≠ .managerOtaStateResult →
    s'.countOf func = s.countOf func

/-- Nothing happens. -/
lemma Kept.refl (s : UpdateSystem) : Kept s s :=
  ⟨rfl, rfl, rfl, rfl, fun _ _ _ => rfl⟩

/-- The header of the request of a device, `APP_CMD_GET_SPECIFIC_DATA_REQUEST`. -/
def IsResendRequest (header : AppPsHeader) : Prop :=
  header.property.responseFlag = false ∧ header.cmdType.toNat = 52

instance (header : AppPsHeader) : Decidable (IsResendRequest header) :=
  inferInstanceAs (Decidable (_ ∧ _))

/-- What a step does: nothing to the update; or an update message, the end of a download, the
request of a device, the result of a chunk or that of a resent chunk is handled. -/
inductive UpdateEffect (input : UpdateInput) (s : UpdateSystem) : UpdateSystem → Prop
  | kept {s' : UpdateSystem} (hkept : Kept s s') : UpdateEffect input s s'
  | networkUpdate {dest : List UInt32} {json : NetworkOtaJson} {update : ManagerUpdate}
      {downloads : List DownloadRequest} (hevent : input.event = .networkUpdate dest json)
      (hcall : netUpdateVersionSponse dest json s.update = .ok (update, downloads)) :
      UpdateEffect input s
        { s with update := update, downloads := s.downloads ++ downloads, stream := none }
  | downloaded {http : HttpMessage} {request : DownloadRequest} {rest : List DownloadRequest}
      {sent : SentPage} (hevent : input.event = .downloaded http)
      (hdownloads : s.downloads = request :: rest)
      (hcall : managerStartUpdate input.env http s.update = .ok sent) :
      UpdateEffect input s (UpdateSystem.sendPage
        { s with
          downloads := rest
          stream := startedStream http s.update sent
          chunks := [] } sent)
  | resendRequest {id : UInt32} {header : AppPsHeader} {decodeData : Option (List UInt8)}
      {ulData : List UInt8} {update : ManagerUpdate} {operations : List OperationData}
      (hevent : input.event = .wiotaMsg id header decodeData ulData)
      (hheader : IsResendRequest header) (hstate : s.update.state = .stop)
      (hcall : managerOtaResendData input.env decodeData s.update = .ok (update, operations)) :
      UpdateEffect input s (UpdateSystem.post { s with update := update } operations)
  | chunkResult {page : OperationPage} {rest : List OperationPage} {sent : SentPage}
      (hevent : input.event = .handleResult) (hresults : s.results = page :: rest)
      (hfunc : page.data.resultFunction = some .managerOtaMsgResult)
      (hcall : managerStartSendPage input.env s.update = .ok sent) :
      UpdateEffect input s (UpdateSystem.sendPage { s with results := rest } sent)
  | resendResult {page : OperationPage} {rest : List OperationPage} {update : ManagerUpdate}
      {operations : List OperationData} (hevent : input.event = .handleResult)
      (hresults : s.results = page :: rest)
      (hfunc : page.data.resultFunction = some .managerOtaResendMsgResult)
      (hcall : managerResendData input.env s.update = .ok (update, operations)) :
      UpdateEffect input s (UpdateSystem.post { s with results := rest, update := update }
        operations)

/-- What a message of a device leads to: the state is broadcast, or a request is handled, which
needs the state `MANAGER_UPDATE_STOP`, or it has nothing to do with the update. -/
lemma foldlM_runMsg (env : UpdateEnv) (s : UpdateSystem) (id : UInt32) (header : AppPsHeader)
    (decodeData : Option (List UInt8)) (ulData : List UInt8) :
    (∃ state, (runMsg (s.managerEnv env) id header decodeData ulData).foldlM
        (UpdateSystem.msgAction env) s = s.msgAction env (.otaSendState state)) ∨
    (IsResendRequest header ∧ s.update.state = .stop ∧
      (runMsg (s.managerEnv env) id header decodeData ulData).foldlM
        (UpdateSystem.msgAction env) s = s.msgAction env (.otaResendData decodeData)) ∨
    (runMsg (s.managerEnv env) id header decodeData ulData).foldlM
        (UpdateSystem.msgAction env) s = .ok s := by
  have hone : ∀ action, [action].foldlM (UpdateSystem.msgAction env) s =
      s.msgAction env action := by
    intro action
    rw [List.foldlM_cons]
    cases s.msgAction env action <;> rfl
  unfold runMsg
  split
  · exact .inr (.inr rfl)
  · rename_i hresponse
    unfold runCmd
    split
    iterate 4 exact .inr (.inr rfl)
    · split
      · exact .inr (.inr rfl)
      · exact .inr (.inr rfl)
    · split
      · exact .inr (.inr rfl)
      · exact .inl ⟨_, hone _⟩
    · rename_i hcmd
      split
      · exact .inl ⟨_, hone _⟩
      · split
        · rename_i hstop
          exact .inr (.inl ⟨⟨eq_false_of_ne_true hresponse, hcmd⟩, hstop, hone _⟩)
        · exact .inl ⟨_, hone _⟩
    · exact .inr (.inr rfl)
    · exact .inr (.inr rfl)

/-- A broadcast of the state has nothing to do with the chunks. -/
lemma SystemInv.sendState {env : UpdateEnv} {s s' : UpdateSystem} (hinv : SystemInv s)
    {state : ManagerOtaState} (h : s.msgAction env (.otaSendState state) = .ok s') :
    SystemInv s' ∧ Kept s s' := by
  obtain ⟨operations, hsend, hops⟩ := exists_managerOtaSendState env s.update state
  rw [UpdateSystem.msgAction, hsend] at h
  cases h
  refine ⟨hinv.post hops, rfl, rfl, rfl, rfl, fun func _ hfunc => ?_⟩
  rw [s.countOf_post hops, if_neg hfunc.symm, Nat.add_zero]

/-- A message for a device has nothing to do with the update. -/
lemma SystemInv.unicast {s : UpdateSystem} (hinv : SystemInv s) (message : UnicastData) :
    SystemInv { s with operationQueue := s.operationQueue ++ [.msg (operationPage message.data)] } ∧
      Kept s { s with
        operationQueue := s.operationQueue ++ [.msg (operationPage message.data)] } := by
  refine ⟨hinv.append ?_ ?_ le_rfl, rfl, rfl, rfl, rfl, fun func hota _ => ?_⟩
  · intro m hm
    rw [List.mem_singleton.mp hm]
    exact beq_eq_false_iff_ne.mpr message.cmd_ne
  · have hany : message.data.resultFunction.any ResultFunction.isOta = false := by
      cases hfunc : message.data.resultFunction with
      | none => rfl
      | some func => exact message.func_ne func hfunc
    refine List.countP_eq_zero.mpr fun page hpage => ?_
    cases List.mem_singleton.mp hpage
    rw [mislabelled, OperationPage.kind, operationPage, hany, Bool.false_and]
    exact Bool.false_ne_true
  · have hne : ¬ (message.data.resultFunction == some func) = true := by
      intro heq
      have hnot := message.func_ne func (beq_iff_eq.mp heq)
      exact Bool.false_ne_true (hnot.symm.trans hota)
    have hsum := s.count_append [.msg (operationPage message.data)] fun kind => kind.1 == some func
    rw [List.countP_eq_zero.mpr] at hsum
    · exact hsum
    · intro page hpage
      cases List.mem_singleton.mp hpage
      exact hne

/-- A message without a page, the result of a transmission or the end of a broadcast, has nothing to
do with the update. -/
lemma SystemInv.noPage {s : UpdateSystem} (hinv : SystemInv s) {message : OperationMsg}
    (hexpected : message.Expected) (hpage : message.page? = none) {n : ℕ}
    (hcount : s.broadcasts ≤ n + [message].countP OperationMsg.isEnd) :
    SystemInv { s with broadcasts := n, operationQueue := s.operationQueue ++ [message] } ∧
      Kept s { s with broadcasts := n, operationQueue := s.operationQueue ++ [message] } := by
  have hnone : [message].filterMap OperationMsg.page? = [] := by
    rw [List.filterMap_cons, hpage, List.filterMap_nil]
  refine ⟨hinv.append ?_ ?_ hcount, rfl, rfl, rfl, rfl, fun func _ _ => ?_⟩
  · intro m hm
    rw [List.mem_singleton.mp hm]
    exact hexpected
  · rw [hnone]
    rfl
  · have hsum := UpdateSystem.count_append { s with broadcasts := n } [message]
      fun kind => kind.1 == some func
    rw [hnone] at hsum
    exact hsum

/-- The end of a download. -/
lemma SystemInv.downloaded {input : UpdateInput} {s s' : UpdateSystem} (hinv : SystemInv s)
    {http : HttpMessage} (hevent : input.event = .downloaded http)
    (h : s.downloaded input.env http = .ok s') : SystemInv s' ∧ UpdateEffect input s s' := by
  unfold UpdateSystem.downloaded at h
  cases hdownloads : s.downloads with
  | nil =>
    simp only [hdownloads] at h
    cases h
    exact ⟨hinv, .kept (.refl s)⟩
  | cons request rest =>
    simp only [hdownloads] at h
    obtain ⟨sent, hcall, h⟩ := exists_of_bind_eq_ok h
    obtain ⟨func, hops⟩ := managerStartUpdate_operations hcall
    cases h
    refine ⟨SystemInv.post ?_ hops, .downloaded hevent hdownloads hcall⟩
    exact hinv.congr rfl rfl rfl rfl

/-- A message of a device. -/
lemma SystemInv.wiotaMsg {input : UpdateInput} {s s' : UpdateSystem} (hinv : SystemInv s)
    {id : UInt32} {header : AppPsHeader} {decodeData : Option (List UInt8)} {ulData : List UInt8}
    (hevent : input.event = .wiotaMsg id header decodeData ulData)
    (h : (runMsg (s.managerEnv input.env) id header decodeData ulData).foldlM
      (UpdateSystem.msgAction input.env) s = .ok s') : SystemInv s' ∧ UpdateEffect input s s' := by
  rcases foldlM_runMsg input.env s id header decodeData ulData with
    ⟨state, hfold⟩ | ⟨hheader, hstop, hfold⟩ | hfold
  · obtain ⟨hinv', hkept⟩ := hinv.sendState (hfold ▸ h)
    exact ⟨hinv', .kept hkept⟩
  · rw [hfold] at h
    obtain ⟨⟨update, operations⟩, hcall, h⟩ := exists_of_bind_eq_ok h
    obtain ⟨-, -, hops⟩ := managerOtaResendData_frame hcall
    cases h
    refine ⟨SystemInv.post ?_ hops, .resendRequest hevent hheader hstop hcall⟩
    exact hinv.congr rfl rfl rfl rfl
  · cases hfold.symm.trans h
    exact ⟨hinv, .kept (.refl s)⟩

/-- A result of neither a chunk nor a resent chunk is only taken. -/
lemma Kept.results {s : UpdateSystem} {page : OperationPage} {rest : List OperationPage}
    (hresults : s.results = page :: rest)
    (hchunk : page.data.resultFunction ≠ some .managerOtaMsgResult)
    (hresend : page.data.resultFunction ≠ some .managerOtaResendMsgResult) :
    Kept s { s with results := rest } := by
  refine ⟨rfl, rfl, rfl, rfl, fun func hota hstate => ?_⟩
  have hne : ¬ (page.data.resultFunction == some func) = true := by
    intro heq
    have hpage : page.data.resultFunction = some func := beq_iff_eq.mp heq
    cases func with
    | managerOtaMsgResult => exact hchunk hpage
    | managerOtaResendMsgResult => exact hresend hpage
    | managerOtaStateResult => exact hstate rfl
    | managerNetworkToWiotaResult => exact Bool.false_ne_true hota
    | managerControlMessageResult => exact Bool.false_ne_true hota
    | managerReplaceResponseToWiota => exact Bool.false_ne_true hota
  have hsum := UpdateSystem.count_results hresults fun kind => kind.1 == some func
  rw [OperationPage.kind, if_neg hne] at hsum
  exact hsum.symm

/-- The logic task handles a result. -/
lemma SystemInv.handleResult {input : UpdateInput} {s s' : UpdateSystem} (hinv : SystemInv s)
    (hevent : input.event = .handleResult) (h : s.handleResult input.env = .ok s') :
    SystemInv s' ∧ UpdateEffect input s s' := by
  unfold UpdateSystem.handleResult at h
  cases hresults : s.results with
  | nil =>
    simp only [hresults] at h
    cases h
    exact ⟨hinv, .kept (.refl s)⟩
  | cons page rest =>
    simp only [hresults] at h
    have hrest := hinv.results hresults
    split at h
    · rename_i hfunc
      obtain ⟨sent, hcall, h⟩ := exists_of_bind_eq_ok h
      obtain ⟨func, -, hops⟩ := managerStartSendPage_operations hcall
      cases h
      refine ⟨SystemInv.post ?_ hops, .chunkResult hevent hresults hfunc hcall⟩
      exact hrest.congr rfl rfl rfl rfl
    · rename_i hfunc
      obtain ⟨⟨update, operations⟩, hcall, h⟩ := exists_of_bind_eq_ok h
      obtain ⟨-, -, hops⟩ := managerResendData_frame hcall
      cases h
      refine ⟨SystemInv.post ?_ hops, .resendResult hevent hresults hfunc hcall⟩
      exact hrest.congr rfl rfl rfl rfl
    · rename_i hchunk hresend
      cases h
      exact ⟨hrest, .kept (.results hresults hchunk hresend)⟩

/-- A step keeps the invariant and does one of the things above. -/
theorem SystemInv.step {input : UpdateInput} {s s' : UpdateSystem} (hinv : SystemInv s)
    (h : updateStep input s = .ok s') : SystemInv s' ∧ UpdateEffect input s s' := by
  unfold updateStep at h
  split at h
  · cases h
    exact ⟨hinv, .kept (.refl s)⟩
  · cases hevent : input.event with
    | networkUpdate dest json =>
      simp only [hevent] at h
      obtain ⟨⟨update, downloads⟩, hcall, h⟩ := exists_of_bind_eq_ok h
      cases h
      exact ⟨hinv.congr rfl rfl rfl rfl, .networkUpdate hevent hcall⟩
    | downloaded http =>
      simp only [hevent] at h
      exact hinv.downloaded hevent h
    | wiotaMsg id header decodeData ulData =>
      simp only [hevent] at h
      exact hinv.wiotaMsg hevent h
    | unicast message =>
      simp only [hevent] at h
      cases h
      obtain ⟨hinv', hkept⟩ := hinv.unicast message
      exact ⟨hinv', .kept hkept⟩
    | sendState state =>
      simp only [hevent] at h
      obtain ⟨hinv', hkept⟩ := hinv.sendState h
      exact ⟨hinv', .kept hkept⟩
    | unicastResult res =>
      simp only [hevent] at h
      cases h
      obtain ⟨hinv', hkept⟩ := hinv.noPage (show (OperationMsg.msgResult res).Expected from trivial)
        rfl le_rfl
      exact ⟨hinv', .kept hkept⟩
    | broadcastDone =>
      simp only [hevent] at h
      split at h
      · cases h
        obtain ⟨hinv', hkept⟩ := hinv.noPage
          (show OperationMsg.otaRadioResult.Expected from trivial) rfl
          (Nat.le_add_of_sub_le le_rfl)
        exact ⟨hinv', .kept hkept⟩
      · cases h
        exact ⟨hinv, .kept (.refl s)⟩
    | operate =>
      simp only [hevent] at h
      obtain ⟨s'', hoperate, hdone⟩ := hinv.exists_operate
      cases hoperate.symm.trans h
      exact ⟨hdone.inv, .kept ⟨hdone.update_eq, hdone.downloads_eq, hdone.stream_eq,
        hdone.chunks_eq, fun _ _ _ => hdone.count_eq _⟩⟩
    | handleResult =>
      simp only [hevent] at h
      exact hinv.handleResult hevent h

/-- The invariant holds in every run. -/
lemma systemInv_of_run {inputs : List UpdateInput} {s : UpdateSystem}
    (hrun : runInputs updateStep inputs .init = .ok s) : SystemInv s :=
  runInputs_invariant (fun _ _ _ h hstep => (h.step hstep).1) systemInv_init hrun

end WiotaAp
