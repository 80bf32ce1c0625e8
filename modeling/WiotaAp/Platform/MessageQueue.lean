import WiotaAp.Foundation.CString
import WiotaAp.Foundation.Runs
import WiotaAp.Foundation.Logs
import WiotaAp.Foundation.LinkedChain
import WiotaAp.Foundation.Deque
import WiotaAp.SpiCom.Ringbuffer

/-!
# Message queues

The message queues of the kernel (`rt_mq_*` in `ipc.c`), by which the tasks of the gateway send each
other their pages.  The messages of a queue lie in a pool, and are linked in a list of free messages
or in the queue itself; a pointer to a message is its index in the pool.

Any number of threads use a queue at the same time.  A call is a sequence of critical sections, in
which the interrupts are disabled, and of copies between them, byte by byte, in which another thread
can run; `MqThread` says where a thread is.  A scheduler chooses what happens next (`MqInput`).
-/

namespace WiotaAp

open Buffers

/-! ### The queue -/

/-- `struct rt_mq_message`, with the body that stands behind it. -/
structure MqMessage where
  next : Option ℕ
  body : List UInt8
  deriving DecidableEq, Repr

/-- `struct rt_messagequeue` without the lists of threads. -/
structure MessageQueue where
  msgPool : List MqMessage
  msgSize : ℕ
  maxMsgs : ℕ
  entry : ℕ
  msgQueueHead : Option ℕ
  msgQueueTail : Option ℕ
  msgQueueFree : Option ℕ
  deriving DecidableEq, Repr

/-- `RT_MQ_ENTRY_MAX`. -/
def rtMqEntryMax : ℕ := 65535

/-- `msg->next = next`. -/
def setNext (pool : List MqMessage) (msg : ℕ) (next : Option ℕ) :
    Except Fault (List MqMessage) := do
  let message ← byteAt pool msg
  return pool.set msg { message with next := next }

/-- The first `n` rounds of the loop that links the free messages: the pool, and the list. -/
def linkFree (pool : List MqMessage) : ℕ → Except Fault (List MqMessage × Option ℕ)
  | 0 => .ok (pool, none)
  | temp + 1 => do
    let (pool, free) ← linkFree pool temp
    let pool ← setNext pool temp free
    return (pool, some temp)

/-- The size of a message in a pool for messages of `msg_size` bytes. -/
def mqMsgSize (msgSize : ℕ) : ℕ := rtAlign msgSize 4 % 2 ^ 16

/-- `rt_mq_init` on a pool of `pool_size` bytes. -/
def rtMqInit (msgPool : List MqMessage) (msgSize poolSize : ℕ) : Except Fault MessageQueue := do
  let msgSize := mqMsgSize msgSize
  let maxMsgs := poolSize / (msgSize + 4) % 2 ^ 16
  let (pool, free) ← linkFree msgPool maxMsgs
  return ⟨pool, msgSize, maxMsgs, 0, none, none, free⟩

/-- A message is linked behind the others. -/
def MessageQueue.linkBack (mq : MessageQueue) (msg : ℕ) : Except Fault MessageQueue := do
  let pool ← match mq.msgQueueTail with
    | some tail => setNext mq.msgPool tail (some msg)
    | none => pure mq.msgPool
  return { mq with
    msgPool := pool
    msgQueueTail := some msg
    msgQueueHead := if mq.msgQueueHead = none then some msg else mq.msgQueueHead }

/-- A message is linked in front of the others. -/
def MessageQueue.linkFront (mq : MessageQueue) (msg : ℕ) : Except Fault MessageQueue := do
  let pool ← setNext mq.msgPool msg mq.msgQueueHead
  return { mq with
    msgPool := pool
    msgQueueHead := some msg
    msgQueueTail := if mq.msgQueueTail = none then some msg else mq.msgQueueTail }

/-- The first message is taken out of the queue: its index and its body. -/
def MessageQueue.unlink (mq : MessageQueue) : Except Fault (ℕ × List UInt8 × MessageQueue) :=
  match mq.msgQueueHead with
  | none => .error .outOfBounds
  | some msg => do
    let message ← byteAt mq.msgPool msg
    return (msg, message.body, { mq with
      msgQueueHead := message.next
      msgQueueTail := if mq.msgQueueTail = some msg then none else mq.msgQueueTail })

/-- A message is put into the list of free messages. -/
def MessageQueue.release (mq : MessageQueue) (msg : ℕ) : Except Fault MessageQueue := do
  let pool ← setNext mq.msgPool msg mq.msgQueueFree
  return { mq with msgPool := pool, msgQueueFree := some msg }

/-- The loop of `rt_mq_control` that releases all messages, with at most `n` rounds. -/
def MessageQueue.releaseAll : ℕ → MessageQueue → Except Fault MessageQueue
  | 0, mq => .ok mq
  | n + 1, mq =>
    match mq.msgQueueHead with
    | none => .ok mq
    | some _ => do
      let (msg, _, mq) ← mq.unlink
      let mq ← mq.release msg
      mq.releaseAll n

/-! ### The threads -/

/-- The error codes. -/
inductive MqError
  /-- `-RT_ERROR` -/
  | error
  /-- `-RT_ETIMEOUT` -/
  | timeout
  /-- `-RT_EFULL` -/
  | full
  deriving DecidableEq, Repr

/-- What a call returns: `RT_EOK` of a send with its buffer, of a receive with what is in its buffer
of `size` bytes, or of a reset; or an error. -/
inductive MqResult
  | sent (urgent : Bool) (buffer : List UInt8)
  | received (size : ℕ) (data : List UInt8)
  | reset
  | failed (code : MqError)
  deriving DecidableEq, Repr

/-- Where a thread is.  A thread in front of a critical section that may suspend it has been resumed
if `since` is the tick at which it was suspended. -/
inductive MqThread
  | returned (result : Option MqResult)
  /-- In front of the section that takes a free message. -/
  | sending (urgent : Bool) (buffer : List UInt8) (timeout : ℤ) (since : Option ℕ)
  | sendSuspended (buffer : List UInt8) (timeout : ℤ) (since : ℕ)
  /-- In front of `msg->next = RT_NULL`. -/
  | clearing (msg : ℕ) (buffer : List UInt8)
  /-- `n` bytes of the buffer have been copied into the message. -/
  | copying (urgent : Bool) (msg : ℕ) (buffer : List UInt8) (n : ℕ)
  /-- In front of the section that takes a message out of the queue. -/
  | receiving (size : ℕ) (timeout : ℤ) (since : Option ℕ)
  | recvSuspended (size : ℕ) (timeout : ℤ) (since : ℕ)
  /-- The bytes `data` have been copied out of the message. -/
  | reading (msg : ℕ) (size : ℕ) (data : List UInt8)
  deriving DecidableEq, Repr

/-- `RT_IPC_FLAG_FIFO` or `RT_IPC_FLAG_PRIO`. -/
inductive IpcFlag
  | fifo
  | prio
  deriving DecidableEq, Repr

/-- A queue with its threads: those that are suspended on it in order, and where every thread is.
What has been linked and taken out is in `log`, and the calls that have returned `RT_EOK` in `done`,
each with its thread; these are not part of the program. -/
structure MqSystem where
  mq : MessageQueue
  flag : IpcFlag
  priority : ℕ → ℕ
  suspendThread : List ℕ
  suspendSenderThread : List ℕ
  threads : ℕ → MqThread
  tick : ℕ
  log : List (ℕ × DequeOp (List UInt8))
  done : List (ℕ × MqResult)

/-- The search of `rt_ipc_list_suspend` for a place by priority. -/
def insertByPriority (priority : ℕ → ℕ) (thread : ℕ) : List ℕ → List ℕ
  | [] => [thread]
  | sthread :: list =>
    if priority thread < priority sthread then thread :: sthread :: list
    else sthread :: insertByPriority priority thread list

/-- `rt_ipc_list_suspend`. -/
def ipcListSuspend (flag : IpcFlag) (priority : ℕ → ℕ) (list : List ℕ) (thread : ℕ) : List ℕ :=
  match flag with
  | .fifo => list ++ [thread]
  | .prio => insertByPriority priority thread list

/-- `timeout` of a thread that has been resumed, less the ticks since it was suspended. -/
def remaining (tick : ℕ) (timeout : ℤ) : Option ℕ → ℤ
  | none => timeout
  | some since => if timeout > 0 then max 0 (timeout - (tick - since)) else timeout

/-- A suspended thread that is resumed. -/
def MqThread.resume : MqThread → MqThread
  | .sendSuspended buffer timeout since => .sending false buffer timeout (some since)
  | .recvSuspended size timeout since => .receiving size timeout (some since)
  | thread => thread

namespace MqSystem

/-- A thread goes on to another place. -/
def moveTo (s : MqSystem) (t : ℕ) (thread : MqThread) : MqSystem :=
  { s with threads := Function.update s.threads t thread }

/-- A thread returns an error from its call. -/
def fail (s : MqSystem) (t : ℕ) (code : MqError) : MqSystem :=
  s.moveTo t (.returned (some (.failed code)))

/-- A thread returns `RT_EOK` from its call. -/
def succeed (s : MqSystem) (t : ℕ) (result : MqResult) : MqSystem :=
  { s.moveTo t (.returned (some result)) with done := s.done ++ [(t, result)] }

/-- `rt_ipc_list_resume` for the receivers, if there are any. -/
def resumeReceiver (s : MqSystem) : MqSystem :=
  match s.suspendThread with
  | [] => s
  | u :: list => { s.moveTo u (s.threads u).resume with suspendThread := list }

/-- `rt_ipc_list_resume` for the senders, if there are any. -/
def resumeSender (s : MqSystem) : MqSystem :=
  match s.suspendSenderThread with
  | [] => s
  | u :: list => { s.moveTo u (s.threads u).resume with suspendSenderThread := list }

/-- The section of `rt_mq_send_wait` or `rt_mq_urgent` that takes a free message, and the one round
of its loop. -/
def takeFree (s : MqSystem) (t : ℕ) (urgent : Bool) (buffer : List UInt8) (timeout : ℤ) :
    Except Fault MqSystem :=
  match s.mq.msgQueueFree with
  | none =>
    if timeout = 0 then .ok (s.fail t .full)
    else .ok { s.moveTo t (.sendSuspended buffer timeout s.tick) with
      suspendSenderThread := ipcListSuspend s.flag s.priority s.suspendSenderThread t }
  | some msg => do
    let message ← byteAt s.mq.msgPool msg
    return { s.moveTo t (if urgent then .copying true msg buffer 0 else .clearing msg buffer) with
      mq := { s.mq with msgQueueFree := message.next } }

/-- One byte of the buffer is copied into the message. -/
def copyByte (s : MqSystem) (t : ℕ) (urgent : Bool) (msg : ℕ) (buffer : List UInt8) (n : ℕ) :
    Except Fault MqSystem := do
  let message ← byteAt s.mq.msgPool msg
  let b ← byteAt buffer n
  let body ← writeAt message.body n [b]
  return { s.moveTo t (.copying urgent msg buffer (n + 1)) with
    mq := { s.mq with msgPool := s.mq.msgPool.set msg { message with body := body } } }

/-- The end of the section that links a message: the number of messages, and a receiver that is
resumed. -/
def linked (s : MqSystem) (t : ℕ) (mq : MessageQueue) (op : DequeOp (List UInt8))
    (result : MqResult) : MqSystem :=
  if mq.entry < rtMqEntryMax then
    resumeReceiver ({ s with
      mq := { mq with entry := mq.entry + 1 }
      log := s.log ++ [(t, op)] }.succeed t result)
  else { s with mq := mq, log := s.log ++ [(t, op)] }.fail t .full

/-- The section that links a message. -/
def link (s : MqSystem) (t : ℕ) (urgent : Bool) (msg : ℕ) (buffer : List UInt8) :
    Except Fault MqSystem := do
  let message ← byteAt s.mq.msgPool msg
  if urgent then do
    let mq ← s.mq.linkFront msg
    return s.linked t mq (.pushFront message.body) (.sent true buffer)
  else do
    let mq ← s.mq.linkBack msg
    return s.linked t mq (.pushBack message.body) (.sent false buffer)

/-- The section of `rt_mq_recv` that takes a message out of the queue, and the one round of its
loop. -/
def takeMessage (s : MqSystem) (t : ℕ) (size : ℕ) (timeout : ℤ) : Except Fault MqSystem :=
  if s.mq.entry = 0 then
    if timeout = 0 then .ok (s.fail t .timeout)
    else .ok { s.moveTo t (.recvSuspended size timeout s.tick) with
      suspendThread := ipcListSuspend s.flag s.priority s.suspendThread t }
  else do
    let (msg, body, mq) ← s.mq.unlink
    return { s.moveTo t (.reading msg size []) with
      mq := { mq with entry := mq.entry - 1 }
      log := s.log ++ [(t, .popFront body)] }

/-- One byte of the message is copied into the buffer. -/
def readByte (s : MqSystem) (t msg size : ℕ) (data : List UInt8) : Except Fault MqSystem := do
  let message ← byteAt s.mq.msgPool msg
  let b ← byteAt message.body data.length
  return s.moveTo t (.reading msg size (data ++ [b]))

/-- The section that puts a message into the list of free messages. -/
def giveBack (s : MqSystem) (t msg size : ℕ) (data : List UInt8) : Except Fault MqSystem := do
  let mq ← s.mq.release msg
  return resumeSender ({ s with mq := mq }.succeed t (.received size data))

/-- A thread goes on, by one critical section or by one access to its message. -/
def run (s : MqSystem) (t : ℕ) : Except Fault MqSystem :=
  match s.threads t with
  | .sending urgent buffer timeout since =>
    s.takeFree t urgent buffer (remaining s.tick timeout since)
  | .clearing msg buffer => do
    let pool ← setNext s.mq.msgPool msg none
    return { s.moveTo t (.copying false msg buffer 0) with mq := { s.mq with msgPool := pool } }
  | .copying urgent msg buffer n =>
    if n < buffer.length then s.copyByte t urgent msg buffer n else s.link t urgent msg buffer
  | .receiving size timeout since => s.takeMessage t size (remaining s.tick timeout since)
  | .reading msg size data =>
    -- `size > mq->msg_size ? mq->msg_size : size`
    if data.length < min size s.mq.msgSize then s.readByte t msg size data
    else s.giveBack t msg size data
  | .returned _ => .ok s
  | .sendSuspended _ _ _ => .ok s
  | .recvSuspended _ _ _ => .ok s

/-- `rt_mq_send_wait` or `rt_mq_urgent` is called. -/
def callSend (s : MqSystem) (t : ℕ) (urgent : Bool) (buffer : List UInt8) (timeout : ℤ) :
    Except Fault MqSystem :=
  if buffer.length = 0 then .error .assertion
  else if buffer.length > s.mq.msgSize then .ok (s.fail t .error)
  else .ok (s.moveTo t (.sending urgent buffer timeout none))

/-- `rt_mq_recv` is called. -/
def callRecv (s : MqSystem) (t size : ℕ) (timeout : ℤ) : Except Fault MqSystem :=
  if size = 0 then .error .assertion
  else .ok (s.moveTo t (.receiving size timeout none))

/-- `rt_mq_control` with `RT_IPC_CMD_RESET`. -/
def callReset (s : MqSystem) (t : ℕ) : Except Fault MqSystem := do
  let mq ← s.mq.releaseAll s.mq.msgPool.length
  return { s with
    mq := { mq with entry := 0 }
    suspendThread := []
    suspendSenderThread := []
    threads := Function.update (fun u =>
      if u ∈ s.suspendThread ∨ u ∈ s.suspendSenderThread then .returned (some (.failed .error))
      else s.threads u) t (.returned (some .reset))
    log := s.log ++ [(t, .clear)]
    done := s.done ++ [(t, .reset)] }

/-- `rt_thread_timeout` for a suspended thread whose time has come. -/
def expire (s : MqSystem) (t : ℕ) : MqSystem :=
  match s.threads t with
  | .sendSuspended _ timeout since =>
    if timeout > 0 ∧ since + timeout ≤ s.tick then
      { s.fail t .timeout with suspendSenderThread := s.suspendSenderThread.erase t }
    else s
  | .recvSuspended _ timeout since =>
    if timeout > 0 ∧ since + timeout ≤ s.tick then
      { s.fail t .timeout with suspendThread := s.suspendThread.erase t }
    else s
  | _ => s

end MqSystem

/-- What the scheduler lets happen: a call of a thread that is not in one, the next step of a
thread, the end of the time of a suspended thread, or a tick. -/
inductive MqInput
  | send (t : ℕ) (buffer : List UInt8) (timeout : ℤ)
  | urgent (t : ℕ) (buffer : List UInt8)
  | recv (t size : ℕ) (timeout : ℤ)
  | reset (t : ℕ)
  | run (t : ℕ)
  | expire (t : ℕ)
  | tick
  deriving DecidableEq, Repr

/-- A call is made by a thread that has returned from the last one. -/
def MqSystem.whenReturned (s : MqSystem) (t : ℕ) (call : Except Fault MqSystem) :
    Except Fault MqSystem :=
  match s.threads t with
  | .returned _ => call
  | _ => .ok s

/-- One step of the system. -/
def mqStep (i : MqInput) (s : MqSystem) : Except Fault MqSystem :=
  match i with
  | .send t buffer timeout => s.whenReturned t (s.callSend t false buffer timeout)
  | .urgent t buffer => s.whenReturned t (s.callSend t true buffer 0)
  | .recv t size timeout => s.whenReturned t (s.callRecv t size timeout)
  | .reset t => s.whenReturned t (s.callReset t)
  | .run t => s.run t
  | .expire t => .ok (s.expire t)
  | .tick => .ok { s with tick := s.tick + 1 }

/-- The system with a queue that has just been initialised. -/
def MqSystem.init (mq : MessageQueue) (flag : IpcFlag) (priority : ℕ → ℕ) : MqSystem :=
  ⟨mq, flag, priority, [], [], fun _ => .returned none, 0, [], []⟩

end WiotaAp
