import WiotaAp.Platform.MessageQueueRuns
import WiotaAp.Foundation.LittleEndian

/-!
# The queues of the tasks

`manager_queue.c` gives the tasks of the gateway queues of pages: a message is the address of a page
in four bytes.  `manager_queue_fifo` says that the pages come out as they went in, for any
interleaving of the tasks, and that a queue holds half of the messages that it was created for: the
pool has four bytes for each of them, and the link of a message takes another four.
-/

namespace WiotaAp

open Buffers

/-- `manager_create_queue`, with the memory of the pool of `4 * max_msgs` bytes. -/
def managerCreateQueue (msgPool : List MqMessage) (maxMsgs : ℕ) : Except Fault MessageQueue :=
  rtMqInit msgPool 4 (4 * maxMsgs)

/-- What the scheduler lets happen with the queue of a task. -/
inductive ManagerInput
  /-- `manager_send_queue` -/
  | sendQueue (t : ℕ) (buf : UInt32) (timeout : ℤ)
  /-- `manager_recv_queue` -/
  | recvQueue (t : ℕ) (timeout : ℤ)
  | run (t : ℕ)
  | expire (t : ℕ)
  | tick
  deriving DecidableEq, Repr

/-- What the functions of the tasks call. -/
def ManagerInput.toMqInput : ManagerInput → MqInput
  | .sendQueue t buf timeout => .send t (leBytes 4 buf.toNat) timeout
  | .recvQueue t timeout => .recv t 4 timeout
  | .run t => .run t
  | .expire t => .expire t
  | .tick => .tick

/-- The page of a message: `address`, as `manager_recv_queue` hands it out. -/
def pageOf (body : List UInt8) : UInt32 :=
  UInt32.ofNat (leValue body)

/-! ### Runs with pages only -/

/-- A thread in a call of `manager_send_queue` or `manager_recv_queue`. -/
def PageThread : MqThread → Prop
  | .returned _ => True
  | .sending urgent buffer _ _ => urgent = false ∧ buffer.length = 4
  | .sendSuspended buffer _ _ => buffer.length = 4
  | .clearing _ buffer => buffer.length = 4
  | .copying urgent _ buffer _ => urgent = false ∧ buffer.length = 4
  | .receiving size _ _ => size = 4
  | .recvSuspended size _ _ => size = 4
  | .reading _ size _ => size = 4

/-- A call that has sent or received a page. -/
def PageCall : MqResult → Prop
  | .sent urgent buffer => urgent = false ∧ buffer.length = 4
  | .received size _ => size = 4
  | _ => False

/-- All calls have been those of the tasks. -/
structure PagesOnly (s : MqSystem) : Prop where
  threads : ∀ t, PageThread (s.threads t)
  log : ∀ entry ∈ s.log, entry.2.IsFifo
  done : ∀ entry ∈ s.done, PageCall entry.2

namespace PagesOnly

variable {s s' : MqSystem} {t : ℕ} {thread : MqThread}

/-- A thread goes on to another place. -/
lemma threads_update (h : PagesOnly s) (hthread : PageThread thread) (u : ℕ) :
    PageThread (Function.update s.threads t thread u) := by
  by_cases hu : u = t
  · rw [hu, Function.update_self]
    exact hthread
  · rw [Function.update_of_ne hu]
    exact h.threads u

/-- A thread that is resumed is in the same call. -/
lemma pageThread_resume {thread : MqThread} (h : PageThread thread) :
    PageThread thread.resume := by
  cases thread with
  | sendSuspended buffer timeout since => exact ⟨rfl, h⟩
  | recvSuspended size timeout since => exact h
  | _ => exact h

/-- A receiver is resumed. -/
lemma resumeReceiver (h : PagesOnly s) : PagesOnly s.resumeReceiver := by
  unfold MqSystem.resumeReceiver
  split
  · exact h
  · exact ⟨h.threads_update (pageThread_resume (h.threads _)), h.log, h.done⟩

/-- A sender is resumed. -/
lemma resumeSender (h : PagesOnly s) : PagesOnly s.resumeSender := by
  unfold MqSystem.resumeSender
  split
  · exact h
  · exact ⟨h.threads_update (pageThread_resume (h.threads _)), h.log, h.done⟩

/-- The section that takes a free message. -/
lemma takeFree (h : PagesOnly s) {buffer : List UInt8} (hbuffer : buffer.length = 4) {left : ℤ}
    (hstep : s.takeFree t false buffer left = .ok s') : PagesOnly s' := by
  unfold MqSystem.takeFree at hstep
  split at hstep
  · split at hstep
    · cases hstep
      exact ⟨h.threads_update trivial, h.log, h.done⟩
    · cases hstep
      exact ⟨h.threads_update hbuffer, h.log, h.done⟩
  · obtain ⟨message, -, hstep⟩ := exists_of_bind_eq_ok hstep
    cases hstep
    exact ⟨h.threads_update hbuffer, h.log, h.done⟩

/-- The section that links a message. -/
lemma link (h : PagesOnly s) {buffer : List UInt8} (hbuffer : buffer.length = 4) {msg : ℕ}
    (hstep : s.link t false msg buffer = .ok s') : PagesOnly s' := by
  obtain ⟨message, -, hstep⟩ := exists_of_bind_eq_ok hstep
  rw [if_neg (by decide)] at hstep
  obtain ⟨mq, -, hstep⟩ := exists_of_bind_eq_ok hstep
  cases hstep
  have hlog : ∀ entry ∈ s.log ++ [(t, .pushBack message.body)], entry.2.IsFifo := by
    intro entry hentry
    rcases List.mem_append.mp hentry with hmem | hmem
    · exact h.log entry hmem
    · cases List.mem_singleton.mp hmem
      trivial
  unfold MqSystem.linked
  split
  · refine PagesOnly.resumeReceiver ⟨h.threads_update trivial, hlog, fun entry hentry => ?_⟩
    rcases List.mem_append.mp hentry with hmem | hmem
    · exact h.done entry hmem
    · cases List.mem_singleton.mp hmem
      exact ⟨rfl, hbuffer⟩
  · exact ⟨h.threads_update trivial, hlog, h.done⟩

/-- The section that takes a message out of the queue. -/
lemma takeMessage (h : PagesOnly s) {left : ℤ} (hstep : s.takeMessage t 4 left = .ok s') :
    PagesOnly s' := by
  unfold MqSystem.takeMessage at hstep
  split at hstep
  · split at hstep
    · cases hstep
      exact ⟨h.threads_update trivial, h.log, h.done⟩
    · cases hstep
      exact ⟨h.threads_update rfl, h.log, h.done⟩
  · obtain ⟨⟨msg, body, mq⟩, -, hstep⟩ := exists_of_bind_eq_ok hstep
    cases hstep
    refine ⟨h.threads_update rfl, fun entry hentry => ?_, h.done⟩
    rcases List.mem_append.mp hentry with hmem | hmem
    · exact h.log entry hmem
    · cases List.mem_singleton.mp hmem
      trivial

/-- The section that gives a message back. -/
lemma giveBack (h : PagesOnly s) {msg : ℕ} {data : List UInt8}
    (hstep : s.giveBack t msg 4 data = .ok s') : PagesOnly s' := by
  obtain ⟨mq, -, hstep⟩ := exists_of_bind_eq_ok hstep
  cases hstep
  refine PagesOnly.resumeSender ⟨h.threads_update trivial, h.log, fun entry hentry => ?_⟩
  rcases List.mem_append.mp hentry with hmem | hmem
  · exact h.done entry hmem
  · cases List.mem_singleton.mp hmem
    rfl

/-- A thread goes on. -/
lemma run (h : PagesOnly s) (hstep : s.run t = .ok s') : PagesOnly s' := by
  have hthread := h.threads t
  unfold MqSystem.run at hstep
  split at hstep
  · rename_i urgent buffer timeout since heq
    rw [heq] at hthread
    obtain ⟨rfl, hbuffer⟩ := hthread
    exact h.takeFree hbuffer hstep
  · rename_i msg buffer heq
    rw [heq] at hthread
    obtain ⟨pool, -, hstep⟩ := exists_of_bind_eq_ok hstep
    cases hstep
    exact ⟨h.threads_update ⟨rfl, hthread⟩, h.log, h.done⟩
  · rename_i urgent msg buffer n heq
    rw [heq] at hthread
    obtain ⟨rfl, hbuffer⟩ := hthread
    split at hstep
    · obtain ⟨message, -, hstep⟩ := exists_of_bind_eq_ok hstep
      obtain ⟨b, -, hstep⟩ := exists_of_bind_eq_ok hstep
      obtain ⟨body, -, hstep⟩ := exists_of_bind_eq_ok hstep
      cases hstep
      exact ⟨h.threads_update ⟨rfl, hbuffer⟩, h.log, h.done⟩
    · exact h.link hbuffer hstep
  · rename_i size timeout since heq
    rw [heq] at hthread
    obtain rfl : size = 4 := hthread
    exact h.takeMessage hstep
  · rename_i msg size data heq
    rw [heq] at hthread
    obtain rfl : size = 4 := hthread
    split at hstep
    · obtain ⟨message, -, hstep⟩ := exists_of_bind_eq_ok hstep
      obtain ⟨b, -, hstep⟩ := exists_of_bind_eq_ok hstep
      cases hstep
      exact ⟨h.threads_update rfl, h.log, h.done⟩
    · exact h.giveBack hstep
  · cases hstep
    exact h
  · cases hstep
    exact h
  · cases hstep
    exact h

/-- The time of a suspended thread has come. -/
lemma expire (h : PagesOnly s) (t : ℕ) : PagesOnly (s.expire t) := by
  unfold MqSystem.expire
  split
  · split
    · exact ⟨h.threads_update trivial, h.log, h.done⟩
    · exact h
  · split
    · exact ⟨h.threads_update trivial, h.log, h.done⟩
    · exact h
  · exact h

/-- A call of a thread that has returned. -/
lemma whenReturned (h : PagesOnly s) {call : Except Fault MqSystem}
    (hcall : call = .ok s' → PagesOnly s') (hstep : s.whenReturned t call = .ok s') :
    PagesOnly s' := by
  unfold MqSystem.whenReturned at hstep
  split at hstep
  · exact hcall hstep
  · cases hstep
    exact h

/-- Every step of the tasks. -/
theorem step (h : PagesOnly s) (i : ManagerInput) (hstep : mqStep i.toMqInput s = .ok s') :
    PagesOnly s' := by
  cases i with
  | sendQueue t buf timeout =>
    refine h.whenReturned (fun hcall => ?_) hstep
    unfold MqSystem.callSend at hcall
    split at hcall
    · cases hcall
    · split at hcall
      · cases hcall
        exact ⟨h.threads_update trivial, h.log, h.done⟩
      · cases hcall
        exact ⟨h.threads_update ⟨rfl, length_leBytes 4 _⟩, h.log, h.done⟩
  | recvQueue t timeout =>
    refine h.whenReturned (fun hcall => ?_) hstep
    cases hcall
    exact ⟨h.threads_update rfl, h.log, h.done⟩
  | run t => exact h.run hstep
  | expire t =>
    cases hstep
    exact h.expire t
  | tick =>
    cases hstep
    exact ⟨h.threads, h.log, h.done⟩

end PagesOnly

/-! ### The pages -/

section Pages

variable {pool : List MqMessage} {n : ℕ} {flag : IpcFlag} {priority : ℕ → ℕ}
  {is : List ManagerInput} {s : MqSystem}

/-- The state `s` is reached by the calls of the tasks. -/
def ManagerReaches (pool : List MqMessage) (maxMsgs : ℕ) (flag : IpcFlag) (priority : ℕ → ℕ)
    (is : List ManagerInput) (s : MqSystem) : Prop :=
  ∃ mq, managerCreateQueue pool maxMsgs = .ok mq ∧
    runInputs mqStep (is.map ManagerInput.toMqInput) (MqSystem.init mq flag priority) = .ok s

/-- The calls of the tasks keep the assertions. -/
lemma ManagerInput.legal (i : ManagerInput) : i.toMqInput.Legal := by
  cases i with
  | sendQueue t buf timeout => exact List.ne_nil_of_length_pos (by rw [length_leBytes]; decide)
  | recvQueue t timeout => exact (show 4 ≠ 0 by decide)
  | _ => trivial

/-- All of them keep the assertions. -/
lemma legal_of_manager (is : List ManagerInput) :
    ∀ i ∈ is.map ManagerInput.toMqInput, i.Legal := by
  intro i hi
  obtain ⟨j, -, rfl⟩ := List.mem_map.mp hi
  exact j.legal

/-- All calls have been those of the tasks in every state that they reach. -/
lemma ManagerReaches.pagesOnly (hreach : ManagerReaches pool n flag priority is s) :
    PagesOnly s := by
  obtain ⟨mq, -, hrun⟩ := hreach
  have hinit : PagesOnly (MqSystem.init mq flag priority) := ⟨fun _ => trivial, nofun, nofun⟩
  generalize MqSystem.init mq flag priority = s₀ at hrun hinit
  induction is generalizing s₀ with
  | nil =>
    cases hrun
    exact hinit
  | cons i is ih =>
    obtain ⟨s₁, hstep, hrun⟩ := exists_of_bind_eq_ok hrun
    exact ih s₁ hrun (hinit.step i hstep)

/-- The pages that have been taken out, in order. -/
def MqSystem.takenPages (s : MqSystem) : List UInt32 :=
  (popped (s.log.map Prod.snd)).map pageOf

/-- The pages that have been linked, in order. -/
def MqSystem.linkedPages (s : MqSystem) : List UInt32 :=
  (pushedBack (s.log.map Prod.snd)).map pageOf

/-- The pages in the queue, in order. -/
def MqSystem.queuedPages (s : MqSystem) : List UInt32 :=
  (s.mq.queued.map (bodyOf s.mq.msgPool)).map pageOf

/-- A page that a call has sent has been linked, and one that it has received has been taken out. -/
def PageMoved (op : DequeOp (List UInt8)) (result : MqResult) : Prop :=
  (∃ body, op = .pushBack body ∧ result = .sent false body) ∨
    ∃ body, op = .popFront body ∧ result = .received 4 body

/-- What a message queue says of a call is what is said of pages. -/
lemma pageMoved_of_fulfils {op : DequeOp (List UInt8)} {result : MqResult}
    (h : Fulfils 4 op result) (hpage : PageCall result) : PageMoved op result := by
  match op, result, h, hpage with
  | .pushBack body, .sent _ buffer, h, hpage =>
    obtain ⟨rfl, hlen, htake⟩ := h
    rw [hpage.2, List.take_of_length_le (Nat.le_of_eq hlen)] at htake
    exact .inl ⟨body, rfl, by rw [htake]⟩
  | .pushFront body, .sent _ buffer, h, hpage => exact absurd (h.1.symm.trans hpage.1) (by decide)
  | .popFront body, .received size data, h, hpage =>
    obtain ⟨hlen, rfl⟩ := h
    obtain rfl : size = 4 := hpage
    refine .inr ⟨body, rfl, ?_⟩
    rw [Nat.min_self, List.take_of_length_le (Nat.le_of_eq hlen)]

/-- The queue of a task for `max_msgs` messages holds half of them.  For any interleaving of the
tasks, the pages that have been taken out, with those in the queue behind them, are the pages that
have been linked, in the same order; and for every task these are the pages of its calls, one for
each call that has returned `RT_EOK`. -/
theorem manager_queue_fifo (hpool : MqPool pool 4 (4 * n)) (hn : n < 2 ^ 17)
    (hreach : ManagerReaches pool n flag priority is s) :
    s.mq.maxMsgs = n / 2 ∧ s.mq.queued.length ≤ n / 2 ∧
      s.takenPages ++ s.queuedPages = s.linkedPages ∧
      ∀ t, ∃ ops, entriesOf s.log t = ops ++ pendingOps s.mq.msgPool (s.threads t) ∧
        List.Forall₂ PageMoved ops (entriesOf s.done t) := by
  have hpages := hreach.pagesOnly
  have hmq : MqReaches pool 4 (4 * n) flag priority (is.map ManagerInput.toMqInput) s := hreach
  obtain ⟨mq₀, ⟨free, queue, held, hinv, -⟩, hsize, hmax⟩ := hmq.good hpool (legal_of_manager is)
  have hsize' : s.mq.msgSize = 4 := hinv.msgSize_eq.trans hsize
  have hmax' : s.mq.maxMsgs = n / 2 := by
    rw [hinv.maxMsgs_eq, hmax]
    have hfour : mqMsgSize 4 = 4 := rfl
    rw [hfour]
    omega
  have hlists := hinv.lists_eq.2
  refine ⟨hmax', ?_, ?_, fun t => ?_⟩
  · have hlen := hinv.slots.length_eq
    rw [List.length_append, List.length_append, List.length_range] at hlen
    rw [hlists]
    omega
  · have hfifo : ∀ op ∈ s.log.map Prod.snd, op.IsFifo := by
      intro op hop
      obtain ⟨entry, hentry, rfl⟩ := List.mem_map.mp hop
      exact hpages.log entry hentry
    have horder := runDeque_fifo hfifo hinv.log_eq
    rw [MqSystem.takenPages, MqSystem.queuedPages, MqSystem.linkedPages, ← List.map_append, hlists,
      horder]
  · obtain ⟨ops, hops, hall⟩ := (hinv.threads_ok t).calls
    have hresults : ∀ result ∈ entriesOf s.done t, PageCall result := by
      intro result hresult
      obtain ⟨entry, hentry, rfl⟩ := List.mem_map.mp hresult
      exact hpages.done entry (List.mem_filter.mp hentry).1
    rw [hsize'] at hall
    have hboth := (List.forall₂_and_left _ _).mpr ⟨hresults, hall.flip⟩
    exact ⟨ops, hops, (hboth.imp fun result op h => pageMoved_of_fulfils h.2 h.1).flip⟩

/-- Two pages are sent, and a third one that does not fit. -/
def threePages : List ManagerInput :=
  [.sendQueue 0 7 0, .sendQueue 1 8 0, .sendQueue 2 9 0] ++
    List.replicate 8 (.run 0) ++ List.replicate 8 (.run 1) ++ [.run 2]

/-- A queue for four messages holds two. -/
theorem manager_queue_fifo_four :
    ∃ s, ManagerReaches smallPool 4 .prio id threePages s ∧
      s.mq.maxMsgs = 4 / 2 ∧ s.mq.queued.length ≤ 4 / 2 ∧
      s.takenPages ++ s.queuedPages = s.linkedPages ∧
      ∀ t, ∃ ops, entriesOf s.log t = ops ++ pendingOps s.mq.msgPool (s.threads t) ∧
        List.Forall₂ PageMoved ops (entriesOf s.done t) := by
  obtain ⟨s, hreach⟩ := exists_mqReaches smallPool_mqPool .prio id (legal_of_manager threePages)
  exact ⟨s, hreach, manager_queue_fifo smallPool_mqPool (by decide) hreach⟩

end Pages

end WiotaAp
