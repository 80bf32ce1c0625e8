import WiotaAp.Platform.MessageQueue

/-!
# The lists in the memory of a message queue

`MqShape mq free queue` says that the links of the pool make up two lists: `free` from
`msg_queue_free` on, and `queue` from `msg_queue_head` on, with its last message in
`msg_queue_tail`.  Every operation on the memory of a queue keeps the shape, and changes the two
lists as its name says.  The messages that a thread has taken are in neither list, so what it does
with them does not matter.
-/

namespace WiotaAp

open Buffers

/-! ### The pool -/

/-- The link of a message. -/
def nextOf (pool : List MqMessage) (msg : ℕ) : Option ℕ :=
  (pool[msg]?).bind MqMessage.next

/-- The body of a message. -/
def bodyOf (pool : List MqMessage) (msg : ℕ) : List UInt8 :=
  ((pool[msg]?).map MqMessage.body).getD []

section Pool

variable {pool : List MqMessage} {msg : ℕ}

/-- A message that is in the pool. -/
lemma byteAt_message (h : msg < pool.length) :
    byteAt pool msg = .ok ⟨nextOf pool msg, bodyOf pool msg⟩ := by
  rw [byteAt, nextOf, bodyOf, List.getElem?_eq_getElem h]
  rfl

/-- The links after a message has been written. -/
lemma nextOf_set (h : msg < pool.length) (message : MqMessage) :
    nextOf (pool.set msg message) = Function.update (nextOf pool) msg message.next := by
  funext a
  by_cases ha : a = msg
  · subst ha
    rw [Function.update_self, nextOf, List.getElem?_set_self h]
    rfl
  · rw [Function.update_of_ne ha, nextOf, nextOf, List.getElem?_set_ne (Ne.symm ha)]

/-- The bodies after a message has been written. -/
lemma bodyOf_set (h : msg < pool.length) (message : MqMessage) :
    bodyOf (pool.set msg message) = Function.update (bodyOf pool) msg message.body := by
  funext a
  by_cases ha : a = msg
  · subst ha
    rw [Function.update_self, bodyOf, List.getElem?_set_self h]
    rfl
  · rw [Function.update_of_ne ha, bodyOf, bodyOf, List.getElem?_set_ne (Ne.symm ha)]

/-- A link is written. -/
lemma setNext_eq (h : msg < pool.length) (next : Option ℕ) :
    setNext pool msg next = .ok (pool.set msg ⟨next, bodyOf pool msg⟩) := by
  rw [setNext, byteAt_message h]
  rfl

/-- A link that is written with the value that it has. -/
lemma bodyOf_setNext (h : msg < pool.length) (next : Option ℕ) :
    bodyOf (pool.set msg ⟨next, bodyOf pool msg⟩) = bodyOf pool := by
  rw [bodyOf_set h, Function.update_eq_self]

end Pool

/-- The bodies of all messages have the size of the queue. -/
def PoolSized (pool : List MqMessage) (msgSize : ℕ) : Prop :=
  ∀ message ∈ pool, message.body.length = msgSize

/-- The body of a message has the size of the queue. -/
lemma PoolSized.length_bodyOf {pool : List MqMessage} {msgSize msg : ℕ}
    (h : PoolSized pool msgSize) (hmsg : msg < pool.length) :
    (bodyOf pool msg).length = msgSize := by
  rw [bodyOf, List.getElem?_eq_getElem hmsg]
  exact h _ (List.getElem_mem hmsg)

/-- A message of the size of the queue is written. -/
lemma PoolSized.set {pool : List MqMessage} {msgSize : ℕ} (h : PoolSized pool msgSize) (msg : ℕ)
    {message : MqMessage} (hbody : message.body.length = msgSize) :
    PoolSized (pool.set msg message) msgSize := by
  intro m hm
  rcases List.mem_or_eq_of_mem_set hm with hmem | rfl
  · exact h m hmem
  · exact hbody

/-! ### The shape -/

/-- The lists of a queue. -/
structure MqShape (mq : MessageQueue) (free queue : List ℕ) : Prop where
  le_pool : mq.maxMsgs ≤ mq.msgPool.length
  sized : PoolSized mq.msgPool mq.msgSize
  free_chain : Chain (nextOf mq.msgPool) mq.msgQueueFree free
  queue_chain : Chain (nextOf mq.msgPool) mq.msgQueueHead queue
  tail_eq : mq.msgQueueTail = queue.getLast?

/-- What the links do not change. -/
structure MqFrame (mq mq' : MessageQueue) : Prop where
  msgSize_eq : mq'.msgSize = mq.msgSize
  maxMsgs_eq : mq'.maxMsgs = mq.maxMsgs
  entry_eq : mq'.entry = mq.entry
  length_eq : mq'.msgPool.length = mq.msgPool.length
  bodyOf_eq : bodyOf mq'.msgPool = bodyOf mq.msgPool

lemma MqFrame.refl (mq : MessageQueue) : MqFrame mq mq :=
  ⟨rfl, rfl, rfl, rfl, rfl⟩

lemma MqFrame.trans {mq mq' mq'' : MessageQueue} (h : MqFrame mq mq') (h' : MqFrame mq' mq'') :
    MqFrame mq mq'' :=
  ⟨h'.msgSize_eq.trans h.msgSize_eq, h'.maxMsgs_eq.trans h.maxMsgs_eq, h'.entry_eq.trans h.entry_eq,
    h'.length_eq.trans h.length_eq, h'.bodyOf_eq.trans h.bodyOf_eq⟩

namespace MqShape

variable {mq : MessageQueue} {free queue : List ℕ} {msg : ℕ}

/-- The number of messages does not belong to the shape. -/
lemma setEntry (h : MqShape mq free queue) (entry : ℕ) :
    MqShape { mq with entry := entry } free queue :=
  ⟨h.le_pool, h.sized, h.free_chain, h.queue_chain, h.tail_eq⟩

/-- A message in neither list is written. -/
lemma write (h : MqShape mq free queue) (hmsg : msg < mq.msgPool.length) (hfree : msg ∉ free)
    (hqueue : msg ∉ queue) {message : MqMessage} (hbody : message.body.length = mq.msgSize) :
    MqShape { mq with msgPool := mq.msgPool.set msg message } free queue := by
  refine ⟨?_, h.sized.set msg hbody, ?_, ?_, h.tail_eq⟩
  · rw [List.length_set]
    exact h.le_pool
  · rw [nextOf_set hmsg]
    exact h.free_chain.update hfree _
  · rw [nextOf_set hmsg]
    exact h.queue_chain.update hqueue _

/-- The first free message is taken. -/
lemma takeFree (h : MqShape mq (msg :: free) queue) :
    MqShape { mq with msgQueueFree := nextOf mq.msgPool msg } free queue :=
  ⟨h.le_pool, h.sized, h.free_chain.2, h.queue_chain, h.tail_eq⟩

/-- The pool after a link has been written. -/
lemma sized_setNext (h : MqShape mq free queue) (hmsg : msg < mq.msgPool.length)
    (next : Option ℕ) :
    PoolSized (mq.msgPool.set msg ⟨next, bodyOf mq.msgPool msg⟩) mq.msgSize :=
  h.sized.set msg (h.sized.length_bodyOf hmsg)

/-- A message is put into the list of free messages. -/
lemma release (h : MqShape mq free queue) (hmsg : msg < mq.msgPool.length) (hfree : msg ∉ free)
    (hqueue : msg ∉ queue) :
    ∃ mq', mq.release msg = .ok mq' ∧ MqShape mq' (msg :: free) queue ∧ MqFrame mq mq' ∧
      ∀ a, a ≠ msg → nextOf mq'.msgPool a = nextOf mq.msgPool a := by
  rw [MessageQueue.release, setNext_eq hmsg, ok_bind]
  refine ⟨_, rfl, ⟨?_, h.sized_setNext hmsg _, ?_, ?_, h.tail_eq⟩,
    ⟨rfl, rfl, rfl, List.length_set, bodyOf_setNext hmsg _⟩, fun a ha => ?_⟩
  · rw [List.length_set]
    exact h.le_pool
  · rw [nextOf_set hmsg]
    exact h.free_chain.push hfree
  · rw [nextOf_set hmsg]
    exact h.queue_chain.update hqueue _
  · rw [nextOf_set hmsg]
    exact Function.update_of_ne ha _ _

/-- A message with no link is linked behind the others. -/
lemma linkBack (h : MqShape mq free queue) (hnodup : (free ++ queue).Nodup)
    (hlt : ∀ a ∈ queue, a < mq.msgPool.length) (hqueue : msg ∉ queue)
    (hnext : nextOf mq.msgPool msg = none) :
    ∃ mq', mq.linkBack msg = .ok mq' ∧ MqShape mq' free (queue ++ [msg]) ∧ MqFrame mq mq' ∧
      ∀ a, a ∉ queue → nextOf mq'.msgPool a = nextOf mq.msgPool a := by
  have htail := h.tail_eq
  have hchain := h.queue_chain
  obtain rfl | ⟨front, last, rfl⟩ := List.eq_nil_or_concat' queue
  · have hhead : mq.msgQueueHead = none := hchain
    rw [MessageQueue.linkBack, htail]
    refine ⟨_, rfl, ⟨h.le_pool, h.sized, h.free_chain, ?_, rfl⟩, ⟨rfl, rfl, rfl, rfl, rfl⟩,
      fun a _ => rfl⟩
    change Chain (nextOf mq.msgPool) (if mq.msgQueueHead = none then some msg else _) [msg]
    rw [if_pos hhead]
    exact ⟨rfl, hnext⟩
  · have hlast : last < mq.msgPool.length := hlt last (by simp)
    have hlastFree : last ∉ free := by
      intro hmem
      exact (List.nodup_append.mp hnodup).2.2 last hmem last (by simp) rfl
    have htail' : mq.msgQueueTail = some last := by
      rw [htail, List.getLast?_concat]
    have hhead : mq.msgQueueHead ≠ none := by
      rw [hchain.head_eq]
      simp
    rw [MessageQueue.linkBack, htail']
    dsimp only
    rw [setNext_eq hlast, ok_bind]
    refine ⟨_, rfl, ⟨?_, h.sized_setNext hlast _, ?_, ?_, ?_⟩,
      ⟨rfl, rfl, rfl, List.length_set, bodyOf_setNext hlast _⟩, fun a ha => ?_⟩
    · rw [List.length_set]
      exact h.le_pool
    · rw [nextOf_set hlast]
      exact h.free_chain.update hlastFree _
    · change Chain _ (if mq.msgQueueHead = none then some msg else mq.msgQueueHead) _
      rw [if_neg hhead, nextOf_set hlast, List.append_assoc]
      exact hchain.append (List.nodup_append.mp hnodup).2.1 hqueue hnext
    · rw [List.getLast?_concat]
    · rw [nextOf_set hlast]
      exact Function.update_of_ne (fun hal : a = last => ha (by rw [hal]; simp)) _ _

/-- A message is linked in front of the others. -/
lemma linkFront (h : MqShape mq free queue) (hmsg : msg < mq.msgPool.length) (hfree : msg ∉ free)
    (hqueue : msg ∉ queue) :
    ∃ mq', mq.linkFront msg = .ok mq' ∧ MqShape mq' free (msg :: queue) ∧ MqFrame mq mq' ∧
      ∀ a, a ≠ msg → nextOf mq'.msgPool a = nextOf mq.msgPool a := by
  rw [MessageQueue.linkFront, setNext_eq hmsg, ok_bind]
  refine ⟨_, rfl, ⟨?_, h.sized_setNext hmsg _, ?_, ?_, ?_⟩,
    ⟨rfl, rfl, rfl, List.length_set, bodyOf_setNext hmsg _⟩, fun a ha => ?_⟩
  · rw [List.length_set]
    exact h.le_pool
  · rw [nextOf_set hmsg]
    exact h.free_chain.update hfree _
  · rw [nextOf_set hmsg]
    exact h.queue_chain.push hqueue
  · change (if mq.msgQueueTail = none then some msg else mq.msgQueueTail) = _
    have htail := h.tail_eq
    cases queue with
    | nil =>
      rw [List.getLast?_nil] at htail
      rw [if_pos htail, List.getLast?_singleton]
    | cons b queue =>
      rw [List.getLast?_cons_cons, ← htail, if_neg]
      rw [htail]
      simp
  · rw [nextOf_set hmsg]
    exact Function.update_of_ne ha _ _

/-- The first message is taken out of the queue. -/
lemma unlink (h : MqShape mq free (msg :: queue)) (hmsg : msg < mq.msgPool.length)
    (hnodup : (msg :: queue).Nodup) :
    ∃ mq', mq.unlink = .ok (msg, bodyOf mq.msgPool msg, mq') ∧ MqShape mq' free queue ∧
      MqFrame mq mq' ∧ mq'.msgPool = mq.msgPool := by
  obtain ⟨hhead, hchain⟩ := h.queue_chain
  rw [MessageQueue.unlink, hhead]
  dsimp only
  rw [byteAt_message hmsg, ok_bind]
  refine ⟨_, rfl, ⟨h.le_pool, h.sized, h.free_chain, hchain, ?_⟩, ⟨rfl, rfl, rfl, rfl, rfl⟩, rfl⟩
  change (if mq.msgQueueTail = some msg then none else mq.msgQueueTail) = queue.getLast?
  have htail := h.tail_eq
  cases queue with
  | nil =>
    rw [List.getLast?_singleton] at htail
    rw [if_pos htail, List.getLast?_nil]
  | cons b queue =>
    rw [List.getLast?_cons_cons] at htail
    rw [if_neg, htail]
    rw [htail]
    intro hlast
    exact (List.nodup_cons.mp hnodup).1 (List.mem_of_getLast? hlast)

/-- All messages are released; the first one of the queue comes to stand last. -/
lemma releaseAll (h : MqShape mq free queue) (hnodup : (free ++ queue).Nodup)
    (hlt : ∀ a ∈ queue, a < mq.msgPool.length) {n : ℕ} (hn : queue.length ≤ n) :
    ∃ mq', mq.releaseAll n = .ok mq' ∧ MqShape mq' (queue.reverse ++ free) [] ∧ MqFrame mq mq' ∧
      ∀ a, a ∉ queue → nextOf mq'.msgPool a = nextOf mq.msgPool a := by
  induction queue generalizing mq free n with
  | nil =>
    have hhead : mq.msgQueueHead = none := h.queue_chain
    refine ⟨mq, ?_, h, .refl mq, fun a _ => rfl⟩
    cases n with
    | zero => rfl
    | succ n => rw [MessageQueue.releaseAll, hhead]
  | cons msg queue ih =>
    cases n with
    | zero => exact absurd hn (by simp)
    | succ n =>
      have hmsg := hlt msg List.mem_cons_self
      obtain ⟨hfreeNodup, hqueueNodup, hdisj⟩ := List.nodup_append.mp hnodup
      have hmsgFree : msg ∉ free := fun hmem => hdisj msg hmem msg List.mem_cons_self rfl
      obtain ⟨mq₁, hunlink, h₁, hframe₁, hpool₁⟩ := h.unlink hmsg hqueueNodup
      have hmsg₁ : msg < mq₁.msgPool.length := hpool₁ ▸ hmsg
      obtain ⟨mq₂, hrelease, h₂, hframe₂, hnext₂⟩ :=
        h₁.release hmsg₁ hmsgFree (List.nodup_cons.mp hqueueNodup).1
      have hnodup₂ : (msg :: free ++ queue).Nodup :=
        (List.perm_middle.nodup_iff).mp hnodup
      have hlt₂ : ∀ a ∈ queue, a < mq₂.msgPool.length := by
        intro a ha
        rw [hframe₂.length_eq, hpool₁]
        exact hlt a (List.mem_cons_of_mem msg ha)
      obtain ⟨mq', hall, h', hframe', hnext'⟩ :=
        ih h₂ hnodup₂ hlt₂ (Nat.le_of_succ_le_succ hn)
      refine ⟨mq', ?_, ?_, hframe₁.trans (hframe₂.trans hframe'), fun a ha => ?_⟩
      · have hhead : mq.msgQueueHead = some msg := h.queue_chain.1
        rw [MessageQueue.releaseAll, hhead]
        dsimp only
        rw [hunlink, ok_bind]
        dsimp only
        rw [hrelease, ok_bind, hall]
      · rw [List.reverse_cons, List.append_assoc, List.singleton_append]
        exact h'
      · rw [List.mem_cons, not_or] at ha
        rw [hnext' a ha.2, hnext₂ a ha.1, hpool₁]

end MqShape

/-! ### The initial queue -/

/-- The loop that links the free messages leaves them in falling order. -/
lemma linkFree_spec {pool : List MqMessage} {msgSize n : ℕ} (hn : n ≤ pool.length)
    (hsized : PoolSized pool msgSize) :
    ∃ pool' free, linkFree pool n = .ok (pool', free) ∧ pool'.length = pool.length ∧
      PoolSized pool' msgSize ∧ Chain (nextOf pool') free (List.range n).reverse := by
  induction n with
  | zero => exact ⟨pool, none, rfl, rfl, hsized, rfl⟩
  | succ n ih =>
    obtain ⟨pool', free, hlink, hlen, hsized', hchain⟩ := ih (Nat.le_of_succ_le hn)
    have hlt : n < pool'.length := hlen ▸ hn
    rw [linkFree, hlink, ok_bind]
    dsimp only
    rw [setNext_eq hlt, ok_bind]
    refine ⟨_, _, rfl, ?_, hsized'.set n (hsized'.length_bodyOf hlt), ?_⟩
    · rw [List.length_set, hlen]
    · rw [nextOf_set hlt, List.range_succ, List.reverse_append, List.reverse_singleton,
        List.singleton_append]
      exact hchain.push (by simp)

/-- `rt_mq_init` links all messages of the pool as free. -/
theorem rtMqInit_spec {pool : List MqMessage} {msgSize poolSize : ℕ}
    (hpool : pool.length = poolSize / (mqMsgSize msgSize + 4))
    (hsized : PoolSized pool (mqMsgSize msgSize)) :
    ∃ mq, rtMqInit pool msgSize poolSize = .ok mq ∧ mq.msgSize = mqMsgSize msgSize ∧
      mq.maxMsgs = poolSize / (mqMsgSize msgSize + 4) % 2 ^ 16 ∧ mq.entry = 0 ∧
      MqShape mq (List.range mq.maxMsgs).reverse [] := by
  have hle : poolSize / (mqMsgSize msgSize + 4) % 2 ^ 16 ≤ pool.length := by
    rw [hpool]
    exact Nat.mod_le _ _
  obtain ⟨pool', free, hlink, hlen, hsized', hchain⟩ := linkFree_spec hle hsized
  rw [rtMqInit]
  dsimp only
  rw [hlink, ok_bind]
  exact ⟨_, rfl, rfl, rfl, rfl, hlen ▸ hle, hsized', hchain, rfl, rfl⟩

end WiotaAp
