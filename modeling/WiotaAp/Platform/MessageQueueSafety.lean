import WiotaAp.Platform.MessageQueueMemory

/-!
# The invariant of the memory and the threads of a message queue

`MqInv` says that every message of the pool is free, in the queue, or taken by exactly one thread;
that the number of messages is right, so that it never overflows; that what a thread has copied is
in its message; that the log is the history of a deque with the bodies of the queue; and that the
operations of a thread are those of its calls.  There is one lemma for each critical section and for
each access between them.
-/

namespace WiotaAp

open Buffers
open scoped List

/-! ### The threads -/

/-- The message that a thread has taken. -/
def MqThread.slot : MqThread → Option ℕ
  | .clearing msg _ => some msg
  | .copying _ msg _ _ => some msg
  | .reading msg _ _ => some msg
  | _ => none

/-- The operation in the log is that of the call: what was sent is in front of the body, and what
was received is the front of the body. -/
def Fulfils (msgSize : ℕ) : DequeOp (List UInt8) → MqResult → Prop
  | .pushBack body, .sent urgent buffer =>
    urgent = false ∧ body.length = msgSize ∧ body.take buffer.length = buffer
  | .pushFront body, .sent urgent buffer =>
    urgent = true ∧ body.length = msgSize ∧ body.take buffer.length = buffer
  | .popFront body, .received size data =>
    body.length = msgSize ∧ data = body.take (min size msgSize)
  | .clear, .reset => True
  | _, _ => False

/-- What a thread has done in the call that it is in. -/
def pendingOps (pool : List MqMessage) : MqThread → List (DequeOp (List UInt8))
  | .reading msg _ _ => [.popFront (bodyOf pool msg)]
  | _ => []

/-- What holds of a thread, by the place where it is. -/
def PlaceOk (mq : MessageQueue) : MqThread → Prop
  | .returned _ => True
  | .sending _ buffer _ _ => buffer.length ≤ mq.msgSize
  | .sendSuspended buffer _ _ => buffer.length ≤ mq.msgSize
  | .clearing _ buffer => buffer.length ≤ mq.msgSize
  | .copying urgent msg buffer n => buffer.length ≤ mq.msgSize ∧ n ≤ buffer.length ∧
      (bodyOf mq.msgPool msg).take n = buffer.take n ∧
      (urgent = false → nextOf mq.msgPool msg = none)
  | .receiving _ _ _ => True
  | .recvSuspended _ _ _ => True
  | .reading msg size data => data = (bodyOf mq.msgPool msg).take data.length ∧
      data.length ≤ min size mq.msgSize

/-- The operations of a thread are those of its calls, one after the other, and of the call that it
is in. -/
def CallsOk (mq : MessageQueue) (ops : List (DequeOp (List UInt8))) (results : List MqResult)
    (thread : MqThread) : Prop :=
  ∃ ops', ops = ops' ++ pendingOps mq.msgPool thread ∧
    List.Forall₂ (Fulfils mq.msgSize) ops' results

/-- Both of these. -/
structure ThreadOk (mq : MessageQueue) (ops : List (DequeOp (List UInt8)))
    (results : List MqResult) (thread : MqThread) : Prop where
  place : PlaceOk mq thread
  calls : CallsOk mq ops results thread

section Threads

variable {mq mq' : MessageQueue} {ops : List (DequeOp (List UInt8))} {results : List MqResult}
  {thread thread' : MqThread}

/-- A thread sees of the memory only the message it has taken. -/
lemma ThreadOk.congr (h : ThreadOk mq ops results thread) (hsize : mq'.msgSize = mq.msgSize)
    (hslot : ∀ a, thread.slot = some a → bodyOf mq'.msgPool a = bodyOf mq.msgPool a ∧
      nextOf mq'.msgPool a = nextOf mq.msgPool a) : ThreadOk mq' ops results thread := by
  obtain ⟨hplace, hcalls⟩ := h
  have hpending : pendingOps mq'.msgPool thread = pendingOps mq.msgPool thread := by
    cases thread with
    | reading msg size data => simp only [pendingOps, (hslot msg rfl).1]
    | _ => rfl
  refine ⟨?_, ?_⟩
  · cases thread with
    | returned result => trivial
    | sending urgent buffer timeout since => exact hplace.trans_eq hsize.symm
    | sendSuspended buffer timeout since => exact hplace.trans_eq hsize.symm
    | clearing msg buffer => exact hplace.trans_eq hsize.symm
    | copying urgent msg buffer n =>
      obtain ⟨hbody, hnext⟩ := hslot msg rfl
      simp only [PlaceOk, hsize, hbody, hnext] at hplace ⊢
      exact hplace
    | receiving size timeout since => trivial
    | recvSuspended size timeout since => trivial
    | reading msg size data =>
      simp only [PlaceOk, hsize, (hslot msg rfl).1] at hplace ⊢
      exact hplace
  · rw [CallsOk, hpending, hsize]
    exact hcalls

/-- A thread goes on in its call. -/
lemma CallsOk.goOn (h : CallsOk mq ops results thread)
    (hsame : pendingOps mq.msgPool thread' = pendingOps mq.msgPool thread) :
    CallsOk mq ops results thread' := by
  rw [CallsOk, hsame]
  exact h

/-- A call with one operation returns. -/
lemma CallsOk.snoc (h : CallsOk mq ops results thread)
    (hpending : pendingOps mq.msgPool thread = []) (hsize : mq'.msgSize = mq.msgSize)
    {op : DequeOp (List UInt8)} {result : MqResult} (hop : Fulfils mq.msgSize op result)
    (hthread : pendingOps mq'.msgPool thread' = []) :
    CallsOk mq' (ops ++ [op]) (results ++ [result]) thread' := by
  obtain ⟨ops', rfl, hall⟩ := h
  refine ⟨ops' ++ [op], ?_, ?_⟩
  · rw [hpending, hthread, List.append_nil, List.append_nil]
  · rw [hsize]
    exact List.rel_append hall (.cons hop .nil)

/-- A thread that is resumed has not taken a message. -/
lemma MqThread.slot_resume (thread : MqThread) : thread.resume.slot = thread.slot := by
  cases thread <;> rfl

/-- What holds of a suspended thread holds when it is resumed. -/
lemma ThreadOk.resume (h : ThreadOk mq ops results thread) :
    ThreadOk mq ops results thread.resume := by
  cases thread with
  | sendSuspended buffer timeout since => exact ⟨h.place, h.calls.goOn rfl⟩
  | recvSuspended size timeout since => exact ⟨trivial, h.calls.goOn rfl⟩
  | _ => exact h

end Threads

/-! ### The invariant -/

/-- The messages `free` and `queue` are linked, and those of `held` are taken by the threads.  The
sizes are those of `mq₀`. -/
structure MqInv (mq₀ mq : MessageQueue) (threads : ℕ → MqThread)
    (log : List (ℕ × DequeOp (List UInt8))) (done : List (ℕ × MqResult)) (free queue : List ℕ)
    (held : List (ℕ × ℕ)) : Prop where
  shape : MqShape mq free queue
  entry_eq : mq.entry = queue.length
  msgSize_eq : mq.msgSize = mq₀.msgSize
  maxMsgs_eq : mq.maxMsgs = mq₀.maxMsgs
  maxMsgs_le : mq.maxMsgs ≤ rtMqEntryMax
  slots : (free ++ queue ++ held.map Prod.snd).Perm (List.range mq.maxMsgs)
  held_iff : ∀ t msg, (t, msg) ∈ held ↔ (threads t).slot = some msg
  threads_ok : ∀ t, ThreadOk mq (entriesOf log t) (entriesOf done t) (threads t)
  log_eq : runDeque (log.map Prod.snd) = some (queue.map (bodyOf mq.msgPool))

section Inv

variable {mq₀ mq : MessageQueue} {threads : ℕ → MqThread} {log : List (ℕ × DequeOp (List UInt8))}
  {done : List (ℕ × MqResult)} {free queue : List ℕ} {held : List (ℕ × ℕ)} {t msg : ℕ}
  {thread : MqThread}

namespace MqInv

/-- No message is in two places. -/
lemma nodup (h : MqInv mq₀ mq threads log done free queue held) :
    (free ++ queue ++ held.map Prod.snd).Nodup :=
  h.slots.nodup_iff.mpr List.nodup_range

/-- Every message in one of the places is in the pool. -/
lemma lt_length (h : MqInv mq₀ mq threads log done free queue held)
    (hmsg : msg ∈ free ++ queue ++ held.map Prod.snd) : msg < mq.msgPool.length :=
  Nat.lt_of_lt_of_le (List.mem_range.mp (h.slots.mem_iff.mp hmsg)) h.shape.le_pool

/-- The message of a thread is taken. -/
lemma mem_held (h : MqInv mq₀ mq threads log done free queue held)
    (hslot : (threads t).slot = some msg) :
    msg ∈ held.map Prod.snd :=
  List.mem_map_of_mem ((h.held_iff t msg).mpr hslot)

/-- A message that is taken is in no list. -/
lemma notMem_lists (h : MqInv mq₀ mq threads log done free queue held)
    (hslot : (threads t).slot = some msg) : msg ∉ free ∧ msg ∉ queue := by
  have hdisj := (List.nodup_append.mp h.nodup).2.2
  have hmem := h.mem_held hslot
  exact ⟨fun hfree => hdisj msg (List.mem_append_left queue hfree) msg hmem rfl,
    fun hqueue => hdisj msg (List.mem_append_right free hqueue) msg hmem rfl⟩

/-- A message that is taken is in the pool. -/
lemma slot_lt (h : MqInv mq₀ mq threads log done free queue held)
    (hslot : (threads t).slot = some msg) :
    msg < mq.msgPool.length :=
  h.lt_length (List.mem_append_right _ (h.mem_held hslot))

/-- No message is taken by two threads. -/
lemma slot_unique (h : MqInv mq₀ mq threads log done free queue held) {u : ℕ}
    (hslot : (threads t).slot = some msg) (hslot' : (threads u).slot = some msg) : u = t := by
  have hnodup : (held.map Prod.snd).Nodup := (List.nodup_append.mp h.nodup).2.1
  have hpair := List.inj_on_of_nodup_map hnodup ((h.held_iff t msg).mpr hslot)
    ((h.held_iff u msg).mpr hslot') rfl
  exact (congrArg Prod.fst hpair).symm

/-- The list of the pairs has no pair twice. -/
lemma nodup_held (h : MqInv mq₀ mq threads log done free queue held) : held.Nodup :=
  List.Nodup.of_map Prod.snd (List.nodup_append.mp h.nodup).2.1

/-- A thread keeps its message, or has none. -/
lemma held_keep (h : MqInv mq₀ mq threads log done free queue held)
    (hslot : thread.slot = (threads t).slot) (u msg : ℕ) :
    (u, msg) ∈ held ↔ (Function.update threads t thread u).slot = some msg := by
  rw [h.held_iff]
  by_cases hu : u = t
  · rw [hu, Function.update_self, hslot]
  · rw [Function.update_of_ne hu]

/-- A thread takes a message. -/
lemma held_take (h : MqInv mq₀ mq threads log done free queue held)
    (hnone : (threads t).slot = none) (hslot : thread.slot = some msg) (u a : ℕ) :
    (u, a) ∈ (t, msg) :: held ↔ (Function.update threads t thread u).slot = some a := by
  rw [List.mem_cons, h.held_iff]
  by_cases hu : u = t
  · rw [hu, Function.update_self, hslot, hnone]
    simp [eq_comm]
  · rw [Function.update_of_ne hu]
    simp [hu]

/-- A thread gives its message away. -/
lemma held_give (h : MqInv mq₀ mq threads log done free queue held)
    (hslot : (threads t).slot = some msg) (hnone : thread.slot = none) (u a : ℕ) :
    (u, a) ∈ held.erase (t, msg) ↔ (Function.update threads t thread u).slot = some a := by
  rw [h.nodup_held.mem_erase_iff, h.held_iff]
  by_cases hu : u = t
  · rw [hu, Function.update_self, hnone, hslot]
    simp [eq_comm]
  · rw [Function.update_of_ne hu]
    simp [hu]

/-- The messages that are taken, without that of a thread. -/
lemma held_perm (h : MqInv mq₀ mq threads log done free queue held)
    (hslot : (threads t).slot = some msg) :
    (held.map Prod.snd).Perm (msg :: (held.erase (t, msg)).map Prod.snd) :=
  (List.perm_cons_erase ((h.held_iff t msg).mpr hslot)).map Prod.snd

/-- What a step has to show when a thread goes on to another place. -/
lemma update (h : MqInv mq₀ mq threads log done free queue held) {mq' : MessageQueue}
    {log' : List (ℕ × DequeOp (List UInt8))} {done' : List (ℕ × MqResult)}
    {free' queue' : List ℕ} {held' : List (ℕ × ℕ)}
    (hshape : MqShape mq' free' queue') (hentry : mq'.entry = queue'.length)
    (hsize : mq'.msgSize = mq.msgSize) (hmax : mq'.maxMsgs = mq.maxMsgs)
    (hslots : (free' ++ queue' ++ held'.map Prod.snd).Perm (List.range mq.maxMsgs))
    (hheld : ∀ u a, (u, a) ∈ held' ↔ (Function.update threads t thread u).slot = some a)
    (hothers : ∀ u a, u ≠ t → (threads u).slot = some a →
      bodyOf mq'.msgPool a = bodyOf mq.msgPool a ∧ nextOf mq'.msgPool a = nextOf mq.msgPool a)
    (hentries : ∀ u, u ≠ t →
      entriesOf log' u = entriesOf log u ∧ entriesOf done' u = entriesOf done u)
    (hthread : ThreadOk mq' (entriesOf log' t) (entriesOf done' t) thread)
    (hlog : runDeque (log'.map Prod.snd) = some (queue'.map (bodyOf mq'.msgPool))) :
    MqInv mq₀ mq' (Function.update threads t thread) log' done' free' queue' held' := by
  refine ⟨hshape, hentry, hsize.trans h.msgSize_eq, hmax.trans h.maxMsgs_eq, hmax ▸ h.maxMsgs_le,
    hmax ▸ hslots, hheld, fun u => ?_, hlog⟩
  by_cases hu : u = t
  · rw [hu, Function.update_self]
    exact hthread
  · rw [Function.update_of_ne hu]
    rw [(hentries u hu).1, (hentries u hu).2]
    exact (h.threads_ok u).congr hsize fun a ha => hothers u a hu ha

/-- A thread goes on without an access to the memory. -/
lemma goOn (h : MqInv mq₀ mq threads log done free queue held)
    (hslot : thread.slot = (threads t).slot)
    (hpending : pendingOps mq.msgPool thread = pendingOps mq.msgPool (threads t))
    (hplace : PlaceOk mq thread) :
    MqInv mq₀ mq (Function.update threads t thread) log done free queue held :=
  h.update h.shape h.entry_eq rfl rfl h.slots (h.held_keep hslot) (fun _ _ _ _ => ⟨rfl, rfl⟩)
    (fun _ _ => ⟨rfl, rfl⟩) ⟨hplace, (h.threads_ok t).calls.goOn hpending⟩ h.log_eq

/-- A thread is resumed. -/
lemma resume (h : MqInv mq₀ mq threads log done free queue held) (u : ℕ) :
    MqInv mq₀ mq (Function.update threads u (threads u).resume) log done free queue held :=
  h.update h.shape h.entry_eq rfl rfl h.slots (h.held_keep (MqThread.slot_resume _))
    (fun _ _ _ _ => ⟨rfl, rfl⟩) (fun _ _ => ⟨rfl, rfl⟩) (h.threads_ok u).resume h.log_eq

/-! ### Sending -/

/-- A free message is taken. -/
lemma takeFree (h : MqInv mq₀ mq threads log done free queue held) (hnone : (threads t).slot = none)
    (hfree : mq.msgQueueFree = some msg) (hslot : thread.slot = some msg)
    (hthread : ThreadOk mq (entriesOf log t) (entriesOf done t) thread) :
    ∃ free', free = msg :: free' ∧ msg < mq.msgPool.length ∧
      MqInv mq₀ { mq with msgQueueFree := nextOf mq.msgPool msg } (Function.update threads t thread)
        log done free' queue ((t, msg) :: held) := by
  have hchain := h.shape.free_chain
  rw [hfree] at hchain
  obtain ⟨free', rfl, -⟩ := hchain.exists_cons
  refine ⟨free', rfl, h.lt_length (by simp), ?_⟩
  refine h.update h.shape.takeFree h.entry_eq rfl rfl ?_ (h.held_take hnone hslot)
    (fun _ _ _ _ => ⟨rfl, rfl⟩) (fun _ _ => ⟨rfl, rfl⟩) ?_ h.log_eq
  · rw [List.map_cons]
    exact List.perm_middle.trans h.slots
  · exact hthread.congr rfl fun _ _ => ⟨rfl, rfl⟩

/-- A thread writes its message. -/
lemma write (h : MqInv mq₀ mq threads log done free queue held)
    (hslot : (threads t).slot = some msg)
    {message : MqMessage} (hbody : message.body.length = mq.msgSize)
    (hsame : thread.slot = (threads t).slot)
    (hpending : pendingOps mq.msgPool (threads t) = [])
    (hpending' : pendingOps (mq.msgPool.set msg message) thread = [])
    (hplace : PlaceOk { mq with msgPool := mq.msgPool.set msg message } thread) :
    MqInv mq₀ { mq with msgPool := mq.msgPool.set msg message } (Function.update threads t thread)
      log done free queue held := by
  obtain ⟨hfree, hqueue⟩ := h.notMem_lists hslot
  have hlt := h.slot_lt hslot
  refine h.update (h.shape.write hlt hfree hqueue hbody) h.entry_eq rfl rfl h.slots
    (h.held_keep hsame) (fun u a hu ha => ?_) (fun _ _ => ⟨rfl, rfl⟩) ⟨hplace, ?_⟩ ?_
  · have hne : a ≠ msg := fun hmsg => hu (h.slot_unique hslot (hmsg ▸ ha))
    change bodyOf (mq.msgPool.set msg message) a = _ ∧ nextOf (mq.msgPool.set msg message) a = _
    rw [bodyOf_set hlt, nextOf_set hlt, Function.update_of_ne hne, Function.update_of_ne hne]
    exact ⟨rfl, rfl⟩
  · have hcalls := (h.threads_ok t).calls
    rw [CallsOk, hpending] at hcalls
    rw [CallsOk, hpending']
    exact hcalls
  · rw [h.log_eq]
    refine congrArg some (List.map_congr_left fun a ha => ?_)
    have hne : a ≠ msg := fun hmsg => hqueue (hmsg ▸ ha)
    change _ = bodyOf (mq.msgPool.set msg message) a
    rw [bodyOf_set hlt, Function.update_of_ne hne]

/-- What is left to show when a thread has linked its message. -/
lemma linked (h : MqInv mq₀ mq threads log done free queue held)
    (hslot : (threads t).slot = some msg)
    {mq' : MessageQueue} {queue' : List ℕ} {op : DequeOp (List UInt8)} {result : MqResult}
    (hshape : MqShape mq' free queue') (hframe : MqFrame mq mq')
    (hperm : queue'.Perm (msg :: queue))
    (hnext : ∀ a, a ∉ queue → a ≠ msg → nextOf mq'.msgPool a = nextOf mq.msgPool a)
    (hop : op.apply (queue.map (bodyOf mq.msgPool)) = some (queue'.map (bodyOf mq.msgPool)))
    (hpending : pendingOps mq.msgPool (threads t) = [])
    (hfulfils : Fulfils mq.msgSize op result) :
    mq'.entry < rtMqEntryMax ∧
      MqInv mq₀ { mq' with entry := mq'.entry + 1 }
        (Function.update threads t (.returned (some result))) (log ++ [(t, op)])
        (done ++ [(t, result)]) free queue' (held.erase (t, msg)) := by
  have hslots : (free ++ queue' ++ (held.erase (t, msg)).map Prod.snd).Perm
      (List.range mq.maxMsgs) := by
    refine List.Perm.trans ?_ h.slots
    calc free ++ queue' ++ (held.erase (t, msg)).map Prod.snd
        _ ~ free ++ (msg :: queue) ++ (held.erase (t, msg)).map Prod.snd :=
          (hperm.append_left free).append_right _
        _ ~ free ++ queue ++ (msg :: (held.erase (t, msg)).map Prod.snd) := by
          rw [List.append_assoc, List.append_assoc, List.cons_append]
          exact (List.perm_middle.symm).append_left free
        _ ~ free ++ queue ++ held.map Prod.snd := (h.held_perm hslot).symm.append_left _
  have hlength : queue'.length = queue.length + 1 := hperm.length_eq
  have hcount : queue.length + 1 ≤ mq.maxMsgs := by
    have hlen := hslots.length_eq
    rw [List.length_append, List.length_append, List.length_range, hlength] at hlen
    omega
  have hentry := hframe.entry_eq
  have hentry' := h.entry_eq
  have hmax := h.maxMsgs_le
  refine ⟨by omega, ?_⟩
  refine h.update (hshape.setEntry _) ?_ hframe.msgSize_eq hframe.maxMsgs_eq hslots
    (h.held_give hslot rfl) (fun u a hu ha => ?_) (fun u hu =>
      ⟨entriesOf_snoc_of_ne log hu op, entriesOf_snoc_of_ne done hu result⟩) ⟨trivial, ?_⟩ ?_
  · change mq'.entry + 1 = queue'.length
    omega
  · refine ⟨congrFun hframe.bodyOf_eq a, hnext a (h.notMem_lists ha).2 fun hmsg => ?_⟩
    exact hu (h.slot_unique hslot (hmsg ▸ ha))
  · rw [entriesOf_snoc_self, entriesOf_snoc_self]
    exact (h.threads_ok t).calls.snoc hpending hframe.msgSize_eq hfulfils rfl
  · rw [List.map_append, List.map_singleton, runDeque_snoc h.log_eq, hop]
    exact congrArg (fun body => some (queue'.map body)) hframe.bodyOf_eq.symm

/-- What a sender has copied when it comes to the link. -/
lemma copied (h : MqInv mq₀ mq threads log done free queue held) {urgent : Bool}
    {buffer : List UInt8} {n : ℕ} (hthread : threads t = .copying urgent msg buffer n)
    (hn : ¬ n < buffer.length) :
    (threads t).slot = some msg ∧ (bodyOf mq.msgPool msg).take buffer.length = buffer ∧
      (urgent = false → nextOf mq.msgPool msg = none) := by
  have hplace := (h.threads_ok t).place
  rw [hthread] at hplace ⊢
  obtain ⟨-, hle, hcopied, hnext⟩ := hplace
  obtain rfl : n = buffer.length := by omega
  rw [List.take_length] at hcopied
  exact ⟨rfl, hcopied, hnext⟩

/-- A message is linked behind the others. -/
lemma linkBack (h : MqInv mq₀ mq threads log done free queue held) {buffer : List UInt8} {n : ℕ}
    (hthread : threads t = .copying false msg buffer n) (hn : ¬ n < buffer.length) :
    ∃ mq', mq.linkBack msg = .ok mq' ∧ mq'.entry < rtMqEntryMax ∧
      MqInv mq₀ { mq' with entry := mq'.entry + 1 }
        (Function.update threads t (.returned (some (.sent false buffer))))
        (log ++ [(t, .pushBack (bodyOf mq.msgPool msg))]) (done ++ [(t, .sent false buffer)]) free
        (queue ++ [msg]) (held.erase (t, msg)) := by
  obtain ⟨hslot, hbuffer, hnext⟩ := h.copied hthread hn
  obtain ⟨hfree, hqueue⟩ := h.notMem_lists hslot
  have hlt : ∀ a ∈ queue, a < mq.msgPool.length := fun a ha =>
    h.lt_length (List.mem_append_left _ (List.mem_append_right free ha))
  obtain ⟨mq', hlink, hshape, hframe, hsame⟩ :=
    h.shape.linkBack (List.nodup_append.mp h.nodup).1 hlt hqueue (hnext rfl)
  refine ⟨mq', hlink, h.linked hslot hshape hframe ?_ (fun a ha _ => hsame a ha) ?_
    (by rw [hthread]; rfl) ⟨rfl, h.shape.sized.length_bodyOf (h.slot_lt hslot), hbuffer⟩⟩
  · exact List.perm_append_singleton msg queue
  · rw [DequeOp.apply, List.map_append, List.map_singleton]

/-- A message is linked in front of the others. -/
lemma linkFront (h : MqInv mq₀ mq threads log done free queue held) {buffer : List UInt8} {n : ℕ}
    (hthread : threads t = .copying true msg buffer n) (hn : ¬ n < buffer.length) :
    ∃ mq', mq.linkFront msg = .ok mq' ∧ mq'.entry < rtMqEntryMax ∧
      MqInv mq₀ { mq' with entry := mq'.entry + 1 }
        (Function.update threads t (.returned (some (.sent true buffer))))
        (log ++ [(t, .pushFront (bodyOf mq.msgPool msg))]) (done ++ [(t, .sent true buffer)]) free
        (msg :: queue) (held.erase (t, msg)) := by
  obtain ⟨hslot, hbuffer, -⟩ := h.copied hthread hn
  obtain ⟨hfree, hqueue⟩ := h.notMem_lists hslot
  obtain ⟨mq', hlink, hshape, hframe, hsame⟩ :=
    h.shape.linkFront (h.slot_lt hslot) hfree hqueue
  exact ⟨mq', hlink, h.linked hslot hshape hframe (List.Perm.refl _)
    (fun a _ ha => hsame a ha) rfl (by rw [hthread]; rfl)
    ⟨rfl, h.shape.sized.length_bodyOf (h.slot_lt hslot), hbuffer⟩⟩

/-! ### Receiving -/

/-- A message is taken out of the queue. -/
lemma unlink (h : MqInv mq₀ mq threads log done free queue held) (hnone : (threads t).slot = none)
    (hpending : pendingOps mq.msgPool (threads t) = []) (hentry : mq.entry ≠ 0) (size : ℕ) :
    ∃ msg queue' mq', queue = msg :: queue' ∧
      mq.unlink = .ok (msg, bodyOf mq.msgPool msg, mq') ∧
      MqInv mq₀ { mq' with entry := mq'.entry - 1 }
        (Function.update threads t (.reading msg size []))
        (log ++ [(t, .popFront (bodyOf mq.msgPool msg))]) done free queue' ((t, msg) :: held) := by
  obtain ⟨msg, queue', rfl⟩ := List.exists_cons_of_length_pos
    (show 0 < queue.length by rw [← h.entry_eq]; exact Nat.pos_of_ne_zero hentry)
  have hlt : msg < mq.msgPool.length := h.lt_length (by simp)
  have hnodup : (msg :: queue').Nodup :=
    (List.nodup_append.mp (List.nodup_append.mp h.nodup).1).2.1
  obtain ⟨mq', hunlink, hshape, hframe, hpool⟩ := h.shape.unlink hlt hnodup
  refine ⟨msg, queue', mq', rfl, hunlink, ?_⟩
  refine h.update (hshape.setEntry _) ?_ hframe.msgSize_eq hframe.maxMsgs_eq ?_
    (h.held_take hnone rfl) (fun u a _ _ => ?_)
    (fun u hu => ⟨entriesOf_snoc_of_ne log hu _, rfl⟩) ⟨⟨rfl, Nat.zero_le _⟩, ?_⟩ ?_
  · change mq'.entry - 1 = queue'.length
    rw [hframe.entry_eq, h.entry_eq, List.length_cons, Nat.add_sub_cancel]
  · refine List.Perm.trans ?_ h.slots
    rw [List.map_cons, List.append_assoc, List.append_assoc, List.cons_append]
    exact List.perm_middle.append_left free
  · change bodyOf mq'.msgPool a = _ ∧ nextOf mq'.msgPool a = _
    rw [hpool]
    exact ⟨rfl, rfl⟩
  · obtain ⟨ops, hops, hall⟩ := (h.threads_ok t).calls
    refine ⟨ops, ?_, hframe.msgSize_eq ▸ hall⟩
    change _ = ops ++ [.popFront (bodyOf mq'.msgPool msg)]
    rw [entriesOf_snoc_self, hops, hpending, List.append_nil, hpool]
  · rw [List.map_append, List.map_singleton, runDeque_snoc h.log_eq]
    change (if bodyOf mq.msgPool msg = bodyOf mq.msgPool msg then _ else _) =
      some (queue'.map (bodyOf mq'.msgPool))
    rw [if_pos rfl, hpool]

/-- One more byte is read. -/
lemma readByte (h : MqInv mq₀ mq threads log done free queue held) {size : ℕ} {data : List UInt8}
    (hthread : threads t = .reading msg size data) (hmore : data.length < min size mq.msgSize) :
    ∃ b, byteAt (bodyOf mq.msgPool msg) data.length = .ok b ∧ msg < mq.msgPool.length ∧
      MqInv mq₀ mq (Function.update threads t (.reading msg size (data ++ [b]))) log done free queue
        held := by
  have hslot : (threads t).slot = some msg := by rw [hthread]; rfl
  have hlt := h.slot_lt hslot
  have hlen := h.shape.sized.length_bodyOf hlt
  have hplace := (h.threads_ok t).place
  rw [hthread] at hplace
  obtain ⟨hdata, hle⟩ := hplace
  obtain ⟨b, hb⟩ := byteAt_of_lt (show data.length < (bodyOf mq.msgPool msg).length by omega)
  refine ⟨b, hb, hlt, h.goOn (by rw [hthread]; rfl) (by rw [hthread]; rfl) ⟨?_, ?_⟩⟩
  · have hget : (bodyOf mq.msgPool msg)[data.length]? = some b := getElem?_of_byteAt hb
    rw [List.length_append, List.length_singleton, List.take_add_one, hget, ← hdata]
    rfl
  · rw [List.length_append, List.length_singleton]
    exact hmore

/-- A message is given back. -/
lemma giveBack (h : MqInv mq₀ mq threads log done free queue held) {size : ℕ} {data : List UInt8}
    (hthread : threads t = .reading msg size data)
    (hdone : ¬ data.length < min size mq.msgSize) :
    ∃ mq', mq.release msg = .ok mq' ∧
      MqInv mq₀ mq' (Function.update threads t (.returned (some (.received size data)))) log
        (done ++ [(t, .received size data)]) (msg :: free) queue (held.erase (t, msg)) := by
  have hslot : (threads t).slot = some msg := by rw [hthread]; rfl
  have hlt := h.slot_lt hslot
  obtain ⟨hfree, hqueue⟩ := h.notMem_lists hslot
  obtain ⟨hplace, ops, hops, hall⟩ := h.threads_ok t
  rw [hthread] at hplace hops
  obtain ⟨hdata, hle⟩ := hplace
  obtain ⟨mq', hrelease, hshape, hframe, hsame⟩ := h.shape.release hlt hfree hqueue
  refine ⟨mq', hrelease, h.update hshape (hframe.entry_eq.trans h.entry_eq) hframe.msgSize_eq
    hframe.maxMsgs_eq ?_ (h.held_give hslot rfl) (fun u a hu ha => ?_)
    (fun u hu => ⟨rfl, entriesOf_snoc_of_ne done hu _⟩) ⟨trivial, ?_⟩ ?_⟩
  · refine List.Perm.trans ?_ h.slots
    exact List.perm_middle.symm.trans ((h.held_perm hslot).symm.append_left _)
  · refine ⟨congrFun hframe.bodyOf_eq a, hsame a fun hmsg => ?_⟩
    exact hu (h.slot_unique hslot (hmsg ▸ ha))
  · have hfulfils : Fulfils mq.msgSize (.popFront (bodyOf mq.msgPool msg))
        (.received size data) := by
      refine ⟨h.shape.sized.length_bodyOf hlt, ?_⟩
      rw [show min size mq.msgSize = data.length by omega]
      exact hdata
    refine ⟨entriesOf log t, (List.append_nil _).symm, ?_⟩
    rw [entriesOf_snoc_self, hops, hframe.msgSize_eq]
    exact List.rel_append hall (.cons hfulfils .nil)
  · rw [h.log_eq, hframe.bodyOf_eq]

/-- All messages are given back, and threads that have taken none return. -/
lemma reset (h : MqInv mq₀ mq threads log done free queue held) {result : Option MqResult}
    (ht : threads t = .returned result) {woken : ℕ → Prop} [DecidablePred woken]
    (hwoken : ∀ u, woken u → (threads u).slot = none ∧ pendingOps mq.msgPool (threads u) = []) :
    ∃ mq', mq.releaseAll mq.msgPool.length = .ok mq' ∧
      MqInv mq₀ { mq' with entry := 0 }
        (Function.update (fun u => if woken u then .returned (some (.failed .error))
          else threads u) t (.returned (some .reset)))
        (log ++ [(t, .clear)]) (done ++ [(t, .reset)]) (queue.reverse ++ free) [] held := by
  have hlt : ∀ a ∈ queue, a < mq.msgPool.length := fun a ha =>
    h.lt_length (List.mem_append_left _ (List.mem_append_right free ha))
  have hnodup := (List.nodup_append.mp h.nodup).1
  have hcount : queue.length ≤ mq.msgPool.length := by
    have hlen := h.slots.length_eq
    rw [List.length_append, List.length_append, List.length_range] at hlen
    have hle := h.shape.le_pool
    omega
  obtain ⟨mq', hall, hshape, hframe, hnext⟩ := h.shape.releaseAll hnodup hlt hcount
  refine ⟨mq', hall, hshape.setEntry 0, rfl, hframe.msgSize_eq.trans h.msgSize_eq,
    hframe.maxMsgs_eq.trans h.maxMsgs_eq, ?_, ?_, fun u a => ?_, fun u => ?_, ?_⟩
  · rw [hframe.maxMsgs_eq]
    exact h.maxMsgs_le
  · rw [hframe.maxMsgs_eq, List.append_nil]
    refine List.Perm.trans (List.Perm.append_right _ ?_) h.slots
    exact (List.perm_append_comm).trans ((List.reverse_perm queue).append_left free)
  · rw [h.held_iff]
    by_cases hu : u = t
    · rw [hu, Function.update_self, ht]
      rfl
    · rw [Function.update_of_ne hu]
      by_cases hw : woken u
      · rw [if_pos hw, (hwoken u hw).1]
        rfl
      · rw [if_neg hw]
  · have hcalls := (h.threads_ok u).calls
    by_cases hu : u = t
    · rw [hu, Function.update_self, entriesOf_snoc_self, entriesOf_snoc_self]
      exact ⟨trivial, (hu ▸ hcalls).snoc (by rw [ht]; rfl) hframe.msgSize_eq trivial rfl⟩
    · rw [Function.update_of_ne hu, entriesOf_snoc_of_ne log hu, entriesOf_snoc_of_ne done hu]
      by_cases hw : woken u
      · rw [if_pos hw]
        obtain ⟨ops, hops, hall⟩ := hcalls
        rw [(hwoken u hw).2] at hops
        exact ⟨trivial, ops, hops, hframe.msgSize_eq ▸ hall⟩
      · rw [if_neg hw]
        refine (h.threads_ok u).congr hframe.msgSize_eq fun a ha => ?_
        exact ⟨congrFun hframe.bodyOf_eq a, hnext a (h.notMem_lists ha).2⟩
  · rw [List.map_append, List.map_singleton, runDeque_snoc h.log_eq]
    rfl

end MqInv

end Inv

end WiotaAp
