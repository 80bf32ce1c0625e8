import WiotaAp.Platform.MessageQueueSafety
import WiotaAp.Foundation.Waiters

/-!
# Any interleaving of the threads of a message queue

`mqStep_good` says that no step faults and that every step keeps the invariant, together with that
of the threads that are suspended.  The results for all runs are `mq_slots`, that no message of the
pool is lost or used twice, `mq_linearizable`, that the queue is a deque, and `mq_no_lost_wakeup`.
-/

namespace WiotaAp

open Buffers

/-! ### The threads that wait -/

/-- What a thread has to do with the messages of the queue. -/
def MqThread.recvRole : MqThread → WaitRole
  | .recvSuspended _ _ _ => .waiting
  | .receiving _ _ (some _) => .woken
  | _ => .away

/-- What a thread has to do with the free messages. -/
def MqThread.sendRole : MqThread → WaitRole
  | .sendSuspended _ _ _ => .waiting
  | .sending _ _ _ (some _) => .woken
  | _ => .away

/-- The lists of suspended threads. -/
structure MqWaits (threads : ℕ → MqThread) (receivers senders : List ℕ) (messages frees : ℕ) :
    Prop where
  receivers : Waiters (MqThread.recvRole ∘ threads) receivers messages
  senders : Waiters (MqThread.sendRole ∘ threads) senders frees

section Waits

variable {threads : ℕ → MqThread} {receivers senders : List ℕ} {messages frees t : ℕ}
  {thread : MqThread}

/-- The place of a thread in the list of `rt_ipc_list_suspend`. -/
lemma ipcListSuspend_perm (flag : IpcFlag) (priority : ℕ → ℕ) (list : List ℕ) (thread : ℕ) :
    (ipcListSuspend flag priority list thread).Perm (thread :: list) := by
  cases flag with
  | fifo => exact List.perm_append_singleton thread list
  | prio =>
    change (insertByPriority priority thread list).Perm (thread :: list)
    induction list with
    | nil => exact List.Perm.refl _
    | cons sthread list ih =>
      rw [insertByPriority]
      split
      · exact List.Perm.refl _
      · exact (ih.cons sthread).trans (List.Perm.swap thread sthread list)

namespace MqWaits

/-- A thread goes on and has nothing to do with the lists. -/
lemma goOn (h : MqWaits threads receivers senders messages frees)
    (hrecv : thread.recvRole = (threads t).recvRole)
    (hsend : thread.sendRole = (threads t).sendRole) :
    MqWaits (Function.update threads t thread) receivers senders messages frees := by
  refine ⟨?_, ?_⟩
  · rw [Function.comp_update]
    exact h.receivers.stay hrecv
  · rw [Function.comp_update]
    exact h.senders.stay hsend

/-- The receivers change, and the senders do not. -/
lemma ofReceivers (h : MqWaits threads receivers senders messages frees) {receivers' : List ℕ}
    {messages' : ℕ} (hsend : thread.sendRole = (threads t).sendRole)
    (hrecv : Waiters (Function.update (MqThread.recvRole ∘ threads) t thread.recvRole) receivers'
      messages') :
    MqWaits (Function.update threads t thread) receivers' senders messages' frees := by
  refine ⟨?_, ?_⟩
  · rw [Function.comp_update]
    exact hrecv
  · rw [Function.comp_update]
    exact h.senders.stay hsend

/-- The senders change, and the receivers do not. -/
lemma ofSenders (h : MqWaits threads receivers senders messages frees) {senders' : List ℕ}
    {frees' : ℕ} (hrecv : thread.recvRole = (threads t).recvRole)
    (hsend : Waiters (Function.update (MqThread.sendRole ∘ threads) t thread.sendRole) senders'
      frees') :
    MqWaits (Function.update threads t thread) receivers senders' messages frees' := by
  refine ⟨?_, ?_⟩
  · rw [Function.comp_update]
    exact h.receivers.stay hrecv
  · rw [Function.comp_update]
    exact hsend

/-- A thread in the list of the receivers. -/
lemma exists_recvSuspended (h : MqWaits threads receivers senders messages frees)
    (ht : t ∈ receivers) : ∃ size timeout since, threads t = .recvSuspended size timeout since := by
  have hrole : (threads t).recvRole = .waiting := (h.receivers.mem_iff t).mp ht
  cases hthread : threads t with
  | recvSuspended size timeout since => exact ⟨size, timeout, since, rfl⟩
  | receiving size timeout since =>
    rw [hthread] at hrole
    cases since with
    | none => cases hrole
    | some since => cases hrole
  | _ =>
    rw [hthread] at hrole
    cases hrole

/-- A thread in the list of the senders. -/
lemma exists_sendSuspended (h : MqWaits threads receivers senders messages frees)
    (ht : t ∈ senders) :
    ∃ buffer timeout since, threads t = .sendSuspended buffer timeout since := by
  have hrole : (threads t).sendRole = .waiting := (h.senders.mem_iff t).mp ht
  cases hthread : threads t with
  | sendSuspended buffer timeout since => exact ⟨buffer, timeout, since, rfl⟩
  | sending urgent buffer timeout since =>
    rw [hthread] at hrole
    cases since with
    | none => cases hrole
    | some since => cases hrole
  | _ =>
    rw [hthread] at hrole
    cases hrole

end MqWaits

end Waits

/-! ### The steps -/

/-- The invariant of the system. -/
structure MqSystemInv (mq₀ : MessageQueue) (s : MqSystem) (free queue : List ℕ)
    (held : List (ℕ × ℕ)) : Prop where
  inv : MqInv mq₀ s.mq s.threads s.log s.done free queue held
  waits : MqWaits s.threads s.suspendThread s.suspendSenderThread queue.length free.length

/-- There are lists for which the invariant holds. -/
def MqSystem.Good (mq₀ : MessageQueue) (s : MqSystem) : Prop :=
  ∃ free queue held, MqSystemInv mq₀ s free queue held

namespace MqSystem

variable {mq₀ : MessageQueue} {s : MqSystem} {free queue : List ℕ} {held : List (ℕ × ℕ)} {t : ℕ}

/-- A message has been added, and a receiver is resumed. -/
lemma resumeReceiver_good (hinv : MqInv mq₀ s.mq s.threads s.log s.done free queue held) {n : ℕ}
    (hqueue : queue.length = n + 1)
    (hwaits : MqWaits s.threads s.suspendThread s.suspendSenderThread n free.length) :
    s.resumeReceiver.Good mq₀ := by
  rw [resumeReceiver]
  cases hlist : s.suspendThread with
  | nil =>
    refine ⟨free, queue, held, hinv, ?_, hwaits.senders⟩
    rw [hlist]
    refine Waiters.of_nil (fun u hu => ?_) _
    have hmem := (hwaits.receivers.mem_iff u).mpr hu
    rw [hlist] at hmem
    cases hmem
  | cons u list =>
    rw [hlist] at hwaits
    obtain ⟨size, timeout, since, hu⟩ := hwaits.exists_recvSuspended List.mem_cons_self
    refine ⟨free, queue, held, hinv.resume u, ?_⟩
    rw [hqueue]
    refine hwaits.ofReceivers ?_ ?_
    · rw [hu]
      rfl
    · rw [hu]
      exact hwaits.receivers.wake

/-- A free message has been added, and a sender is resumed. -/
lemma resumeSender_good (hinv : MqInv mq₀ s.mq s.threads s.log s.done free queue held) {n : ℕ}
    (hfree : free.length = n + 1)
    (hwaits : MqWaits s.threads s.suspendThread s.suspendSenderThread queue.length n) :
    s.resumeSender.Good mq₀ := by
  rw [resumeSender]
  cases hlist : s.suspendSenderThread with
  | nil =>
    refine ⟨free, queue, held, hinv, hwaits.receivers, ?_⟩
    rw [hlist]
    refine Waiters.of_nil (fun u hu => ?_) _
    have hmem := (hwaits.senders.mem_iff u).mpr hu
    rw [hlist] at hmem
    cases hmem
  | cons u list =>
    rw [hlist] at hwaits
    obtain ⟨buffer, timeout, since, hu⟩ := hwaits.exists_sendSuspended List.mem_cons_self
    refine ⟨free, queue, held, hinv.resume u, ?_⟩
    rw [hfree]
    refine hwaits.ofSenders ?_ ?_
    · rw [hu]
      rfl
    · rw [hu]
      exact hwaits.senders.wake

/-- The section that takes a free message. -/
lemma takeFree_good (h : MqSystemInv mq₀ s free queue held) {urgent : Bool} {buffer : List UInt8}
    {timeout : ℤ} {since : Option ℕ} (hthread : s.threads t = .sending urgent buffer timeout since)
    (left : ℤ) : ∃ s', s.takeFree t urgent buffer left = .ok s' ∧ s'.Good mq₀ := by
  obtain ⟨hplace, hcalls⟩ := h.inv.threads_ok t
  rw [hthread] at hplace
  have hbuffer : buffer.length ≤ s.mq.msgSize := hplace
  have hpending : pendingOps s.mq.msgPool (s.threads t) = [] := by rw [hthread]; rfl
  have hrecv : (s.threads t).recvRole = .away := by rw [hthread]; rfl
  have hsend : (s.threads t).sendRole ≠ .waiting := by
    rw [hthread]
    cases since <;> nofun
  have hslot : (s.threads t).slot = none := by rw [hthread]; rfl
  rw [takeFree]
  cases hfree : s.mq.msgQueueFree with
  | none =>
    have hnil : free = [] := (hfree ▸ h.inv.shape.free_chain).eq_nil
    subst hnil
    by_cases hleft : left = 0
    · refine ⟨_, if_pos hleft, [], queue, held, h.inv.goOn hslot.symm hpending.symm trivial, ?_⟩
      exact h.waits.ofSenders hrecv.symm (h.waits.senders.leave hsend)
    · refine ⟨_, if_neg hleft, [], queue, held, h.inv.goOn hslot.symm hpending.symm hbuffer, ?_⟩
      exact h.waits.ofSenders hrecv.symm
        (h.waits.senders.wait (ipcListSuspend_perm s.flag s.priority _ t) hsend)
  | some msg =>
    dsimp only
    have hnew : (if urgent then MqThread.copying true msg buffer 0
        else .clearing msg buffer).slot = some msg := by
      cases urgent <;> rfl
    have hrole : (if urgent then MqThread.copying true msg buffer 0
        else .clearing msg buffer).recvRole = .away := by
      cases urgent <;> rfl
    have hrole' : (if urgent then MqThread.copying true msg buffer 0
        else .clearing msg buffer).sendRole = .away := by
      cases urgent <;> rfl
    have hthreadOk : ThreadOk s.mq (entriesOf s.log t) (entriesOf s.done t)
        (if urgent then .copying true msg buffer 0 else .clearing msg buffer) := by
      cases urgent with
      | false => exact ⟨hbuffer, hcalls.goOn hpending.symm⟩
      | true => exact ⟨⟨hbuffer, Nat.zero_le _, rfl, nofun⟩, hcalls.goOn hpending.symm⟩
    obtain ⟨free', rfl, hlt, hinv⟩ := h.inv.takeFree hslot hfree hnew hthreadOk
    rw [byteAt_message hlt, ok_bind]
    refine ⟨_, rfl, free', queue, (t, msg) :: held, hinv, ?_⟩
    refine h.waits.ofSenders (hrole.trans hrecv.symm) ?_
    rw [hrole']
    exact h.waits.senders.take hsend

/-- The access `msg->next = RT_NULL`. -/
lemma clearing_good (h : MqSystemInv mq₀ s free queue held) {msg : ℕ} {buffer : List UInt8}
    (hthread : s.threads t = .clearing msg buffer) : ∃ s', s.run t = .ok s' ∧ s'.Good mq₀ := by
  have hplace := (h.inv.threads_ok t).place
  rw [hthread] at hplace
  have hslot : (s.threads t).slot = some msg := by rw [hthread]; rfl
  have hlt := h.inv.slot_lt hslot
  rw [run, hthread]
  dsimp only
  rw [setNext_eq hlt, ok_bind]
  refine ⟨_, rfl, free, queue, held, ?_, h.waits.goOn (by rw [hthread]; rfl) (by rw [hthread]; rfl)⟩
  refine h.inv.write hslot (h.inv.shape.sized.length_bodyOf hlt) hslot.symm
    (by rw [hthread]; rfl) rfl ⟨hplace, Nat.zero_le _, rfl, fun _ => ?_⟩
  rw [nextOf_set hlt]
  exact Function.update_self msg _ _

/-- One byte is copied into the message. -/
lemma copyByte_good (h : MqSystemInv mq₀ s free queue held) {urgent : Bool} {msg n : ℕ}
    {buffer : List UInt8} (hthread : s.threads t = .copying urgent msg buffer n)
    (hn : n < buffer.length) : ∃ s', s.copyByte t urgent msg buffer n = .ok s' ∧ s'.Good mq₀ := by
  have hplace := (h.inv.threads_ok t).place
  rw [hthread] at hplace
  obtain ⟨hbuffer, -, hcopied, hnext⟩ := hplace
  have hslot : (s.threads t).slot = some msg := by rw [hthread]; rfl
  have hlt := h.inv.slot_lt hslot
  have hlen := h.inv.shape.sized.length_bodyOf hlt
  obtain ⟨b, hb⟩ := byteAt_of_lt hn
  have hwrite := writeAt_one b (show n < (bodyOf s.mq.msgPool msg).length by omega)
  have htake : (buffer.take n).length = n := List.length_take_of_le (Nat.le_of_lt hn)
  have hlength : (buffer.take n ++ b :: (bodyOf s.mq.msgPool msg).drop (n + 1)).length =
      s.mq.msgSize := by
    rw [List.length_append, htake, List.length_cons, List.length_drop, hlen]
    omega
  rw [hcopied] at hwrite
  rw [copyByte, byteAt_message hlt, ok_bind, hb, ok_bind, hwrite, ok_bind]
  refine ⟨_, rfl, free, queue, held, ?_, h.waits.goOn (by rw [hthread]; rfl) (by rw [hthread]; rfl)⟩
  refine h.inv.write hslot hlength hslot.symm (by rw [hthread]; rfl) rfl
    ⟨hbuffer, hn, ?_, fun hurgent => ?_⟩
  · have hmore : buffer.take (n + 1) = buffer.take n ++ [b] := by
      rw [List.take_add_one, getElem?_of_byteAt hb]
      rfl
    rw [bodyOf_set hlt, Function.update_self, hmore, List.take_append, htake,
      List.take_of_length_le (by omega), Nat.add_sub_cancel_left]
    rfl
  · rw [nextOf_set hlt, Function.update_self]
    exact hnext hurgent

/-- The section that links a message. -/
lemma link_good (h : MqSystemInv mq₀ s free queue held) {urgent : Bool} {msg n : ℕ}
    {buffer : List UInt8} (hthread : s.threads t = .copying urgent msg buffer n)
    (hn : ¬ n < buffer.length) : ∃ s', s.link t urgent msg buffer = .ok s' ∧ s'.Good mq₀ := by
  have hslot : (s.threads t).slot = some msg := by rw [hthread]; rfl
  have hwaits : MqWaits (Function.update s.threads t (.returned (some (.sent urgent buffer))))
      s.suspendThread s.suspendSenderThread queue.length free.length :=
    h.waits.goOn (by rw [hthread]; rfl) (by rw [hthread]; rfl)
  rw [link, byteAt_message (h.inv.slot_lt hslot), ok_bind]
  cases urgent with
  | true =>
    obtain ⟨mq', hlink, hentry, hinv⟩ := h.inv.linkFront hthread hn
    rw [if_pos rfl, hlink, ok_bind]
    refine ⟨_, rfl, ?_⟩
    rw [linked, if_pos hentry]
    exact resumeReceiver_good hinv rfl hwaits
  | false =>
    obtain ⟨mq', hlink, hentry, hinv⟩ := h.inv.linkBack hthread hn
    rw [if_neg (by decide), hlink, ok_bind]
    refine ⟨_, rfl, ?_⟩
    rw [linked, if_pos hentry]
    exact resumeReceiver_good hinv List.length_append hwaits

/-- The section that takes a message out of the queue. -/
lemma takeMessage_good (h : MqSystemInv mq₀ s free queue held) {size : ℕ} {timeout : ℤ}
    {since : Option ℕ} (hthread : s.threads t = .receiving size timeout since) (left : ℤ) :
    ∃ s', s.takeMessage t size left = .ok s' ∧ s'.Good mq₀ := by
  have hsend : (s.threads t).sendRole = .away := by rw [hthread]; rfl
  have hrecv : (s.threads t).recvRole ≠ .waiting := by
    rw [hthread]
    cases since <;> nofun
  have hslot : (s.threads t).slot = none := by rw [hthread]; rfl
  have hpending : pendingOps s.mq.msgPool (s.threads t) = [] := by rw [hthread]; rfl
  rw [takeMessage]
  by_cases hentry : s.mq.entry = 0
  · have hnil : queue = [] := List.length_eq_zero_iff.mp (h.inv.entry_eq ▸ hentry)
    subst hnil
    rw [if_pos hentry]
    by_cases hleft : left = 0
    · refine ⟨_, if_pos hleft, free, [], held, h.inv.goOn hslot.symm hpending.symm trivial, ?_⟩
      exact h.waits.ofReceivers hsend.symm (h.waits.receivers.leave hrecv)
    · refine ⟨_, if_neg hleft, free, [], held, h.inv.goOn hslot.symm hpending.symm trivial, ?_⟩
      exact h.waits.ofReceivers hsend.symm
        (h.waits.receivers.wait (ipcListSuspend_perm s.flag s.priority _ t) hrecv)
  · obtain ⟨msg, queue', mq', rfl, hunlink, hinv⟩ := h.inv.unlink hslot hpending hentry size
    rw [if_neg hentry, hunlink, ok_bind]
    refine ⟨_, rfl, free, queue', (t, msg) :: held, hinv, ?_⟩
    exact h.waits.ofReceivers hsend.symm (h.waits.receivers.take hrecv)

/-- The copy out of a message, and the section that gives it back. -/
lemma reading_good (h : MqSystemInv mq₀ s free queue held) {msg size : ℕ} {data : List UInt8}
    (hthread : s.threads t = .reading msg size data) : ∃ s', s.run t = .ok s' ∧ s'.Good mq₀ := by
  rw [run, hthread]
  dsimp only
  by_cases hmore : data.length < min size s.mq.msgSize
  · obtain ⟨b, hb, hlt, hinv⟩ := h.inv.readByte hthread hmore
    rw [if_pos hmore, readByte, byteAt_message hlt, ok_bind, hb, ok_bind]
    exact ⟨_, rfl, free, queue, held, hinv,
      h.waits.goOn (by rw [hthread]; rfl) (by rw [hthread]; rfl)⟩
  · obtain ⟨mq', hrelease, hinv⟩ := h.inv.giveBack hthread hmore
    have hwaits : MqWaits (Function.update s.threads t (.returned (some (.received size data))))
        s.suspendThread s.suspendSenderThread queue.length free.length :=
      h.waits.goOn (by rw [hthread]; rfl) (by rw [hthread]; rfl)
    rw [if_neg hmore, giveBack, hrelease, ok_bind]
    exact ⟨_, rfl, resumeSender_good hinv rfl hwaits⟩

/-- A thread goes on. -/
theorem run_good (hgood : s.Good mq₀) (t : ℕ) : ∃ s', s.run t = .ok s' ∧ s'.Good mq₀ := by
  obtain ⟨free, queue, held, h⟩ := hgood
  cases hthread : s.threads t with
  | sending urgent buffer timeout since =>
    rw [run, hthread]
    exact takeFree_good h hthread _
  | clearing msg buffer => exact clearing_good h hthread
  | copying urgent msg buffer n =>
    rw [run, hthread]
    dsimp only
    by_cases hn : n < buffer.length
    · rw [if_pos hn]
      exact copyByte_good h hthread hn
    · rw [if_neg hn]
      exact link_good h hthread hn
  | receiving size timeout since =>
    rw [run, hthread]
    exact takeMessage_good h hthread _
  | reading msg size data => exact reading_good h hthread
  | returned result =>
    rw [run, hthread]
    exact ⟨s, rfl, free, queue, held, h⟩
  | sendSuspended buffer timeout since =>
    rw [run, hthread]
    exact ⟨s, rfl, free, queue, held, h⟩
  | recvSuspended size timeout since =>
    rw [run, hthread]
    exact ⟨s, rfl, free, queue, held, h⟩

/-- A thread that has returned calls, and goes to a place where it has no message and does not
wait. -/
lemma call_good (h : MqSystemInv mq₀ s free queue held) {result : Option MqResult}
    (hthread : s.threads t = .returned result) {thread : MqThread} (hslot : thread.slot = none)
    (hrecv : thread.recvRole = .away) (hsend : thread.sendRole = .away)
    (hpending : pendingOps s.mq.msgPool thread = []) (hplace : PlaceOk s.mq thread) :
    (s.moveTo t thread).Good mq₀ := by
  refine ⟨free, queue, held, h.inv.goOn ?_ ?_ hplace, h.waits.goOn ?_ ?_⟩
  · rw [hthread, hslot]
    rfl
  · rw [hthread, hpending]
    rfl
  · rw [hthread, hrecv]
    rfl
  · rw [hthread, hsend]
    rfl

/-- A reset. -/
lemma callReset_good (h : MqSystemInv mq₀ s free queue held) {result : Option MqResult}
    (hthread : s.threads t = .returned result) : ∃ s', s.callReset t = .ok s' ∧ s'.Good mq₀ := by
  have hsuspended : ∀ u, u ∈ s.suspendThread ∨ u ∈ s.suspendSenderThread →
      (s.threads u).slot = none ∧ pendingOps s.mq.msgPool (s.threads u) = [] := by
    rintro u (hu | hu)
    · obtain ⟨size, timeout, since, hu⟩ := h.waits.exists_recvSuspended hu
      rw [hu]
      exact ⟨rfl, rfl⟩
    · obtain ⟨buffer, timeout, since, hu⟩ := h.waits.exists_sendSuspended hu
      rw [hu]
      exact ⟨rfl, rfl⟩
  obtain ⟨mq', hall, hinv⟩ := h.inv.reset hthread hsuspended
  rw [callReset, hall, ok_bind]
  refine ⟨_, rfl, queue.reverse ++ free, [], held, hinv, ?_, ?_⟩
  · refine Waiters.of_nil (fun u => ?_) _
    by_cases hu : u = t
    · simp [hu, MqThread.recvRole]
    · by_cases hw : u ∈ s.suspendThread ∨ u ∈ s.suspendSenderThread
      · simp [hu, hw, MqThread.recvRole]
      · have hrole : (s.threads u).recvRole ≠ .waiting := fun hwaiting =>
          hw (.inl ((h.waits.receivers.mem_iff u).mpr hwaiting))
        simpa [hu, hw] using hrole
  · refine Waiters.of_nil (fun u => ?_) _
    by_cases hu : u = t
    · simp [hu, MqThread.sendRole]
    · by_cases hw : u ∈ s.suspendThread ∨ u ∈ s.suspendSenderThread
      · simp [hu, hw, MqThread.sendRole]
      · have hrole : (s.threads u).sendRole ≠ .waiting := fun hwaiting =>
          hw (.inr ((h.waits.senders.mem_iff u).mpr hwaiting))
        simpa [hu, hw] using hrole

/-- The time of a suspended thread has come. -/
lemma expire_good (h : MqSystemInv mq₀ s free queue held) (t : ℕ) : (s.expire t).Good mq₀ := by
  have hsame : s.Good mq₀ := ⟨free, queue, held, h⟩
  unfold expire
  cases hthread : s.threads t with
  | sendSuspended buffer timeout since =>
    dsimp only
    split
    · refine ⟨free, queue, held, h.inv.goOn (by rw [hthread]; rfl) (by rw [hthread]; rfl) trivial,
        h.waits.ofSenders (by rw [hthread]; rfl) (h.waits.senders.giveUp ?_)⟩
      rw [Function.comp_apply, hthread]
      rfl
    · exact hsame
  | recvSuspended size timeout since =>
    dsimp only
    split
    · refine ⟨free, queue, held, h.inv.goOn (by rw [hthread]; rfl) (by rw [hthread]; rfl) trivial,
        h.waits.ofReceivers (by rw [hthread]; rfl) (h.waits.receivers.giveUp ?_)⟩
      rw [Function.comp_apply, hthread]
      rfl
    · exact hsame
  | _ => exact hsame

end MqSystem

/-- The calls keep the assertions of the functions: a buffer is not empty. -/
def MqInput.Legal : MqInput → Prop
  | .send _ buffer _ => buffer ≠ []
  | .urgent _ buffer => buffer ≠ []
  | .recv _ size _ => size ≠ 0
  | _ => True

/-- A call of a thread that has returned. -/
lemma MqSystem.whenReturned_good {mq₀ : MessageQueue} {s : MqSystem} (hgood : s.Good mq₀) (t : ℕ)
    {call : Except Fault MqSystem}
    (hcall : ∀ result, s.threads t = .returned result → ∃ s', call = .ok s' ∧ s'.Good mq₀) :
    ∃ s', s.whenReturned t call = .ok s' ∧ s'.Good mq₀ := by
  unfold MqSystem.whenReturned
  cases hthread : s.threads t with
  | returned result => exact hcall result hthread
  | _ => exact ⟨s, rfl, hgood⟩

/-- A send is called. -/
lemma MqSystem.callSend_good {mq₀ : MessageQueue} {s : MqSystem} {free queue : List ℕ}
    {held : List (ℕ × ℕ)} {t : ℕ}
    (h : MqSystemInv mq₀ s free queue held) {result : Option MqResult}
    (hthread : s.threads t = .returned result) (urgent : Bool) {buffer : List UInt8}
    (hbuffer : buffer ≠ []) (timeout : ℤ) :
    ∃ s', s.callSend t urgent buffer timeout = .ok s' ∧ s'.Good mq₀ := by
  rw [MqSystem.callSend, if_neg (mt List.length_eq_zero_iff.mp hbuffer)]
  by_cases hlong : buffer.length > s.mq.msgSize
  · exact ⟨_, if_pos hlong, MqSystem.call_good h hthread rfl rfl rfl rfl trivial⟩
  · exact ⟨_, if_neg hlong, MqSystem.call_good h hthread rfl rfl rfl rfl (Nat.not_lt.mp hlong)⟩

/-- No step faults, and every step keeps the invariant. -/
theorem mqStep_good {mq₀ : MessageQueue} {s : MqSystem} (hgood : s.Good mq₀) {i : MqInput}
    (hlegal : i.Legal) :
    ∃ s', mqStep i s = .ok s' ∧ s'.Good mq₀ := by
  have ⟨free, queue, held, h⟩ := hgood
  cases i with
  | send t buffer timeout =>
    exact MqSystem.whenReturned_good hgood t fun result hthread =>
      MqSystem.callSend_good h hthread false hlegal timeout
  | urgent t buffer =>
    exact MqSystem.whenReturned_good hgood t fun result hthread =>
      MqSystem.callSend_good h hthread true hlegal 0
  | recv t size timeout =>
    refine MqSystem.whenReturned_good hgood t fun result hthread => ?_
    exact ⟨_, if_neg hlegal, MqSystem.call_good h hthread rfl rfl rfl rfl trivial⟩
  | reset t =>
    exact MqSystem.whenReturned_good hgood t fun result hthread =>
      MqSystem.callReset_good h hthread
  | run t => exact MqSystem.run_good hgood t
  | expire t => exact ⟨_, rfl, MqSystem.expire_good h t⟩
  | tick => exact ⟨_, rfl, free, queue, held, h.inv, h.waits⟩

/-- No run faults, and the invariant holds after every run. -/
theorem mqRun_good {mq₀ : MessageQueue} {s₀ : MqSystem} (hgood : s₀.Good mq₀) {is : List MqInput}
    (hlegal : ∀ i ∈ is, i.Legal) : ∃ s, runInputs mqStep is s₀ = .ok s ∧ s.Good mq₀ := by
  induction is generalizing s₀ with
  | nil => exact ⟨s₀, rfl, hgood⟩
  | cons i is ih =>
    obtain ⟨s, hstep, hs⟩ := mqStep_good hgood (hlegal i List.mem_cons_self)
    rw [runInputs, hstep, ok_bind]
    exact ih hs fun j hj => hlegal j (List.mem_cons_of_mem i hj)

/-! ### The results -/

/-- The memory of a pool of `pool_size` bytes, as a queue for messages of `msg_size` bytes divides
it. -/
structure MqPool (pool : List MqMessage) (msgSize poolSize : ℕ) : Prop where
  length_eq : pool.length = poolSize / (mqMsgSize msgSize + 4)
  sized : PoolSized pool (mqMsgSize msgSize)

/-- The state `s` is reached from `rt_mq_init` by what the scheduler lets happen. -/
def MqReaches (pool : List MqMessage) (msgSize poolSize : ℕ) (flag : IpcFlag) (priority : ℕ → ℕ)
    (is : List MqInput) (s : MqSystem) : Prop :=
  ∃ mq, rtMqInit pool msgSize poolSize = .ok mq ∧
    runInputs mqStep is (MqSystem.init mq flag priority) = .ok s

/-- The messages in the list of free messages. -/
def MessageQueue.freed (mq : MessageQueue) : List ℕ :=
  followChain (nextOf mq.msgPool) mq.maxMsgs mq.msgQueueFree

/-- The messages in the queue. -/
def MessageQueue.queued (mq : MessageQueue) : List ℕ :=
  followChain (nextOf mq.msgPool) mq.maxMsgs mq.msgQueueHead

section Results

variable {pool : List MqMessage} {msgSize poolSize : ℕ} {flag : IpcFlag} {priority : ℕ → ℕ}
  {is : List MqInput} {s : MqSystem}

/-- The invariant holds for a queue that has just been initialised. -/
lemma init_good (hpool : MqPool pool msgSize poolSize) (flag : IpcFlag) (priority : ℕ → ℕ) :
    ∃ mq, rtMqInit pool msgSize poolSize = .ok mq ∧ mq.msgSize = mqMsgSize msgSize ∧
      mq.maxMsgs = poolSize / (mqMsgSize msgSize + 4) % 2 ^ 16 ∧
      (MqSystem.init mq flag priority).Good mq := by
  obtain ⟨mq, hinit, hsize, hmax, hentry, hshape⟩ := rtMqInit_spec hpool.length_eq hpool.sized
  refine ⟨mq, hinit, hsize, hmax, (List.range mq.maxMsgs).reverse, [], [],
    ⟨hshape, hentry, rfl, rfl, ?_, ?_, ?_, ?_, rfl⟩, ?_, ?_⟩
  · change mq.maxMsgs ≤ 65535
    omega
  · rw [List.append_nil]
    exact (List.append_nil _).symm ▸ List.reverse_perm _
  · intro t msg
    exact iff_of_false List.not_mem_nil nofun
  · intro t
    exact ⟨trivial, [], rfl, .nil⟩
  · have haway : ∀ u : ℕ, (MqThread.recvRole ∘ fun _ => .returned none) u ≠ .waiting :=
      fun _ => nofun
    exact Waiters.of_nil haway _
  · have haway : ∀ u : ℕ, (MqThread.sendRole ∘ fun _ => .returned none) u ≠ .waiting :=
      fun _ => nofun
    exact Waiters.of_nil haway _

/-- The invariant holds in every state that is reached. -/
lemma MqReaches.good (hreach : MqReaches pool msgSize poolSize flag priority is s)
    (hpool : MqPool pool msgSize poolSize) (hlegal : ∀ i ∈ is, i.Legal) :
    ∃ mq₀, s.Good mq₀ ∧ mq₀.msgSize = mqMsgSize msgSize ∧
      mq₀.maxMsgs = poolSize / (mqMsgSize msgSize + 4) % 2 ^ 16 := by
  obtain ⟨mq, hinit, hrun⟩ := hreach
  obtain ⟨mq', hinit', hsize, hmax, hgood⟩ := init_good hpool flag priority
  cases hinit.symm.trans hinit'
  obtain ⟨s', hrun', hs'⟩ := mqRun_good hgood hlegal
  cases hrun.symm.trans hrun'
  exact ⟨mq, hs', hsize, hmax⟩

/-- No run faults. -/
lemma exists_mqReaches (hpool : MqPool pool msgSize poolSize) (flag : IpcFlag) (priority : ℕ → ℕ)
    (hlegal : ∀ i ∈ is, i.Legal) : ∃ s, MqReaches pool msgSize poolSize flag priority is s := by
  obtain ⟨mq, hinit, -, -, hgood⟩ := init_good hpool flag priority
  obtain ⟨s, hrun, -⟩ := mqRun_good hgood hlegal
  exact ⟨s, mq, hinit, hrun⟩

/-- The lists of the invariant are those in the memory. -/
lemma MqInv.lists_eq {mq₀ mq : MessageQueue} {threads : ℕ → MqThread}
    {log : List (ℕ × DequeOp (List UInt8))} {done : List (ℕ × MqResult)} {free queue : List ℕ}
    {held : List (ℕ × ℕ)} (h : MqInv mq₀ mq threads log done free queue held) :
    mq.freed = free ∧ mq.queued = queue := by
  have hlen := h.slots.length_eq
  rw [List.length_append, List.length_append, List.length_range] at hlen
  exact ⟨h.shape.free_chain.followChain_eq (by omega),
    h.shape.queue_chain.followChain_eq (by omega)⟩

/-- No run faults, and in every state every message of the pool is in one place: it is in one of the
two lists and no thread has taken it, or it is in no list and exactly one thread has taken it. -/
theorem mq_slots (hpool : MqPool pool msgSize poolSize) (flag : IpcFlag) (priority : ℕ → ℕ)
    (hlegal : ∀ i ∈ is, i.Legal) :
    ∃ s, MqReaches pool msgSize poolSize flag priority is s ∧
      s.mq.entry = s.mq.queued.length ∧ (s.mq.freed ++ s.mq.queued).Nodup ∧
      ∀ msg < s.mq.maxMsgs,
        (msg ∈ s.mq.freed ++ s.mq.queued ∧ ∀ t, (s.threads t).slot ≠ some msg) ∨
        (msg ∉ s.mq.freed ++ s.mq.queued ∧ ∃! t, (s.threads t).slot = some msg) := by
  obtain ⟨s, hreach⟩ := exists_mqReaches hpool flag priority hlegal
  obtain ⟨mq₀, ⟨free, queue, held, hinv, -⟩, -⟩ := hreach.good hpool hlegal
  obtain ⟨hfree, hqueue⟩ := hinv.lists_eq
  refine ⟨s, hreach, ?_, ?_, fun msg hmsg => ?_⟩
  · rw [hqueue]
    exact hinv.entry_eq
  · rw [hfree, hqueue]
    exact (List.nodup_append.mp hinv.nodup).1
  · rw [hfree, hqueue]
    rcases List.mem_append.mp (hinv.slots.mem_iff.mpr (List.mem_range.mpr hmsg)) with hmem | hmem
    · refine .inl ⟨hmem, fun t ht => ?_⟩
      rcases List.mem_append.mp hmem with hin | hin
      · exact (hinv.notMem_lists ht).1 hin
      · exact (hinv.notMem_lists ht).2 hin
    · obtain ⟨⟨t, a⟩, hheld, rfl⟩ := List.mem_map.mp hmem
      have ht := (hinv.held_iff t a).mp hheld
      refine .inr ⟨fun hin => ?_, t, ht, fun u hu => hinv.slot_unique ht hu⟩
      rcases List.mem_append.mp hin with hin | hin
      · exact (hinv.notMem_lists ht).1 hin
      · exact (hinv.notMem_lists ht).2 hin

/-- Two messages of four bytes. -/
def smallPool : List MqMessage := List.replicate 2 ⟨none, [0, 0, 0, 0]⟩

/-- A thread waits for a message, and is resumed by one of two bytes. -/
def smallInputs : List MqInput :=
  [.recv 0 4 (-1), .run 0, .send 1 [1, 2] 0, .run 1, .run 1, .run 1, .run 1, .run 1, .run 0]

/-- The two messages are a pool. -/
lemma smallPool_mqPool : MqPool smallPool 4 16 :=
  ⟨rfl, by unfold PoolSized; decide⟩

/-- The calls keep the assertions. -/
lemma smallInputs_legal : ∀ i ∈ smallInputs, i.Legal := by
  simp [smallInputs, MqInput.Legal]

/-- One message is taken by the receiver, and the other one is free. -/
theorem mq_slots_small :
    ∃ s, MqReaches smallPool 4 16 .prio id smallInputs s ∧
      s.mq.entry = s.mq.queued.length ∧ (s.mq.freed ++ s.mq.queued).Nodup ∧
      ∀ msg < s.mq.maxMsgs,
        (msg ∈ s.mq.freed ++ s.mq.queued ∧ ∀ t, (s.threads t).slot ≠ some msg) ∨
        (msg ∉ s.mq.freed ++ s.mq.queued ∧ ∃! t, (s.threads t).slot = some msg) :=
  mq_slots smallPool_mqPool .prio id smallInputs_legal

/-- The queue is a deque for any interleaving of its threads.  What they have linked and taken out
is the history of a deque, whose content is that of the queue.  The operations of a thread are those
of its calls that have returned `RT_EOK`, one for each call and in the same order, with one more
while it reads a message that it has taken out. -/
theorem mq_linearizable (hpool : MqPool pool msgSize poolSize) (hlegal : ∀ i ∈ is, i.Legal)
    (hreach : MqReaches pool msgSize poolSize flag priority is s) :
    runDeque (s.log.map Prod.snd) = some (s.mq.queued.map (bodyOf s.mq.msgPool)) ∧
      ∀ t, ∃ ops, entriesOf s.log t = ops ++ pendingOps s.mq.msgPool (s.threads t) ∧
        List.Forall₂ (Fulfils s.mq.msgSize) ops (entriesOf s.done t) := by
  obtain ⟨mq₀, ⟨free, queue, held, hinv, -⟩, -⟩ := hreach.good hpool hlegal
  rw [hinv.lists_eq.2]
  exact ⟨hinv.log_eq, fun t => (hinv.threads_ok t).calls⟩

/-- The message of two bytes, with what was in the memory behind it. -/
theorem mq_linearizable_small :
    ∃ s, MqReaches smallPool 4 16 .prio id smallInputs s ∧
      runDeque (s.log.map Prod.snd) = some (s.mq.queued.map (bodyOf s.mq.msgPool)) ∧
      ∀ t, ∃ ops, entriesOf s.log t = ops ++ pendingOps s.mq.msgPool (s.threads t) ∧
        List.Forall₂ (Fulfils s.mq.msgSize) ops (entriesOf s.done t) := by
  obtain ⟨s, hreach⟩ := exists_mqReaches smallPool_mqPool .prio id smallInputs_legal
  exact ⟨s, hreach, mq_linearizable smallPool_mqPool smallInputs_legal hreach⟩

/-- No wake-up is lost: while a thread is suspended in `rt_mq_recv` and the queue has a message,
some thread that has been resumed there has yet to look for it, and the same holds for
`rt_mq_send_wait` and the free messages. -/
theorem mq_no_lost_wakeup (hpool : MqPool pool msgSize poolSize) (hlegal : ∀ i ∈ is, i.Legal)
    (hreach : MqReaches pool msgSize poolSize flag priority is s) :
    (∀ t size timeout since, s.threads t = .recvSuspended size timeout since → 0 < s.mq.entry →
      ∃ u, (s.threads u).recvRole = .woken) ∧
    (∀ t buffer timeout since, s.threads t = .sendSuspended buffer timeout since →
      s.mq.freed ≠ [] → ∃ u, (s.threads u).sendRole = .woken) := by
  obtain ⟨mq₀, ⟨free, queue, held, hinv, hwaits⟩, -⟩ := hreach.good hpool hlegal
  refine ⟨fun t size timeout since ht hentry => ?_, fun t buffer timeout since ht hfree => ?_⟩
  · have hrole : (s.threads t).recvRole = .waiting := by rw [ht]; rfl
    exact hwaits.receivers.exists_woken hrole (hinv.entry_eq ▸ hentry)
  · have hrole : (s.threads t).sendRole = .waiting := by rw [ht]; rfl
    rw [hinv.lists_eq.1] at hfree
    exact hwaits.senders.exists_woken hrole (List.length_pos_iff.mpr hfree)

/-- The thread that waits is resumed. -/
theorem mq_no_lost_wakeup_small :
    ∃ s, MqReaches smallPool 4 16 .prio id smallInputs s ∧
      (∀ t size timeout since, s.threads t = .recvSuspended size timeout since → 0 < s.mq.entry →
        ∃ u, (s.threads u).recvRole = .woken) ∧
      (∀ t buffer timeout since, s.threads t = .sendSuspended buffer timeout since →
        s.mq.freed ≠ [] → ∃ u, (s.threads u).sendRole = .woken) := by
  obtain ⟨s, hreach⟩ := exists_mqReaches smallPool_mqPool .prio id smallInputs_legal
  exact ⟨s, hreach, mq_no_lost_wakeup smallPool_mqPool smallInputs_legal hreach⟩

end Results

end WiotaAp
