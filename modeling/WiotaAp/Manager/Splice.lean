import WiotaAp.Manager.Reassembly

/-!
# Packet numbers that come round again

A device numbers its messages with eight bits, and the store keeps an incomplete message for ever.
A message may then find an entry that an older message with the same number has left, and the
payload is spliced from the two.

`no_splice_of_guarded` says that this is the only way: if no other message with the same number is
incomplete when a segment arrives, every payload is the one of a message.
-/

namespace WiotaAp

open Buffers Reassembly

/-- The segmented messages of one device, numbered by `app_packet_num`. -/
structure Stream where
  id : UInt32
  msgs : ℕ → Message
  sourceId_eq : ∀ n, (msgs n).sourceId = id
  packetNum_eq : ∀ n, (msgs n).packetNum = packetNumAfter n

/-- The store, and the payloads obtained so far. -/
structure Reception where
  store : List DataPacket
  payloads : List (List UInt8)
  deriving DecidableEq, Repr

/-- Nothing has been received. -/
def Reception.start : Reception :=
  ⟨[], []⟩

namespace Stream

/-- The arrival of segment `a.2` of message `a.1`. -/
def receive (s : Stream) (a : ℕ × ℕ) (r : Reception) : Except Fault Reception := do
  let (store, complete) ← recvOf s.msgs r.store a.1 a.2
  return ⟨store, r.payloads ++ (complete.bind DecodeData.bytes?).toList⟩

/-- The segments received of the messages that are not complete. -/
def table (s : Stream) (history : List (ℕ × ℕ)) : Table ℕ ℕ :=
  arriveAll (wholes s.msgs) (arrivals s.msgs history)

/-- A segment of a message arrives while no other message with the same packet number is
incomplete. -/
def Guard (s : Stream) (history : List (ℕ × ℕ)) (a : ℕ × ℕ) (_ : Reception) : Prop :=
  a.2 < (s.msgs a.1).total ∧
    ∀ n, (s.table history n).isSome = true → n % 256 = a.1 % 256 → n = a.1

/-- Two messages have the same pair exactly if their numbers agree modulo 256. -/
lemma key_eq_iff (s : Stream) {m n : ℕ} : (s.msgs m).key = (s.msgs n).key ↔ m % 256 = n % 256 := by
  unfold Message.key
  rw [Prod.mk.injEq, s.sourceId_eq, s.sourceId_eq, s.packetNum_eq, s.packetNum_eq,
    ← UInt8.toNat_inj, packetNumAfter_eq, packetNumAfter_eq]
  exact and_iff_right rfl

/-- What a run keeps: the store represents the table, and every payload is the one of a message. -/
structure Faithful (s : Stream) (history : List (ℕ × ℕ)) (r : Reception) : Prop where
  lt_total : ∀ a ∈ history, a.2 < (s.msgs a.1).total
  represents : Represents s.msgs (s.table history) r.store
  payloads : ∀ payload ∈ r.payloads, ∃ n, (∃ a ∈ history, a.1 = n) ∧ payload = (s.msgs n).payload

/-- The start of a run. -/
lemma faithful_start (s : Stream) : s.Faithful [] Reception.start where
  lt_total := by rintro a ⟨⟩
  represents := represents_empty
  payloads := by rintro payload ⟨⟩

/-- A guarded arrival is taken, and keeps the payloads those of messages. -/
lemma Faithful.receive {s : Stream} {history : List (ℕ × ℕ)} {r : Reception}
    (h : s.Faithful history r) {a : ℕ × ℕ} (hguard : s.Guard history a r) :
    ∃ r', s.receive a r = .ok r' ∧ s.Faithful (history ++ [a]) r' := by
  obtain ⟨n, k⟩ := a
  obtain ⟨hk, hother⟩ := hguard
  obtain ⟨store', hrecv, hrep, -⟩ := recvSegment_represents h.represents (held_arriveAll h.lt_total)
    (fun m hopen hkey => hother m hopen (s.key_eq_iff.mp hkey)) hk
  have hmem : ∀ b, b ∈ history ++ [(n, k)] ↔ b ∈ history ∨ b = (n, k) := by
    intro b
    rw [List.mem_append, List.mem_singleton]
  refine ⟨_, by rw [Stream.receive, hrecv, ok_bind]; rfl, ?_, ?_, ?_⟩
  · intro b hb
    rcases (hmem b).mp hb with hb | rfl
    · exact h.lt_total b hb
    · exact hk
  · unfold table
    rw [arrivals_snoc, arriveAll_snoc]
    exact hrep
  · intro payload hpayload
    rcases List.mem_append.mp hpayload with hold | hnew
    · obtain ⟨m, ⟨b, hb, hbm⟩, heq⟩ := h.payloads payload hold
      exact ⟨m, ⟨b, (hmem b).mpr (Or.inl hb), hbm⟩, heq⟩
    · -- a payload comes out only when the message of the segment is whole
      split at hnew
      · rw [Option.bind_some, Message.handedOn] at hnew
        split at hnew
        · cases hnew
        · cases List.mem_singleton.mp hnew
          exact ⟨n, ⟨(n, k), (hmem _).mpr (Or.inr rfl), rfl⟩, rfl⟩
      · cases hnew

end Stream

/-- **No splicing.**  In a run in which no segment arrives while another message with its packet
number is incomplete, every payload is the concatenation of the segments of one message that was
sent, and the next such segment is taken. -/
theorem no_splice_of_guarded (s : Stream) {history : List (ℕ × ℕ)} {r : Reception}
    (hrun : GuardedRun s.receive s.Guard Reception.start history r) :
    (∀ payload ∈ r.payloads,
        ∃ n, (∃ a ∈ history, a.1 = n) ∧ payload = (s.msgs n).payload) ∧
      ∀ a, s.Guard history a r → ∃ r', s.receive a r = .ok r' := by
  have hfaithful : s.Faithful history r := by
    refine hrun.invariant (P := s.Faithful) s.faithful_start ?_
    intro history a r r' h hguard hstep
    obtain ⟨r'', hreceive, h'⟩ := h.receive hguard
    cases hstep.symm.trans hreceive
    exact h'
  refine ⟨hfaithful.payloads, fun a hguard => ?_⟩
  obtain ⟨r', hreceive, -⟩ := hfaithful.receive hguard
  exact ⟨r', hreceive⟩

/-- A device that sends messages of two segments with one byte each: zeros in the first message,
ones in all others. -/
def zerosThenOnes : Stream where
  id := 7
  msgs n :=
    { sourceId := 7
      packetNum := packetNumAfter n
      segs := [some [if n = 0 then 0 else 1], some [if n = 0 then 0 else 1]]
      total_pos := Nat.zero_lt_two
      total_lt := Nat.lt_of_sub_eq_succ rfl
      data_lt := by
        intro data hdata
        simp only [List.mem_cons, Option.some.injEq, List.not_mem_nil, or_false, or_self] at hdata
        rw [hdata, List.length_singleton]
        exact Nat.one_lt_two_pow_iff.mpr (Nat.succ_ne_zero 15) }
  sourceId_eq _ := rfl
  packetNum_eq _ := rfl

/-- A run in which the two segments of the first message arrive in reverse. -/
theorem no_splice_of_guarded_reversed :
    ∃ r, GuardedRun zerosThenOnes.receive zerosThenOnes.Guard Reception.start [(0, 1), (0, 0)] r ∧
      r.payloads = [[0, 0]] ∧ ∀ payload ∈ r.payloads,
        ∃ n, (∃ a ∈ [(0, 1), (0, 0)], a.1 = n) ∧ payload = (zerosThenOnes.msgs n).payload := by
  have hfirst : zerosThenOnes.Guard [] (0, 1) Reception.start :=
    ⟨by decide, fun n hopen => by cases hopen⟩
  have hrun : GuardedRun zerosThenOnes.receive zerosThenOnes.Guard Reception.start
      ([] ++ [(0, 1)]) ⟨[⟨7, 0, 2, 1, some [none, some ⟨1, [0]⟩]⟩], []⟩ :=
    .snoc .nil hfirst (by decide)
  have hsecond : zerosThenOnes.Guard ([] ++ [(0, 1)]) (0, 0)
      ⟨[⟨7, 0, 2, 1, some [none, some ⟨1, [0]⟩]⟩], []⟩ := by
    refine ⟨by decide, fun n hopen _ => ?_⟩
    by_contra hn
    -- only the first message has been opened
    have hnone : zerosThenOnes.table ([] ++ [(0, 1)]) n = none := Table.arrive_of_ne hn
    rw [hnone] at hopen
    cases hopen
  have hrun' : GuardedRun zerosThenOnes.receive zerosThenOnes.Guard Reception.start
      (([] ++ [(0, 1)]) ++ [(0, 0)]) ⟨[], [[0, 0]]⟩ := .snoc hrun hsecond (by decide)
  exact ⟨_, hrun', rfl, (no_splice_of_guarded zerosThenOnes hrun').1⟩

/-- Of the messages 0 to 256 the link loses everything but the first segment of message 0 and the
second one of message 256.  The payload `[0, 1]` is passed on, which is not the one of any message.
-/
theorem spliced_after_wrap :
    (∃ r, runInputs zerosThenOnes.receive [(0, 0), (256, 1)] Reception.start = .ok r ∧
        [0, 1] ∈ r.payloads) ∧
      ∀ n, (zerosThenOnes.msgs n).payload ≠ [0, 1] := by
  constructor
  · exact ⟨⟨[], [[0, 1]]⟩, by decide +kernel, by decide⟩
  · intro n hpayload
    have hbytes : [if n = 0 then 0 else 1, if n = 0 then 0 else 1] = ([0, 1] : List UInt8) :=
      hpayload
    split at hbytes
    · exact absurd hbytes (by decide)
    · exact absurd hbytes (by decide)

end WiotaAp
