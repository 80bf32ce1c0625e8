import WiotaAp.Foundation.Reassembly
import WiotaAp.Manager.Message

/-!
# Reassembly of segmented messages

Segments of several messages reach the segment branch of `manager_recv_wiota_msg` in any order.  The
store then represents the abstract table of the parts received so far: one entry for each open
message, with the segments received of it in their slots.

`recvSegment_represents` is the simulation of one arrival, for messages that share no pair of source
and packet number with another open message.  `reassembly_correct` is the reassembly of messages
with distinct pairs under any schedule.
-/

namespace WiotaAp

open Buffers Reassembly

/-! ### The store and the table -/

/-- The entry is not the one of the message. -/
def NotOf (m : Message) (p : DataPacket) : Bool :=
  decide ¬ p.Has m.sourceId m.packetNum.toUInt32

section Represents

variable {ι : Type} (msgs : ι → Message)

/-- The whole messages. -/
def wholes (i : ι) : Finset ℕ :=
  (msgs i).whole

/-- The arrival of segment `k` of message `i`. -/
def arrival (i : ι) (k : ℕ) : Arrival ι ℕ :=
  ⟨i, k, ((msgs i).data k).isSome⟩

/-- The entry of a message in the table. -/
def tableEntry (t : Table ι ℕ) (i : ι) : DataPacket :=
  (msgs i).entry (t.parts i)

/-- The store has one entry for each open message, in some order, and their pairs are distinct. -/
def Represents (t : Table ι ℕ) (store : List DataPacket) : Prop :=
  ∃ order : List ι, order.Pairwise (fun i j => (msgs i).key ≠ (msgs j).key) ∧
    (∀ i, i ∈ order ↔ (t i).isSome = true) ∧ store = order.map (tableEntry msgs t)

/-- The segment branch on a segment of message `i`. -/
def recvOf (store : List DataPacket) (i : ι) (k : ℕ) :
    Except Fault (List DataPacket × Option DecodeData) :=
  recvSegment store (msgs i).sourceId (msgs i).packetNum (UInt8.ofNat (msgs i).total)
    (UInt8.ofNat k) ((msgs i).data k)

/-- No other message with the pair of message `i` is open. -/
def NoOtherOpen (t : Table ι ℕ) (i : ι) : Prop :=
  ∀ j, (t j).isSome = true → (msgs j).key = (msgs i).key → j = i

variable {msgs} {t : Table ι ℕ} {store : List DataPacket} {i : ι}

/-- The entries of other pairs, in a list of them around the entry of `i`. -/
lemma filter_notOf {order : List ι} (horder : ∀ j ∈ order, (msgs j).key ≠ (msgs i).key) :
    (order.map (tableEntry msgs t)).filter (NotOf (msgs i)) = order.map (tableEntry msgs t) := by
  refine List.filter_eq_self.mpr fun p hp => ?_
  obtain ⟨j, hj, rfl⟩ := List.mem_map.mp hp
  exact decide_eq_true (mt Message.has_entry_iff.mp (horder j hj))

/-- The entry of a message is not one of another pair. -/
lemma filter_notOf_entry (m : Message) (S : Finset ℕ) (pre post : List DataPacket) :
    (pre ++ m.entry S :: post).filter (NotOf m) = (pre ++ post).filter (NotOf m) := by
  have hentry : NotOf m (m.entry S) = false :=
    decide_eq_false (not_not.mpr (Message.has_entry_iff.mpr rfl))
  rw [List.filter_append, List.filter_cons_of_neg (ne_true_of_eq_false hentry),
    ← List.filter_append]

/-- The empty store represents the table without open messages. -/
lemma represents_empty : Represents msgs Table.empty [] :=
  ⟨[], List.Pairwise.nil, fun _ => iff_of_false List.not_mem_nil Bool.false_ne_true, rfl⟩

variable (msgs t i) in
/-- The open messages other than message `i`, whose pairs are distinct, also from the one of `i`. -/
structure OthersOf (others : List ι) : Prop where
  pairwise : others.Pairwise fun i j => (msgs i).key ≠ (msgs j).key
  key_ne : ∀ j ∈ others, (msgs j).key ≠ (msgs i).key
  mem_iff : ∀ j, j ∈ others ↔ (t j).isSome = true ∧ j ≠ i

/-- The segment goes into the entry of message `i` if it is open already. -/
lemma split_of_open {pre post : List ι}
    (hpair : (pre ++ i :: post).Pairwise fun i j => (msgs i).key ≠ (msgs j).key)
    (hopen : ∀ j, j ∈ pre ++ i :: post ↔ (t j).isSome = true) :
    OthersOf msgs t i (pre ++ post) ∧
      ∀ k, recvOf msgs ((pre ++ i :: post).map (tableEntry msgs t)) i k =
        recvIntoEntry (pre.map (tableEntry msgs t)) (tableEntry msgs t i)
          (post.map (tableEntry msgs t)) (UInt8.ofNat k) ((msgs i).data k) := by
  have hsymm : ∀ {a b : ι}, (msgs a).key ≠ (msgs b).key → (msgs b).key ≠ (msgs a).key :=
    fun h => Ne.symm h
  obtain ⟨hkeys, hpair'⟩ := List.pairwise_cons.mp ((List.pairwise_middle hsymm).mp hpair)
  have hother : ∀ j ∈ pre ++ post, (msgs j).key ≠ (msgs i).key := fun j hj => (hkeys j hj).symm
  refine ⟨⟨hpair', hother, fun j => ?_⟩, fun k => ?_⟩
  · rw [← hopen j]
    constructor
    · intro hj
      refine ⟨by simpa [or_left_comm] using Or.inr (List.mem_append.mp hj), ?_⟩
      rintro rfl
      exact hother j hj rfl
    · rintro ⟨hj, hne⟩
      simpa [hne] using hj
  · unfold recvOf
    rw [List.map_append, List.map_cons]
    refine recvSegment_of_found ?_ (Message.has_entry_iff.mpr rfl)
    intro p hp
    obtain ⟨j, hj, rfl⟩ := List.mem_map.mp hp
    exact mt Message.has_entry_iff.mp (hother j (List.mem_append_left _ hj))

/-- The segment goes into a new entry of message `i` if it is not open. -/
lemma split_of_closed {order : List ι}
    (hpair : order.Pairwise fun i j => (msgs i).key ≠ (msgs j).key)
    (hopen : ∀ j, j ∈ order ↔ (t j).isSome = true) (hi : i ∉ order)
    (hguard : NoOtherOpen msgs t i) :
    OthersOf msgs t i order ∧
      ∀ k, recvOf msgs (order.map (tableEntry msgs t)) i k =
        recvIntoEntry (order.map (tableEntry msgs t)) (tableEntry msgs t i) [] (UInt8.ofNat k)
          ((msgs i).data k) := by
  have hother : ∀ j ∈ order, (msgs j).key ≠ (msgs i).key := by
    intro j hj hkey
    exact hi (hguard j ((hopen j).mp hj) hkey ▸ hj)
  have hnone : t i = none := by
    rw [← Option.not_isSome_iff_eq_none]
    exact mt (hopen i).mpr hi
  have hnew : tableEntry msgs t i = recvDataPacketAppend (msgs i).sourceId
      (msgs i).packetNum.toUInt32 (UInt8.ofNat (msgs i).total) := by
    rw [Message.entry_empty, tableEntry, Table.parts, hnone]
    rfl
  refine ⟨⟨hpair, hother, fun j => ?_⟩, fun k => ?_⟩
  · rw [← hopen j]
    exact ⟨fun hj => ⟨hj, fun heq => hi (heq ▸ hj)⟩, fun hj => hj.1⟩
  · unfold recvOf
    rw [hnew]
    refine recvSegment_of_new ?_
    intro p hp
    obtain ⟨j, hj, rfl⟩ := List.mem_map.mp hp
    exact mt Message.has_entry_iff.mp (hother j hj)

/-- If no other open message has the pair of message `i`, the segment goes into the entry of message
`i`, new or not; the other entries stand before and behind it. -/
lemma Represents.split (h : Represents msgs t store) (hguard : NoOtherOpen msgs t i) :
    ∃ pre post : List ι, OthersOf msgs t i (pre ++ post) ∧
      store.filter (NotOf (msgs i)) = (pre ++ post).map (tableEntry msgs t) ∧
      ∀ k, recvOf msgs store i k =
        recvIntoEntry (pre.map (tableEntry msgs t)) (tableEntry msgs t i)
          (post.map (tableEntry msgs t)) (UInt8.ofNat k) ((msgs i).data k) := by
  obtain ⟨order, hpair, hopen, rfl⟩ := h
  by_cases hi : i ∈ order
  · obtain ⟨pre, post, rfl⟩ := List.append_of_mem hi
    obtain ⟨hothers, hrecv⟩ := split_of_open hpair hopen
    refine ⟨pre, post, hothers, ?_, hrecv⟩
    rw [List.map_append, List.map_cons, tableEntry, filter_notOf_entry, ← List.map_append,
      filter_notOf hothers.key_ne]
  · obtain ⟨hothers, hrecv⟩ := split_of_closed hpair hopen hi hguard
    refine ⟨order, [], by rwa [List.append_nil], ?_, hrecv⟩
    rw [List.append_nil, filter_notOf hothers.key_ne]

section Update

variable {t' : Table ι ℕ} {pre post : List ι}

/-- The entries of the other messages are those of a table that differs in message `i` only. -/
lemma OthersOf.map_tableEntry {others : List ι} (h : OthersOf msgs t i others)
    (hsame : ∀ j, j ≠ i → t' j = t j) {part : List ι} (hpart : part ⊆ others) :
    part.map (tableEntry msgs t') = part.map (tableEntry msgs t) := by
  refine List.map_congr_left fun j hj => ?_
  have hne : j ≠ i := ((h.mem_iff j).mp (hpart hj)).2
  unfold tableEntry Table.parts
  rw [hsame j hne]

/-- Without its entry, the store represents a table in which message `i` is closed. -/
lemma OthersOf.represents_closed (h : OthersOf msgs t i (pre ++ post))
    (hsame : ∀ j, j ≠ i → t' j = t j) (hclosed : t' i = none) :
    Represents msgs t' ((pre ++ post).map (tableEntry msgs t)) := by
  refine ⟨pre ++ post, h.pairwise, fun j => ?_, (h.map_tableEntry hsame (List.Subset.refl _)).symm⟩
  rw [h.mem_iff j]
  by_cases hj : j = i
  · rw [hj, hclosed]
    exact iff_of_false (fun hand => hand.2 rfl) Bool.false_ne_true
  · rw [hsame j hj]
    exact and_iff_left hj

/-- With its entry, the store represents a table in which message `i` is open. -/
lemma OthersOf.represents_open (h : OthersOf msgs t i (pre ++ post))
    (hsame : ∀ j, j ≠ i → t' j = t j) {S : Finset ℕ} (hopen : t' i = some S) :
    Represents msgs t' (pre.map (tableEntry msgs t) ++ (msgs i).entry S ::
      post.map (tableEntry msgs t)) := by
  have hothers : ∀ j, j ≠ i → (j ∈ pre ++ post ↔ (t j).isSome = true) :=
    fun j hj => (h.mem_iff j).trans (and_iff_left hj)
  refine ⟨pre ++ i :: post, ?_, fun j => ?_, ?_⟩
  · rw [List.pairwise_middle fun h => Ne.symm h, List.pairwise_cons]
    exact ⟨fun j hj => (h.key_ne j hj).symm, h.pairwise⟩
  · by_cases hj : j = i
    · rw [hj, hopen]
      exact iff_of_true (by simp) rfl
    · rw [hsame j hj, ← hothers j hj]
      simp [hj]
  · have hentry : tableEntry msgs t' i = (msgs i).entry S := by
      unfold tableEntry Table.parts
      rw [hopen]
      rfl
    rw [List.map_append, List.map_cons, hentry,
      h.map_tableEntry hsame (List.subset_append_left pre post),
      h.map_tableEntry hsame (List.subset_append_right pre post)]

end Update

variable [DecidableEq ι]

/-- **One arrival.**  If no other open message has the pair, the store represents the table after
the arrival, the payload is handed on exactly when the message becomes whole, and the entries of
other pairs are unchanged. -/
theorem recvSegment_represents (h : Represents msgs t store)
    (hheld : ∀ j, (msgs j).Held (t.parts j)) (hguard : NoOtherOpen msgs t i) {k : ℕ}
    (hk : k < (msgs i).total) :
    ∃ store', recvOf msgs store i k =
        .ok (store', if t.partsWith (arrival msgs i k) = (msgs i).whole then
          some (msgs i).handedOn else none) ∧
      Represents msgs (t.arrive (wholes msgs) (arrival msgs i k)) store' ∧
      store'.filter (NotOf (msgs i)) = store.filter (NotOf (msgs i)) := by
  obtain ⟨pre, post, hothers, hfilter, hrecv⟩ := h.split hguard
  have hwith : t.partsWith (arrival msgs i k) = (msgs i).after (t.parts i) k := rfl
  have hself : t.arrive (wholes msgs) (arrival msgs i k) i =
      if t.partsWith (arrival msgs i k) = (msgs i).whole then none
      else some (t.partsWith (arrival msgs i k)) := Table.arrive_self
  have hsame : ∀ j, j ≠ i → t.arrive (wholes msgs) (arrival msgs i k) j = t j :=
    fun j hj => Table.arrive_of_ne hj
  rw [hrecv, tableEntry, (hheld i).recvIntoEntry_eq hk, ← hwith]
  by_cases hwhole : t.partsWith (arrival msgs i k) = (msgs i).whole
  · rw [if_pos hwhole] at hself
    rw [if_pos hwhole, if_pos hwhole, ← List.map_append]
    refine ⟨_, rfl, hothers.represents_closed hsame hself, ?_⟩
    rw [filter_notOf hothers.key_ne, hfilter]
  · rw [if_neg hwhole] at hself
    rw [if_neg hwhole, if_neg hwhole]
    refine ⟨_, rfl, hothers.represents_open hsame hself, ?_⟩
    rw [filter_notOf_entry, ← List.map_append, filter_notOf hothers.key_ne, hfilter]

end Represents

/-! ### Schedules -/

section Schedule

variable {ι : Type} (msgs : ι → Message)

/-- The arrivals of a list of messages and segments. -/
def arrivals (history : List (ι × ℕ)) : List (Arrival ι ℕ) :=
  history.map fun a => arrival msgs a.1 a.2

/-- The segment branch as a step on the store. -/
def segmentStep (a : ι × ℕ) (store : List DataPacket) : Except Fault (List DataPacket) := do
  let (store, _) ← recvOf msgs store a.1 a.2
  return store

/-- Every segment has some bytes of data. -/
def NonEmptySegs : Prop :=
  ∀ i, ∀ d ∈ (msgs i).segs, ∃ data, d = some data ∧ data ≠ []

variable {msgs} {history : List (ι × ℕ)}

/-- The arrivals with one more segment. -/
lemma arrivals_snoc (i : ι) (k : ℕ) :
    arrivals msgs (history ++ [(i, k)]) = arrivals msgs history ++ [arrival msgs i k] := by
  unfold arrivals
  rw [List.map_append]
  rfl

/-- A segment with data is kept. -/
lemma NonEmptySegs.isSome (hdata : NonEmptySegs msgs) {i : ι} {k : ℕ} (hk : k < (msgs i).total) :
    ((msgs i).data k).isSome = true := by
  obtain ⟨data, hd, -⟩ := hdata i _ (List.getElem_mem hk)
  unfold Message.data
  rw [List.getElem?_eq_getElem hk, hd]
  rfl

/-- A message of segments with data has a payload. -/
lemma NonEmptySegs.handedOn_eq (hdata : NonEmptySegs msgs) (i : ι) :
    (msgs i).handedOn = .block (msgs i).payload := by
  refine if_neg fun hnil => ?_
  obtain ⟨d, hd⟩ := List.exists_mem_of_length_pos (msgs i).total_pos
  obtain ⟨data, rfl, hne⟩ := hdata i d hd
  exact hne (List.flatMap_eq_nil_iff.mp hnil _ hd)

variable [DecidableEq ι]

/-- The distinct segments received of message `i`. -/
def receivedSegs (history : List (ι × ℕ)) (i : ι) : Finset ℕ :=
  ((history.filter fun a => a.1 = i).map Prod.snd).toFinset

variable (msgs) in
/-- The schedules: segments in any order, interleaved, with any duplicates before the message is
complete. -/
inductive Schedule : List (ι × ℕ) → Prop
  | nil : Schedule []
  | snoc {history : List (ι × ℕ)} {i : ι} {k : ℕ} (h : Schedule history)
      (hk : k < (msgs i).total) (hne : receivedSegs history i ≠ (msgs i).whole) :
      Schedule (history ++ [(i, k)])

/-- The segments of a schedule are segments of their messages. -/
lemma Schedule.lt_total (h : Schedule msgs history) : ∀ a ∈ history, a.2 < (msgs a.1).total := by
  induction h with
  | nil => rintro a ⟨⟩
  | snoc h hk hne ih =>
    intro a ha
    rcases List.mem_append.mp ha with ha | ha
    · exact ih a ha
    · cases List.mem_singleton.mp ha
      exact hk

/-- What the table receives are the distinct segments. -/
lemma received_arrivals (hdata : NonEmptySegs msgs)
    (hlt : ∀ a ∈ history, a.2 < (msgs a.1).total) (i : ι) :
    received (arrivals msgs history) i = receivedSegs history i := by
  unfold received receivedSegs arrivals
  rw [List.filter_map, List.map_map]
  congr 2
  refine List.filter_congr fun a ha => ?_
  simp [arrival, hdata.isSome (hlt a ha)]

/-- No message gets a segment after it has been whole. -/
lemma Schedule.inTime (hdata : NonEmptySegs msgs) (h : Schedule msgs history) :
    InTime (wholes msgs) (arrivals msgs history) := by
  induction h with
  | nil => exact .nil
  | @snoc history i k h hk hne ih =>
    rw [arrivals_snoc]
    refine .snoc ih ?_
    change received (arrivals msgs history) i ≠ _
    rw [received_arrivals hdata h.lt_total]
    exact hne

/-- The table holds segments with data. -/
lemma held_arriveAll (hlt : ∀ a ∈ history, a.2 < (msgs a.1).total) (j : ι) :
    (msgs j).Held ((arriveAll (wholes msgs) (arrivals msgs history)).parts j) := by
  refine arriveAll_invariant (P := fun j S => (msgs j).Held S) ?_ ?_ j
  · intro i k hk
    cases hk
  · intro a ha hkept S hS
    obtain ⟨b, hb, rfl⟩ := List.mem_map.mp ha
    obtain ⟨data, hdata⟩ := Option.isSome_iff_exists.mp hkept
    exact hS.insert_of_data (hlt b hb) hdata

/-- After every schedule the store represents the table. -/
lemma Schedule.represents (hkeys : Function.Injective fun i => (msgs i).key)
    (h : Schedule msgs history) :
    ∃ store, runInputs (segmentStep msgs) history [] = .ok store ∧
      Represents msgs (arriveAll (wholes msgs) (arrivals msgs history)) store := by
  induction h with
  | nil =>
    exact ⟨[], rfl, represents_empty⟩
  | @snoc history i k h hk hne ih =>
    obtain ⟨store, hrun, hrep⟩ := ih
    obtain ⟨store', hrecv, hrep', -⟩ := recvSegment_represents hrep (held_arriveAll h.lt_total)
      (fun j _ hkey => hkeys hkey) hk
    refine ⟨store', ?_, ?_⟩
    · rw [runInputs_append, hrun, ok_bind, runInputs, segmentStep, hrecv]
      rfl
    · rw [arrivals_snoc, arriveAll_snoc]
      exact hrep'

variable (msgs) in
/-- What the store holds after the arrivals: one entry for each message of which a segment but not
every segment has been received, which counts the distinct segments. -/
structure StoreHolds (history : List (ι × ℕ)) (store : List DataPacket) : Prop where
  unique : store.Pairwise fun p q => ¬ p.Has q.sourceId q.packetId
  present : ∀ i, (∃ p ∈ store, p.Has (msgs i).sourceId (msgs i).packetNum.toUInt32) ↔
    (∃ a ∈ history, a.1 = i) ∧ receivedSegs history i ≠ (msgs i).whole
  counts : ∀ p ∈ store, ∃ i, p.Has (msgs i).sourceId (msgs i).packetNum.toUInt32 ∧
    p.segTotal.toNat = (msgs i).total ∧ p.segCount.toNat = (receivedSegs history i).card ∧
    p.segCount < p.segTotal

/-- The table after a schedule. -/
lemma Schedule.arriveAll_eq (hdata : NonEmptySegs msgs) (h : Schedule msgs history) (i : ι) :
    arriveAll (wholes msgs) (arrivals msgs history) i =
      if (∃ a ∈ history, a.1 = i) ∧ receivedSegs history i ≠ (msgs i).whole then
        some (receivedSegs history i)
      else none := by
  have hex : (∃ a ∈ arrivals msgs history, a.msg = i) ↔ ∃ a ∈ history, a.1 = i := by
    unfold arrivals
    simp only [List.mem_map, exists_exists_and_eq_and]
    rfl
  rw [(h.inTime hdata).arriveAll_eq]
  simp only [hex, received_arrivals hdata h.lt_total, wholes]

/-- A store that represents the table after a schedule holds what has been received. -/
lemma Schedule.storeHolds (hkeys : Function.Injective fun i => (msgs i).key)
    (hdata : NonEmptySegs msgs) (h : Schedule msgs history) {store : List DataPacket}
    (hrep : Represents msgs (arriveAll (wholes msgs) (arrivals msgs history)) store) :
    StoreHolds msgs history store := by
  obtain ⟨order, hpair, hopen, rfl⟩ := hrep
  have htable := h.arriveAll_eq hdata
  have hmem : ∀ i, i ∈ order ↔
      (∃ a ∈ history, a.1 = i) ∧ receivedSegs history i ≠ (msgs i).whole := by
    intro i
    rw [hopen, htable, apply_ite Option.isSome]
    simp only [Option.isSome_some, Option.isSome_none, Bool.ite_eq_true_distrib, if_true_left,
      Bool.false_eq_true, imp_false, not_not]
  refine ⟨?_, fun i => ?_, fun p hp => ?_⟩
  · rw [List.pairwise_map]
    exact hpair.imp fun hne => mt Message.has_entry_iff.mp hne
  · rw [← hmem]
    constructor
    · rintro ⟨p, hp, hhas⟩
      obtain ⟨j, hj, rfl⟩ := List.mem_map.mp hp
      have hkey : (msgs j).key = (msgs i).key := Message.has_entry_iff.mp hhas
      exact hkeys hkey ▸ hj
    · intro hi
      exact ⟨_, List.mem_map_of_mem hi, Message.has_entry_iff.mpr rfl⟩
  · obtain ⟨i, hi, rfl⟩ := List.mem_map.mp hp
    have hparts : (arriveAll (wholes msgs) (arrivals msgs history)).parts i =
        receivedSegs history i := by
      unfold Table.parts
      rw [htable, if_pos ((hmem i).mp hi), Option.getD_some]
    have hheld := held_arriveAll h.lt_total i
    rw [hparts] at hheld
    have hcount := hheld.packetOk_entry.count_eq
    rw [Message.slotCount_slots hheld] at hcount
    have hlt : (receivedSegs history i).card < (msgs i).total := by
      refine lt_of_le_of_ne hheld.card_le fun hcard => ((hmem i).mp hi).2 ?_
      rw [← hheld.full_iff, Message.slotCount_slots hheld, Message.length_slots, hcard]
    unfold tableEntry
    rw [hparts]
    refine ⟨i, Message.has_entry_iff.mpr rfl, Message.toNat_total, hcount, ?_⟩
    rw [UInt8.lt_iff_toNat_lt, hcount]
    exact lt_of_lt_of_eq hlt Message.toNat_total.symm

/-- After a schedule, the next segment of a message that is not complete gives the payload exactly
if it is the last missing one. -/
lemma Schedule.recvOf_eq (hkeys : Function.Injective fun i => (msgs i).key)
    (hdata : NonEmptySegs msgs) (h : Schedule msgs history) {store : List DataPacket}
    (hrep : Represents msgs (arriveAll (wholes msgs) (arrivals msgs history)) store) {i : ι} {k : ℕ}
    (hk : k < (msgs i).total) (hne : receivedSegs history i ≠ (msgs i).whole) :
    ∃ store', recvOf msgs store i k =
        .ok (store', if receivedSegs (history ++ [(i, k)]) i = (msgs i).whole then
          some (.block (msgs i).payload) else none) ∧
      Represents msgs (arriveAll (wholes msgs) (arrivals msgs (history ++ [(i, k)]))) store' ∧
      store'.filter (NotOf (msgs i)) = store.filter (NotOf (msgs i)) := by
  have hnext : Schedule msgs (history ++ [(i, k)]) := .snoc h hk hne
  obtain ⟨store', hrecv, hrep', hfilter⟩ := recvSegment_represents hrep (held_arriveAll h.lt_total)
    (fun j _ hkey => hkeys hkey) hk
  rw [← arriveAll_snoc, ← arrivals_snoc] at hrep'
  have hwith : (arriveAll (wholes msgs) (arrivals msgs history)).partsWith (arrival msgs i k) =
      receivedSegs (history ++ [(i, k)]) i := by
    have hne' : received (arrivals msgs history) i ≠ (msgs i).whole := by
      rw [received_arrivals hdata h.lt_total]
      exact hne
    rw [← received_arrivals hdata hnext.lt_total, arrivals_snoc]
    exact (h.inTime hdata).partsWith_eq hne'
  rw [hwith, hdata.handedOn_eq] at hrecv
  exact ⟨store', hrecv, hrep', hfilter⟩

/-- **Reassembly.**  Messages with distinct pairs and non-empty segments are reassembled under every
schedule.  The store has one entry for each message that is received in part, which counts the
distinct segments.  The next segment is taken; the payload is passed on exactly if it is the last
missing one, the entry is then removed, and the entries of the other messages are unchanged. -/
theorem reassembly_correct (hkeys : Function.Injective fun i => (msgs i).key)
    (hdata : NonEmptySegs msgs) (h : Schedule msgs history) :
    ∃ store, runInputs (segmentStep msgs) history [] = .ok store ∧ StoreHolds msgs history store ∧
      ∀ i k, k < (msgs i).total → receivedSegs history i ≠ (msgs i).whole →
        ∃ store', recvOf msgs store i k =
            .ok (store', if receivedSegs (history ++ [(i, k)]) i = (msgs i).whole then
              some (.block (msgs i).payload) else none) ∧
          StoreHolds msgs (history ++ [(i, k)]) store' ∧
          (receivedSegs (history ++ [(i, k)]) i = (msgs i).whole →
            ∀ p ∈ store', ¬ p.Has (msgs i).sourceId (msgs i).packetNum.toUInt32) ∧
          store'.filter (NotOf (msgs i)) = store.filter (NotOf (msgs i)) := by
  obtain ⟨store, hrun, hrep⟩ := h.represents hkeys
  refine ⟨store, hrun, h.storeHolds hkeys hdata hrep, ?_⟩
  intro i k hk hne
  obtain ⟨store', hrecv, hrep', hfilter⟩ := h.recvOf_eq hkeys hdata hrep hk hne
  have hholds := (Schedule.snoc h hk hne).storeHolds hkeys hdata hrep'
  refine ⟨store', hrecv, hholds, ?_, hfilter⟩
  intro hwhole p hp hhas
  exact ((hholds.present i).mp ⟨p, hp, hhas⟩).2 hwhole

end Schedule

/-- Two messages of two segments from one source, with the packet numbers 0 and 1. -/
def twoMessages (i : Bool) : Message where
  sourceId := 7
  packetNum := if i then 1 else 0
  segs := [some [0xA0], some [0xA1, 0xA2]]
  total_pos := by decide
  total_lt := by decide
  data_lt := by
    intro data hdata
    simp only [List.mem_cons, Option.some.injEq, List.not_mem_nil, or_false] at hdata
    rcases hdata with rfl | rfl <;> decide

/-- A run on interleaved segments with a duplicate: the last segment of one message comes twice
before the first one, and the first one of the other in between. -/
theorem reassembly_correct_interleaved :
    Schedule twoMessages [(true, 1), (false, 0), (true, 1)] ∧
      ∃ store store', runInputs (segmentStep twoMessages) [(true, 1), (false, 0), (true, 1)] [] =
          .ok store ∧
        recvOf twoMessages store true 0 = .ok (store', some (.block [0xA0, 0xA1, 0xA2])) := by
  have hkeys : Function.Injective fun i => (twoMessages i).key := by decide
  have hdata : NonEmptySegs twoMessages := by
    intro i d hd
    have hsegs : d ∈ [some [0xA0], some [0xA1, 0xA2]] := hd
    simp only [List.mem_cons, List.not_mem_nil, or_false] at hsegs
    rcases hsegs with rfl | rfl
    · exact ⟨_, rfl, List.cons_ne_nil _ _⟩
    · exact ⟨_, rfl, List.cons_ne_nil _ _⟩
  have hsched : Schedule twoMessages ((([] ++ [(true, 1)]) ++ [(false, 0)]) ++ [(true, 1)]) :=
    .snoc (.snoc (.snoc .nil (by decide) (by decide)) (by decide) (by decide)) (by decide)
      (by decide)
  obtain ⟨store, hrun, -, hnext⟩ := reassembly_correct hkeys hdata hsched
  obtain ⟨store', hrecv, -⟩ := hnext true 0 (by decide) (by decide)
  exact ⟨hsched, store, store', hrun, hrecv⟩

end WiotaAp
