import WiotaAp.Manager.RecvMsg

/-!
# Segmented messages and their entries

A device cuts a message into segments.  The entry of a message in the store has the segments
received so far in their slots, and `Message.Held.recvIntoEntry_eq` says what the segment branch of
`manager_recv_wiota_msg` does to it: the entry gets the segment, or is complete and gives the
payload, unless the message has no bytes.
-/

namespace WiotaAp

open Buffers

/-! ### Messages and their entries -/

/-- A segmented message as it is sent: the decoded data of its segments, which is `none` for a frame
without any data. -/
structure Message where
  sourceId : UInt32
  packetNum : UInt8
  segs : List (Option (List UInt8))
  total_pos : 0 < segs.length
  total_lt : segs.length < 256
  data_lt : ∀ data, some data ∈ segs → data.length < 2 ^ 16

namespace Message

/-- The number of segments, `total_num` of each of its frames. -/
def total (m : Message) : ℕ :=
  m.segs.length

/-- The decoded data of a segment. -/
def data (m : Message) (k : ℕ) : Option (List UInt8) :=
  m.segs[k]?.join

/-- The concatenation of the segments. -/
def payload (m : Message) : List UInt8 :=
  m.segs.flatMap fun data => data.getD []

/-- `decode_data` when the message is complete: the payload, or the freed segment of a message
without any bytes. -/
def handedOn (m : Message) : DecodeData :=
  if m.payload = [] then .freed else .block m.payload

/-- The indices of the segments. -/
def whole (m : Message) : Finset ℕ :=
  Finset.range m.total

/-- The slot of stored data. -/
def toSlot (data : Option (List UInt8)) : Option DataSegment :=
  data.map fun data => ⟨data.length, data⟩

/-- The slots when the segments in `S` have been received. -/
def slots (m : Message) (S : Finset ℕ) : List (Option DataSegment) :=
  (List.range m.total).map fun k => if k ∈ S then toSlot (m.data k) else none

/-- The entry when the segments in `S` have been received. -/
def entry (m : Message) (S : Finset ℕ) : DataPacket where
  sourceId := m.sourceId
  packetId := m.packetNum.toUInt32
  segTotal := UInt8.ofNat m.total
  segCount := UInt8.ofNat S.card
  segment := some (m.slots S)

/-- Segments of the message that have data. -/
def Held (m : Message) (S : Finset ℕ) : Prop :=
  ∀ k ∈ S, k < m.total ∧ (m.data k).isSome = true

variable {m : Message} {S : Finset ℕ} {k : ℕ} {data : List UInt8}

/-- The data of a segment is in the list of them. -/
lemma mem_segs_of_data (hdata : m.data k = some data) : some data ∈ m.segs := by
  have hget : m.segs[k]? = some (some data) := Option.join_eq_some_iff.mp hdata
  exact List.mem_of_getElem? hget

/-- There are as many slots as segments. -/
lemma length_slots : (m.slots S).length = m.total := by
  unfold slots
  rw [List.length_map, List.length_range]

/-- The slot of a segment. -/
lemma getElem?_slots (hk : k < m.total) :
    (m.slots S)[k]? = some (if k ∈ S then toSlot (m.data k) else none) := by
  unfold slots
  rw [List.getElem?_map, List.getElem?_range hk]
  rfl

/-- Storing a segment in its slot. -/
lemma slots_set (hk : k < m.total) (hdata : m.data k = some data) :
    (m.slots S).set k (some ⟨data.length % 2 ^ 16, data⟩) = m.slots (insert k S) := by
  have hlt : data.length < 2 ^ 16 := m.data_lt data (mem_segs_of_data hdata)
  rw [Nat.mod_eq_of_lt hlt]
  refine List.ext_getElem? fun j => ?_
  by_cases hj : j < m.total
  · rw [List.getElem?_set, getElem?_slots hj, getElem?_slots hj, length_slots]
    by_cases hjk : k = j
    · subst hjk
      rw [if_pos rfl, if_pos hk, if_pos (Finset.mem_insert_self k S), hdata]
      rfl
    · rw [if_neg hjk]
      simp only [Finset.mem_insert, Ne.symm hjk, false_or]
  · rw [List.getElem?_eq_none (by rw [List.length_set, length_slots]; exact not_lt.mp hj),
      List.getElem?_eq_none (by rw [length_slots]; exact not_lt.mp hj)]

/-- The slots with data are those of the received segments. -/
lemma slotCount_slots (hS : m.Held S) : slotCount (m.slots S) = S.card := by
  unfold slotCount slots
  rw [List.countP_map]
  have hcongr : (List.range m.total).countP
        (Option.isSome ∘ fun k => if k ∈ S then toSlot (m.data k) else none) =
      (List.range m.total).countP fun k => decide (k ∈ S) := by
    refine List.countP_congr fun k _ => ?_
    by_cases hk : k ∈ S
    · simp [hk, toSlot, (hS k hk).2]
    · simp [hk]
  have hS' : ((List.range m.total).filter fun k => decide (k ∈ S)).toFinset = S := by
    ext k
    simp only [List.mem_toFinset, List.mem_filter, List.mem_range, decide_eq_true_eq]
    exact ⟨fun h => h.2, fun h => ⟨(hS k h).1, h⟩⟩
  rw [hcongr, List.countP_eq_length_filter,
    ← List.toFinset_card_of_nodup (List.nodup_range.filter _), hS']

/-- The slots of a message that is whole. -/
lemma slots_whole : m.slots m.whole = m.segs.map toSlot := by
  refine List.ext_getElem? fun j => ?_
  by_cases hj : j < m.total
  · have hmem : j ∈ m.whole := Finset.mem_range.mpr hj
    rw [getElem?_slots hj, if_pos hmem, List.getElem?_map, Message.data,
      List.getElem?_eq_getElem hj]
    rfl
  · rw [List.getElem?_eq_none (by rw [length_slots]; exact not_lt.mp hj),
      List.getElem?_eq_none (by rw [List.length_map]; exact not_lt.mp hj)]

/-- The received segments are segments of the message. -/
lemma Held.subset_whole (hS : m.Held S) : S ⊆ m.whole :=
  fun k hk => Finset.mem_range.mpr (hS k hk).1

/-- There are not more received segments than segments. -/
lemma Held.card_le (hS : m.Held S) : S.card ≤ m.total := by
  have hcard := Finset.card_le_card hS.subset_whole
  rwa [whole, Finset.card_range] at hcard

/-- Every slot has data exactly when every segment has been received. -/
lemma Held.full_iff (hS : m.Held S) :
    slotCount (m.slots S) = (m.slots S).length ↔ S = m.whole := by
  rw [slotCount_slots hS, length_slots]
  constructor
  · intro hcard
    refine Finset.eq_of_subset_of_card_le hS.subset_whole ?_
    rw [whole, Finset.card_range]
    exact hcard.ge
  · rintro rfl
    exact Finset.card_range _

/-- The total fits into its byte. -/
lemma toNat_total : (UInt8.ofNat m.total).toNat = m.total :=
  UInt8.toNat_ofNat_of_lt' m.total_lt

/-- The entry of a message is in good order. -/
lemma Held.packetOk_entry (hS : m.Held S) : PacketOk (m.entry S) (m.slots S) where
  segment_eq := rfl
  length_eq := by rw [length_slots]; exact toNat_total.symm
  total_pos := by rw [entry, toNat_total]; exact m.total_pos
  count_eq := by
    rw [slotCount_slots hS]
    exact UInt8.toNat_ofNat_of_lt' (lt_of_le_of_lt hS.card_le m.total_lt)
  length_le := by
    intro seg hseg
    obtain ⟨k, -, hk⟩ := List.mem_map.mp hseg
    split at hk
    · obtain ⟨data, -, rfl⟩ := Option.map_eq_some_iff.mp hk
      exact le_rfl
    · cases hk
  length_lt := by
    intro seg hseg
    obtain ⟨k, -, hk⟩ := List.mem_map.mp hseg
    split at hk
    · obtain ⟨data, hdata, rfl⟩ := Option.map_eq_some_iff.mp hk
      exact m.data_lt data (mem_segs_of_data hdata)
    · cases hk

/-- The entry that is appended for a message. -/
lemma entry_empty :
    recvDataPacketAppend m.sourceId m.packetNum.toUInt32 (UInt8.ofNat m.total) = m.entry ∅ := by
  have hsegment := (packetOk_append m.sourceId m.packetNum.toUInt32
    (toNat_total.symm ▸ m.total_pos : 0 < (UInt8.ofNat m.total).toNat)).segment_eq
  have hslots : m.slots ∅ = List.replicate m.total none := by
    unfold slots
    simp
  rw [toNat_total, ← hslots] at hsegment
  exact congrArg (fun segment => (⟨m.sourceId, m.packetNum.toUInt32, UInt8.ofNat m.total, 0,
    segment⟩ : DataPacket)) hsegment

/-- Storing a segment in the entry of its message. -/
lemma entry_store (hk : k < m.total) (hdata : m.data k = some data) :
    (m.entry S).store (m.slots S) (UInt8.ofNat k) data = m.entry (insert k S) := by
  have hnat : (UInt8.ofNat k).toNat = k := UInt8.toNat_ofNat_of_lt' (lt_trans hk m.total_lt)
  have hcount : (if (m.slots S)[k]? = some none then UInt8.ofNat S.card + 1
      else UInt8.ofNat S.card) = UInt8.ofNat (insert k S).card := by
    rw [getElem?_slots hk, hdata]
    by_cases hmem : k ∈ S
    · rw [if_pos hmem, if_neg (by simp [toSlot]), Finset.insert_eq_of_mem hmem]
    · rw [if_neg hmem, if_pos rfl, Finset.card_insert_of_notMem hmem, UInt8.ofNat_add]
      rfl
  unfold DataPacket.store entry
  simp only [hnat, slots_set hk hdata, hcount]

/-- A received segment with data is held. -/
lemma Held.insert_of_data (hS : m.Held S) (hk : k < m.total) (hdata : m.data k = some data) :
    m.Held (insert k S) := by
  intro j hj
  rcases Finset.mem_insert.mp hj with rfl | hj
  · exact ⟨hk, by rw [hdata]; rfl⟩
  · exact hS j hj

/-! ### The payload -/

/-- The bytes of the slot of stored data. -/
lemma slotBytes_toSlot (data : Option (List UInt8)) : slotBytes (toSlot data) = data.getD [] := by
  cases data with
  | none => rfl
  | some data => exact List.take_length

/-- The length of the slot of stored data. -/
lemma slotLength_toSlot (data : Option (List UInt8)) :
    slotLength (toSlot data) = (data.getD []).length := by
  cases data <;> rfl

/-- The slots of a whole message give its payload. -/
lemma flatMap_slotBytes : (m.slots m.whole).flatMap slotBytes = m.payload := by
  rw [slots_whole, List.flatMap_map]
  exact List.flatMap_congr fun data _ => slotBytes_toSlot data

/-- The sum over the slots of a whole message is the length of its payload. -/
lemma sum_slotLength : ((m.slots m.whole).map slotLength).sum = m.payload.length := by
  rw [slots_whole, List.map_map, payload, List.length_flatMap]
  congr 1
  exact List.map_congr_left fun data _ => slotLength_toSlot data

/-- The length of the payload fits into 32 bits. -/
lemma length_payload_lt : m.payload.length < 2 ^ 32 := by
  have hsum : m.payload.length ≤
      (m.segs.map fun data => (data.getD []).length).length * 2 ^ 16 := by
    rw [payload, List.length_flatMap]
    refine List.sum_le_card_nsmul _ _ ?_
    intro n hn
    obtain ⟨data, hdata, rfl⟩ := List.mem_map.mp hn
    cases data with
    | none => exact Nat.zero_le _
    | some data => exact le_of_lt (m.data_lt data hdata)
  have htotal := m.total_lt
  rw [List.length_map] at hsum
  omega

/-- What the reader makes of a whole message whose last segment has been stored. -/
lemma dataAfterRemove_whole (data : Option (List UInt8)) :
    dataAfterRemove (if ((m.slots m.whole).map slotLength).sum % 2 ^ 32 > 0 then
      some ((m.slots m.whole).flatMap slotBytes) else none) 0 data = m.handedOn := by
  rw [sum_slotLength, flatMap_slotBytes, Nat.mod_eq_of_lt length_payload_lt, handedOn]
  by_cases hnil : m.payload = []
  · rw [if_pos hnil, if_neg (by rw [hnil]; decide)]
    rfl
  · rw [if_neg hnil, if_pos (List.length_pos_iff.mpr hnil)]
    rfl

end Message

/-! ### One arrival -/

/-- The received segments after the arrival of segment `k`. -/
def Message.after (m : Message) (S : Finset ℕ) (k : ℕ) : Finset ℕ :=
  if (m.data k).isSome then insert k S else S

/-- The segment branch on the entry of the message of the segment. -/
lemma Message.Held.recvIntoEntry_eq {m : Message} {S : Finset ℕ} (hS : m.Held S) {k : ℕ}
    (hk : k < m.total) (pre post : List DataPacket) :
    recvIntoEntry pre (m.entry S) post (UInt8.ofNat k) (m.data k) =
      .ok (if m.after S k = m.whole then (pre ++ post, some m.handedOn)
        else (pre ++ m.entry (m.after S k) :: post, none)) := by
  have hnat : (UInt8.ofNat k).toNat = k := UInt8.toNat_ofNat_of_lt' (lt_trans hk m.total_lt)
  have hadd := hS.packetOk_entry.addSegment (UInt8.ofNat k) (m.data k)
  unfold Message.after
  cases hdata : m.data k with
  | none =>
    rw [hdata] at hadd
    have hne : S ≠ m.whole := by
      rintro rfl
      have hsome := (hS k (Finset.mem_range.mpr hk)).2
      rw [hdata] at hsome
      cases hsome
    rw [recvIntoEntry_of_add hadd hS.packetOk_entry, if_neg (mt hS.full_iff.mp hne)]
    simp only [Option.isSome_none, Bool.false_eq_true, if_false, if_neg hne]
  | some data =>
    rw [hdata] at hadd
    have hlt : (UInt8.ofNat k).toNat < (m.entry S).segTotal.toNat := by
      rw [hnat, Message.entry, Message.toNat_total]
      exact hk
    simp only [if_pos hlt, Message.entry_store hk hdata] at hadd
    have hS' := hS.insert_of_data hk hdata
    rw [recvIntoEntry_of_add hadd hS'.packetOk_entry]
    simp only [hS'.full_iff, Option.isSome_some, if_true]
    by_cases hwhole : insert k S = m.whole
    · rw [if_pos hwhole, if_pos hwhole, hwhole, Message.dataAfterRemove_whole]
    · rw [if_neg hwhole, if_neg hwhole]

/-! ### The pair of a message -/

/-- The pair that identifies the entry of a message. -/
def Message.key (m : Message) : UInt32 × UInt8 :=
  (m.sourceId, m.packetNum)

/-- An entry is the one of the pair of another message only if the pairs agree. -/
lemma Message.has_entry_iff {m m' : Message} {S : Finset ℕ} :
    (m.entry S).Has m'.sourceId m'.packetNum.toUInt32 ↔ m.key = m'.key := by
  unfold DataPacket.Has Message.entry Message.key
  rw [Prod.mk.injEq, UInt8.toUInt32_inj]

end WiotaAp
