import WiotaAp.Foundation.Slice

/-!
# The store of received segments

`manager_data_packet.c` keeps the segments of incomplete messages in a list of `data_packet_t`, one
entry for each source and packet number.  An entry has an array of segments, allocated only if the
announced total is not zero, and a count of the segments that are there.

The store is the list of its entries, in the order of the linked list.  A function that takes a
pointer to an entry takes the entry.  Allocations succeed.
-/

namespace WiotaAp

open Buffers

/-- `data_segment_t` with data. -/
structure DataSegment where
  length : ℕ
  data : List UInt8
  deriving DecidableEq, Repr

/-- `data_packet_t`.  The array `segment` is `none` when it is `RT_NULL`, and so is a slot of the
array whose data is `RT_NULL`. -/
structure DataPacket where
  sourceId : UInt32
  packetId : UInt32
  segTotal : UInt8
  segCount : UInt8
  segment : Option (List (Option DataSegment))
  deriving DecidableEq, Repr

/-- The entry is the one of the source and the packet number. -/
def DataPacket.Has (sourceId packetId : UInt32) (pos : DataPacket) : Prop :=
  pos.sourceId = sourceId ∧ pos.packetId = packetId

instance (sourceId packetId : UInt32) (pos : DataPacket) :
    Decidable (pos.Has sourceId packetId) :=
  inferInstanceAs (Decidable (_ ∧ _))

/-- `recv_data_packet_find`: the position of the first entry of the source and the packet number. -/
def recvDataPacketFind (store : List DataPacket) (sourceId packetId : UInt32) : Option ℕ :=
  store.findIdx? fun pos => decide (pos.Has sourceId packetId)

/-- The entry that `recv_data_packet_append` adds to the end of the list. -/
def recvDataPacketAppend (sourceId packetId : UInt32) (segTotal : UInt8) : DataPacket where
  sourceId := sourceId
  packetId := packetId
  segTotal := segTotal
  segCount := 0
  segment := if segTotal > 0 then some (List.replicate segTotal.toNat none) else none

/-- `recv_data_packet_add_segment`: the entry and the returned value.  The length is cut to 16
bits. -/
def recvDataPacketAddSegment (pos : DataPacket) (segId : UInt8) (data : Option (List UInt8)) :
    Except Fault (DataPacket × ℕ) :=
  match pos.segment with
  | none => .error .assertion
  | some segment =>
    match data with
    | none => .ok (pos, 1)
    | some data =>
      if segId ≥ pos.segTotal then .ok (pos, 1)
      else
        match segment[segId.toNat]? with
        | none => .error .outOfBounds
        | some slot =>
          let new : DataSegment := ⟨data.length % 2 ^ 16, data⟩
          -- a new segment is counted, an existing one replaced
          .ok ({ pos with
            segment := some (segment.set segId.toNat (some new))
            segCount := if slot.isNone then pos.segCount + 1 else pos.segCount }, 0)

/-- The length of a slot: zero in a slot without data. -/
def slotLength (slot : Option DataSegment) : ℕ :=
  match slot with
  | none => 0
  | some seg => seg.length

/-- The bytes copied out of a slot. -/
def readSlot (slot : Option DataSegment) : Except Fault (List UInt8) :=
  match slot with
  | none => .ok []
  | some seg => readAt seg.data 0 seg.length

/-- The loop that copies the slots out one after the other. -/
def readSlots : List (Option DataSegment) → Except Fault (List UInt8)
  | [] => .ok []
  | slot :: slots => do
    let bytes ← readSlot slot
    let rest ← readSlots slots
    return bytes ++ rest

/-- `recv_data_packet_reader`: `none` while the message is incomplete, and otherwise the message,
for which `*data` is set only if its length is not zero. -/
def recvDataPacketReader (pos : DataPacket) : Except Fault (Option (Option (List UInt8))) :=
  match pos.segment with
  | none => .error .assertion
  | some segment =>
    if pos.segCount ≠ pos.segTotal then .ok none
    else if (segment.map slotLength).sum % 2 ^ 32 > 0 then do
      let bytes ← readSlots segment
      return some (some bytes)
    else .ok (some none)

/-! ### Entries in good order -/

/-- The number of slots with data. -/
def slotCount (segment : List (Option DataSegment)) : ℕ :=
  segment.countP Option.isSome

/-- The array of the entry is there and has the announced size, at least one slot, and the count is
the number of slots with data. -/
structure PacketOk (pos : DataPacket) (segment : List (Option DataSegment)) : Prop where
  segment_eq : pos.segment = some segment
  length_eq : segment.length = pos.segTotal.toNat
  total_pos : 0 < pos.segTotal.toNat
  count_eq : pos.segCount.toNat = slotCount segment
  length_le : ∀ seg, some seg ∈ segment → seg.length ≤ seg.data.length
  length_lt : ∀ seg, some seg ∈ segment → seg.length < 2 ^ 16

/-- Storing a segment adds one to the number of slots with data, unless the slot had data. -/
lemma slotCount_set {segment : List (Option DataSegment)} {i : ℕ} {slot : Option DataSegment}
    (hslot : segment[i]? = some slot) (seg : DataSegment) :
    slotCount (segment.set i (some seg)) =
      if slot.isNone then slotCount segment + 1 else slotCount segment := by
  obtain ⟨hi, hget⟩ := List.getElem?_eq_some_iff.mp hslot
  have hmem : slot ∈ segment := hget ▸ List.getElem_mem hi
  unfold slotCount
  rw [List.countP_set hi, hget]
  cases slot with
  | none => rfl
  | some old =>
    have hpos : 0 < segment.countP Option.isSome :=
      List.countP_pos_iff.mpr ⟨some old, hmem, rfl⟩
    simp only [Option.isSome_some, if_true, Option.isNone_some, Bool.false_eq_true, if_false]
    omega

/-- There are at most as many slots with data as slots, and fewer if one is empty. -/
lemma slotCount_lt {segment : List (Option DataSegment)} {i : ℕ} (hslot : segment[i]? = some none) :
    slotCount segment < segment.length := by
  obtain ⟨hi, hget⟩ := List.getElem?_eq_some_iff.mp hslot
  refine lt_of_le_of_ne List.countP_le_length fun heq => ?_
  have hall := List.countP_eq_length.mp heq none (hget ▸ List.getElem_mem hi)
  cases hall

/-- A fresh entry is in good order if its total is not zero. -/
lemma packetOk_append (sourceId packetId : UInt32) {segTotal : UInt8} (h : 0 < segTotal.toNat) :
    PacketOk (recvDataPacketAppend sourceId packetId segTotal)
      (List.replicate segTotal.toNat none) where
  segment_eq := by
    have hpos : segTotal > 0 := UInt8.lt_iff_toNat_lt.mpr (by rw [UInt8.toNat_zero]; exact h)
    exact if_pos hpos
  length_eq := List.length_replicate
  total_pos := h
  count_eq := by
    unfold slotCount
    rw [List.countP_eq_zero.mpr]
    · rfl
    · intro slot hslot
      rw [List.eq_of_mem_replicate hslot]
      decide
  length_le := by
    intro seg hseg
    cases List.eq_of_mem_replicate hseg
  length_lt := by
    intro seg hseg
    cases List.eq_of_mem_replicate hseg

/-- The entry after a segment has been stored in it. -/
def DataPacket.store (pos : DataPacket) (segment : List (Option DataSegment)) (segId : UInt8)
    (data : List UInt8) : DataPacket :=
  { pos with
    segment := some (segment.set segId.toNat (some ⟨data.length % 2 ^ 16, data⟩))
    segCount :=
      if segment[segId.toNat]? = some none then pos.segCount + 1 else pos.segCount }

/-- Adding a segment to an entry in good order stores it, or ignores it if it has no data or lies
behind the announced total. -/
lemma PacketOk.addSegment {pos : DataPacket} {segment : List (Option DataSegment)}
    (h : PacketOk pos segment) (segId : UInt8) (data : Option (List UInt8)) :
    recvDataPacketAddSegment pos segId data =
      .ok (match data with
        | some data => if segId.toNat < pos.segTotal.toNat then (pos.store segment segId data, 0)
          else (pos, 1)
        | none => (pos, 1)) := by
  unfold recvDataPacketAddSegment
  rw [h.segment_eq]
  cases data with
  | none => rfl
  | some data =>
    by_cases hlt : segId.toNat < pos.segTotal.toNat
    · have hnot : ¬ segId ≥ pos.segTotal := by
        rw [ge_iff_le, UInt8.le_iff_toNat_le]
        omega
      obtain ⟨slot, hslot⟩ : ∃ slot, segment[segId.toNat]? = some slot :=
        ⟨_, List.getElem?_eq_getElem (by rw [h.length_eq]; exact hlt)⟩
      simp only [if_neg hnot, if_pos hlt, hslot, DataPacket.store]
      cases slot <;> rfl
    · have hge : segId ≥ pos.segTotal := by
        rw [ge_iff_le, UInt8.le_iff_toNat_le]
        omega
      simp only [if_pos hge, if_neg hlt]

/-- An entry in good order stays so when a segment is stored in it. -/
lemma PacketOk.store {pos : DataPacket} {segment : List (Option DataSegment)}
    (h : PacketOk pos segment) {segId : UInt8} (hlt : segId.toNat < pos.segTotal.toNat)
    (data : List UInt8) :
    PacketOk (pos.store segment segId data)
      (segment.set segId.toNat (some ⟨data.length % 2 ^ 16, data⟩)) := by
  obtain ⟨slot, hslot⟩ : ∃ slot, segment[segId.toNat]? = some slot :=
    ⟨_, List.getElem?_eq_getElem (by rw [h.length_eq]; exact hlt)⟩
  refine ⟨rfl, by rw [List.length_set]; exact h.length_eq, h.total_pos, ?_, ?_, ?_⟩
  · rw [slotCount_set hslot, DataPacket.store]
    simp only [hslot, Option.some.injEq]
    cases slot with
    | none =>
      -- the count stays below the total, so that it does not wrap
      have hcount := slotCount_lt hslot
      have hlen := h.length_eq
      have htotal := pos.segTotal.toNat_lt
      rw [if_pos rfl, UInt8.toNat_add, h.count_eq]
      simp only [Option.isNone_none, if_true, UInt8.toNat_one]
      omega
    | some old => exact h.count_eq
  · intro seg hseg
    rcases List.mem_or_eq_of_mem_set hseg with hmem | heq
    · exact h.length_le seg hmem
    · cases heq
      exact Nat.mod_le _ _
  · intro seg hseg
    rcases List.mem_or_eq_of_mem_set hseg with hmem | heq
    · exact h.length_lt seg hmem
    · cases heq
      exact Nat.mod_lt _ (by decide)

/-- The bytes of a slot. -/
def slotBytes (slot : Option DataSegment) : List UInt8 :=
  match slot with
  | none => []
  | some seg => slice seg.data 0 seg.length

/-- The slots are copied out in order. -/
lemma readSlots_eq {segment : List (Option DataSegment)}
    (h : ∀ seg, some seg ∈ segment → seg.length ≤ seg.data.length) :
    readSlots segment = .ok (segment.flatMap slotBytes) := by
  induction segment with
  | nil => rfl
  | cons slot segment ih =>
    have hslot : readSlot slot = .ok (slotBytes slot) := by
      cases slot with
      | none => rfl
      | some seg =>
        have hle := h seg List.mem_cons_self
        exact readAt_of_le (by omega)
    rw [readSlots, hslot, ok_bind, ih fun seg hseg => h seg (List.mem_cons_of_mem _ hseg), ok_bind]
    rfl

/-- Reading an entry in good order succeeds, and gives the message exactly when every slot has data.
-/
lemma PacketOk.reader {pos : DataPacket} {segment : List (Option DataSegment)}
    (h : PacketOk pos segment) :
    recvDataPacketReader pos =
      .ok (if slotCount segment = segment.length then
        some (if (segment.map slotLength).sum % 2 ^ 32 > 0 then some (segment.flatMap slotBytes)
          else none)
      else none) := by
  have hcount : pos.segCount ≠ pos.segTotal ↔ ¬ slotCount segment = segment.length := by
    rw [← h.count_eq, h.length_eq, not_iff_not, ← UInt8.toNat_inj]
  unfold recvDataPacketReader
  rw [h.segment_eq]
  simp only [hcount]
  by_cases hfull : slotCount segment = segment.length
  · rw [if_neg (not_not.mpr hfull), if_pos hfull]
    split
    · rw [readSlots_eq h.length_le, ok_bind]
      rfl
    · rfl
  · rw [if_pos hfull, if_neg hfull]

/-- Every slot holds a segment without any bytes. -/
def AllEmpty (segment : List (Option DataSegment)) : Prop :=
  ∀ slot ∈ segment, ∃ seg, slot = some seg ∧ seg.length = 0

/-- The slots are full and have no bytes exactly if every slot holds an empty segment: the sum of
their lengths does not wrap. -/
lemma PacketOk.allEmpty_iff {pos : DataPacket} {segment : List (Option DataSegment)}
    (h : PacketOk pos segment) :
    AllEmpty segment ↔
      slotCount segment = segment.length ∧ ¬ (segment.map slotLength).sum % 2 ^ 32 > 0 := by
  have hlt : (segment.map slotLength).sum < 2 ^ 32 := by
    have hsum : (segment.map slotLength).sum ≤ (segment.map slotLength).length * 2 ^ 16 := by
      refine List.sum_le_card_nsmul _ _ ?_
      intro n hn
      obtain ⟨slot, hslot, rfl⟩ := List.mem_map.mp hn
      cases slot with
      | none => exact Nat.zero_le _
      | some seg => exact (h.length_lt seg hslot).le
    have htotal := pos.segTotal.toNat_lt
    rw [List.length_map, h.length_eq] at hsum
    omega
  rw [Nat.mod_eq_of_lt hlt, gt_iff_lt, Nat.not_lt, Nat.le_zero, List.sum_eq_zero_iff, slotCount,
    List.countP_eq_length]
  constructor
  · intro hall
    refine ⟨fun slot hslot => ?_, fun n hn => ?_⟩
    · obtain ⟨seg, rfl, -⟩ := hall slot hslot
      rfl
    · obtain ⟨slot, hslot, rfl⟩ := List.mem_map.mp hn
      obtain ⟨seg, rfl, hzero⟩ := hall slot hslot
      exact hzero
  · rintro ⟨hfull, hzero⟩ slot hslot
    obtain ⟨seg, rfl⟩ := Option.isSome_iff_exists.mp (hfull slot hslot)
    exact ⟨seg, rfl, hzero _ (List.mem_map_of_mem hslot)⟩

end WiotaAp
