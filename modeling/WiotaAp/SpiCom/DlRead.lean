import WiotaAp.SpiCom.DlParse

/-!
# Taking a batch out of the downlink ring

What the ring half of `uc_wiota_dl_data_parse` does for every write state that passes the channel
and CRC checks (`readDlBatch_eq`).  The write index of that state is any 15-bit number: nothing
compares it with the ring, and the read length is rounded up only after the block has been
allocated.

`dlResync_iff` says for which write states the two sides agree afterwards that the ring is empty.
-/

namespace WiotaAp

open Buffers

/-- The downlink ring as `uc_wiota_ringbuffer_init` sets it up, with the read index in the ring. -/
structure DlRing (size : RingSize) (s : SpiCom) : Prop where
  bufferSize : s.dlRb.bufferSize = size.cells
  poolLength : s.dlBuf.length = size.cells
  readIndex_lt : s.dlRb.readIndex < size.cells

/-- The length computed for the write state that is fetched. -/
def fetchedDataLen (s : SpiCom) : ℕ :=
  ucWiotaGetDlDataLen (s.dlRb.setWrite s.dlRbWriteState.cursor)

/-- The lengths that are not rejected lie between one header and the ring. -/
lemma ucWiotaGetDlDataLen_eq (rb : RtRingbuffer) :
    ucWiotaGetDlDataLen rb =
      if 8 ≤ rtRingbufferDataLen rb % 2 ^ 16 ∧ rtRingbufferDataLen rb % 2 ^ 16 ≤ rb.bufferSize then
        rtRingbufferDataLen rb % 2 ^ 16
      else 0 := by
  simp only [ucWiotaGetDlDataLen, cmdHeaderSize]
  generalize rtRingbufferDataLen rb % 2 ^ 16 = len
  by_cases hlen : 8 ≤ len ∧ len ≤ rb.bufferSize
  · rw [if_pos hlen, if_neg (by omega), if_neg (by omega)]
  · by_cases hzero : len = 0
    · rw [if_pos hzero, if_neg hlen]
    · rw [if_neg hzero, if_pos (by omega), if_neg hlen]

/-- A length that is not rejected lies between one header and the ring. -/
lemma fetchedDataLen_bounds {s : SpiCom} (h : fetchedDataLen s ≠ 0) :
    8 ≤ fetchedDataLen s ∧ fetchedDataLen s ≤ s.dlRb.bufferSize := by
  rw [fetchedDataLen, ucWiotaGetDlDataLen_eq] at *
  split_ifs at * with hlen
  · exact hlen
  · exact absurd rfl h

/-- The ring holds as much as the fetched write position is ahead of the read position. -/
lemma dataLen_fetched {size : RingSize} {s : SpiCom} (hring : DlRing size s) :
    rtRingbufferDataLen (s.dlRb.setWrite s.dlRbWriteState.cursor) =
      Cursor.gap s.dlRb.bufferSize s.dlRb.readCursor s.dlRbWriteState.cursor := by
  have hN := size.cells_bounds
  refine rtRingbufferDataLen_eq_gap ?_ ?_
  · rw [RtRingbuffer.setWrite_bufferSize, hring.bufferSize]
    exact hring.readIndex_lt
  · rw [RtRingbuffer.setWrite_bufferSize, hring.bufferSize]
    exact hN.2.1

/-- The state after a batch of the given length has been taken out of the ring. -/
def afterRead (crc8 : List UInt8 → UInt32) (s : SpiCom) (len : ℕ) : SpiCom :=
  ucWiotaRingbufferSetDlReadIdx crc8
    { s with
      dlRb := (s.dlRb.setWrite s.dlRbWriteState.cursor).setRead
        (s.dlRb.readCursor.advance s.dlRb.bufferSize len) }

/-- The ring half of the parser on a write state that passes its checks: nothing is read when the
length is rejected; an aligned length is copied out and the read position published; any other
length overruns the block, which is allocated before the length is rounded up. -/
theorem readDlBatch_eq {size : RingSize} {s : SpiCom} (hring : DlRing size s)
    {crc8 : List UInt8 → UInt32} (hok : WriteStateOk crc8 s.apChannelId s.dlRbWriteState) :
    readDlBatch crc8 true s =
      if fetchedDataLen s = 0 then
        .ok ({ s with dlRb := s.dlRb.setWrite s.dlRbWriteState.cursor }, none)
      else if fetchedDataLen s % 4 = 0 then
        .ok (afterRead crc8 s (fetchedDataLen s),
          some (ringSlice s.dlRb.bufferSize s.dlBuf s.dlRb.readIndex (fetchedDataLen s)))
      else .error .outOfBounds := by
  have hN := size.cells_bounds
  have hsize := hring.bufferSize
  simp only [readDlBatch, ucWiotaRingbufferGetDlWriteIdx_of_ok crc8 hok]
  rw [if_neg (by simp), show ucWiotaGetDlDataLen (s.dlRb.setWrite s.dlRbWriteState.cursor) =
    fetchedDataLen s from rfl]
  by_cases hzero : fetchedDataLen s = 0
  · rw [if_pos hzero, if_pos hzero]
  · have hb := fetchedDataLen_bounds hzero
    have halign := rtAlign_bounds (fetchedDataLen s)
    rw [if_neg hzero, if_neg hzero, if_neg (by decide),
      ucWiotaRingbufferGet_eq
        (by rw [RtRingbuffer.setWrite_bufferSize, hsize]; exact hring.poolLength)
        (by rw [RtRingbuffer.setWrite_bufferSize, hsize]; exact hring.readIndex_lt)
        (by rw [RtRingbuffer.setWrite_bufferSize, hsize]; exact hN.2.1)
        (by rw [RtRingbuffer.setWrite_bufferSize]; omega),
      List.length_replicate]
    by_cases h4 : fetchedDataLen s % 4 = 0
    · have hslice : (ringSlice s.dlRb.bufferSize s.dlBuf s.dlRb.readIndex
          (fetchedDataLen s)).length = fetchedDataLen s := by
        rw [hsize]
        exact length_ringSlice hring.poolLength hring.readIndex_lt (by omega)
      rw [rtAlign_of_aligned h4, if_pos le_rfl, if_pos h4]
      simp only [ok_bind, pure_eq_ok, afterRead, RtRingbuffer.setWrite_bufferSize,
        RtRingbuffer.setWrite_readCursor]
      rw [splice_full (by rw [List.length_replicate]; exact hslice)]
      rfl
    · rw [if_neg (by omega), if_neg h4, error_bind]

/-- What is published after a read is the new read position. -/
lemma afterRead_readState {size : RingSize} {s : SpiCom} (hring : DlRing size s)
    (crc8 : List UInt8 → UInt32) {len : ℕ} (hlen : len ≤ size.cells) :
    (afterRead crc8 s len).dlRbReadState.cursor =
      s.dlRb.readCursor.advance s.dlRb.bufferSize len := by
  have hN := size.cells_bounds
  have hlt : (s.dlRb.readCursor.advance s.dlRb.bufferSize len).index < size.cells := by
    rw [hring.bufferSize]
    exact Cursor.advance_index_lt hring.readIndex_lt hlen
  have hmod : (s.dlRb.readCursor.advance s.dlRb.bufferSize len).index % 32768 =
      (s.dlRb.readCursor.advance s.dlRb.bufferSize len).index := Nat.mod_eq_of_lt (by omega)
  ext
  · exact hmod
  · rfl

/-! ### Agreement after a read -/

/-- If the parser goes on to read, it stays in the block it allocated, its read index stays in the
ring, and the published read position is the write position it fetched, so that both sides see an
empty ring. -/
def Resyncs (crc8 : List UInt8 → UInt32) (mallocOk : Bool) (s : SpiCom) : Prop :=
  (∃ s', readDlBatch crc8 mallocOk s = .ok (s', none)) ∨
    ∃ s' dlData, readDlBatch crc8 mallocOk s = .ok (s', some dlData) ∧
      dlData.length = fetchedDataLen s ∧ s'.dlRb.readIndex < s'.dlRb.bufferSize ∧
      s'.dlRbReadState.cursor = s.dlRbWriteState.cursor ∧ rtRingbufferDataLen s'.dlRb = 0

/-- The write positions the gateway can reach by moving on from the read position in steps of four
bytes, over at most one ring: inside the ring, with the alignment of the read index, and with the
mirror bit of the read position exactly when the index is ahead of it. -/
structure WriteStateFits (s : SpiCom) : Prop where
  in_ring : s.dlRbWriteState.writeIndex.val < s.dlRb.bufferSize
  aligned : s.dlRbWriteState.writeIndex.val % 4 = s.dlRb.readIndex % 4
  mirror : s.dlRb.readIndex < s.dlRbWriteState.writeIndex.val ↔
    s.dlRbWriteState.writeMirror = s.dlRb.readMirror

/-- In a ring whose size is a multiple of four, a write position fits exactly when it is some
aligned length ahead of the read position. -/
lemma writeStateFits_of_advance {size : RingSize} {s : SpiCom} (hring : DlRing size s) {len : ℕ}
    (hpos : 0 < len) (hle : len ≤ size.cells) (h4 : len % 4 = 0)
    (hadv : s.dlRb.readCursor.advance s.dlRb.bufferSize len = s.dlRbWriteState.cursor) :
    WriteStateFits s := by
  have hN := size.cells_bounds
  have hsize := hring.bufferSize
  have hidx : s.dlRbWriteState.writeIndex.val =
      (s.dlRb.readCursor.advance s.dlRb.bufferSize len).index := by rw [hadv]; rfl
  have hmir : s.dlRbWriteState.writeMirror =
      (s.dlRb.readCursor.advance s.dlRb.bufferSize len).mirror := by rw [hadv]; rfl
  have hr : s.dlRb.readCursor.index < s.dlRb.bufferSize := by
    rw [hsize]
    exact hring.readIndex_lt
  refine ⟨?_, ?_, ?_⟩
  · rw [hidx]
    exact Cursor.advance_index_lt hr (by omega)
  · rw [hidx]
    exact Cursor.advance_index_mod (by omega) h4
  · rw [hidx, hmir]
    exact Cursor.advance_ahead_iff (c := s.dlRb.readCursor) hpos (by omega)

/-- A write position that fits is the computed length ahead of the read position. -/
lemma WriteStateFits.advance {size : RingSize} {s : SpiCom} (hring : DlRing size s)
    (hfit : WriteStateFits s) (hlen : fetchedDataLen s ≠ 0) :
    fetchedDataLen s % 4 = 0 ∧
      s.dlRb.readCursor.advance s.dlRb.bufferSize (fetchedDataLen s) =
        s.dlRbWriteState.cursor := by
  have hN := size.cells_bounds
  have hsize := hring.bufferSize
  have hr : s.dlRb.readCursor.index < s.dlRb.bufferSize := by
    rw [hsize]
    exact hring.readIndex_lt
  have hgap : fetchedDataLen s =
      Cursor.gap s.dlRb.bufferSize s.dlRb.readCursor s.dlRbWriteState.cursor := by
    have hle : Cursor.gap s.dlRb.bufferSize s.dlRb.readCursor s.dlRbWriteState.cursor ≤
        s.dlRb.bufferSize := Cursor.gap_le hfit.in_ring
    rw [fetchedDataLen, ucWiotaGetDlDataLen_eq, dataLen_fetched hring] at hlen ⊢
    split_ifs at hlen ⊢
    · omega
    · exact absurd rfl hlen
  have hadv : s.dlRb.readCursor.advance s.dlRb.bufferSize (fetchedDataLen s) =
      s.dlRbWriteState.cursor := by
    rw [hgap]
    exact Cursor.advance_gap hr hfit.in_ring hfit.mirror
  refine ⟨?_, hadv⟩
  -- the index moves by the length up to a multiple of four, and keeps its residue
  have h4 := hfit.aligned
  have hmove : s.dlRbWriteState.writeIndex.val = s.dlRb.readIndex + fetchedDataLen s ∨
      s.dlRbWriteState.writeIndex.val + s.dlRb.bufferSize =
        s.dlRb.readIndex + fetchedDataLen s := by
    have hidx : s.dlRbWriteState.writeIndex.val = _ := (congrArg Cursor.index hadv).symm
    rw [hidx, Cursor.advance]
    split
    · exact Or.inl rfl
    · rename_i hwrap
      exact Or.inr (Nat.sub_add_cancel (not_lt.mp hwrap))
  omega

/-- For every write state that passes the channel and CRC checks, the two sides agree after a read
exactly when the write position fits the ring, or nothing is read at all. -/
theorem dlResync_iff {size : RingSize} {s : SpiCom} (hring : DlRing size s)
    {crc8 : List UInt8 → UInt32} (hok : WriteStateOk crc8 s.apChannelId s.dlRbWriteState) :
    Resyncs crc8 true s ↔ (fetchedDataLen s ≠ 0 → WriteStateFits s) := by
  have hsize := hring.bufferSize
  rw [Resyncs, readDlBatch_eq hring hok]
  by_cases hzero : fetchedDataLen s = 0
  · rw [if_pos hzero]
    exact iff_of_true (Or.inl ⟨_, rfl⟩) (fun h => absurd hzero h)
  have hb := fetchedDataLen_bounds hzero
  rw [if_neg hzero]
  by_cases h4 : fetchedDataLen s % 4 = 0
  · have hstate : (afterRead crc8 s (fetchedDataLen s)).dlRbReadState.cursor = _ :=
      afterRead_readState hring crc8 (by omega)
    rw [if_pos h4]
    constructor
    · rintro (⟨s', hs⟩ | ⟨s', dlData, hs, -, -, hpub, -⟩) -
      · simp at hs
      · obtain ⟨rfl, -⟩ : _ ∧ _ := by simpa using hs
        rw [hstate] at hpub
        exact writeStateFits_of_advance hring (by omega) (by omega) h4 hpub
    · intro hfit
      have hadv := ((hfit hzero).advance hring hzero).2
      refine Or.inr ⟨_, _, rfl, ?_, ?_, hstate.trans hadv, ?_⟩
      · rw [hsize]
        exact length_ringSlice hring.poolLength hring.readIndex_lt (by omega)
      · have hlt := Cursor.advance_index_lt (N := size.cells) (c := s.dlRb.readCursor)
          hring.readIndex_lt (k := fetchedDataLen s) (by omega)
        rw [← hsize] at hlt
        exact hlt
      · exact rtRingbufferDataLen_of_eq hadv
  · rw [if_neg h4]
    refine iff_of_false ?_ (fun hfit => h4 ((hfit hzero).advance hring hzero).1)
    rintro (⟨_, hs⟩ | ⟨_, _, hs, -⟩) <;> cases hs

/-- The state after initialisation and a hand shake on channel 0, with a CRC that is always zero,
and a published write position. -/
def publishedWrite (index : Fin 32768) (mirror : Bool) : SpiCom :=
  { ucWiotaSpiComInit 0 (fun _ => 0) with dlRbWriteState := ⟨index, mirror, 0, 0⟩ }

/-- Its downlink ring is the one set up by the initialisation. -/
lemma publishedWrite_dlRing (index : Fin 32768) (mirror : Bool) :
    DlRing dlRingBufferSize (publishedWrite index mirror) where
  bufferSize := rfl
  poolLength := List.length_replicate
  readIndex_lt := Nat.lt_of_lt_of_le (Nat.succ_pos 3) dlRingBufferSize.cells_bounds.1

/-- The parser resynchronises after a gateway write of 16 bytes. -/
theorem dlResync_iff_aligned : Resyncs (fun _ => 0) true (publishedWrite 16 false) := by
  have hok : WriteStateOk (fun _ => 0) (publishedWrite 16 false).apChannelId
      (publishedWrite 16 false).dlRbWriteState := by decide
  have hfit : WriteStateFits (publishedWrite 16 false) := ⟨by decide, by decide, by decide⟩
  exact (dlResync_iff (publishedWrite_dlRing 16 false) hok).mpr fun _ => hfit

/-- A write index of 10 passes the channel and CRC checks, and the parser then copies 12 bytes into
a block of 10. -/
theorem dlResync_unaligned :
    WriteStateOk (fun _ => 0) 0 (publishedWrite 10 false).dlRbWriteState ∧
      fetchedDataLen (publishedWrite 10 false) = 10 ∧
      readDlBatch (fun _ => 0) true (publishedWrite 10 false) = .error .outOfBounds ∧
      ¬ Resyncs (fun _ => 0) true (publishedWrite 10 false) := by
  have hlen : fetchedDataLen (publishedWrite 10 false) = 10 := by decide
  have hread : readDlBatch (fun _ => 0) true (publishedWrite 10 false) = .error .outOfBounds := by
    rw [readDlBatch_eq (publishedWrite_dlRing 10 false) (by decide), hlen]
    rfl
  refine ⟨by decide, hlen, hread, ?_⟩
  rw [Resyncs, hread]
  rintro (⟨_, hs⟩ | ⟨_, _, hs, -⟩) <;> cases hs

end WiotaAp
