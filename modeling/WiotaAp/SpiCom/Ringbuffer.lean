import WiotaAp.Foundation.MirrorRing

/-!
# The ring buffer of the SPI link

The control block `rt_ringbuffer` and the three functions of `uc_wiota_spi_com.c` that work on it:
`uc_wiota_ringbuffer_init`, `uc_wiota_ringbuffer_put` and `uc_wiota_ringbuffer_get`, together with
`rt_ringbuffer_status`, `rt_ringbuffer_data_len` and `rt_ringbuffer_space_len` of RT-Thread.

The cells behind `buffer_ptr` are shared with the other processor, so they are an argument of their
own (`pool`) and not a field of the block.  All index arithmetic is that of the C code: a difference
is an `int`, and what is stored or passed on is cut to the width of its target.

`ucWiotaRingbufferPut_eq` and `ucWiotaRingbufferGet_eq` say what the two functions do on a block
whose own index lies in the ring; no later proof unfolds them.
-/

namespace WiotaAp

open Buffers

/-! ### Integer conversions and alignment -/

/-- Conversion of an `int` to the 32-bit `rt_size_t` or `rt_ubase_t`. -/
def toU32 (x : ℤ) : ℕ :=
  (x % 2 ^ 32).toNat

/-- `RT_ALIGN`: round up to a multiple of the power of two `align`. -/
def rtAlign (size align : ℕ) : ℕ :=
  (size + align - 1) / align * align

/-- `RT_ALIGN_DOWN`: round down to a multiple of the power of two `align`. -/
def rtAlignDown (size align : ℕ) : ℕ :=
  size / align * align

/-- `RING_BUFFER_ALIGN_SIZE`. -/
abbrev ringBufferAlignSize : ℕ := 4

/-- Rounding a length up to the ring alignment adds at most three bytes. -/
lemma rtAlign_bounds (n : ℕ) :
    n ≤ rtAlign n ringBufferAlignSize ∧ rtAlign n ringBufferAlignSize < n + 4 ∧
      rtAlign n ringBufferAlignSize % 4 = 0 := by
  simp only [rtAlign, ringBufferAlignSize]
  omega

/-- An aligned length is not rounded. -/
lemma rtAlign_of_aligned {n : ℕ} (h : n % 4 = 0) : rtAlign n ringBufferAlignSize = n := by
  have := rtAlign_bounds n
  omega

/-! ### The control block -/

/-- `struct rt_ringbuffer` without its `buffer_ptr`.  The indices are 15-bit fields, and
`buffer_size` is an `rt_int16_t` that can only be positive. -/
@[ext]
structure RtRingbuffer where
  readMirror : Bool
  readIndex : ℕ
  writeMirror : Bool
  writeIndex : ℕ
  bufferSize : ℕ
  deriving DecidableEq, Repr

/-- `enum rt_ringbuffer_state`. -/
inductive RtRingbufferState
  | empty
  | full
  | halffull
  deriving DecidableEq, Repr

namespace RtRingbuffer

/-- The read index with its mirror bit. -/
def readCursor (rb : RtRingbuffer) : Cursor :=
  ⟨rb.readIndex, rb.readMirror⟩

/-- The write index with its mirror bit. -/
def writeCursor (rb : RtRingbuffer) : Cursor :=
  ⟨rb.writeIndex, rb.writeMirror⟩

/-- Store a read index and mirror bit. -/
def setRead (rb : RtRingbuffer) (c : Cursor) : RtRingbuffer :=
  { rb with readIndex := c.index, readMirror := c.mirror }

/-- Store a write index and mirror bit. -/
def setWrite (rb : RtRingbuffer) (c : Cursor) : RtRingbuffer :=
  { rb with writeIndex := c.index, writeMirror := c.mirror }

@[simp] lemma setWrite_readCursor (rb : RtRingbuffer) (c : Cursor) :
    (rb.setWrite c).readCursor = rb.readCursor := rfl

@[simp] lemma setWrite_bufferSize (rb : RtRingbuffer) (c : Cursor) :
    (rb.setWrite c).bufferSize = rb.bufferSize := rfl

end RtRingbuffer

/-- The pool sizes `uc_wiota_ringbuffer_init` can be called with: at least one aligned cell group,
and small enough for the `rt_int16_t` that stores it. -/
structure RingSize where
  rbSize : ℕ
  four_le : 4 ≤ rbSize
  lt_int16 : rbSize < 2 ^ 15

/-- `DL_RING_BUFFER_SIZE`, the size of `dl_buf`. -/
def dlRingBufferSize : RingSize := ⟨7152, by decide, by decide⟩

/-- The size given to the uplink ring: the last four bytes of `ul_buf` store the frame number. -/
def ulRingBufferSize : RingSize := ⟨7152 - 4, by decide, by decide⟩

/-- The number of cells of the ring, the `buffer_size` set by `uc_wiota_ringbuffer_init`. -/
def RingSize.cells (size : RingSize) : ℕ :=
  rtAlignDown size.rbSize ringBufferAlignSize

/-- The ring is not empty, its size fits in 15 bits, and it is a multiple of four. -/
lemma RingSize.cells_bounds (size : RingSize) :
    4 ≤ size.cells ∧ size.cells < 2 ^ 15 ∧ size.cells % 4 = 0 := by
  have h1 := size.four_le
  have h2 := size.lt_int16
  simp only [RingSize.cells, rtAlignDown, ringBufferAlignSize]
  omega

/-- `uc_wiota_ringbuffer_init`: the control block and the cleared pool. -/
def ucWiotaRingbufferInit (size : RingSize) : RtRingbuffer × List UInt8 :=
  ({ readMirror := false, readIndex := 0, writeMirror := false, writeIndex := 0,
     bufferSize := size.cells },
   List.replicate size.cells 0)

/-! ### Fill level -/

/-- `rt_ringbuffer_status`. -/
def rtRingbufferStatus (rb : RtRingbuffer) : RtRingbufferState :=
  if rb.readIndex = rb.writeIndex then
    if rb.readMirror = rb.writeMirror then .empty else .full
  else .halffull

/-- `rt_ringbuffer_data_len`. -/
def rtRingbufferDataLen (rb : RtRingbuffer) : ℕ :=
  match rtRingbufferStatus rb with
  | .empty => 0
  | .full => rb.bufferSize
  | .halffull =>
    if rb.writeIndex > rb.readIndex then rb.writeIndex - rb.readIndex
    else toU32 ((rb.bufferSize : ℤ) - ((rb.readIndex : ℤ) - rb.writeIndex))

/-- `rt_ringbuffer_space_len`. -/
def rtRingbufferSpaceLen (rb : RtRingbuffer) : ℕ :=
  toU32 ((rb.bufferSize : ℤ) - rtRingbufferDataLen rb)

/-- When the read index lies in the ring, the data length is the gap of the two cursors. -/
lemma rtRingbufferDataLen_eq_gap {rb : RtRingbuffer} (hr : rb.readIndex < rb.bufferSize)
    (hN : rb.bufferSize < 2 ^ 15) :
    rtRingbufferDataLen rb = Cursor.gap rb.bufferSize rb.readCursor rb.writeCursor := by
  obtain ⟨rm, r, wm, w, n⟩ := rb
  simp only [rtRingbufferDataLen, rtRingbufferStatus, Cursor.gap, RtRingbuffer.readCursor,
    RtRingbuffer.writeCursor] at hr hN ⊢
  by_cases hidx : r = w
  · by_cases hmir : rm = wm <;> simp [hidx, hmir]
  · by_cases hlt : r < w
    · simp [hidx, hlt]
    · simp only [hidx, hlt, if_false, toU32]
      omega

/-- Equal cursors show an empty ring. -/
lemma rtRingbufferDataLen_of_eq {rb : RtRingbuffer} (h : rb.readCursor = rb.writeCursor) :
    rtRingbufferDataLen rb = 0 := by
  have hidx : rb.readIndex = rb.writeIndex := congrArg Cursor.index h
  have hmir : rb.readMirror = rb.writeMirror := congrArg Cursor.mirror h
  simp [rtRingbufferDataLen, rtRingbufferStatus, hidx, hmir]

/-- The free space complements a data length that fits in the ring. -/
lemma rtRingbufferSpaceLen_eq {rb : RtRingbuffer} (hN : rb.bufferSize < 2 ^ 15)
    (hlen : rtRingbufferDataLen rb ≤ rb.bufferSize) :
    rtRingbufferSpaceLen rb = rb.bufferSize - rtRingbufferDataLen rb := by
  simp only [rtRingbufferSpaceLen, toU32]
  omega

/-! ### Put -/

/-- `uc_wiota_ringbuffer_put`: the block, the pool and the number of bytes written. -/
def ucWiotaRingbufferPut (rb : RtRingbuffer) (pool data : List UInt8) (length : ℕ) :
    Except Fault (RtRingbuffer × List UInt8 × ℕ) :=
  let writeLen : ℕ := rtAlign length ringBufferAlignSize % 2 ^ 16
  let spaceLength : ℕ := rtRingbufferSpaceLen rb % 2 ^ 16
  if spaceLength = 0 then
    .ok (rb, pool, 0)
  else if spaceLength < writeLen then
    .ok (rb, pool, 0)
  else if (rb.bufferSize : ℤ) - rb.writeIndex > (writeLen : ℤ) then do
    let src ← readAt data 0 writeLen
    let pool ← writeAt pool rb.writeIndex src
    return ({ rb with writeIndex := (rb.writeIndex + writeLen) % 2 ^ 15 }, pool, writeLen)
  else do
    -- the first part goes up to the end of the pool, the second to its front
    let first := toU32 ((rb.bufferSize : ℤ) - rb.writeIndex)
    let second := toU32 ((writeLen : ℤ) - ((rb.bufferSize : ℤ) - rb.writeIndex))
    let src ← readAt data 0 first
    let pool ← writeAt pool rb.writeIndex src
    let src ← readAt data first second
    let pool ← writeAt pool 0 src
    return ({ rb with writeMirror := !rb.writeMirror, writeIndex := second % 2 ^ 15 }, pool,
      writeLen)

/-- The two parts of a block that goes over the end of the ring, computed without a borrow. -/
lemma toU32_parts {size index len : ℕ} (hindex : index < size) (hsize : size < 2 ^ 15)
    (hlen : len ≤ size) (hwrap : ¬ index + len < size) :
    toU32 ((size : ℤ) - index) = size - index ∧
      toU32 ((len : ℤ) - ((size : ℤ) - index)) = len - (size - index) := by
  unfold toU32
  constructor
  · omega
  · omega

/-- What `uc_wiota_ringbuffer_put` does with an aligned block of data, at most the ring long, when
the write index lies in the ring: it stores all of it behind the write cursor or nothing. -/
theorem ucWiotaRingbufferPut_eq {rb : RtRingbuffer} {pool data : List UInt8}
    (hpool : pool.length = rb.bufferSize) (hw : rb.writeIndex < rb.bufferSize)
    (hN : rb.bufferSize < 2 ^ 15) (h4 : data.length % 4 = 0) (hpos : 0 < data.length)
    (hle : data.length ≤ rb.bufferSize) :
    ucWiotaRingbufferPut rb pool data data.length =
      .ok (if data.length ≤ rtRingbufferSpaceLen rb % 2 ^ 16 then
        (rb.setWrite (rb.writeCursor.advance rb.bufferSize data.length),
          ringSplice rb.bufferSize pool rb.writeIndex data, data.length)
      else (rb, pool, 0)) := by
  have hwl : rtAlign data.length ringBufferAlignSize % 2 ^ 16 = data.length := by
    rw [rtAlign_of_aligned h4]
    omega
  simp only [ucWiotaRingbufferPut, hwl]
  by_cases hfit : data.length ≤ rtRingbufferSpaceLen rb % 2 ^ 16
  · rw [if_neg (by omega), if_neg (by omega), if_pos hfit]
    by_cases hwrap : rb.writeIndex + data.length < rb.bufferSize
    · rw [if_pos (by omega), readAt_of_le (by omega), slice_full]
      have hidx : (rb.writeIndex + data.length) % 2 ^ 15 = rb.writeIndex + data.length := by omega
      rw [ok_bind, writeAt_of_le (by omega), ok_bind, hidx, ringSplice, if_pos hwrap,
        Cursor.advance, RtRingbuffer.writeCursor, if_pos hwrap]
      rfl
    · obtain ⟨hfirst, hsecond⟩ := toU32_parts hw hN hle hwrap
      have htake : slice data 0 (rb.bufferSize - rb.writeIndex) =
          data.take (rb.bufferSize - rb.writeIndex) := by
        simp [slice]
      have hdrop : slice data (rb.bufferSize - rb.writeIndex)
          (data.length - (rb.bufferSize - rb.writeIndex)) =
          data.drop (rb.bufferSize - rb.writeIndex) := by
        rw [slice, List.take_of_length_le]
        exact (List.length_drop).le
      have hlen1 : (data.take (rb.bufferSize - rb.writeIndex)).length =
          rb.bufferSize - rb.writeIndex := by
        rw [List.length_take]
        omega
      have hlen2 : (data.drop (rb.bufferSize - rb.writeIndex)).length ≤ rb.bufferSize := by
        rw [List.length_drop]
        omega
      have hidx : (data.length - (rb.bufferSize - rb.writeIndex)) % 2 ^ 15 =
          rb.writeIndex + data.length - rb.bufferSize := by omega
      rw [if_neg (by omega), hfirst, hsecond, readAt_of_le (by omega), ok_bind, htake,
        writeAt_of_le (by omega), ok_bind, readAt_of_le (by omega), ok_bind, hdrop,
        writeAt_of_le (by rw [length_splice (by omega)]; omega), ok_bind, hidx, ringSplice,
        if_neg hwrap, Cursor.advance, RtRingbuffer.writeCursor, if_neg hwrap]
      rfl
  · rw [if_neg hfit]
    split
    · rfl
    · rw [if_pos (by omega)]

/-- A put of an aligned length without enough space changes nothing, whatever the indices are. -/
lemma ucWiotaRingbufferPut_of_noSpace {rb : RtRingbuffer} {pool data : List UInt8} {length : ℕ}
    (h4 : length % 4 = 0) (hlen : length < 2 ^ 16)
    (hspace : rtRingbufferSpaceLen rb % 2 ^ 16 < length) :
    ucWiotaRingbufferPut rb pool data length = .ok (rb, pool, 0) := by
  simp only [ucWiotaRingbufferPut, rtAlign_of_aligned h4, Nat.mod_eq_of_lt hlen, if_pos hspace,
    ite_self]

/-! ### Get -/

/-- `uc_wiota_ringbuffer_get`: the block, the target memory `ptr` and the number of bytes read.
The read length is rounded up here, after the caller has sized `ptr`. -/
def ucWiotaRingbufferGet (rb : RtRingbuffer) (pool ptr : List UInt8) (dataLen : ℕ) :
    Except Fault (RtRingbuffer × List UInt8 × ℕ) :=
  let readLen : ℕ := rtAlign dataLen ringBufferAlignSize % 2 ^ 16
  if (rb.bufferSize : ℤ) - rb.readIndex > (readLen : ℤ) then do
    let src ← readAt pool rb.readIndex readLen
    let ptr ← writeAt ptr 0 src
    return ({ rb with readIndex := (rb.readIndex + readLen) % 2 ^ 15 }, ptr, readLen)
  else do
    let first := toU32 ((rb.bufferSize : ℤ) - rb.readIndex)
    let second := toU32 ((readLen : ℤ) - ((rb.bufferSize : ℤ) - rb.readIndex))
    let src ← readAt pool rb.readIndex first
    let ptr ← writeAt ptr 0 src
    let src ← readAt pool 0 second
    let ptr ← writeAt ptr first src
    return ({ rb with readMirror := !rb.readMirror, readIndex := second % 2 ^ 15 }, ptr, readLen)

/-- What `uc_wiota_ringbuffer_get` does when the read index lies in the ring and the rounded length
is at most the ring: with room for the rounded length it copies that many bytes behind the read
cursor and moves the cursor over them, and without it leaves the target memory. -/
theorem ucWiotaRingbufferGet_eq {rb : RtRingbuffer} {pool ptr : List UInt8} {dataLen : ℕ}
    (hpool : pool.length = rb.bufferSize) (hr : rb.readIndex < rb.bufferSize)
    (hN : rb.bufferSize < 2 ^ 15) (hle : rtAlign dataLen ringBufferAlignSize ≤ rb.bufferSize) :
    ucWiotaRingbufferGet rb pool ptr dataLen =
      if rtAlign dataLen ringBufferAlignSize ≤ ptr.length then
        .ok (rb.setRead
            (rb.readCursor.advance rb.bufferSize (rtAlign dataLen ringBufferAlignSize)),
          splice ptr 0
            (ringSlice rb.bufferSize pool rb.readIndex (rtAlign dataLen ringBufferAlignSize)),
          rtAlign dataLen ringBufferAlignSize)
      else .error .outOfBounds := by
  generalize hrl : rtAlign dataLen ringBufferAlignSize = readLen at *
  have hmod : readLen % 2 ^ 16 = readLen := by omega
  simp only [ucWiotaRingbufferGet, hrl, hmod]
  by_cases hwrap : rb.readIndex + readLen < rb.bufferSize
  · have hidx : (rb.readIndex + readLen) % 2 ^ 15 = rb.readIndex + readLen := by omega
    have hlen : (slice pool rb.readIndex readLen).length = readLen := length_slice (by omega)
    rw [if_pos (by omega), readAt_of_le (by omega), ok_bind, ringSlice, if_pos hwrap,
      Cursor.advance, RtRingbuffer.readCursor, if_pos hwrap]
    by_cases hfit : readLen ≤ ptr.length
    · rw [writeAt_of_le (by omega), ok_bind, if_pos hfit, hidx]
      rfl
    · rw [writeAt_of_lt (by omega), error_bind, if_neg hfit]
  · obtain ⟨hfirst, hsecond⟩ := toU32_parts hr hN hle hwrap
    have hlen1 : (slice pool rb.readIndex (rb.bufferSize - rb.readIndex)).length =
        rb.bufferSize - rb.readIndex := length_slice (by omega)
    have hlen2 : (slice pool 0 (readLen - (rb.bufferSize - rb.readIndex))).length =
        readLen - (rb.bufferSize - rb.readIndex) := length_slice (by omega)
    have hidx : (readLen - (rb.bufferSize - rb.readIndex)) % 2 ^ 15 =
        rb.readIndex + readLen - rb.bufferSize := by omega
    rw [if_neg (by omega), hfirst, hsecond, readAt_of_le (by omega), ok_bind, ringSlice,
      if_neg hwrap, Cursor.advance, RtRingbuffer.readCursor, if_neg hwrap]
    by_cases hroom : rb.bufferSize - rb.readIndex ≤ ptr.length
    · have hlen3 : (splice ptr 0
          (slice pool rb.readIndex (rb.bufferSize - rb.readIndex))).length = ptr.length :=
        length_splice (by omega)
      rw [writeAt_of_le (by omega), ok_bind, readAt_of_le (by omega), ok_bind]
      by_cases hfit : readLen ≤ ptr.length
      · have happ := @splice_append _ ptr 0 (slice pool rb.readIndex (rb.bufferSize - rb.readIndex))
          (slice pool 0 (readLen - (rb.bufferSize - rb.readIndex))) (by rw [hlen1, hlen2]; omega)
        rw [Nat.zero_add, hlen1] at happ
        rw [writeAt_of_le (by omega), ok_bind, if_pos hfit, hidx, happ]
        rfl
      · rw [writeAt_of_lt (by omega), error_bind, if_neg hfit]
    · rw [writeAt_of_lt (by omega), error_bind, if_neg (by omega)]

end WiotaAp
