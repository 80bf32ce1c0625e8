import WiotaAp.SpiCom.Ringbuffer

/-!
# The ring as a FIFO between two processors

One side of the SPI link only puts, the other only gets.  Each keeps its own control block over the
shared pool; its own index is exact, and the index of the other side is the last published copy it
fetched.  A copy may be old by the time it is used, but copies are seen in the order in which they
were published.

`Fifo` is the state of both sides with the publications still under way, and `Fifo.Step` the steps
they take in any order.  The state also records the bytes put and got so far and the totals behind
the publications; no function of the source reads them.  `Fifo.Inv` ties every cursor to a position
in the stream of bytes put, and `fifo_safe` states what follows for every reachable state.
-/

namespace WiotaAp

open Buffers

/-- A published index and mirror, and the number of bytes its publisher had moved by then. -/
structure Publication where
  cursor : Cursor
  total : ℕ

/-- Both sides of the link. -/
structure Fifo where
  pool : List UInt8
  writer : RtRingbuffer
  reader : RtRingbuffer
  /-- Write states published and not yet fetched by the reader, oldest first. -/
  writePubs : List Publication
  /-- Read states published and not yet fetched by the writer, oldest first. -/
  readPubs : List Publication
  /-- Bytes put as of the write state the reader fetched last. -/
  putSeen : ℕ
  /-- Bytes got as of the read state the writer fetched last. -/
  gotSeen : ℕ
  /-- Everything put with success, in order. -/
  put : List UInt8
  /-- Everything got, in order. -/
  got : List UInt8

namespace Fifo

/-- Both sides right after `uc_wiota_ringbuffer_init` on the same pool. -/
def init (size : RingSize) : Fifo where
  pool := (ucWiotaRingbufferInit size).2
  writer := (ucWiotaRingbufferInit size).1
  reader := (ucWiotaRingbufferInit size).1
  writePubs := []
  readPubs := []
  putSeen := 0
  gotSeen := 0
  put := []
  got := []

/-- The data the writer may put: a multiple of four bytes, between four and the buffer size. -/
def Puttable (s : Fifo) (data : List UInt8) : Prop :=
  data.length % 4 = 0 ∧ 4 ≤ data.length ∧ data.length ≤ s.writer.bufferSize

/-- The lengths the reader may get: a multiple of four bytes, at most the data length it computes
from the write state it fetched last. -/
def Gettable (s : Fifo) (len : ℕ) : Prop :=
  len % 4 = 0 ∧ len ≤ rtRingbufferDataLen s.reader

/-- One step of one side. -/
inductive Step : Fifo → Fifo → Prop
  | put (s : Fifo) (data : List UInt8) (rb : RtRingbuffer) (pool : List UInt8) (n : ℕ)
      (hdata : s.Puttable data)
      (hput : ucWiotaRingbufferPut s.writer s.pool data data.length = .ok (rb, pool, n)) :
      Step s { s with writer := rb, pool := pool, put := s.put ++ data.take n }
  | publishWrite (s : Fifo) :
      Step s { s with writePubs := s.writePubs ++ [⟨s.writer.writeCursor, s.put.length⟩] }
  | fetchWrite (s : Fifo) (skipped rest : List Publication) (p : Publication)
      (hpubs : s.writePubs = skipped ++ p :: rest) :
      Step s { s with reader := s.reader.setWrite p.cursor, putSeen := p.total, writePubs := rest }
  | get (s : Fifo) (len : ℕ) (rb : RtRingbuffer) (ptr : List UInt8) (n : ℕ)
      (hlen : s.Gettable len)
      (hget : ucWiotaRingbufferGet s.reader s.pool (List.replicate len 0) len = .ok (rb, ptr, n)) :
      Step s { s with reader := rb, got := s.got ++ ptr }
  | publishRead (s : Fifo) :
      Step s { s with readPubs := s.readPubs ++ [⟨s.reader.readCursor, s.got.length⟩] }
  | fetchRead (s : Fifo) (skipped rest : List Publication) (p : Publication)
      (hpubs : s.readPubs = skipped ++ p :: rest) :
      Step s { s with writer := s.writer.setRead p.cursor, gotSeen := p.total, readPubs := rest }

/-- The states any interleaving can reach. -/
def Reachable (size : RingSize) (s : Fifo) : Prop :=
  Relation.ReflTransGen Step (init size) s

/-! ### Publications in order -/

/-- The publications between the last one fetched, at `seen`, and the present total `now` are true
cursors, and their totals never decrease. -/
structure InOrder (N seen : ℕ) (pubs : List Publication) (now : ℕ) : Prop where
  cursor : ∀ p ∈ pubs, p.cursor = Cursor.ofPos N p.total
  sorted : (pubs.map Publication.total).Pairwise (· ≤ ·)
  seen_le : ∀ p ∈ pubs, seen ≤ p.total
  le_now : ∀ p ∈ pubs, p.total ≤ now
  seen_le_now : seen ≤ now

/-- The publisher may move on. -/
lemma InOrder.mono {N seen now now' : ℕ} {pubs : List Publication} (h : InOrder N seen pubs now)
    (hle : now ≤ now') : InOrder N seen pubs now' where
  cursor := h.cursor
  sorted := h.sorted
  seen_le := h.seen_le
  le_now p hp := (h.le_now p hp).trans hle
  seen_le_now := h.seen_le_now.trans hle

/-- Publishing the present cursor keeps the order. -/
lemma InOrder.publish {N seen now : ℕ} {pubs : List Publication} (h : InOrder N seen pubs now)
    {c : Cursor} (hc : c = Cursor.ofPos N now) : InOrder N seen (pubs ++ [⟨c, now⟩]) now where
  cursor p hp := by
    rcases List.mem_append.mp hp with hp | hp
    · exact h.cursor p hp
    · rw [List.mem_singleton.mp hp]
      exact hc
  sorted := by
    rw [List.map_append, List.pairwise_append]
    refine ⟨h.sorted, List.pairwise_singleton _ _, ?_⟩
    intro a ha b hb
    obtain ⟨p, hp, rfl⟩ := List.mem_map.mp ha
    rw [List.map_singleton, List.mem_singleton] at hb
    rw [hb]
    exact h.le_now p hp
  seen_le p hp := by
    rcases List.mem_append.mp hp with hp | hp
    · exact h.seen_le p hp
    · rw [List.mem_singleton.mp hp]
      exact h.seen_le_now
  le_now p hp := by
    rcases List.mem_append.mp hp with hp | hp
    · exact h.le_now p hp
    · rw [List.mem_singleton.mp hp]
  seen_le_now := h.seen_le_now

/-- Fetching a publication, and so passing over the older ones, keeps the order. -/
lemma InOrder.fetch {N seen now : ℕ} {skipped rest : List Publication} {p : Publication}
    (h : InOrder N seen (skipped ++ p :: rest) now) : InOrder N p.total rest now := by
  have hmem : ∀ q ∈ rest, q ∈ skipped ++ p :: rest := fun q hq =>
    List.mem_append_right _ (List.mem_cons_of_mem _ hq)
  have hsorted := h.sorted
  rw [List.map_append, List.map_cons, List.pairwise_append, List.pairwise_cons] at hsorted
  exact {
    cursor := fun q hq => h.cursor q (hmem q hq)
    sorted := hsorted.2.1.2
    seen_le := fun q hq => hsorted.2.1.1 _ (List.mem_map_of_mem hq)
    le_now := fun q hq => h.le_now q (hmem q hq)
    seen_le_now := h.le_now p (by simp) }

/-! ### The invariant -/

/-- Every cursor is the cursor of a stream position, the positions are ordered
`gotSeen ≤ got ≤ putSeen ≤ put ≤ gotSeen + cells`, and the pool still holds what is put and not yet
got. -/
structure Inv (size : RingSize) (s : Fifo) : Prop where
  writerSize : s.writer.bufferSize = size.cells
  readerSize : s.reader.bufferSize = size.cells
  poolLength : s.pool.length = size.cells
  writerPos : s.writer.writeCursor = Cursor.ofPos size.cells s.put.length
  writerView : s.writer.readCursor = Cursor.ofPos size.cells s.gotSeen
  readerPos : s.reader.readCursor = Cursor.ofPos size.cells s.got.length
  readerView : s.reader.writeCursor = Cursor.ofPos size.cells s.putSeen
  writeOrder : InOrder size.cells s.putSeen s.writePubs s.put.length
  readOrder : InOrder size.cells s.gotSeen s.readPubs s.got.length
  got_le : s.got.length ≤ s.putSeen
  put_le : s.put.length ≤ s.gotSeen + size.cells
  got_eq : s.got = s.put.take s.got.length
  cells : ∀ q, s.got.length ≤ q → q < s.put.length → s.pool[q % size.cells]? = s.put[q]?

variable {size : RingSize} {s : Fifo}

/-- The ring has at least one cell. -/
private lemma cells_pos (size : RingSize) : 0 < size.cells := by
  have := size.cells_bounds
  omega

/-- The writer's write index is the cell of the stream position. -/
lemma Inv.writeIndex_eq (h : Inv size s) : s.writer.writeIndex = s.put.length % size.cells :=
  congrArg Cursor.index h.writerPos

/-- The reader's read index is the cell of the stream position. -/
lemma Inv.readIndex_eq (h : Inv size s) : s.reader.readIndex = s.got.length % size.cells :=
  congrArg Cursor.index h.readerPos

/-- All four indices lie in the ring. -/
lemma Inv.index_lt (h : Inv size s) :
    s.writer.writeIndex < size.cells ∧ s.writer.readIndex < size.cells ∧
      s.reader.writeIndex < size.cells ∧ s.reader.readIndex < size.cells := by
  have hN := cells_pos size
  have h1 : s.writer.readIndex = s.gotSeen % size.cells := congrArg Cursor.index h.writerView
  have h2 : s.reader.writeIndex = s.putSeen % size.cells := congrArg Cursor.index h.readerView
  rw [h.writeIndex_eq, h.readIndex_eq, h1, h2]
  exact ⟨Nat.mod_lt _ hN, Nat.mod_lt _ hN, Nat.mod_lt _ hN, Nat.mod_lt _ hN⟩

/-- The data length in the writer's view. -/
lemma Inv.writer_dataLen (h : Inv size s) :
    rtRingbufferDataLen s.writer = s.put.length - s.gotSeen := by
  have hb := size.cells_bounds
  have hle : s.gotSeen ≤ s.put.length :=
    h.readOrder.seen_le_now.trans (h.got_le.trans h.writeOrder.seen_le_now)
  rw [rtRingbufferDataLen_eq_gap (by rw [h.writerSize]; exact h.index_lt.2.1)
    (by rw [h.writerSize]; exact hb.2.1), h.writerSize, h.writerView, h.writerPos]
  exact Cursor.gap_ofPos (cells_pos size) hle h.put_le

/-- The data length in the reader's view. -/
lemma Inv.reader_dataLen (h : Inv size s) :
    rtRingbufferDataLen s.reader = s.putSeen - s.got.length := by
  have hb := size.cells_bounds
  have hle : s.putSeen ≤ s.got.length + size.cells := by
    have h1 := h.writeOrder.seen_le_now
    have h2 := h.readOrder.seen_le_now
    have h3 := h.put_le
    omega
  rw [rtRingbufferDataLen_eq_gap (by rw [h.readerSize]; exact h.index_lt.2.2.2)
    (by rw [h.readerSize]; exact hb.2.1), h.readerSize, h.readerView, h.readerPos]
  exact Cursor.gap_ofPos (cells_pos size) h.got_le hle

/-- The free space in the writer's view. -/
lemma Inv.writer_spaceLen (h : Inv size s) :
    rtRingbufferSpaceLen s.writer % 2 ^ 16 = s.gotSeen + size.cells - s.put.length := by
  have hb := size.cells_bounds
  have hlen := h.writer_dataLen
  have hput := h.put_le
  have hle : s.gotSeen ≤ s.put.length :=
    h.readOrder.seen_le_now.trans (h.got_le.trans h.writeOrder.seen_le_now)
  rw [rtRingbufferSpaceLen_eq (by rw [h.writerSize]; exact hb.2.1)
    (by rw [hlen, h.writerSize]; omega), hlen, h.writerSize]
  omega

/-- What a put does in a state that satisfies the invariant. -/
lemma Inv.put_eq (h : Inv size s) {data : List UInt8} (hdata : s.Puttable data) :
    ucWiotaRingbufferPut s.writer s.pool data data.length =
      .ok (if s.put.length + data.length ≤ s.gotSeen + size.cells then
        (s.writer.setWrite (Cursor.ofPos size.cells (s.put.length + data.length)),
          ringSplice size.cells s.pool (s.put.length % size.cells) data, data.length)
      else (s.writer, s.pool, 0)) := by
  obtain ⟨h4, hlo, hhi⟩ := hdata
  have hb := size.cells_bounds
  have hput := h.put_le
  rw [ucWiotaRingbufferPut_eq (by rw [h.poolLength, h.writerSize])
    (by rw [h.writerSize]; exact h.index_lt.1) (by rw [h.writerSize]; exact hb.2.1) h4 (by omega)
    hhi, h.writer_spaceLen, h.writerSize, h.writerPos, h.writeIndex_eq,
    Cursor.ofPos_add (cells_pos size) _ (by rw [← h.writerSize]; exact hhi)]
  congr 1
  exact if_congr (by omega) rfl rfl

/-- What a get does in a state that satisfies the invariant: it reads on in the stream. -/
lemma Inv.get_eq (h : Inv size s) {len : ℕ} (hlen : s.Gettable len) :
    ucWiotaRingbufferGet s.reader s.pool (List.replicate len 0) len =
      .ok (s.reader.setRead (Cursor.ofPos size.cells (s.got.length + len)),
        slice s.put s.got.length len, len) := by
  obtain ⟨h4, hle⟩ := hlen
  have hb := size.cells_bounds
  have hseen := h.writeOrder.seen_le_now
  have hR := h.readOrder.seen_le_now
  have hput := h.put_le
  have hgot := h.got_le
  rw [h.reader_dataLen] at hle
  have hlenN : len ≤ size.cells := by omega
  have hread : ringSlice size.cells s.pool (s.got.length % size.cells) len =
      slice s.put s.got.length len := by
    have hslice : (slice s.put s.got.length len).length = len := length_slice (by omega)
    have hcells : ringSlice size.cells s.pool (s.got.length % size.cells)
        (slice s.put s.got.length len).length = slice s.put s.got.length len := by
      refine ringSlice_eq_of_cells h.poolLength (Nat.mod_lt _ (cells_pos size)) (by omega) ?_
      intro j hj
      rw [Nat.mod_add_mod, h.cells _ (by omega) (by omega), getElem?_slice, if_pos (by omega)]
    rwa [hslice] at hcells
  rw [ucWiotaRingbufferGet_eq (by rw [h.poolLength, h.readerSize])
    (by rw [h.readerSize]; exact h.index_lt.2.2.2) (by rw [h.readerSize]; exact hb.2.1)
    (by rw [rtAlign_of_aligned h4, h.readerSize]; exact hlenN), rtAlign_of_aligned h4,
    if_pos (by rw [List.length_replicate]), h.readerSize, h.readerPos, h.readIndex_eq, hread,
    Cursor.ofPos_add (cells_pos size) _ hlenN, splice_full]
  rw [List.length_replicate, length_slice (by omega)]

/-- The invariant holds after initialisation. -/
lemma inv_init (size : RingSize) : Inv size (init size) where
  writerSize := rfl
  readerSize := rfl
  poolLength := List.length_replicate
  writerPos := (Cursor.ofPos_zero _).symm
  writerView := (Cursor.ofPos_zero _).symm
  readerPos := (Cursor.ofPos_zero _).symm
  readerView := (Cursor.ofPos_zero _).symm
  writeOrder := ⟨by simp [init], by simp [init], by simp [init], by simp [init], le_rfl⟩
  readOrder := ⟨by simp [init], by simp [init], by simp [init], by simp [init], le_rfl⟩
  got_le := le_rfl
  put_le := Nat.zero_le _
  got_eq := rfl
  cells q _ hq := absurd hq (Nat.not_lt_zero q)

/-- Storing a block behind the stream keeps the invariant: the write reaches only cells of bytes
that the writer knows to be read. -/
lemma Inv.put_all (h : Inv size s) {data : List UInt8}
    (hfit : s.put.length + data.length ≤ s.gotSeen + size.cells) :
    Inv size { s with
      writer := s.writer.setWrite (Cursor.ofPos size.cells (s.put.length + data.length))
      pool := ringSplice size.cells s.pool (s.put.length % size.cells) data
      put := s.put ++ data } := by
  have hN := cells_pos size
  have hR := h.readOrder.seen_le_now
  have hgot := h.got_le
  have hseen := h.writeOrder.seen_le_now
  have hlen : (s.put ++ data).length = s.put.length + data.length := List.length_append
  refine
    { h with
      poolLength := length_ringSplice h.poolLength (Nat.mod_lt _ hN) (by omega)
      writerPos := by rw [hlen]; rfl
      writeOrder := h.writeOrder.mono (by rw [hlen]; omega)
      put_le := by rw [hlen]; exact hfit
      got_eq := ?_
      cells := ?_ }
  · change s.got = (s.put ++ data).take s.got.length
    rw [List.take_append_of_le_length (by omega)]
    exact h.got_eq
  · intro q hq1 hq2
    simp only [hlen] at hq1 hq2
    by_cases hq : q < s.put.length
    · rw [List.getElem?_append_left hq, ← h.cells q hq1 hq]
      exact getElem?_ringSplice_old hN h.poolLength hq (by omega)
    · obtain ⟨j, rfl⟩ : ∃ j, q = s.put.length + j := ⟨q - s.put.length, by omega⟩
      rw [List.getElem?_append_right (by omega), Nat.add_sub_cancel_left]
      exact getElem?_ringSplice_new hN h.poolLength (by omega) (by omega)

/-- Reading on in the stream keeps the invariant. -/
lemma Inv.get_next (h : Inv size s) {len : ℕ} (hlen : s.got.length + len ≤ s.putSeen) :
    Inv size { s with
      reader := s.reader.setRead (Cursor.ofPos size.cells (s.got.length + len))
      got := s.got ++ slice s.put s.got.length len } := by
  have hseen := h.writeOrder.seen_le_now
  have hgotlen : (s.got ++ slice s.put s.got.length len).length = s.got.length + len := by
    rw [List.length_append, length_slice (by omega)]
  refine
    { h with
      readerPos := by rw [hgotlen]; rfl
      readOrder := h.readOrder.mono (by rw [hgotlen]; omega)
      got_le := by rw [hgotlen]; exact hlen
      got_eq := ?_
      cells := ?_ }
  · rw [hgotlen, List.take_add, ← h.got_eq, slice]
  · intro q hq1 hq2
    simp only [hgotlen] at hq1
    exact h.cells q (by omega) hq2

/-- Every step keeps the invariant. -/
theorem Inv.step {t : Fifo} (h : Inv size s) (hst : Step s t) : Inv size t := by
  cases hst with
  | put data rb pool n hdata hput =>
    rw [h.put_eq hdata] at hput
    by_cases hfit : s.put.length + data.length ≤ s.gotSeen + size.cells
    · rw [if_pos hfit] at hput
      obtain ⟨rfl, rfl, rfl⟩ : _ ∧ _ ∧ _ := by simpa using hput
      rw [List.take_length]
      exact h.put_all hfit
    · rw [if_neg hfit] at hput
      obtain ⟨rfl, rfl, rfl⟩ : _ ∧ _ ∧ _ := by simpa using hput
      simpa using h
  | publishWrite => exact { h with writeOrder := h.writeOrder.publish h.writerPos }
  | fetchWrite skipped rest p hpubs =>
    have horder := h.writeOrder
    rw [hpubs] at horder
    exact
      { h with
        readerView := horder.cursor p (by simp)
        writeOrder := horder.fetch
        got_le := h.got_le.trans (horder.seen_le p (by simp)) }
  | get len rb ptr n hlen hget =>
    rw [h.get_eq hlen] at hget
    obtain ⟨rfl, rfl, rfl⟩ : _ ∧ _ ∧ _ := by simpa using hget
    have hle := hlen.2
    have hgot := h.got_le
    rw [h.reader_dataLen] at hle
    exact h.get_next (by omega)
  | publishRead => exact { h with readOrder := h.readOrder.publish h.readerPos }
  | fetchRead skipped rest p hpubs =>
    have horder := h.readOrder
    rw [hpubs] at horder
    exact
      { h with
        writerView := horder.cursor p (by simp)
        readOrder := horder.fetch
        put_le := h.put_le.trans (Nat.add_le_add_right (horder.seen_le p (by simp)) _) }

/-- A put stores all its bytes behind the unread ones, which stay as they are, or changes nothing.
-/
lemma Inv.put_spec (h : Inv size s) {data : List UInt8} (hdata : s.Puttable data) :
    ucWiotaRingbufferPut s.writer s.pool data data.length = .ok (s.writer, s.pool, 0) ∨
      ∃ rb pool, ucWiotaRingbufferPut s.writer s.pool data data.length =
          .ok (rb, pool, data.length) ∧
        rb.readCursor = s.writer.readCursor ∧
        rtRingbufferDataLen rb = rtRingbufferDataLen s.writer + data.length ∧
        ringSlice s.writer.bufferSize pool s.writer.writeIndex data.length = data ∧
        ∀ q, s.got.length ≤ q → q < s.put.length →
          pool[q % s.writer.bufferSize]? = s.pool[q % s.writer.bufferSize]? := by
  have hN := cells_pos size
  have hR := h.readOrder.seen_le_now
  have hW := h.writeOrder.seen_le_now
  have hgot := h.got_le
  rw [h.put_eq hdata]
  by_cases hfit : s.put.length + data.length ≤ s.gotSeen + size.cells
  · have hnext := h.put_all hfit
    rw [if_pos hfit]
    refine Or.inr ⟨_, _, rfl, rfl, ?_, ?_, ?_⟩
    · have hlen : rtRingbufferDataLen (s.writer.setWrite _) =
          (s.put ++ data).length - s.gotSeen := hnext.writer_dataLen
      rw [hlen, h.writer_dataLen, List.length_append]
      omega
    · rw [h.writerSize, h.writeIndex_eq]
      refine ringSlice_eq_of_cells hnext.poolLength (Nat.mod_lt _ hN) (by omega) ?_
      intro j hj
      rw [Nat.mod_add_mod]
      exact getElem?_ringSplice_new hN h.poolLength (by omega) hj
    · intro q hq1 hq2
      rw [h.writerSize]
      exact getElem?_ringSplice_old hN h.poolLength hq2 (by omega)
  · rw [if_neg hfit]
    exact Or.inl rfl

/-- The invariant holds in every reachable state. -/
theorem Reachable.inv (h : Reachable size s) : Inv size s := by
  induction h with
  | refl => exact inv_init size
  | tail _ hst ih => exact ih.step hst

end Fifo

/-! ### Safety of the link -/

/-- Whatever the interleaving of puts, gets, publications and fetches: the indices stay in the ring;
the data length in either view is what that side knows to be put less what it knows to be got, and
at most the ring; a put stores all its bytes behind the unread ones or changes nothing; a get
returns the next bytes of the stream; no byte that is put and not yet got has been overwritten; and
the bytes got are a first part of the bytes put. -/
theorem fifo_safe {size : RingSize} {s : Fifo} (h : Fifo.Reachable size s) :
    (s.writer.writeIndex < s.writer.bufferSize ∧ s.writer.readIndex < s.writer.bufferSize ∧
      s.reader.writeIndex < s.reader.bufferSize ∧ s.reader.readIndex < s.reader.bufferSize) ∧
    (s.gotSeen ≤ s.put.length ∧ rtRingbufferDataLen s.writer = s.put.length - s.gotSeen ∧
      rtRingbufferDataLen s.writer ≤ s.writer.bufferSize) ∧
    (s.got.length ≤ s.putSeen ∧ rtRingbufferDataLen s.reader = s.putSeen - s.got.length ∧
      rtRingbufferDataLen s.reader ≤ s.reader.bufferSize) ∧
    (∀ data, s.Puttable data →
      ucWiotaRingbufferPut s.writer s.pool data data.length = .ok (s.writer, s.pool, 0) ∨
      ∃ rb pool, ucWiotaRingbufferPut s.writer s.pool data data.length =
          .ok (rb, pool, data.length) ∧
        rb.readCursor = s.writer.readCursor ∧
        rtRingbufferDataLen rb = rtRingbufferDataLen s.writer + data.length ∧
        ringSlice s.writer.bufferSize pool s.writer.writeIndex data.length = data ∧
        ∀ q, s.got.length ≤ q → q < s.put.length →
          pool[q % s.writer.bufferSize]? = s.pool[q % s.writer.bufferSize]?) ∧
    (∀ len, s.Gettable len → ∃ rb,
      ucWiotaRingbufferGet s.reader s.pool (List.replicate len 0) len =
        .ok (rb, slice s.put s.got.length len, len)) ∧
    (∀ q, s.got.length ≤ q → q < s.put.length →
      s.pool[q % s.writer.bufferSize]? = s.put[q]?) ∧
    s.got <+: s.put := by
  have hinv := h.inv
  have hR := hinv.readOrder.seen_le_now
  have hW := hinv.writeOrder.seen_le_now
  have hgot := hinv.got_le
  have hput := hinv.put_le
  refine ⟨?_, ⟨by omega, hinv.writer_dataLen, ?_⟩, ⟨hgot, hinv.reader_dataLen, ?_⟩,
    fun data hdata => hinv.put_spec hdata, fun len hlen => ⟨_, hinv.get_eq hlen⟩, ?_, ?_⟩
  · rw [hinv.writerSize, hinv.readerSize]
    exact hinv.index_lt
  · rw [hinv.writer_dataLen, hinv.writerSize]
    omega
  · rw [hinv.reader_dataLen, hinv.readerSize]
    omega
  · rw [hinv.writerSize]
    exact hinv.cells
  · rw [hinv.got_eq]
    exact List.take_prefix _ _

/-- A ring of eight cells. -/
def smallRing : RingSize := ⟨8, by decide, by decide⟩

/-- The small ring after one put of eight bytes: full, and known to be full by the writer only. -/
def smallRun : Fifo where
  pool := [1, 2, 3, 4, 5, 6, 7, 8]
  writer := ⟨false, 0, true, 0, 8⟩
  reader := ⟨false, 0, false, 0, 8⟩
  writePubs := []
  readPubs := []
  putSeen := 0
  gotSeen := 0
  put := [1, 2, 3, 4, 5, 6, 7, 8]
  got := []

/-- The put is one of the steps the writer can take. -/
lemma smallRun_reachable : Fifo.Reachable smallRing smallRun :=
  Relation.ReflTransGen.single
    (Fifo.Step.put (Fifo.init smallRing) [1, 2, 3, 4, 5, 6, 7, 8] smallRun.writer smallRun.pool 8
      (by unfold Fifo.Puttable; decide) rfl)

/-- There the writer counts eight bytes and the reader none. -/
theorem fifo_safe_smallRun :
    rtRingbufferDataLen smallRun.writer = 8 ∧ rtRingbufferDataLen smallRun.reader = 0 :=
  ⟨(fifo_safe smallRun_reachable).2.1.2.1, (fifo_safe smallRun_reachable).2.2.1.2.1⟩

end WiotaAp
