import WiotaAp.Foundation.Loop
import WiotaAp.Foundation.Memory

/-!
# The memory of a slave

`slave_uc8x88.c` reads and writes the memory of a slave chip over a bus.  The bus transfers whole
words: what it does with an address or a length that is not a multiple of four is not known.
`slave_uc8x88_mem_read_data` and `slave_uc8x88_mem_write_data` transfer aligned ranges directly, and
others word by word, where a word that is written in part is read first.

`wordAccess_spec` says where a round of the loops stands in the memory, and `memReadRound_eq` and
`memWriteRound_eq` what it transfers.  `slave_memory_exact` says that both functions act on the
bytes of the range and on no others, at any alignment.
-/

namespace WiotaAp

open Buffers

/-! ### The bus -/

/-- A transfer over the bus: the address and the number of bytes. -/
inductive Transfer
  | read (addr len : ℕ)
  | write (addr len : ℕ)
  deriving DecidableEq, Repr

/-- A transfer of whole words. -/
def Transfer.Aligned : Transfer → Prop
  | .read addr len => 4 ∣ addr ∧ 4 ∣ len
  | .write addr len => 4 ∣ addr ∧ 4 ∣ len

/-- A bus to a memory.  Reading and writing whole words inside the 32-bit address space transfers
exactly these bytes; about other transfers nothing is said. -/
structure SlaveBus where
  read : (ℕ → UInt8) → ℕ → ℕ → List UInt8 × (ℕ → UInt8)
  write : (ℕ → UInt8) → ℕ → List UInt8 → (ℕ → UInt8)
  read_eq : ∀ m addr len, 4 ∣ addr → 4 ∣ len → addr + len ≤ 2 ^ 32 →
    read m addr len = (readRange m addr len, m)
  write_eq : ∀ m addr data, 4 ∣ addr → 4 ∣ data.length → addr + data.length ≤ 2 ^ 32 →
    write m addr data = writeRange m addr data

/-- A slave: its entries in `g_slave_uc8x88_exist` and `p_slave_uc8x88_mutex`, its memory and the
transfers so far. -/
structure SlaveChip where
  exist : UInt8
  mutex : Bool
  memory : ℕ → UInt8
  transfers : List Transfer

/-- `mem_read` into a buffer. -/
def memRead (bus : SlaveBus) (addr : ℕ) (readData : List UInt8) (len : ℕ) (chip : SlaveChip) :
    Except Fault (List UInt8 × SlaveChip) :=
  if len = 0 then .ok (readData, chip)
  else do
    let readData ← writeAt readData 0 (bus.read chip.memory addr len).1
    return (readData, { chip with
      memory := (bus.read chip.memory addr len).2
      transfers := chip.transfers ++ [.read addr len] })

/-- `mem_write` from a buffer. -/
def memWrite (bus : SlaveBus) (addr : ℕ) (writeData : List UInt8) (len : ℕ) (chip : SlaveChip) :
    Except Fault SlaveChip :=
  if len = 0 then .ok chip
  else do
    let data ← readAt writeData 0 len
    return { chip with
      memory := bus.write chip.memory addr data
      transfers := chip.transfers ++ [.write addr len] }

/-- The bus that takes any address and any length. -/
def exactBus : SlaveBus where
  read m addr len := (readRange m addr len, m)
  write m addr data := writeRange m addr data
  read_eq _ _ _ _ _ _ := rfl
  write_eq _ _ _ _ _ _ := rfl

/-! ### The two functions -/

/-- `read_addr` and `write_addr`: the word of the byte at `index`. -/
def wordAddr (addr index : ℕ) : ℕ :=
  (addr + index) % 2 ^ 32 / 4 * 4

/-- `addr_offset`: the place of the byte in its word. -/
def addrOffset (addr index : ℕ) : ℕ :=
  (addr + index) % 2 ^ 32 % 4

/-- `order_len`: the number of bytes of the word that are transferred. -/
def orderLen (addr index dataLen : ℕ) : ℕ :=
  if (index + 4 - addrOffset addr index) % 2 ^ 32 > dataLen then (dataLen - index) % 2 ^ 8
  else 4 - addrOffset addr index

/-- The state of the loop of `slave_uc8x88_mem_read_data`. -/
structure MemReadState where
  index : ℕ
  dataBuf : List UInt8
  chip : SlaveChip

/-- A round of the loop of `slave_uc8x88_mem_read_data`. -/
def memReadRound (bus : SlaveBus) (addr dataLen : ℕ) (st : MemReadState) :
    Except Fault (MemReadState ⊕ List UInt8 × SlaveChip) :=
  if st.index < dataLen then do
    let orderLen := orderLen addr st.index dataLen
    let (readBuf, chip) ← memRead bus (wordAddr addr st.index) [0, 0, 0, 0] 4 st.chip
    let part ← readAt readBuf (addrOffset addr st.index) orderLen
    let dataBuf ← writeAt st.dataBuf st.index part
    return .inl ⟨(st.index + orderLen) % 2 ^ 32, dataBuf, chip⟩
  else return .inr (st.dataBuf, st.chip)

/-- The loop of `slave_uc8x88_mem_read_data`. -/
def memReadLoop (bus : SlaveBus) (fuel addr : ℕ) (dataBuf : List UInt8) (dataLen : ℕ)
    (chip : SlaveChip) : Run (List UInt8 × SlaveChip) :=
  loop (memReadRound bus addr dataLen) fuel ⟨0, dataBuf, chip⟩

/-- The state of the loop of `slave_uc8x88_mem_write_data`. -/
structure MemWriteState where
  index : ℕ
  chip : SlaveChip

/-- `write_data` before the data is put into it: a word of which only a part is written is read
first. -/
def readWriteData (bus : SlaveBus) (writeAddr addrOffset orderLen : ℕ) (chip : SlaveChip) :
    Except Fault (List UInt8 × SlaveChip) :=
  if addrOffset > 0 ∨ orderLen < 4 then memRead bus writeAddr [0, 0, 0, 0] 4 chip
  else .ok ([0, 0, 0, 0], chip)

/-- A round of the loop of `slave_uc8x88_mem_write_data`. -/
def memWriteRound (bus : SlaveBus) (addr : ℕ) (dataBuf : List UInt8) (dataLen : ℕ)
    (st : MemWriteState) : Except Fault (MemWriteState ⊕ SlaveChip) :=
  if st.index < dataLen then do
    let addrOffset := addrOffset addr st.index
    let orderLen := orderLen addr st.index dataLen
    let (writeBuf, chip) ←
      readWriteData bus (wordAddr addr st.index) addrOffset orderLen st.chip
    let part ← readAt dataBuf st.index orderLen
    let writeBuf ← writeAt writeBuf addrOffset part
    let chip ← memWrite bus (wordAddr addr st.index) writeBuf 4 chip
    return .inl ⟨(st.index + orderLen) % 2 ^ 32, chip⟩
  else return .inr st.chip

/-- The loop of `slave_uc8x88_mem_write_data`. -/
def memWriteLoop (bus : SlaveBus) (fuel addr : ℕ) (dataBuf : List UInt8) (dataLen : ℕ)
    (chip : SlaveChip) : Run SlaveChip :=
  loop (memWriteRound bus addr dataBuf dataLen) fuel ⟨0, chip⟩

/-- `SLAVE_UC8X88_MAX_COUNT`. -/
def slaveUc8x88MaxCount : ℕ := 8

/-- The chips by their index. -/
abbrev SlaveChips := ℕ → SlaveChip

/-- Chips that are all there, with nothing but zeros in their memories. -/
def blankChips : SlaveChips := fun _ => ⟨1, true, fun _ => 0, []⟩

/-- The chip is there, and it has a mutex. -/
structure SlaveChips.Ready (chips : SlaveChips) (chipIndex : ℕ) : Prop where
  index_lt : chipIndex < slaveUc8x88MaxCount
  exist_ne : (chips chipIndex).exist ≠ 0
  mutex_eq : (chips chipIndex).mutex = true

/-- `slave_uc8x88_mem_read_data`: the result, the buffer and the chips. -/
def slaveUc8x88MemReadData (bus : SlaveBus) (fuel chipIndex addr : ℕ) (dataBuf : List UInt8)
    (dataLen : ℕ) (chips : SlaveChips) : Run (ℤ × List UInt8 × SlaveChips) :=
  if chipIndex ≥ slaveUc8x88MaxCount then .done (-1, dataBuf, chips)
  else if (chips chipIndex).exist = 0 then .done (-1, dataBuf, chips)
  else if (chips chipIndex).mutex = false then .done (-1, dataBuf, chips)
  else
    (if addr % 4 = 0 ∧ dataLen % 4 = 0 then
      Run.ofExcept (memRead bus addr dataBuf dataLen (chips chipIndex))
    else memReadLoop bus fuel addr dataBuf dataLen (chips chipIndex)).map
      fun (dataBuf, chip) => (0, dataBuf, Function.update chips chipIndex chip)

/-- `slave_uc8x88_mem_write_data`: the result and the chips. -/
def slaveUc8x88MemWriteData (bus : SlaveBus) (fuel chipIndex addr : ℕ) (dataBuf : List UInt8)
    (dataLen : ℕ) (chips : SlaveChips) : Run (ℤ × SlaveChips) :=
  if chipIndex ≥ slaveUc8x88MaxCount then .done (-1, chips)
  else if (chips chipIndex).exist = 0 then .done (-1, chips)
  else if (chips chipIndex).mutex = false then .done (-1, chips)
  else
    (if addr % 4 = 0 ∧ dataLen % 4 = 0 then
      Run.ofExcept (memWrite bus addr dataBuf dataLen (chips chipIndex))
    else memWriteLoop bus fuel addr dataBuf dataLen (chips chipIndex)).map
      fun chip => (0, Function.update chips chipIndex chip)

/-! ### Accesses -/

/-- What an access does to a chip: aligned transfers only, and then this memory. -/
def SlaveChip.Accessed (chip : SlaveChip) (memory : ℕ → UInt8) (chip' : SlaveChip) : Prop :=
  ∃ ts : List Transfer, (∀ t ∈ ts, t.Aligned) ∧
    chip' = { chip with memory := memory, transfers := chip.transfers ++ ts }

/-- No transfer at all. -/
lemma SlaveChip.Accessed.refl (chip : SlaveChip) : chip.Accessed chip.memory chip := by
  refine ⟨[], fun t ht => absurd ht List.not_mem_nil, ?_⟩
  rw [List.append_nil]

/-- One aligned transfer. -/
lemma SlaveChip.Accessed.single (chip : SlaveChip) (memory : ℕ → UInt8) {t : Transfer}
    (ht : t.Aligned) :
    chip.Accessed memory { chip with memory := memory, transfers := chip.transfers ++ [t] } := by
  refine ⟨[t], fun t' ht' => ?_, rfl⟩
  rw [List.mem_singleton.mp ht']
  exact ht

/-- One access behind the other. -/
lemma SlaveChip.Accessed.trans {chip chip₁ chip₂ : SlaveChip} {m₁ m₂ : ℕ → UInt8}
    (h₁ : chip.Accessed m₁ chip₁) (h₂ : chip₁.Accessed m₂ chip₂) : chip.Accessed m₂ chip₂ := by
  obtain ⟨ts₁, hts₁, rfl⟩ := h₁
  obtain ⟨ts₂, hts₂, rfl⟩ := h₂
  refine ⟨ts₁ ++ ts₂, fun t ht => ?_, ?_⟩
  · exact (List.mem_append.mp ht).elim (hts₁ t) (hts₂ t)
  · rw [List.append_assoc]

/-- The memory after an access. -/
lemma SlaveChip.Accessed.memory_eq {chip chip' : SlaveChip} {memory : ℕ → UInt8}
    (h : chip.Accessed memory chip') : chip'.memory = memory := by
  obtain ⟨ts, -, rfl⟩ := h
  rfl

/-- `mem_read` of whole words reads exactly these bytes. -/
lemma memRead_eq (bus : SlaveBus) {addr len : ℕ} (haddr : 4 ∣ addr) (hlen : 4 ∣ len)
    (hend : addr + len ≤ 2 ^ 32) {readData : List UInt8} (hdata : readData.length = len)
    (chip : SlaveChip) :
    ∃ chip', chip.Accessed chip.memory chip' ∧
      memRead bus addr readData len chip = .ok (readRange chip.memory addr len, chip') := by
  by_cases hzero : len = 0
  · subst hzero
    refine ⟨chip, .refl chip, ?_⟩
    rw [List.length_eq_zero_iff.mp hdata]
    exact if_pos rfl
  · refine ⟨_, .single chip chip.memory (t := .read addr len) ⟨haddr, hlen⟩, ?_⟩
    have hwrite : writeAt readData 0 (readRange chip.memory addr len) =
        .ok (readRange chip.memory addr len) := by
      rw [writeAt_of_le (by rw [length_readRange]; omega),
        splice_full (by rw [length_readRange, hdata])]
    rw [memRead, if_neg hzero, bus.read_eq _ _ _ haddr hlen hend, hwrite]
    rfl

/-- `mem_read` of one word. -/
lemma memRead_word (bus : SlaveBus) {addr : ℕ} (haddr : 4 ∣ addr) (hend : addr + 4 ≤ 2 ^ 32)
    (chip : SlaveChip) :
    ∃ chip', chip.Accessed chip.memory chip' ∧
      memRead bus addr [0, 0, 0, 0] 4 chip = .ok (readRange chip.memory addr 4, chip') :=
  memRead_eq bus haddr (dvd_refl 4) hend rfl chip

/-- `mem_write` of whole words writes exactly these bytes. -/
lemma memWrite_eq (bus : SlaveBus) {addr : ℕ} {data : List UInt8} (haddr : 4 ∣ addr)
    (hlen : 4 ∣ data.length) (hend : addr + data.length ≤ 2 ^ 32) (chip : SlaveChip) :
    ∃ chip', chip.Accessed (writeRange chip.memory addr data) chip' ∧
      memWrite bus addr data data.length chip = .ok chip' := by
  by_cases hzero : data.length = 0
  · refine ⟨chip, ?_, if_pos hzero⟩
    rw [List.length_eq_zero_iff.mp hzero, writeRange_nil]
    exact .refl chip
  · refine ⟨_, .single chip _ (t := .write addr data.length) ⟨haddr, hlen⟩, ?_⟩
    have hread : readAt data 0 data.length = .ok data := by
      rw [readAt_of_le (by omega), slice_full]
    rw [memWrite, if_neg hzero, hread, ok_bind, bus.write_eq _ _ _ haddr hlen hend]
    rfl

/-! ### The rounds -/

/-- Where a round stands: the word is aligned and inside the address space, the byte at `index` is
the one at `addr_offset` in it, and at least one byte is transferred, which stays in the word and in
the range. -/
structure WordAccess (addr index dataLen : ℕ) : Prop where
  word_dvd : 4 ∣ wordAddr addr index
  word_end : wordAddr addr index + 4 ≤ 2 ^ 32
  word_add : wordAddr addr index + addrOffset addr index = addr + index
  len_pos : 0 < orderLen addr index dataLen
  in_word : addrOffset addr index + orderLen addr index dataLen ≤ 4
  in_range : index + orderLen addr index dataLen ≤ dataLen
  next_eq : (index + orderLen addr index dataLen) % 2 ^ 32 = index + orderLen addr index dataLen

/-- A round inside a range that ends one word in front of the end of the address space. -/
lemma wordAccess_spec {addr index dataLen : ℕ} (hend : addr + dataLen ≤ 2 ^ 32 - 4)
    (hindex : index < dataLen) : WordAccess addr index dataLen := by
  have hbyte : (addr + index) % 2 ^ 32 = addr + index := Nat.mod_eq_of_lt (by omega)
  have hoffset : addrOffset addr index = (addr + index) % 4 := by rw [addrOffset, hbyte]
  have hword : wordAddr addr index = (addr + index) / 4 * 4 := by rw [wordAddr, hbyte]
  have hlen : orderLen addr index dataLen =
      min (dataLen - index) (4 - (addr + index) % 4) := by
    rw [orderLen, hoffset, Nat.mod_eq_of_lt (by omega)]
    split
    · rw [Nat.mod_eq_of_lt (by omega), Nat.min_eq_left (by omega)]
    · rw [Nat.min_eq_right (by omega)]
  constructor <;> simp only [hoffset, hword, hlen] <;> omega

/-- What a round of the read transfers: the bytes behind those that are there. -/
lemma memReadRound_eq (bus : SlaveBus) {addr index dataLen : ℕ}
    (hend : addr + dataLen ≤ 2 ^ 32 - 4) (hindex : index < dataLen) {dataBuf : List UInt8}
    (hbuf : dataBuf.length = dataLen) (chip : SlaveChip) :
    ∃ chip', chip.Accessed chip.memory chip' ∧
      memReadRound bus addr dataLen ⟨index, dataBuf, chip⟩ =
        .ok (.inl ⟨index + orderLen addr index dataLen, splice dataBuf index
          (readRange chip.memory (addr + index) (orderLen addr index dataLen)), chip'⟩) := by
  have hround := wordAccess_spec hend hindex
  obtain ⟨chip', haccess, hread⟩ := memRead_word bus hround.word_dvd hround.word_end chip
  refine ⟨chip', haccess, ?_⟩
  have hpart : readAt (readRange chip.memory (wordAddr addr index) 4) (addrOffset addr index)
      (orderLen addr index dataLen) =
        .ok (readRange chip.memory (addr + index) (orderLen addr index dataLen)) := by
    rw [readAt_of_le (by rw [length_readRange]; exact hround.in_word),
      slice_readRange _ hround.in_word, hround.word_add]
  have hfits : index + (readRange chip.memory (addr + index)
      (orderLen addr index dataLen)).length ≤ dataBuf.length := by
    rw [length_readRange, hbuf]
    exact hround.in_range
  rw [memReadRound, if_pos hindex]
  simp only [hread, ok_bind, hpart, writeAt_of_le hfits, hround.next_eq]
  rfl

/-- The data of a round of the write is put into the word that is there; what stands in a word that
is replaced as a whole does not matter. -/
lemma exists_writeBuf (bus : SlaveBus) {addr index dataLen : ℕ}
    (h : WordAccess addr index dataLen) {part : List UInt8}
    (hpart : part.length = orderLen addr index dataLen) (chip : SlaveChip) :
    ∃ writeBuf chip', chip.Accessed chip.memory chip' ∧
      readWriteData bus (wordAddr addr index) (addrOffset addr index)
        (orderLen addr index dataLen) chip = .ok (writeBuf, chip') ∧
      writeAt writeBuf (addrOffset addr index) part = .ok
        (splice (readRange chip.memory (wordAddr addr index) 4) (addrOffset addr index) part) := by
  have hword := h.in_word
  rw [← hpart] at hword
  by_cases hread : addrOffset addr index > 0 ∨ orderLen addr index dataLen < 4
  · obtain ⟨chip', haccess, heq⟩ := memRead_word bus h.word_dvd h.word_end chip
    refine ⟨_, chip', haccess, (if_pos hread).trans heq, ?_⟩
    exact writeAt_of_le (by rwa [length_readRange])
  · have hoffset : addrOffset addr index = 0 := by omega
    have hfull : part.length = 4 := by omega
    refine ⟨_, chip, .refl chip, if_neg hread, ?_⟩
    rw [hoffset, writeAt_of_le (by simp [hfull]), splice_full (by simp [hfull]),
      splice_full (by rw [length_readRange, hfull])]

/-- What a round of the write transfers: the next bytes of the data. -/
lemma memWriteRound_eq (bus : SlaveBus) {addr index : ℕ} {data : List UInt8}
    (hend : addr + data.length ≤ 2 ^ 32 - 4) (hindex : index < data.length) (chip : SlaveChip) :
    ∃ chip', chip.Accessed (writeRange chip.memory (addr + index)
        (slice data index (orderLen addr index data.length))) chip' ∧
      memWriteRound bus addr data data.length ⟨index, chip⟩ =
        .ok (.inl ⟨index + orderLen addr index data.length, chip'⟩) := by
  have hround := wordAccess_spec hend hindex
  have hpart := length_slice hround.in_range
  obtain ⟨writeBuf, chip₁, haccess₁, hread, hsplice⟩ := exists_writeBuf bus hround hpart chip
  have hfits := hround.in_word
  rw [← hpart] at hfits
  have hlen : (splice (readRange chip.memory (wordAddr addr index) 4) (addrOffset addr index)
      (slice data index (orderLen addr index data.length))).length = 4 := by
    rw [length_splice (by rwa [length_readRange]), length_readRange]
  obtain ⟨chip₂, haccess₂, hwrite⟩ := memWrite_eq bus hround.word_dvd (dvd_of_eq hlen.symm)
    (hlen.symm ▸ hround.word_end) chip₁
  rw [hlen] at hwrite
  rw [haccess₁.memory_eq, writeRange_splice_readRange _ hfits, hround.word_add] at haccess₂
  refine ⟨chip₂, haccess₁.trans haccess₂, ?_⟩
  rw [memWriteRound, if_pos hindex]
  simp only [hread, ok_bind, readAt_of_le hround.in_range, hsplice, hwrite, hround.next_eq]
  rfl

/-! ### The loops -/

/-- The loop of the read from any round on. -/
lemma loop_memReadRound (bus : SlaveBus) {addr index dataLen : ℕ}
    (hend : addr + dataLen ≤ 2 ^ 32 - 4) (hindex : index ≤ dataLen) {dataBuf : List UInt8}
    (hbuf : dataBuf.length = dataLen) (chip : SlaveChip) {fuel : ℕ}
    (hfuel : dataLen - index < fuel) :
    ∃ chip', chip.Accessed chip.memory chip' ∧
      loop (memReadRound bus addr dataLen) fuel ⟨index, dataBuf, chip⟩ =
        .done (splice dataBuf index (readRange chip.memory (addr + index) (dataLen - index)),
          chip') := by
  induction fuel generalizing index dataBuf chip with
  | zero => exact absurd hfuel (Nat.not_lt_zero _)
  | succ fuel ih =>
    rcases Nat.lt_or_eq_of_le hindex with hlt | rfl
    · have hround := wordAccess_spec hend hlt
      have hpos := hround.len_pos
      have hin := hround.in_range
      obtain ⟨chip₁, haccess₁, hnext⟩ := memReadRound_eq bus hend hlt hbuf chip
      generalize orderLen addr index dataLen = len at hpos hin hnext
      have hlen := length_readRange chip.memory (addr + index) len
      have hbuf₁ : (splice dataBuf index (readRange chip.memory (addr + index) len)).length =
          dataLen := by
        rw [length_splice (by omega), hbuf]
      obtain ⟨chip₂, haccess₂, hloop⟩ := ih hin hbuf₁ chip₁ (by omega)
      rw [haccess₁.memory_eq] at haccess₂ hloop
      refine ⟨chip₂, haccess₁.trans haccess₂, ?_⟩
      have hrest := length_readRange chip.memory (addr + (index + len)) (dataLen - (index + len))
      have hsplit : dataLen - index = len + (dataLen - (index + len)) := by omega
      have happend : splice (splice dataBuf index (readRange chip.memory (addr + index) len))
          (index + (readRange chip.memory (addr + index) len).length)
          (readRange chip.memory (addr + (index + len)) (dataLen - (index + len))) = _ :=
        splice_append (by omega)
      rw [hlen] at happend
      rw [loop_of_next hnext, hloop, happend, hsplit, readRange_add, Nat.add_assoc]
    · refine ⟨chip, .refl _, ?_⟩
      have hexit : memReadRound bus addr index ⟨index, dataBuf, chip⟩ =
          .ok (.inr (dataBuf, chip)) := if_neg (Nat.lt_irrefl _)
      rw [loop_of_exit hexit, Nat.sub_self]
      simp [splice, readRange]

/-- The loop of the write from any round on. -/
lemma loop_memWriteRound (bus : SlaveBus) {addr index : ℕ} {data : List UInt8}
    (hend : addr + data.length ≤ 2 ^ 32 - 4) (hindex : index ≤ data.length) (chip : SlaveChip)
    {fuel : ℕ} (hfuel : data.length - index < fuel) :
    ∃ chip', chip.Accessed (writeRange chip.memory (addr + index) (data.drop index)) chip' ∧
      loop (memWriteRound bus addr data data.length) fuel ⟨index, chip⟩ = .done chip' := by
  induction fuel generalizing index chip with
  | zero => exact absurd hfuel (Nat.not_lt_zero _)
  | succ fuel ih =>
    rcases Nat.lt_or_eq_of_le hindex with hlt | rfl
    · have hround := wordAccess_spec hend hlt
      have hpos := hround.len_pos
      have hin := hround.in_range
      obtain ⟨chip₁, haccess₁, hnext⟩ := memWriteRound_eq bus hend hlt chip
      generalize orderLen addr index data.length = len at hpos hin haccess₁ hnext
      obtain ⟨chip₂, haccess₂, hloop⟩ := ih hin chip₁ (by omega)
      have hparts : data.drop index = slice data index len ++ data.drop (index + len) := by
        rw [slice, ← List.drop_drop, List.take_append_drop]
      rw [haccess₁.memory_eq, ← Nat.add_assoc] at haccess₂
      refine ⟨chip₂, ?_, (loop_of_next hnext fuel).trans hloop⟩
      rw [hparts, writeRange_append, length_slice hin]
      exact haccess₁.trans haccess₂
    · have hexit : memWriteRound bus addr data data.length ⟨data.length, chip⟩ =
          .ok (.inr chip) := if_neg (Nat.lt_irrefl _)
      refine ⟨chip, ?_, loop_of_exit hexit fuel⟩
      rw [List.drop_length, writeRange_nil]
      exact .refl chip

/-- The loop of the read puts the bytes of the range into the buffer. -/
lemma memReadLoop_eq (bus : SlaveBus) {addr : ℕ} {dataBuf : List UInt8}
    (hend : addr + dataBuf.length ≤ 2 ^ 32 - 4) (chip : SlaveChip) {fuel : ℕ}
    (hfuel : dataBuf.length < fuel) :
    ∃ chip', chip.Accessed chip.memory chip' ∧
      memReadLoop bus fuel addr dataBuf dataBuf.length chip =
        .done (readRange chip.memory addr dataBuf.length, chip') := by
  have hrounds : dataBuf.length - 0 < fuel := hfuel
  obtain ⟨chip', haccess, hloop⟩ :=
    loop_memReadRound bus hend (Nat.zero_le _) rfl chip hrounds
  refine ⟨chip', haccess, hloop.trans ?_⟩
  rw [Nat.add_zero, Nat.sub_zero, splice_full (length_readRange _ _ _)]

/-- The loop of the write replaces the bytes of the range. -/
lemma memWriteLoop_eq (bus : SlaveBus) {addr : ℕ} {data : List UInt8}
    (hend : addr + data.length ≤ 2 ^ 32 - 4) (chip : SlaveChip) {fuel : ℕ}
    (hfuel : data.length < fuel) :
    ∃ chip', chip.Accessed (writeRange chip.memory addr data) chip' ∧
      memWriteLoop bus fuel addr data data.length chip = .done chip' :=
  loop_memWriteRound bus hend (Nat.zero_le _) chip hfuel

/-! ### The functions -/

/-- `slave_uc8x88_mem_read_data` on a chip that is there. -/
lemma slaveUc8x88MemReadData_eq (bus : SlaveBus) {chips : SlaveChips} {chipIndex : ℕ}
    (hready : chips.Ready chipIndex) {addr : ℕ} {dataBuf : List UInt8}
    (hend : addr + dataBuf.length ≤ 2 ^ 32 - 4) {fuel : ℕ} (hfuel : dataBuf.length < fuel) :
    ∃ chip', (chips chipIndex).Accessed (chips chipIndex).memory chip' ∧
      slaveUc8x88MemReadData bus fuel chipIndex addr dataBuf dataBuf.length chips =
        .done (0, readRange (chips chipIndex).memory addr dataBuf.length,
          Function.update chips chipIndex chip') := by
  rw [slaveUc8x88MemReadData, if_neg (Nat.not_le.mpr hready.index_lt), if_neg hready.exist_ne,
    if_neg (ne_false_of_eq_true hready.mutex_eq)]
  by_cases haligned : addr % 4 = 0 ∧ dataBuf.length % 4 = 0
  · obtain ⟨chip', haccess, hread⟩ := memRead_eq bus (Nat.dvd_of_mod_eq_zero haligned.1)
      (Nat.dvd_of_mod_eq_zero haligned.2) (by omega) rfl (chips chipIndex)
    refine ⟨chip', haccess, ?_⟩
    rw [if_pos haligned, hread]
    rfl
  · obtain ⟨chip', haccess, hloop⟩ := memReadLoop_eq bus hend (chips chipIndex) hfuel
    refine ⟨chip', haccess, ?_⟩
    rw [if_neg haligned, hloop]
    rfl

/-- `slave_uc8x88_mem_write_data` on a chip that is there. -/
lemma slaveUc8x88MemWriteData_eq (bus : SlaveBus) {chips : SlaveChips} {chipIndex : ℕ}
    (hready : chips.Ready chipIndex) {addr : ℕ} {data : List UInt8}
    (hend : addr + data.length ≤ 2 ^ 32 - 4) {fuel : ℕ} (hfuel : data.length < fuel) :
    ∃ chip', (chips chipIndex).Accessed (writeRange (chips chipIndex).memory addr data) chip' ∧
      slaveUc8x88MemWriteData bus fuel chipIndex addr data data.length chips =
        .done (0, Function.update chips chipIndex chip') := by
  rw [slaveUc8x88MemWriteData, if_neg (Nat.not_le.mpr hready.index_lt), if_neg hready.exist_ne,
    if_neg (ne_false_of_eq_true hready.mutex_eq)]
  by_cases haligned : addr % 4 = 0 ∧ data.length % 4 = 0
  · obtain ⟨chip', haccess, hwrite⟩ := memWrite_eq bus (Nat.dvd_of_mod_eq_zero haligned.1)
      (Nat.dvd_of_mod_eq_zero haligned.2) (by omega) (chips chipIndex)
    refine ⟨chip', haccess, ?_⟩
    rw [if_pos haligned, hwrite]
    rfl
  · obtain ⟨chip', haccess, hloop⟩ := memWriteLoop_eq bus hend (chips chipIndex) hfuel
    refine ⟨chip', haccess, ?_⟩
    rw [if_neg haligned, hloop]
    rfl

/-- An access leaves the chip there. -/
lemma SlaveChips.Ready.update {chips : SlaveChips} {chipIndex : ℕ}
    (h : chips.Ready chipIndex) {memory : ℕ → UInt8} {chip' : SlaveChip}
    (haccess : (chips chipIndex).Accessed memory chip') :
    SlaveChips.Ready (Function.update chips chipIndex chip') chipIndex := by
  obtain ⟨ts, -, rfl⟩ := haccess
  refine ⟨h.index_lt, ?_, ?_⟩
  · rw [Function.update_self]
    exact h.exist_ne
  · rw [Function.update_self]
    exact h.mutex_eq

/-- The accesses are exact, at any address and for any length whose range ends a word in front of
the end of the address space.  Both functions return after at most a round for every byte, with
aligned transfers only.  The write replaces the bytes of the range by the data, and the read returns
them and leaves the memory; so a read behind a write returns the data.  On an aligned range the
loops do what the direct transfers do. -/
theorem slave_memory_exact (bus : SlaveBus) {chips : SlaveChips} {chipIndex : ℕ}
    (hready : chips.Ready chipIndex) {addr : ℕ} {data dataBuf : List UInt8}
    (hend : addr + data.length ≤ 2 ^ 32 - 4) (hbuf : dataBuf.length = data.length) {fuel : ℕ}
    (hfuel : data.length < fuel) :
    (∃ chip', (chips chipIndex).Accessed (chips chipIndex).memory chip' ∧
      slaveUc8x88MemReadData bus fuel chipIndex addr dataBuf data.length chips =
        .done (0, readRange (chips chipIndex).memory addr data.length,
          Function.update chips chipIndex chip')) ∧
    (∃ chip' chip'', (chips chipIndex).Accessed
        (writeRange (chips chipIndex).memory addr data) chip' ∧
      slaveUc8x88MemWriteData bus fuel chipIndex addr data data.length chips =
        .done (0, Function.update chips chipIndex chip') ∧
      slaveUc8x88MemReadData bus fuel chipIndex addr dataBuf data.length
        (Function.update chips chipIndex chip') =
          .done (0, data, Function.update chips chipIndex chip'')) ∧
    (4 ∣ addr → 4 ∣ data.length → ∀ chip : SlaveChip,
      (∃ direct looped, memRead bus addr dataBuf data.length chip = .ok direct ∧
        memReadLoop bus fuel addr dataBuf data.length chip = .done looped ∧
        looped.1 = direct.1 ∧ looped.2.memory = direct.2.memory) ∧
      ∃ direct looped, memWrite bus addr data data.length chip = .ok direct ∧
        memWriteLoop bus fuel addr data data.length chip = .done looped ∧
        looped.memory = direct.memory) := by
  have hread := fun (chips : SlaveChips) (hready : chips.Ready chipIndex) =>
    slaveUc8x88MemReadData_eq bus hready (hbuf ▸ hend) (hbuf ▸ hfuel)
  rw [hbuf] at hread
  refine ⟨hread chips hready, ?_, ?_⟩
  · obtain ⟨chip', haccess, hwrite⟩ := slaveUc8x88MemWriteData_eq bus hready hend hfuel
    obtain ⟨chip'', -, hback⟩ := hread _ (hready.update haccess)
    refine ⟨chip', chip'', haccess, hwrite, ?_⟩
    rw [hback, Function.update_self, Function.update_idem, haccess.memory_eq,
      readRange_writeRange]
  · intro haddr hlen chip
    refine ⟨?_, ?_⟩
    · obtain ⟨chip₁, haccess₁, hdirect⟩ := memRead_eq bus haddr hlen (by omega) hbuf chip
      obtain ⟨chip₂, haccess₂, hloop⟩ :=
        memReadLoop_eq bus (hbuf ▸ hend) chip (hbuf ▸ hfuel)
      rw [hbuf] at hloop
      refine ⟨_, _, hdirect, hloop, rfl, ?_⟩
      exact haccess₂.memory_eq.trans haccess₁.memory_eq.symm
    · obtain ⟨chip₁, haccess₁, hdirect⟩ := memWrite_eq bus haddr hlen (by omega) chip
      obtain ⟨chip₂, haccess₂, hloop⟩ := memWriteLoop_eq bus hend chip hfuel
      refine ⟨_, _, hdirect, hloop, ?_⟩
      exact haccess₂.memory_eq.trans haccess₁.memory_eq.symm

/-- Three bytes behind the first one of a word: a part of this word. -/
theorem slave_memory_exact_unaligned :
    ∃ chips', slaveUc8x88MemWriteData exactBus 4 0 5 [1, 2, 3] 3 blankChips = .done (0, chips') ∧
      ∃ chips'', slaveUc8x88MemReadData exactBus 4 0 5 [0, 0, 0] 3 chips' =
        .done (0, [1, 2, 3], chips'') := by
  have hready : SlaveChips.Ready blankChips 0 := ⟨by decide, by decide, rfl⟩
  obtain ⟨-, ⟨chip', chip'', -, hwrite, hread⟩, -⟩ := slave_memory_exact exactBus hready
    (show 5 + [1, 2, 3].length ≤ 2 ^ 32 - 4 by decide) (show [0, 0, 0].length = 3 from rfl)
    (show 3 < 4 by decide)
  exact ⟨_, hwrite, _, hread⟩

end WiotaAp
