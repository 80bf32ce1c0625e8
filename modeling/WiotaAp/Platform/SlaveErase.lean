import WiotaAp.Platform.SlaveFlash
import WiotaAp.Platform.SlaveMemory

/-!
# Erasing the flash of a slave

`flash_erase` of `slave_uc8x88.c` erases a range of the flash sector by sector.  The first sector
comes from the address, the number of the sectors from the length alone.

`flashErase_spec` says which sectors are erased and what that leaves of the contents, and
`flash_erase_covers_iff` for which ranges they are the sectors of the range.
-/

namespace WiotaAp

open Buffers

/-! ### The functions -/

/-- `FL_ERASE_32`. -/
def flErase32 : UInt8 := 0x20

/-- `SECTOR_SIZE`. -/
def sectorSize : ℕ := 0x1000

/-- A flash, with the sectors that have been erased so far. -/
structure EraseState where
  flash : FlashState
  erased : List ℕ

/-- What the command leaves of the contents: every byte of the sector is 0xFF. -/
def eraseSector (memory : ℕ → UInt8) (sector : ℕ) : ℕ → UInt8 :=
  fun x => if x / sectorSize = sector then 0xFF else memory x

/-- `slave_uc8x88_cfg_spi_send_recv` without bytes to read.  The command `FL_ERASE_32` erases the
sector of its address, and the others are those of `spiSendRecv`. -/
def eraseSendRecv (flash : SlaveFlash) (wrBuf : List UInt8) (s : EraseState) : EraseState :=
  match wrBuf with
  | [command, high, mid, low] =>
    if command = flErase32 then
      let sector := addrOfBytes high mid low / sectorSize
      { flash :=
          { s.flash with
            memory := eraseSector s.flash.memory sector
            tick := s.flash.tick + 1 }
        erased := s.erased ++ [sector] }
    else { s with flash := (spiSendRecv flash wrBuf 0 s.flash).2 }
  | _ => { s with flash := (spiSendRecv flash wrBuf 0 s.flash).2 }

/-- `flash_erase_32`. -/
def flashErase32 (flash : SlaveFlash) (addr : ℕ) (s : EraseState) : EraseState :=
  let s := { s with flash := flashWriteDown flash (flashWriteEnable flash s.flash) }
  let s := eraseSendRecv flash (flErase32 :: addrBytes addr) s
  { s with flash := flashWriteDown flash s.flash }

/-- `erase_num`. -/
def eraseNum (fileLen : ℕ) : ℕ :=
  fileLen / sectorSize + (if fileLen % sectorSize ≠ 0 then 1 else 0)

/-- The loop over the sectors: `num` are left, from the sector `startNum + index` on. -/
def eraseSectors (flash : SlaveFlash) (startNum : ℕ) : ℕ → ℕ → EraseState → EraseState
  | 0, _, s => s
  | num + 1, index, s =>
    eraseSectors flash startNum num (index + 1)
      (flashErase32 flash ((startNum + index) * sectorSize % 2 ^ 32) s)

/-- `flash_erase`; the branch for whole blocks is never taken. -/
def flashErase (flash : SlaveFlash) (addrOffset fileLen : ℕ) (s : EraseState) : EraseState :=
  eraseSectors flash (addrOffset / sectorSize) (eraseNum fileLen) 0 s

/-- `slave_uc8x88_flash_erase` on the flash of the chip. -/
def slaveUc8x88FlashErase (flash : SlaveFlash) (chips : SlaveChips) (chipIndex : ℕ)
    (addrOffset length : ℕ) (s : EraseState) : EraseState :=
  if chipIndex ≥ slaveUc8x88MaxCount then s
  else if (chips chipIndex).exist = 0 then s
  else if (chips chipIndex).mutex = false then s
  else flashErase flash addrOffset length s

/-! ### What is erased -/

/-- The contents after some sectors have been erased. -/
def eraseAll (memory : ℕ → UInt8) (sectors : List ℕ) : ℕ → UInt8 :=
  fun x => if x / sectorSize ∈ sectors then 0xFF else memory x

/-- Nothing is erased without a sector. -/
lemma eraseAll_nil (memory : ℕ → UInt8) : eraseAll memory [] = memory := by
  funext x
  exact if_neg List.not_mem_nil

/-- One more sector. -/
lemma eraseSector_eraseAll (memory : ℕ → UInt8) (sector : ℕ) (sectors : List ℕ) :
    eraseAll (eraseSector memory sector) sectors = eraseAll memory (sector :: sectors) := by
  funext x
  unfold eraseAll eraseSector
  by_cases hmem : x / sectorSize ∈ sectors
  · rw [if_pos hmem, if_pos (List.mem_cons_of_mem _ hmem)]
  · rw [if_neg hmem]
    simp only [List.mem_cons, hmem, or_false]

/-- `flash_erase_32` erases the sector of its address. -/
lemma flashErase32_spec (flash : SlaveFlash) {sector : ℕ} (hsector : sector < 2 ^ 12)
    (s : EraseState) :
    (flashErase32 flash (sector * sectorSize) s).erased = s.erased ++ [sector] ∧
      (flashErase32 flash (sector * sectorSize) s).flash.memory =
        eraseSector s.flash.memory sector := by
  have haddr : sector * sectorSize < 2 ^ 24 := by
    unfold sectorSize
    omega
  have hdiv : sector * sectorSize / sectorSize = sector :=
    Nat.mul_div_cancel sector (show 0 < sectorSize by decide)
  have henable := waitWriteDown_quiet flash 100000 (flashWriteEnable flash s.flash)
  have hwait : (flashWriteDown flash (flashWriteEnable flash s.flash)).memory = s.flash.memory :=
    henable.memory_eq
  unfold flashErase32 eraseSendRecv addrBytes
  simp only [if_true, addrOfBytes_addrBytes haddr, hdiv, hwait, true_and]
  exact (waitWriteDown_quiet flash 100000 _).memory_eq

/-- The loop erases one sector after the other. -/
lemma eraseSectors_spec (flash : SlaveFlash) {startNum : ℕ} (num index : ℕ)
    (hend : startNum + index + num ≤ 2 ^ 12) (s : EraseState) :
    (eraseSectors flash startNum num index s).erased =
        s.erased ++ List.range' (startNum + index) num ∧
      (eraseSectors flash startNum num index s).flash.memory =
        eraseAll s.flash.memory (List.range' (startNum + index) num) := by
  induction num generalizing index s with
  | zero => simp [eraseSectors, eraseAll_nil]
  | succ num ih =>
    have hsmall : (startNum + index) * sectorSize % 2 ^ 32 = (startNum + index) * sectorSize := by
      unfold sectorSize
      omega
    obtain ⟨herased, hmemory⟩ := flashErase32_spec flash
      (show startNum + index < 2 ^ 12 by omega) s
    obtain ⟨hrest, hmemory'⟩ := ih (index + 1) (by omega)
      (flashErase32 flash ((startNum + index) * sectorSize) s)
    rw [eraseSectors, hsmall, hrest, hmemory', herased, hmemory, eraseSector_eraseAll,
      List.range'_succ, List.append_assoc, List.singleton_append, ← Nat.add_assoc]
    exact ⟨rfl, rfl⟩

/-- Some byte of the range lies in the sector. -/
def Overlaps (addrOffset length sector : ℕ) : Prop :=
  ∃ x, addrOffset ≤ x ∧ x < addrOffset + length ∧ x / sectorSize = sector

/-- The sectors of a range are those from the one of its first byte to the one of its last. -/
lemma overlaps_iff {addrOffset length sector : ℕ} :
    Overlaps addrOffset length sector ↔
      0 < length ∧ addrOffset / sectorSize ≤ sector ∧
        sector ≤ (addrOffset + length - 1) / sectorSize := by
  unfold sectorSize
  constructor
  · rintro ⟨x, hle, hlt, rfl⟩
    unfold sectorSize
    omega
  · rintro ⟨hpos, hlow, hhigh⟩
    refine ⟨max addrOffset (sector * 0x1000), le_max_left _ _, ?_, ?_⟩
    · omega
    · unfold sectorSize
      omega

/-- The sectors that are erased are sectors of the range. -/
lemma eraseNum_le (addrOffset : ℕ) {length i : ℕ} (h : i < eraseNum length) :
    0 < length ∧ addrOffset / sectorSize + i ≤ (addrOffset + length - 1) / sectorSize := by
  unfold eraseNum sectorSize at *
  split at h <;> omega

lemma overlaps_of_mem_range' {addrOffset length sector : ℕ}
    (h : sector ∈ List.range' (addrOffset / sectorSize) (eraseNum length)) :
    Overlaps addrOffset length sector := by
  obtain ⟨i, hi, rfl⟩ := List.mem_range'.mp h
  rw [one_mul]
  obtain ⟨hpos, hle⟩ := eraseNum_le addrOffset hi
  exact overlaps_iff.mpr ⟨hpos, Nat.le_add_right _ _, hle⟩

/-- They reach to the last sector of the range exactly if the rests of the address and of the length
stay in one sector. -/
lemma eraseNum_reaches_iff {addrOffset length : ℕ} (hpos : 0 < length) :
    (addrOffset + length - 1) / sectorSize < addrOffset / sectorSize + eraseNum length ↔
      addrOffset % sectorSize + (length - 1) % sectorSize < sectorSize := by
  unfold eraseNum sectorSize
  split <;> omega

/-- What `flash_erase` does to a range of the flash. -/
lemma flashErase_spec (flash : SlaveFlash) {addrOffset length : ℕ}
    (hrange : addrOffset + length ≤ 2 ^ 24) (s : EraseState) :
    (flashErase flash addrOffset length s).erased =
        s.erased ++ List.range' (addrOffset / sectorSize) (eraseNum length) ∧
      (flashErase flash addrOffset length s).flash.memory =
        eraseAll s.flash.memory (List.range' (addrOffset / sectorSize) (eraseNum length)) := by
  have hend : addrOffset / sectorSize + 0 + eraseNum length ≤ 2 ^ 12 := by
    unfold eraseNum sectorSize
    split <;> omega
  exact eraseSectors_spec flash (eraseNum length) 0 hend s

/-- The interface function erases no sector outside the range either, for any chip. -/
lemma slaveUc8x88FlashErase_overlaps (flash : SlaveFlash) (chips : SlaveChips) (chipIndex : ℕ)
    {addrOffset length : ℕ} (hrange : addrOffset + length ≤ 2 ^ 24) {s : EraseState} {sector : ℕ}
    (h : sector ∈ (slaveUc8x88FlashErase flash chips chipIndex addrOffset length s).erased) :
    sector ∈ s.erased ∨ Overlaps addrOffset length sector := by
  unfold slaveUc8x88FlashErase at h
  split at h
  · exact Or.inl h
  split at h
  · exact Or.inl h
  split at h
  · exact Or.inl h
  rw [(flashErase_spec flash hrange s).1] at h
  rcases List.mem_append.mp h with hold | hnew
  · exact Or.inl hold
  · exact Or.inr (overlaps_of_mem_range' hnew)

/-- The erased sectors.  For every range of the flash, `flash_erase` fills the sectors that it
erases, changes nothing else, and erases no sector outside the range, nor does the interface
function for any chip; it erases every sector of the range exactly if the range is empty, or its
first byte and its length leave rests that fit into one sector. -/
theorem flash_erase_covers_iff (flash : SlaveFlash) {addrOffset length : ℕ}
    (hrange : addrOffset + length ≤ 2 ^ 24) (s : EraseState) (hnew : s.erased = []) :
    (flashErase flash addrOffset length s).flash.memory =
        eraseAll s.flash.memory (flashErase flash addrOffset length s).erased ∧
      (∀ sector ∈ (flashErase flash addrOffset length s).erased,
        Overlaps addrOffset length sector) ∧
      (∀ chips chipIndex, ∀ sector ∈
          (slaveUc8x88FlashErase flash chips chipIndex addrOffset length s).erased,
        Overlaps addrOffset length sector) ∧
      ((∀ sector, Overlaps addrOffset length sector →
          sector ∈ (flashErase flash addrOffset length s).erased) ↔
        length = 0 ∨
          addrOffset % sectorSize + (length - 1) % sectorSize < sectorSize) := by
  obtain ⟨herased, hmemory⟩ := flashErase_spec flash hrange s
  rw [hnew, List.nil_append] at herased
  rw [hmemory, herased]
  refine ⟨rfl, ?_, ?_, ?_⟩
  · intro sector hsector
    exact overlaps_of_mem_range' hsector
  · intro chips chipIndex sector hsector
    have hcases := slaveUc8x88FlashErase_overlaps flash chips chipIndex hrange hsector
    rw [hnew] at hcases
    exact hcases.resolve_left List.not_mem_nil
  · constructor
    · intro hcover
      rcases Nat.eq_zero_or_pos length with hzero | hpos
      · exact Or.inl hzero
      · -- the last sector of the range is one of those that are erased
        apply Or.inr
        apply (eraseNum_reaches_iff hpos).mp
        have hlast := hcover ((addrOffset + length - 1) / sectorSize)
          (overlaps_iff.mpr ⟨hpos, Nat.div_le_div_right (by omega), le_rfl⟩)
        exact (List.mem_range'_1.mp hlast).2
    · intro hfit sector hsector
      obtain ⟨hpos, hlow, hhigh⟩ := overlaps_iff.mp hsector
      have hreach := (eraseNum_reaches_iff hpos).mpr (hfit.resolve_left hpos.ne')
      exact List.mem_range'_1.mpr ⟨hlow, lt_of_le_of_lt hhigh hreach⟩

/-- A flash that programs what it is sent and is never busy. -/
def readyFlash : SlaveFlash where
  program _ memory addr data := writeRange memory addr data
  status _ := 0
  malloc _ := true
  program_frame _ memory _ _ _ hx := writeRange_of_outside memory hx

/-- Two whole sectors: the second one is erased, too. -/
theorem flash_erase_covers_aligned :
    Overlaps 4096 8192 2 ∧
      2 ∈ (flashErase readyFlash 4096 8192 ⟨⟨fun _ => 0, [], 0⟩, []⟩).erased := by
  have hoverlaps : Overlaps 4096 8192 2 := ⟨8192, by decide, by decide, rfl⟩
  refine ⟨hoverlaps, ?_⟩
  exact (flash_erase_covers_iff readyFlash (by decide) ⟨⟨fun _ => 0, [], 0⟩, []⟩ rfl).2.2.2.mpr
    (Or.inr (by decide)) 2 hoverlaps

/-- Two bytes on both sides of a sector boundary: the second sector is not erased. -/
theorem flash_erase_misses_sector :
    Overlaps 4095 2 1 ∧ 1 ∉ (flashErase readyFlash 4095 2 ⟨⟨fun _ => 0, [], 0⟩, []⟩).erased := by
  refine ⟨⟨4096, by decide, by decide, rfl⟩, ?_⟩
  rw [(flashErase_spec readyFlash (by decide) _).1]
  decide

end WiotaAp
