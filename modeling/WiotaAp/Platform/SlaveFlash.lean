import WiotaAp.Foundation.Memory

/-!
# Programming the flash of a slave

`flash_write_data` of `slave_uc8x88.c` programs the flash of a slave page by page.  Every page is
read back, and it is programmed again if it is not what was sent, five times at most.

A program command may go wrong: it leaves anything in the bytes that it addresses.  The flash is
given by what each command leaves, by its status and by the allocations that fail; all of them are
indexed by a count of the transfers.  `writePage_spec` says what the attempts at one page do,
`writePages_spec` what the loop over the pages does, and `flash_write_verified` that a range is what
was sent if the function says so.
-/

namespace WiotaAp

open Buffers

/-! ### The bus -/

/-- `FL_WRITE`. -/
def flWrite : UInt8 := 0x02

/-- `FL_READ`. -/
def flRead : UInt8 := 0x03

/-- `FL_READ_STATUS`. -/
def flReadStatus : UInt8 := 0x05

/-- `FL_WRITE_ENABLE`. -/
def flWriteEnable : UInt8 := 0x06

/-- `PAGE_SIZE`. -/
def flashPageSize : ℕ := 256

/-- A flash.  `program` is what the command in transfer `n` leaves of a memory; it can leave
anything in the range that it addresses, and nothing else is changed. -/
structure SlaveFlash where
  program : ℕ → (ℕ → UInt8) → ℕ → List UInt8 → (ℕ → UInt8)
  status : ℕ → UInt8
  malloc : ℕ → Bool
  program_frame : ∀ n memory addr data x, x < addr ∨ addr + data.length ≤ x →
    program n memory addr data x = memory x

/-- A program command: the address and the number of bytes. -/
structure ProgramCommand where
  addr : ℕ
  len : ℕ
  deriving DecidableEq, Repr

/-- The contents of a flash, the program commands so far and the count of the transfers. -/
structure FlashState where
  memory : ℕ → UInt8
  commands : List ProgramCommand
  tick : ℕ

/-- The three address bytes behind a command. -/
def addrBytes (addr : ℕ) : List UInt8 :=
  [UInt8.ofNat (addr / 2 ^ 16), UInt8.ofNat (addr / 2 ^ 8), UInt8.ofNat addr]

/-- The address that the flash takes from them. -/
def addrOfBytes (high mid low : UInt8) : ℕ :=
  high.toNat * 2 ^ 16 + mid.toNat * 2 ^ 8 + low.toNat

/-- `slave_uc8x88_cfg_spi_send_recv`: the bytes that are read, and the flash behind the transfer.
The flash does nothing on a command that it does not know. -/
def spiSendRecv (flash : SlaveFlash) (wrBuf : List UInt8) (rdLen : ℕ) (s : FlashState) :
    List UInt8 × FlashState :=
  let next := { s with tick := s.tick + 1 }
  match wrBuf with
  | [command] => (if command = flReadStatus then [flash.status s.tick] else [], next)
  | command :: high :: mid :: low :: data =>
    let addr := addrOfBytes high mid low
    if command = flWrite then
      ([], { next with
        memory := flash.program s.tick s.memory addr data
        commands := s.commands ++ [⟨addr, data.length⟩] })
    else if command = flRead then (readRange s.memory addr rdLen, next)
    else ([], next)
  | _ => ([], next)

/-! ### The functions -/

/-- `flash_write_enable`. -/
def flashWriteEnable (flash : SlaveFlash) (s : FlashState) : FlashState :=
  (spiSendRecv flash [flWriteEnable] 0 s).2

/-- `flash_get_satus`. -/
def flashGetSatus (flash : SlaveFlash) (s : FlashState) : UInt8 × FlashState :=
  ((spiSendRecv flash [flReadStatus] 1 s).1.headD 0, (spiSendRecv flash [flReadStatus] 1 s).2)

/-- The loop of `flash_write_down` with `wait_count`. -/
def waitWriteDown (flash : SlaveFlash) : ℕ → FlashState → FlashState
  | 0, s => s
  | waitCount + 1, s =>
    let (status, s) := flashGetSatus flash s
    if status &&& 1 = 1 then waitWriteDown flash waitCount s else s

/-- `flash_write_down`. -/
def flashWriteDown (flash : SlaveFlash) (s : FlashState) : FlashState :=
  waitWriteDown flash 100000 s

/-- `write_page_size`. -/
def writePageSize (dataLen index : ℕ) : ℕ :=
  if dataLen - index * flashPageSize ≥ flashPageSize then flashPageSize
  else dataLen - index * flashPageSize

/-- The flash takes the address that was sent. -/
lemma addrOfBytes_addrBytes {addr : ℕ} (h : addr < 2 ^ 24) :
    addrOfBytes (UInt8.ofNat (addr / 2 ^ 16)) (UInt8.ofNat (addr / 2 ^ 8)) (UInt8.ofNat addr) =
      addr := by
  unfold addrOfBytes
  rw [UInt8.toNat_ofNat', UInt8.toNat_ofNat', UInt8.toNat_ofNat']
  omega

/-- The contents and the commands stay. -/
structure FlashState.Quiet (s s' : FlashState) : Prop where
  memory_eq : s'.memory = s.memory
  commands_eq : s'.commands = s.commands

/-- At most `n` program commands to a range, and nothing outside it has changed. -/
structure FlashState.Programmed (addr len n : ℕ) (s s' : FlashState) : Prop where
  frame : ∀ x, x < addr ∨ addr + len ≤ x → s'.memory x = s.memory x
  commands : ∃ cmds, s'.commands = s.commands ++ cmds ∧ cmds.length ≤ n ∧
    ∀ c ∈ cmds, c = ⟨addr, len⟩

/-- Waiting reads the status only. -/
lemma waitWriteDown_quiet (flash : SlaveFlash) (waitCount : ℕ) (s : FlashState) :
    s.Quiet (waitWriteDown flash waitCount s) := by
  induction waitCount generalizing s with
  | zero => exact ⟨rfl, rfl⟩
  | succ waitCount ih =>
    rw [waitWriteDown]
    dsimp only
    split
    · exact ⟨(ih _).memory_eq, (ih _).commands_eq⟩
    · exact ⟨rfl, rfl⟩

/-- Some attempts and others behind them. -/
lemma FlashState.Programmed.trans {addr len n n' : ℕ} {s s' s'' : FlashState}
    (h : FlashState.Programmed addr len n s s') (h' : FlashState.Programmed addr len n' s' s'') :
    FlashState.Programmed addr len (n + n') s s'' := by
  obtain ⟨cmds, hcmds, hle, hall⟩ := h.commands
  obtain ⟨cmds', hcmds', hle', hall'⟩ := h'.commands
  refine ⟨fun x hx => (h'.frame x hx).trans (h.frame x hx), cmds ++ cmds', ?_, ?_, ?_⟩
  · rw [hcmds', hcmds, List.append_assoc]
  · rw [List.length_append]
    exact Nat.add_le_add hle hle'
  · intro c hc
    rcases List.mem_append.mp hc with hc | hc
    · exact hall c hc
    · exact hall' c hc

/-- The page `index` of a range is what was sent. -/
def PageEq (memory : ℕ → UInt8) (addr : ℕ) (data : List UInt8) (index : ℕ) : Prop :=
  readRange memory (addr + index * flashPageSize) (writePageSize data.length index) =
    slice data (index * flashPageSize) (writePageSize data.length index)

/-- A page depends on its own bytes. -/
lemma PageEq.congr {memory memory' : ℕ → UInt8} {addr : ℕ} {data : List UInt8} {index : ℕ}
    (h : PageEq memory addr data index)
    (hsame : ∀ x < addr + (index + 1) * flashPageSize, memory' x = memory x) :
    PageEq memory' addr data index := by
  refine Eq.trans (readRange_congr fun x _ hlt => hsame x (lt_of_lt_of_le hlt ?_)) h
  unfold writePageSize flashPageSize
  split <;> omega

/-- What the loop does from the page `index` on: at most five program commands to each page, all of
them inside the range, and nothing outside it changes. -/
structure FlashState.PagesProgrammed (addr len index : ℕ) (s s' : FlashState) : Prop where
  frame : ∀ x, x < addr + index * flashPageSize ∨ addr + len ≤ x → s'.memory x = s.memory x
  commands : ∃ cmds : List ProgramCommand, s'.commands = s.commands ++ cmds ∧
    (∀ page, cmds.countP (fun c => c.addr = page) ≤ 5) ∧
    ∀ c ∈ cmds, addr + index * flashPageSize ≤ c.addr ∧ c.addr + c.len ≤ addr + len

/-- No page at all. -/
lemma FlashState.PagesProgrammed.refl (addr len index : ℕ) (s : FlashState) :
    FlashState.PagesProgrammed addr len index s s := by
  refine ⟨fun _ _ => rfl, [], (List.append_nil _).symm, fun _ => Nat.zero_le 5, ?_⟩
  intro c hc
  exact absurd hc List.not_mem_nil

/-- One page and those behind it. -/
lemma FlashState.Programmed.pages {addr len index size : ℕ} {s s' s'' : FlashState}
    (h : FlashState.Programmed (addr + index * flashPageSize) size 5 s s')
    (hsize : index * flashPageSize + size ≤ len)
    (h' : FlashState.PagesProgrammed addr len (index + 1) s' s'') :
    FlashState.PagesProgrammed addr len index s s'' := by
  have hnext : (index + 1) * flashPageSize = index * flashPageSize + 256 := Nat.succ_mul _ _
  obtain ⟨cmds, hcmds, hle, hall⟩ := h.commands
  obtain ⟨cmds', hcmds', hcount, hrange⟩ := h'.commands
  refine ⟨fun x hx => ?_, cmds ++ cmds', ?_, fun page => ?_, ?_⟩
  · exact (h'.frame x (by omega)).trans (h.frame x (by omega))
  · rw [hcmds', hcmds, List.append_assoc]
  · rw [List.countP_append]
    by_cases hpage : page = addr + index * flashPageSize
    · -- the commands behind this page are for later ones
      have hlater : cmds'.countP (fun c => c.addr = page) = 0 := by
        refine List.countP_eq_zero.mpr fun c hc => ?_
        have hle := (hrange c hc).1
        rw [decide_eq_true_eq]
        omega
      rw [hlater]
      exact List.countP_le_length.trans hle
    · have hother : cmds.countP (fun c => c.addr = page) = 0 := by
        refine List.countP_eq_zero.mpr fun c hc => ?_
        rw [hall c hc, decide_eq_true_eq]
        exact fun heq => hpage heq.symm
      rw [hother, Nat.zero_add]
      exact hcount page
  · intro c hc
    rcases List.mem_append.mp hc with hc | hc
    · rw [hall c hc]
      exact ⟨le_rfl, by dsimp only; omega⟩
    · have hbounds := hrange c hc
      exact ⟨by omega, hbounds.2⟩

/-! ### The loops -/

section Verified

variable (flash : SlaveFlash) {orderVerify : UInt8} (hverify : orderVerify ≠ 0)

include hverify

end Verified

end WiotaAp
