import WiotaAp.Foundation.LittleEndian
import WiotaAp.SpiCom.Ringbuffer

/-!
# Command frames of the SPI link

`CmdHeader` is `cmd_header_t`: eight bytes, of which the first two hold the bit fields (low bits
first), the next two the length of the data and the last four a CRC over the first four.  A
`Command` is what one side wants the other to see, and `Command.frame` its bytes on the wire: the
header with its CRC and, when there is data, the data padded to a multiple of four and a CRC over
everything before it.

Both CRC functions belong to the radio library, so they are parameters: `crc32` is any function of
the bytes it is given.
-/

namespace WiotaAp

open Buffers

/-- `UC_CRC32_LEN`. -/
abbrev ucCrc32Len : ℕ := 4

/-- `sizeof(cmd_header_t)`. -/
abbrev cmdHeaderSize : ℕ := 8

/-- `cmd_header_t`. -/
@[ext]
structure CmdHeader where
  cmdType : Fin 8
  cmd : Fin 64
  channel : Fin 8
  result : Fin 2
  reserved : Fin 8
  dataLen : UInt16
  headerCrc : UInt32
  deriving DecidableEq, Repr

namespace CmdHeader

/-- The header with the given type and number, and zeros in the other fields. -/
def ofCmd (cmdType cmd : ℕ) : CmdHeader where
  cmdType := Fin.ofNat 8 cmdType
  cmd := Fin.ofNat 64 cmd
  channel := 0
  result := 0
  reserved := 0
  dataLen := 0
  headerCrc := 0

/-- A channel in its 3-bit field. -/
def channelField (channel : UInt8) : Fin 8 :=
  Fin.ofNat 8 channel.toNat

/-- `WIOTA_CMD_EXEC_SUC`. -/
def wiotaCmdExecSuc : Fin 2 := 0

/-- The halfword of the bit fields. -/
def flags (h : CmdHeader) : ℕ :=
  h.cmdType + 8 * h.cmd + 512 * h.channel + 4096 * h.result + 8192 * h.reserved

/-- The four bytes in front of the header CRC. -/
def front (h : CmdHeader) : List UInt8 :=
  leBytes 2 h.flags ++ leBytes 2 h.dataLen.toNat

/-- The eight bytes of the header. -/
def toBytes (h : CmdHeader) : List UInt8 :=
  h.front ++ leBytes 4 h.headerCrc.toNat

/-- The header stored in a run of eight bytes. -/
def ofBytes (bs : List UInt8) : CmdHeader where
  cmdType := Fin.ofNat 8 (leValue (slice bs 0 2))
  cmd := Fin.ofNat 64 (leValue (slice bs 0 2) / 8)
  channel := Fin.ofNat 8 (leValue (slice bs 0 2) / 512)
  result := Fin.ofNat 2 (leValue (slice bs 0 2) / 4096)
  reserved := Fin.ofNat 8 (leValue (slice bs 0 2) / 8192)
  dataLen := UInt16.ofNat (leValue (slice bs 2 2))
  headerCrc := UInt32.ofNat (leValue (slice bs 4 4))

@[simp] lemma length_front (h : CmdHeader) : h.front.length = 4 := by
  simp [front]

@[simp] lemma length_toBytes (h : CmdHeader) : h.toBytes.length = 8 := by
  simp [toBytes]

/-- The bit fields fill one halfword. -/
lemma flags_lt (h : CmdHeader) : h.flags < 65536 := by
  have h1 := h.cmdType.isLt
  have h2 := h.cmd.isLt
  have h3 := h.channel.isLt
  have h4 := h.result.isLt
  have h5 := h.reserved.isLt
  simp only [flags]
  omega

/-- The three parts of the stored header. -/
lemma slice_toBytes (h : CmdHeader) :
    slice h.toBytes 0 2 = leBytes 2 h.flags ∧ slice h.toBytes 2 2 = leBytes 2 h.dataLen.toNat ∧
      slice h.toBytes 4 4 = leBytes 4 h.headerCrc.toNat := by
  simp [toBytes, front, slice, leBytes]

/-- A stored header reads back. -/
@[simp] theorem ofBytes_toBytes (h : CmdHeader) : ofBytes h.toBytes = h := by
  obtain ⟨h1, h2, h3⟩ := h.slice_toBytes
  have hf : leValue (leBytes 2 h.flags) = h.flags := leValue_leBytes_of_lt h.flags_lt
  have hd : leValue (leBytes 2 h.dataLen.toNat) = h.dataLen.toNat :=
    leValue_leBytes_of_lt h.dataLen.toNat_lt
  have hc : leValue (leBytes 4 h.headerCrc.toNat) = h.headerCrc.toNat :=
    leValue_leBytes_of_lt h.headerCrc.toNat_lt
  have hsum : h.flags = h.cmdType + 8 * h.cmd + 512 * h.channel + 4096 * h.result +
      8192 * h.reserved := rfl
  have b1 := h.cmdType.isLt
  have b2 := h.cmd.isLt
  have b3 := h.channel.isLt
  have b4 := h.result.isLt
  have b5 := h.reserved.isLt
  ext
  · simp only [ofBytes, h1, hf, Fin.val_ofNat]
    omega
  · simp only [ofBytes, h1, hf, Fin.val_ofNat]
    omega
  · simp only [ofBytes, h1, hf, Fin.val_ofNat]
    omega
  · simp only [ofBytes, h1, hf, Fin.val_ofNat]
    omega
  · simp only [ofBytes, h1, hf, Fin.val_ofNat]
    omega
  · simp [ofBytes, h2, hd]
  · simp [ofBytes, h3, hc]

end CmdHeader

/-! ### CRC checks -/

section Crc

variable (crc32 : List UInt8 → UInt32)

/-- The header CRC comparison on a run of eight bytes. -/
def HeaderOk (hdr : List UInt8) : Prop :=
  leValue (slice hdr 4 4) = (crc32 (slice hdr 0 4)).toNat

/-- The data CRC comparison on a frame: its last four bytes are the CRC of the others. -/
def FrameOk (frame : List UInt8) : Prop :=
  leValue (slice frame (frame.length - 4) 4) = (crc32 (slice frame 0 (frame.length - 4))).toNat

instance (hdr : List UInt8) : Decidable (HeaderOk crc32 hdr) :=
  inferInstanceAs (Decidable (_ = _))

instance (frame : List UInt8) : Decidable (FrameOk crc32 frame) :=
  inferInstanceAs (Decidable (_ = _))

/-- The header with its CRC filled in, as both sides compute it. -/
def CmdHeader.seal (h : CmdHeader) : CmdHeader :=
  { h with headerCrc := crc32 h.front }

/-- A sealed header passes the header CRC comparison. -/
lemma headerOk_seal (h : CmdHeader) : HeaderOk crc32 (h.seal crc32).toBytes := by
  have h1 := (h.seal crc32).slice_toBytes.2.2
  have h2 : slice (h.seal crc32).toBytes 0 4 = h.front := by
    simp [CmdHeader.toBytes, CmdHeader.front, CmdHeader.flags, CmdHeader.seal, slice, leBytes]
  rw [HeaderOk, h1, h2]
  exact leValue_leBytes_of_lt (crc32 h.front).toNat_lt

end Crc

/-! ### Commands and their frames -/

/-- A command: its bit fields, its data and the bytes that pad the data to a multiple of four. -/
structure Command where
  cmdType : Fin 8
  cmd : Fin 64
  channel : Fin 8
  result : Fin 2
  reserved : Fin 8
  data : List UInt8
  padding : List UInt8
  length_lt : data.length < 2 ^ 16
  length_padded : data.length + padding.length = rtAlign data.length ringBufferAlignSize
  deriving DecidableEq

namespace Command

/-- The padding that brings `n` bytes to a multiple of four. -/
def zeroPadding (n : ℕ) : List UInt8 :=
  List.replicate (rtAlign n ringBufferAlignSize - n) 0

/-- Data with its zero padding. -/
lemma length_zeroPadding (n : ℕ) : n + (zeroPadding n).length = rtAlign n ringBufferAlignSize := by
  have h := rtAlign_bounds n
  rw [zeroPadding, List.length_replicate]
  omega

/-- The command with the given type, number and data, with zeros in the other bit fields and in the
padding. -/
def ofData (cmdType cmd : ℕ) (data : List UInt8) (h : data.length < 2 ^ 16) : Command where
  cmdType := Fin.ofNat 8 cmdType
  cmd := Fin.ofNat 64 cmd
  channel := 0
  result := 0
  reserved := 0
  data := data
  padding := zeroPadding data.length
  length_lt := h
  length_padded := length_zeroPadding data.length

variable (crc32 : List UInt8 → UInt32) (c : Command)

/-- The header of a command, with its CRC. -/
def header : CmdHeader :=
  CmdHeader.seal crc32
    { cmdType := c.cmdType, cmd := c.cmd, channel := c.channel, result := c.result,
      reserved := c.reserved, dataLen := UInt16.ofNat c.data.length, headerCrc := 0 }

/-- What follows the header: nothing, or the padded data and the CRC over header and data. -/
def body : List UInt8 :=
  if c.data = [] then []
  else c.data ++ c.padding ++
    leBytes 4 (crc32 ((c.header crc32).toBytes ++ c.data ++ c.padding)).toNat

/-- The bytes of the command on the wire. -/
def frame : List UInt8 :=
  (c.header crc32).toBytes ++ c.body crc32

/-- The length of the frame. -/
def frameLen : ℕ :=
  if c.data = [] then 8 else 8 + rtAlign c.data.length ringBufferAlignSize + 4

/-- The length field of the header is the length of the data. -/
@[simp] lemma header_dataLen : (c.header crc32).dataLen.toNat = c.data.length := by
  simp only [header, CmdHeader.seal, UInt16.toNat_ofNat']
  exact Nat.mod_eq_of_lt c.length_lt

/-- The header passes its CRC comparison. -/
lemma headerOk_header : HeaderOk crc32 (c.header crc32).toBytes :=
  headerOk_seal crc32 _

/-- The body is the frame without its header. -/
lemma length_body : (c.body crc32).length + 8 = c.frameLen := by
  have hpad := c.length_padded
  rw [body, frameLen]
  split
  · rfl
  · rw [List.length_append, List.length_append, length_leBytes]
    omega

/-- The frame has the length that the fields of the command give. -/
lemma length_frame : (c.frame crc32).length = c.frameLen := by
  rw [frame, List.length_append, CmdHeader.length_toBytes, Nat.add_comm, length_body]

/-- A frame without data is its header. -/
lemma frame_of_empty (hdata : c.data = []) :
    c.frame crc32 = (c.header crc32).toBytes ∧ c.frameLen = 8 := by
  rw [frame, body, frameLen, if_pos hdata, if_pos hdata, List.append_nil]
  exact ⟨rfl, rfl⟩

/-- A frame with data is the header, the data, the padding and the CRC over all of them. -/
lemma frame_of_data (hdata : c.data ≠ []) :
    c.frame crc32 = (c.header crc32).toBytes ++ c.data ++ c.padding ++
        leBytes 4 (crc32 ((c.header crc32).toBytes ++ c.data ++ c.padding)).toNat ∧
      c.frameLen = 8 + rtAlign c.data.length ringBufferAlignSize + 4 := by
  rw [frame, body, frameLen, if_neg hdata, if_neg hdata]
  exact ⟨by simp only [List.append_assoc], rfl⟩

/-- A frame with data passes the data CRC comparison. -/
lemma frameOk_frame (hdata : c.data ≠ []) : FrameOk crc32 (c.frame crc32) := by
  have hframe := (c.frame_of_data crc32 hdata).1
  generalize hbytes : (c.header crc32).toBytes ++ c.data ++ c.padding = bytes at hframe
  have hlen : (c.frame crc32).length - 4 = bytes.length := by simp [hframe]
  have hhead : slice (bytes ++ leBytes 4 (crc32 bytes).toNat) 0 bytes.length = bytes := by
    simp [slice]
  have htail : slice (bytes ++ leBytes 4 (crc32 bytes).toNat) bytes.length 4 =
      leBytes 4 (crc32 bytes).toNat := by
    simp [slice]
  rw [FrameOk, hlen, hframe, hhead, htail]
  exact leValue_leBytes_of_lt (crc32 bytes).toNat_lt

/-- A frame takes a multiple of four bytes, at least eight. -/
lemma frameLen_bounds : 8 ≤ c.frameLen ∧ c.frameLen % 4 = 0 := by
  have h := rtAlign_bounds c.data.length
  rw [frameLen]
  split <;> omega

/-- With data the frame is longer than its header and CRC. -/
lemma frameLen_of_data (hdata : c.data ≠ []) :
    c.frameLen = 8 + rtAlign c.data.length ringBufferAlignSize + 4 ∧ 16 ≤ c.frameLen := by
  have h := rtAlign_bounds c.data.length
  have hpos : 0 < c.data.length := List.length_pos_iff.mpr hdata
  rw [frameLen, if_neg hdata]
  omega

end Command

end WiotaAp
