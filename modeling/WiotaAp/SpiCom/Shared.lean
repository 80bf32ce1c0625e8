import WiotaAp.Foundation.LittleEndian
import WiotaAp.SpiCom.Ringbuffer

/-!
# The memory shared with the gateway

The two processors see one another's ring positions through four small records in shared memory,
each with a channel number and a CRC.  `SpiCom` collects the static variables of
`uc_wiota_spi_com.c` that the modelled functions use; the functions here publish a position of this
side or fetch one of the gateway.

`uc_wiota_crc8_calc` belongs to the radio library and is the parameter `crc8`.
-/

namespace WiotaAp

open Buffers

/-- `rb_read_state_t`: a published read position. -/
structure RbReadState where
  readIndex : Fin 32768
  readMirror : Bool
  channel : UInt8
  readCrc : UInt8
  deriving DecidableEq, Repr

/-- A read position of zeros, with a CRC of zero for channel 0. -/
def RbReadState.zero : RbReadState :=
  ⟨0, false, 0, 0⟩

/-- `rb_write_state_t`: a published write position. -/
structure RbWriteState where
  writeIndex : Fin 32768
  writeMirror : Bool
  channel : UInt8
  writeCrc : UInt8
  deriving DecidableEq, Repr

/-- The three bytes of a published position that its CRC covers: the 15-bit index with the mirror as
top bit, and the channel. -/
def stateBytes (index : Fin 32768) (mirror : Bool) (channel : UInt8) : List UInt8 :=
  leBytes 2 (index + 32768 * mirror.toNat) ++ [channel]

/-- An index in its 15-bit field. -/
def indexField (index : ℕ) : Fin 32768 :=
  Fin.ofNat 32768 index

/-- The published read position as a cursor. -/
def RbReadState.cursor (r : RbReadState) : Cursor :=
  ⟨r.readIndex, r.readMirror⟩

/-- The published write position as a cursor. -/
def RbWriteState.cursor (w : RbWriteState) : Cursor :=
  ⟨w.writeIndex, w.writeMirror⟩

/-- The static variables of `uc_wiota_spi_com.c`. -/
structure SpiCom where
  apChannelId : UInt8
  dlRb : RtRingbuffer
  dlBuf : List UInt8
  dlRbReadState : RbReadState
  dlRbWriteState : RbWriteState
  ulRb : RtRingbuffer
  ulBuf : List UInt8
  ulRbReadState : RbReadState
  ulRbWriteState : RbWriteState
  ulIrqCnt : ℕ
  gDelCnt : ℕ
  deriving DecidableEq

section Crc

variable (crc8 : List UInt8 → UInt32)

/-- The channel and CRC comparison on a fetched write state.  The computed CRC is kept in an
`unsigned short` and compared with the stored byte. -/
def WriteStateOk (channel : UInt8) (w : RbWriteState) : Prop :=
  w.channel = channel ∧
    w.writeCrc.toNat = (crc8 (stateBytes w.writeIndex w.writeMirror w.channel)).toNat % 2 ^ 16

/-- The channel and CRC comparison on a fetched read state. -/
def ReadStateOk (channel : UInt8) (r : RbReadState) : Prop :=
  r.channel = channel ∧
    r.readCrc.toNat = (crc8 (stateBytes r.readIndex r.readMirror r.channel)).toNat % 2 ^ 16

instance (channel : UInt8) (w : RbWriteState) : Decidable (WriteStateOk crc8 channel w) :=
  inferInstanceAs (Decidable (_ ∧ _))

instance (channel : UInt8) (r : RbReadState) : Decidable (ReadStateOk crc8 channel r) :=
  inferInstanceAs (Decidable (_ ∧ _))

/-- `uc_wiota_ringbuffer_get_dl_write_idx`: the state and the result, zero on success. -/
def ucWiotaRingbufferGetDlWriteIdx (s : SpiCom) : SpiCom × ℕ :=
  if s.dlRbWriteState.channel ≠ s.apChannelId then (s, 1)
  else if WriteStateOk crc8 s.apChannelId s.dlRbWriteState then
    ({ s with dlRb := s.dlRb.setWrite s.dlRbWriteState.cursor }, 0)
  else (s, 1)

/-- `uc_wiota_ringbuffer_set_dl_read_idx`. -/
def ucWiotaRingbufferSetDlReadIdx (s : SpiCom) : SpiCom :=
  let index := indexField s.dlRb.readIndex
  { s with
    dlRbReadState :=
      { readIndex := index
        readMirror := s.dlRb.readMirror
        channel := s.apChannelId
        readCrc :=
          (crc8 (stateBytes index s.dlRb.readMirror s.apChannelId)).toUInt8 } }

/-- `uc_wiota_ringbuffer_get_ul_read_idx`: the state and the result, zero on success.  The CRC is
checked up to `MAX_CHECK_CNT` times, and in the four milliseconds between the two checks the gateway
may publish anew: `retry` is what the shared memory holds then. -/
def ucWiotaRingbufferGetUlReadIdx (retry : RbReadState) (s : SpiCom) : SpiCom × ℕ :=
  if s.ulRbReadState.channel ≠ s.apChannelId then (s, 1)
  else if s.ulRbReadState.readCrc.toNat =
      (crc8 (stateBytes s.ulRbReadState.readIndex s.ulRbReadState.readMirror
        s.ulRbReadState.channel)).toNat % 2 ^ 16 then
    ({ s with ulRb := s.ulRb.setRead s.ulRbReadState.cursor }, 0)
  else if retry.readCrc.toNat =
      (crc8 (stateBytes retry.readIndex retry.readMirror retry.channel)).toNat % 2 ^ 16 then
    ({ s with ulRb := s.ulRb.setRead retry.cursor, ulRbReadState := retry }, 0)
  else ({ s with ulRbReadState := retry }, 1)

/-- `uc_wiota_ringbuffer_set_ul_write_idx`. -/
def ucWiotaRingbufferSetUlWriteIdx (s : SpiCom) : SpiCom :=
  let index := indexField s.ulRb.writeIndex
  { s with
    ulRbWriteState :=
      { writeIndex := index
        writeMirror := s.ulRb.writeMirror
        channel := s.apChannelId
        writeCrc :=
          (crc8 (stateBytes index s.ulRb.writeMirror s.apChannelId)).toUInt8 } }

/-- A write state that passes its checks is fetched. -/
lemma ucWiotaRingbufferGetDlWriteIdx_of_ok {s : SpiCom}
    (h : WriteStateOk crc8 s.apChannelId s.dlRbWriteState) :
    ucWiotaRingbufferGetDlWriteIdx crc8 s =
      ({ s with dlRb := s.dlRb.setWrite s.dlRbWriteState.cursor }, 0) := by
  rw [ucWiotaRingbufferGetDlWriteIdx, if_neg (not_not.mpr h.1), if_pos h]

end Crc

/-- `uc_wiota_enable_ul_irq`. -/
def ucWiotaEnableUlIrq (s : SpiCom) : SpiCom :=
  { s with ulIrqCnt := (s.ulIrqCnt + 1) % 2 ^ 32 }

/-- The static variables after `uc_wiota_spi_com_init` and a hand shake on `channel`. -/
def ucWiotaSpiComInit (channel : UInt8) (crc8 : List UInt8 → UInt32) : SpiCom :=
  let crc := (crc8 (stateBytes 0 false channel)).toUInt8
  { apChannelId := channel
    dlRb := (ucWiotaRingbufferInit dlRingBufferSize).1
    dlBuf := (ucWiotaRingbufferInit dlRingBufferSize).2
    dlRbReadState := ⟨0, false, channel, crc⟩
    dlRbWriteState := ⟨0, false, channel, crc⟩
    ulRb := (ucWiotaRingbufferInit ulRingBufferSize).1
    ulBuf := (ucWiotaRingbufferInit ulRingBufferSize).2
    ulRbReadState := ⟨0, false, channel, crc⟩
    ulRbWriteState := ⟨0, false, channel, crc⟩
    ulIrqCnt := 1
    gDelCnt := 0 }

end WiotaAp
