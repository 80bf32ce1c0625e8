import WiotaAp.Foundation.LittleEndian

/-!
# Decoding of the frames of the devices

`app_data_decoding` takes the header apart whose first byte says which of the optional fields
follow, and hands out the rest of the frame, decompressed if the header says so.  Every read of the
frame is checked.  The decompression is a parameter.
-/

namespace WiotaAp

open Buffers

/-- `app_ps_property_t`. -/
structure AppPsProperty where
  reserved : Bool
  compressFlag : Bool
  segmentFlag : Bool
  responseFlag : Bool
  isNeedRes : Bool
  isPacketNum : Bool
  isDestAddr : Bool
  isSrcAddr : Bool
  deriving DecidableEq, Repr

/-- The bit fields of the property byte, from the lowest bit on. -/
def AppPsProperty.ofByte (b : ℕ) : AppPsProperty where
  reserved := b.testBit 0
  compressFlag := b.testBit 1
  segmentFlag := b.testBit 2
  responseFlag := b.testBit 3
  isNeedRes := b.testBit 4
  isPacketNum := b.testBit 5
  isDestAddr := b.testBit 6
  isSrcAddr := b.testBit 7

/-- `app_ps_header_t`. -/
structure AppPsHeader where
  property : AppPsProperty
  srcAddr : UInt32
  destAddr : UInt32
  packetNum : UInt8
  totalNum : UInt8
  currentNum : UInt8
  cmdType : UInt8
  deriving DecidableEq, Repr

/-- `APP_MAX_DECODING_DATA_LEN`. -/
def appMaxDecodingDataLen : ℕ :=
  310 - 16

/-- An optional field of `n` bytes: its bytes and the offset behind it.  A field that is not there
has no bytes, and its value in the zeroed header is that of no bytes. -/
def readField (present : Bool) (inputData : List UInt8) (offset n : ℕ) :
    Except Fault (List UInt8 × ℕ) :=
  if present then do
    let bytes ← readAt inputData offset n
    return (bytes, offset + n)
  else .ok ([], offset)

/-- The header of a frame, and the offset behind it. -/
def readHeader (inputData : List UInt8) : Except Fault (AppPsHeader × ℕ) := do
  let bytes ← readAt inputData 0 1
  let property := AppPsProperty.ofByte (leValue bytes)
  let (srcAddr, offset) ← readField property.isSrcAddr inputData 1 4
  let (destAddr, offset) ← readField property.isDestAddr inputData offset 4
  let (packetNum, offset) ← readField property.isPacketNum inputData offset 1
  let (segmentInfo, offset) ← readField property.segmentFlag inputData offset 2
  let cmdType ← readAt inputData offset 1
  return ({ property := property
            srcAddr := UInt32.ofNat (leValue srcAddr)
            destAddr := UInt32.ofNat (leValue destAddr)
            packetNum := UInt8.ofNat (leValue packetNum)
            totalNum := UInt8.ofNat (leValue (slice segmentInfo 0 1))
            currentNum := UInt8.ofNat (leValue (slice segmentInfo 1 1))
            cmdType := UInt8.ofNat (leValue cmdType) }, offset + 1)

/-- What `app_data_decoding` comes to: the returned error, or the header and the data, which is
`none` when `*output_data` is not set. -/
inductive Decoded
  | failed (error : ℤ)
  | accepted (header : AppPsHeader) (outputData : Option (List UInt8))
  deriving DecidableEq, Repr

/-- `app_data_decoding`; `decompress` is `fastlz_decompress` into a buffer of
`APP_MAX_DECODING_DATA_LEN` bytes, and `malloc` says which sizes can be allocated. -/
def appDataDecoding (decompress : List UInt8 → List UInt8) (malloc : ℕ → Bool)
    (inputData : List UInt8) : Except Fault Decoded :=
  if inputData.length = 0 ∨ inputData.length > appMaxDecodingDataLen then .ok (.failed (-1))
  else do
    let (header, offset) ← readHeader inputData
    let bufLen := inputData.length - offset
    if bufLen > 0 then
      let buf := slice inputData offset bufLen
      if malloc (bufLen + 1) = false then return .failed (-2)
      else if header.property.compressFlag then
        if malloc appMaxDecodingDataLen = false then return .failed (-3)
        else return .accepted header (some (decompress buf))
      else return .accepted header (some buf)
    else return .accepted header none

/-- `app_packet_num`: the returned number and the new value of its counter. -/
def appPacketNum (packetNum : UInt8) : UInt8 × UInt8 :=
  (packetNum, packetNum + 1)

/-- The value of the counter after `n` numbers have been taken. -/
def packetNumAfter : ℕ → UInt8
  | 0 => 0
  | n + 1 => (appPacketNum (packetNumAfter n)).2

/-- The numbers are consecutive, and wrap after 255. -/
lemma packetNumAfter_eq (n : ℕ) : (packetNumAfter n).toNat = n % 256 := by
  induction n with
  | zero => rfl
  | succ n ih =>
    change (packetNumAfter n + 1).toNat = _
    rw [UInt8.toNat_add, ih, UInt8.toNat_one, Nat.mod_add_mod]

end WiotaAp
