import WiotaAp.Codec.FastlzBlock
import WiotaAp.Manager.Coding

/-!
# Coding and decoding of frames

`app_data_coding` puts a header with optional fields and a payload into a frame, compressed if this
makes it shorter, and `app_data_decoding` takes it apart.  The decoder accepts shorter frames and
shorter payloads than the coder produces.

`codec_roundTrip` is the round trip for payloads that the decoder can hold.  `wrongPayload_iff` says
for which payloads the decoder succeeds with a wrong one, and `decoderBounds_iff` on which frames it
reads beyond the end.
-/

namespace WiotaAp

open Buffers

/-! ### Coding -/

/-- `fastlz_compress`, which is `none` when it returns -1, and `fastlz_decompress` with a limit on
the output.  The compressor writes a control byte for every block that is not empty. -/
structure FastLz where
  compress : List UInt8 → Option (List UInt8)
  decompress : List UInt8 → ℕ → List UInt8
  compress_ne_nil : ∀ block comp, compress block = some comp → block ≠ [] → comp ≠ []
  decompress_compress : ∀ block comp, compress block = some comp →
    ∀ maxout, block.length ≤ maxout → decompress comp maxout = block

/-- The property byte. -/
def AppPsProperty.toByte (p : AppPsProperty) : UInt8 :=
  UInt8.ofNat (p.reserved.toNat + 2 * p.compressFlag.toNat + 4 * p.segmentFlag.toNat +
    8 * p.responseFlag.toNat + 16 * p.isNeedRes.toNat + 32 * p.isPacketNum.toNat +
    64 * p.isDestAddr.toNat + 128 * p.isSrcAddr.toNat)

/-- An optional field. -/
def optBytes (present : Bool) (bytes : List UInt8) : List UInt8 :=
  if present then bytes else []

/-- The bytes of a header in the frame. -/
def AppPsHeader.bytes (h : AppPsHeader) : List UInt8 :=
  [h.property.toByte] ++ (optBytes h.property.isSrcAddr (leBytes 4 h.srcAddr.toNat) ++
    (optBytes h.property.isDestAddr (leBytes 4 h.destAddr.toNat) ++
      (optBytes h.property.isPacketNum [h.packetNum] ++
        (optBytes h.property.segmentFlag [h.totalNum, h.currentNum] ++ [h.cmdType]))))

/-- `ps_header->property.compress_flag = 0`. -/
def AppPsHeader.clearCompressFlag (h : AppPsHeader) : AppPsHeader :=
  { h with property := { h.property with compressFlag := false } }

/-- `APP_MAX_CODING_DATA_LEN`. -/
def appMaxCodingDataLen : ℕ :=
  1024 - 16

/-- What `app_data_coding` comes to: the returned error, or the header as it is left and the
frame. -/
inductive Coded
  | failed (error : ℤ)
  | coded (psHeader : AppPsHeader) (outputData : List UInt8)
  deriving DecidableEq, Repr

/-- `comp_data_len`: the result -1 is the largest unsigned number. -/
def compDataLen (comp : Option (List UInt8)) : ℕ :=
  match comp with
  | none => 2 ^ 32 - 1
  | some comp => comp.length

/-- `app_data_coding`.  The compressor writes into a block of `APP_MAX_CODING_DATA_LEN` bytes. -/
def appDataCoding (compress : List UInt8 → Option (List UInt8)) (malloc : ℕ → Bool)
    (psHeader : AppPsHeader) (inputData : List UInt8) : Except Fault Coded :=
  if inputData.length > appMaxCodingDataLen then .ok (.failed (-1))
  else if malloc (16 + inputData.length) = false then .ok (.failed (-2))
  else
    let buf := psHeader.bytes
    if inputData.length ≠ 0 then
      if psHeader.property.compressFlag then
        if malloc appMaxCodingDataLen = false then .ok (.failed (-3))
        else
          let comp := compress inputData
          if (comp.getD []).length > appMaxCodingDataLen then .error .outOfBounds
          else if compDataLen comp < inputData.length then
            .ok (.coded psHeader (buf ++ comp.getD []))
          else
            -- the property byte at the front of the frame is written again
            let psHeader := psHeader.clearCompressFlag
            .ok (.coded psHeader (splice buf 0 [psHeader.property.toByte] ++ inputData))
      else .ok (.coded psHeader (buf ++ inputData))
    else .ok (.coded psHeader buf)

/-- The header a decoded one leaves in `*ps_header`, which held `old` before: a field is written
only if its flag is set. -/
def AppPsHeader.writeTo (h old : AppPsHeader) : AppPsHeader where
  property := h.property
  srcAddr := if h.property.isSrcAddr then h.srcAddr else old.srcAddr
  destAddr := if h.property.isDestAddr then h.destAddr else old.destAddr
  packetNum := if h.property.isPacketNum then h.packetNum else old.packetNum
  totalNum := if h.property.segmentFlag then h.totalNum else old.totalNum
  currentNum := if h.property.segmentFlag then h.currentNum else old.currentNum
  cmdType := h.cmdType

/-- The decoder of a device with the compression library `lz`; allocations succeed. -/
def FastLz.decode (lz : FastLz) (frame : List UInt8) : Except Fault Decoded :=
  appDataDecoding (fun comp => lz.decompress comp appMaxDecodingDataLen) (fun _ => true) frame

/-- Decoding into a header that held `old` before. -/
def FastLz.decodeInto (lz : FastLz) (old : AppPsHeader) (frame : List UInt8) :
    Except Fault Decoded :=
  match lz.decode frame with
  | .ok (.accepted header outputData) => .ok (.accepted (header.writeTo old) outputData)
  | result => result

/-- The coder of a device with the compression library `lz`; allocations succeed. -/
def FastLz.code (lz : FastLz) (psHeader : AppPsHeader) (payload : List UInt8) :
    Except Fault Coded :=
  appDataCoding lz.compress (fun _ => true) psHeader payload

/-! ### The bytes of a header -/

/-- The bit fields of a property byte are those it was made of. -/
lemma AppPsProperty.ofByte_toByte (p : AppPsProperty) :
    AppPsProperty.ofByte (leValue [p.toByte]) = p := by
  obtain ⟨b₀, b₁, b₂, b₃, b₄, b₅, b₆, b₇⟩ := p
  revert b₀ b₁ b₂ b₃ b₄ b₅ b₆ b₇
  decide

/-- The number of bytes that an optional field takes. -/
def optLen (present : Bool) (n : ℕ) : ℕ :=
  if present then n else 0

/-- The length of an optional field. -/
lemma length_optBytes (present : Bool) (bytes : List UInt8) :
    (optBytes present bytes).length = optLen present bytes.length := by
  cases present <;> rfl

/-- The number of header bytes that a property byte announces. -/
def AppPsProperty.headerLen (p : AppPsProperty) : ℕ :=
  1 + optLen p.isSrcAddr 4 + optLen p.isDestAddr 4 + optLen p.isPacketNum 1 +
    optLen p.segmentFlag 2 + 1

/-- A header takes the bytes its property byte announces. -/
lemma AppPsHeader.length_bytes (h : AppPsHeader) : h.bytes.length = h.property.headerLen := by
  unfold AppPsHeader.bytes AppPsProperty.headerLen
  simp only [List.length_append, length_optBytes, length_leBytes, List.length_cons,
    List.length_nil, Nat.zero_add, Nat.reduceAdd]
  omega

/-- A header takes between two and thirteen bytes. -/
lemma AppPsProperty.headerLen_bounds (p : AppPsProperty) : 2 ≤ p.headerLen ∧ p.headerLen ≤ 13 := by
  unfold AppPsProperty.headerLen optLen
  constructor
  · omega
  · split_ifs <;> omega

/-- The first byte of a header is its property byte; writing it again is a header with another
property that has the same fields. -/
lemma AppPsHeader.splice_bytes (h : AppPsHeader) :
    splice h.bytes 0 [h.clearCompressFlag.property.toByte] = h.clearCompressFlag.bytes := by
  unfold AppPsHeader.bytes splice
  rfl

/-- Reading a field that is there, or is not. -/
lemma readField_optBytes (present : Bool) {field pre post : List UInt8} {offset n : ℕ}
    (hoffset : offset = pre.length) (hn : n = field.length) :
    readField present (pre ++ (optBytes present field ++ post)) offset n =
      .ok (optBytes present field, (pre ++ optBytes present field).length) := by
  subst hoffset hn
  cases present with
  | false => simp [readField, optBytes]
  | true =>
    simp only [readField, optBytes, if_true]
    rw [readAt_part rfl rfl rfl, ok_bind, List.length_append]
    rfl

/-- The header `{0}`. -/
def AppPsHeader.zero : AppPsHeader :=
  ⟨AppPsProperty.ofByte 0, 0, 0, 0, 0, 0, 0⟩

/-- The value of an address field that is there, or is not. -/
lemma ofNat_optBytes (present : Bool) (addr : UInt32) :
    UInt32.ofNat (leValue (optBytes present (leBytes 4 addr.toNat))) =
      if present then addr else 0 := by
  cases present with
  | false => rfl
  | true =>
    have hlt : addr.toNat < 256 ^ 4 := addr.toNat_lt
    simp only [optBytes, if_true, leValue_leBytes_of_lt hlt, UInt32.ofNat_toNat]

/-- The value of a byte field that is there, or is not. -/
lemma ofNat_optByte (present : Bool) (byte : UInt8) :
    UInt8.ofNat (leValue (optBytes present [byte])) = if present then byte else 0 := by
  cases present with
  | false => rfl
  | true => simp [optBytes, leValue]

/-- The values of the segment fields that are there, or are not. -/
lemma ofNat_segmentInfo (present : Bool) (total current : UInt8) :
    UInt8.ofNat (leValue (slice (optBytes present [total, current]) 0 1)) =
        (if present then total else 0) ∧
      UInt8.ofNat (leValue (slice (optBytes present [total, current]) 1 1)) =
        if present then current else 0 := by
  cases present with
  | false => exact ⟨rfl, rfl⟩
  | true => exact ⟨ofNat_optByte true total, ofNat_optByte true current⟩

/-- Reading the header at the front of a frame. -/
lemma readHeader_bytes (h : AppPsHeader) (data : List UInt8) :
    readHeader (h.bytes ++ data) = .ok (h.writeTo AppPsHeader.zero, h.property.headerLen) := by
  set prop : List UInt8 := [h.property.toByte] with hprop
  set src := optBytes h.property.isSrcAddr (leBytes 4 h.srcAddr.toNat) with hsrc
  set dest := optBytes h.property.isDestAddr (leBytes 4 h.destAddr.toNat) with hdest
  set num := optBytes h.property.isPacketNum [h.packetNum] with hnum
  set seg := optBytes h.property.segmentFlag [h.totalNum, h.currentNum] with hseg
  set frame := h.bytes ++ data with hframe
  have h₀ : frame = [] ++ (prop ++ (src ++ (dest ++ (num ++ (seg ++ ([h.cmdType] ++ data)))))) := by
    simp only [hframe, AppPsHeader.bytes, hprop, hsrc, hdest, hnum, hseg, List.append_assoc,
      List.nil_append]
  -- the frame is cut at each field in turn
  have h₁ : frame = prop ++ (src ++ (dest ++ (num ++ (seg ++ ([h.cmdType] ++ data))))) := h₀
  have h₂ : frame = (prop ++ src) ++ (dest ++ (num ++ (seg ++ ([h.cmdType] ++ data)))) := by
    rw [h₁, List.append_assoc]
  have h₃ : frame = (prop ++ src ++ dest) ++ (num ++ (seg ++ ([h.cmdType] ++ data))) := by
    rw [h₂, List.append_assoc (prop ++ src)]
  have h₄ : frame = (prop ++ src ++ dest ++ num) ++ (seg ++ ([h.cmdType] ++ data)) := by
    rw [h₃, List.append_assoc (prop ++ src ++ dest)]
  have h₅ : frame = (prop ++ src ++ dest ++ num ++ seg) ++ ([h.cmdType] ++ data) := by
    rw [h₄, List.append_assoc (prop ++ src ++ dest ++ num)]
  have hread₀ : readAt frame 0 1 = .ok prop := readAt_part h₀ rfl rfl
  have hread₁ : readField h.property.isSrcAddr frame 1 4 = .ok (src, (prop ++ src).length) := by
    rw [h₁]
    exact readField_optBytes _ rfl (length_leBytes 4 _).symm
  have hread₂ : readField h.property.isDestAddr frame (prop ++ src).length 4 =
      .ok (dest, (prop ++ src ++ dest).length) := by
    rw [h₂]
    exact readField_optBytes _ rfl (length_leBytes 4 _).symm
  have hread₃ : readField h.property.isPacketNum frame (prop ++ src ++ dest).length 1 =
      .ok (num, (prop ++ src ++ dest ++ num).length) := by
    rw [h₃]
    exact readField_optBytes _ rfl rfl
  have hread₄ : readField h.property.segmentFlag frame (prop ++ src ++ dest ++ num).length 2 =
      .ok (seg, (prop ++ src ++ dest ++ num ++ seg).length) := by
    rw [h₄]
    exact readField_optBytes _ rfl rfl
  have hread₅ : readAt frame (prop ++ src ++ dest ++ num ++ seg).length 1 = .ok [h.cmdType] :=
    readAt_part h₅ rfl rfl
  have hlen : (prop ++ src ++ dest ++ num ++ seg).length + 1 = h.property.headerLen := by
    rw [← h.length_bytes, AppPsHeader.bytes]
    simp only [List.length_append, hprop, hsrc, hdest, hnum, hseg, List.length_cons,
      List.length_nil]
    omega
  have hprop' : AppPsProperty.ofByte (leValue prop) = h.property := h.property.ofByte_toByte
  unfold readHeader
  simp only [hread₀, hprop', hread₁, hread₂, hread₃, hread₄, hread₅, ok_bind, hlen]
  have hcmd : UInt8.ofNat (leValue [h.cmdType]) = h.cmdType := ofNat_optByte true h.cmdType
  obtain ⟨htotal, hcurrent⟩ :=
    ofNat_segmentInfo h.property.segmentFlag h.totalNum h.currentNum
  rw [hcmd, htotal, hcurrent, hsrc, hdest, hnum, ofNat_optBytes, ofNat_optBytes, ofNat_optByte]
  rfl

/-- A header that has been written over another is written over a third one as it was. -/
lemma AppPsHeader.writeTo_writeTo (h old old' : AppPsHeader) :
    (h.writeTo old).writeTo old' = h.writeTo old' := by
  unfold AppPsHeader.writeTo
  simp only [AppPsHeader.mk.injEq, true_and, and_true]
  refine ⟨?_, ?_, ?_, ?_, ?_⟩ <;> split <;> rfl

/-! ### The round trip -/

/-- The compression is tried and makes the payload shorter. -/
def FastLz.Shortens (lz : FastLz) (psHeader : AppPsHeader) (payload : List UInt8) : Prop :=
  payload ≠ [] ∧ psHeader.property.compressFlag = true ∧
    compDataLen (lz.compress payload) < payload.length

instance (lz : FastLz) (psHeader : AppPsHeader) (payload : List UInt8) :
    Decidable (lz.Shortens psHeader payload) :=
  inferInstanceAs (Decidable (_ ∧ _ ∧ _))

/-- The header after coding: the compress flag is cleared when the compression was tried and did not
make the payload shorter. -/
def FastLz.codedHeader (lz : FastLz) (psHeader : AppPsHeader) (payload : List UInt8) :
    AppPsHeader :=
  if payload ≠ [] ∧ ¬ lz.Shortens psHeader payload then psHeader.clearCompressFlag else psHeader

/-- The data of the frame. -/
def FastLz.codedData (lz : FastLz) (psHeader : AppPsHeader) (payload : List UInt8) : List UInt8 :=
  if lz.Shortens psHeader payload then (lz.compress payload).getD [] else payload

/-- Clearing a flag that is not set changes nothing. -/
lemma AppPsHeader.clearCompressFlag_of_not {h : AppPsHeader}
    (hflag : h.property.compressFlag ≠ true) : h.clearCompressFlag = h := by
  obtain ⟨⟨b₀, b₁, b₂, b₃, b₄, b₅, b₆, b₇⟩, src, dest, num, total, current, cmd⟩ := h
  cases b₁ with
  | false => rfl
  | true => exact absurd rfl hflag

section Coded

variable {lz : FastLz} {psHeader psHeader' : AppPsHeader} {payload frame : List UInt8}

/-- What the coder produces. -/
lemma FastLz.code_eq (hcode : lz.code psHeader payload = .ok (.coded psHeader' frame)) :
    payload.length ≤ appMaxCodingDataLen ∧ psHeader' = lz.codedHeader psHeader payload ∧
      frame = psHeader'.bytes ++ lz.codedData psHeader payload := by
  unfold FastLz.code appDataCoding at hcode
  unfold FastLz.codedHeader FastLz.codedData
  simp only [Bool.true_eq_false, if_false] at hcode
  split at hcode
  · cases hcode
  rename_i hlen
  refine ⟨Nat.not_lt.mp hlen, ?_⟩
  split at hcode
  · rename_i hne
    have hnil : payload ≠ [] := fun h => hne (by rw [h]; rfl)
    split at hcode
    · rename_i hflag
      split at hcode
      · cases hcode
      · split at hcode
        · rename_i hlt
          have hshort : lz.Shortens psHeader payload := ⟨hnil, hflag, hlt⟩
          cases hcode
          exact ⟨(if_neg fun h => h.2 hshort).symm, by rw [if_pos hshort]⟩
        · rename_i hlt
          have hshort : ¬ lz.Shortens psHeader payload := fun h => hlt h.2.2
          cases hcode
          exact ⟨(if_pos ⟨hnil, hshort⟩).symm, by rw [if_neg hshort, psHeader.splice_bytes]⟩
    · rename_i hflag
      have hshort : ¬ lz.Shortens psHeader payload := fun h => hflag h.2.1
      cases hcode
      refine ⟨?_, by rw [if_neg hshort]⟩
      rw [if_pos ⟨hnil, hshort⟩, AppPsHeader.clearCompressFlag_of_not hflag]
  · rename_i hzero
    have hnil : payload = [] := List.length_eq_zero_iff.mp (not_not.mp hzero)
    have hshort : ¬ lz.Shortens psHeader payload := fun h => h.1 hnil
    cases hcode
    exact ⟨(if_neg fun h => h.1 hnil).symm, by rw [if_neg hshort, hnil, List.append_nil]⟩

/-- A payload that gets shorter has been compressed. -/
lemma FastLz.Shortens.compress (h : lz.Shortens psHeader payload)
    (hlen : payload.length ≤ appMaxCodingDataLen) :
    ∃ comp, lz.compress payload = some comp ∧ lz.codedData psHeader payload = comp := by
  have hdata : lz.codedData psHeader payload = (lz.compress payload).getD [] := if_pos h
  have hlt := h.2.2
  cases hcomp : lz.compress payload with
  | none =>
    rw [hcomp] at hlt
    have hlimit : appMaxCodingDataLen < compDataLen none := by decide
    omega
  | some comp => exact ⟨comp, rfl, by rw [hdata, hcomp, Option.getD_some]⟩

/-- Coding a payload that gets shorter. -/
lemma FastLz.Shortens.code (h : lz.Shortens psHeader payload)
    (hlen : payload.length ≤ appMaxCodingDataLen) :
    lz.code psHeader payload =
      .ok (.coded psHeader (psHeader.bytes ++ lz.codedData psHeader payload)) := by
  obtain ⟨comp, hcomp, hdata⟩ := h.compress hlen
  obtain ⟨hnil, hflag, hlt⟩ := h
  rw [hcomp, compDataLen] at hlt
  have hfits : ¬ comp.length > appMaxCodingDataLen := by omega
  unfold FastLz.code appDataCoding
  simp only [if_neg (Nat.not_lt.mpr hlen), Bool.true_eq_false, if_false, hflag, if_true, hcomp,
    compDataLen, if_pos hlt, if_neg hfits, if_pos (mt List.length_eq_zero_iff.mp hnil), hdata,
    Option.getD_some]

/-- The data that the decoder hands out for the data of a frame. -/
def FastLz.decodedData (lz : FastLz) (psHeader : AppPsHeader) (data : List UInt8) :
    Option (List UInt8) :=
  if data = [] then none
  else if psHeader.property.compressFlag then some (lz.decompress data appMaxDecodingDataLen)
  else some data

/-- Decoding a frame that is not too long, when allocations succeed. -/
lemma appDataDecoding_bytes (decompress : List UInt8 → List UInt8) {malloc : ℕ → Bool}
    (hmalloc : ∀ n, malloc n = true) {h : AppPsHeader} {data : List UInt8}
    (hlen : (h.bytes ++ data).length ≤ appMaxDecodingDataLen) :
    appDataDecoding decompress malloc (h.bytes ++ data) =
      .ok (.accepted (h.writeTo AppPsHeader.zero)
        (if data = [] then none
          else if h.property.compressFlag then some (decompress data) else some data)) := by
  have hheader := h.property.headerLen_bounds.1
  have hsum : (h.bytes ++ data).length = h.property.headerLen + data.length := by
    rw [List.length_append, h.length_bytes]
  have hrest : slice (h.bytes ++ data) h.property.headerLen data.length = data :=
    slice_part (by rw [List.append_nil]) h.length_bytes.symm rfl
  unfold appDataDecoding
  rw [if_neg (by omega), readHeader_bytes, ok_bind]
  simp only [hsum, Nat.add_sub_cancel_left, hrest, hmalloc, Bool.true_eq_false, if_false,
    pure_eq_ok]
  by_cases hnil : data = []
  · rw [if_neg (by rw [hnil]; exact Nat.lt_irrefl 0), if_pos hnil]
  · rw [if_pos (List.length_pos_iff.mpr hnil), if_neg hnil]
    change (if h.property.compressFlag then _ else _) = _
    split <;> rfl

/-- A frame that is too long is rejected. -/
lemma appDataDecoding_of_lt (decompress : List UInt8 → List UInt8) (malloc : ℕ → Bool)
    {frame : List UInt8} (hlen : appMaxDecodingDataLen < frame.length) :
    appDataDecoding decompress malloc frame = .ok (.failed (-1)) :=
  if_pos (.inr hlen)

/-- Decoding a coded frame that is not too long. -/
lemma FastLz.decode_code (hcode : lz.code psHeader payload = .ok (.coded psHeader' frame))
    (hframe : frame.length ≤ appMaxDecodingDataLen) :
    lz.decode frame = .ok (.accepted (psHeader'.writeTo AppPsHeader.zero)
      (lz.decodedData psHeader' (lz.codedData psHeader payload))) := by
  obtain ⟨-, -, rfl⟩ := FastLz.code_eq hcode
  exact appDataDecoding_bytes _ (fun _ => rfl) hframe

/-- The data handed out for a payload that was not compressed. -/
lemma FastLz.decodedData_of_not (hshort : ¬ lz.Shortens psHeader payload) :
    lz.decodedData (lz.codedHeader psHeader payload) (lz.codedData psHeader payload) =
      if payload = [] then none else some payload := by
  have hdata : lz.codedData psHeader payload = payload := if_neg hshort
  unfold FastLz.decodedData
  rw [hdata]
  by_cases hnil : payload = []
  · rw [if_pos hnil, if_pos hnil]
  · have hheader : lz.codedHeader psHeader payload = psHeader.clearCompressFlag :=
      if_pos ⟨hnil, hshort⟩
    rw [if_neg hnil, if_neg hnil, hheader]
    rfl

/-- The data handed out for a compressed payload. -/
lemma FastLz.Shortens.decodedData (hshort : lz.Shortens psHeader payload) {comp : List UInt8}
    (hcomp : lz.compress payload = some comp) :
    lz.decodedData (lz.codedHeader psHeader payload) comp =
      some (lz.decompress comp appMaxDecodingDataLen) := by
  have hheader : lz.codedHeader psHeader payload = psHeader := if_neg fun h => h.2 hshort
  unfold FastLz.decodedData
  rw [if_neg (lz.compress_ne_nil payload comp hcomp hshort.1), hheader, if_pos hshort.2.1]

/-- The round trip: for every header and payload whose frame the decoder can hold, decoding gives
back the header as it was after coding, in every field whose flag is set, and the payload. -/
theorem codec_roundTrip (lz : FastLz) (psHeader psHeader' old : AppPsHeader)
    (payload frame : List UInt8) (hpayload : payload.length ≤ 294)
    (hcode : lz.code psHeader payload = .ok (.coded psHeader' frame))
    (hframe : frame.length ≤ 294) :
    psHeader' = lz.codedHeader psHeader payload ∧
      lz.decodeInto old frame = .ok (.accepted (psHeader'.writeTo old)
        (if payload = [] then none else some payload)) := by
  obtain ⟨hlen, hheader, -⟩ := FastLz.code_eq hcode
  refine ⟨hheader, ?_⟩
  unfold FastLz.decodeInto
  rw [FastLz.decode_code hcode hframe]
  simp only [AppPsHeader.writeTo_writeTo]
  congr 2
  subst hheader
  by_cases hshort : lz.Shortens psHeader payload
  · obtain ⟨comp, hcomp, hdata⟩ := hshort.compress hlen
    rw [hdata, hshort.decodedData hcomp, if_neg hshort.1,
      lz.decompress_compress payload comp hcomp appMaxDecodingDataLen hpayload]
  · exact FastLz.decodedData_of_not hshort

end Coded

/-- The library of the program; the allocation of its table succeeds. -/
def fastlzLibrary : FastLz where
  compress block := some (compressBlock block)
  decompress := decompressBlock
  compress_ne_nil := by
    rintro block _ ⟨⟩ hne
    exact mt compressBlock_eq_nil_iff.mp hne
  decompress_compress := by
    rintro block _ ⟨⟩ maxout hmax
    exact decompressBlock_compressBlock hmax

/-- A header with every optional field and the compress flag. -/
def fullHeader : AppPsHeader :=
  ⟨AppPsProperty.ofByte 0xE6, 0xFFFFFFF1, 7, 1, 2, 3, 40⟩

/-- Twenty zeros: two literals, a match of 15 bytes and three literals. -/
def codedZeros : List UInt8 := [1, 0, 0, 224, 6, 1, 2, 0, 0, 0]

/-- A payload of twenty zeros, compressed. -/
theorem codec_roundTrip_zeros :
    fastlzLibrary.code fullHeader (List.replicate 20 0) =
        .ok (.coded fullHeader (fullHeader.bytes ++ codedZeros)) ∧
      fullHeader = fastlzLibrary.codedHeader fullHeader (List.replicate 20 0) ∧
      fastlzLibrary.decodeInto AppPsHeader.zero (fullHeader.bytes ++ codedZeros) =
        .ok (.accepted fullHeader (some (List.replicate 20 0))) := by
  have hcode : fastlzLibrary.code fullHeader (List.replicate 20 0) =
      .ok (.coded fullHeader (fullHeader.bytes ++ codedZeros)) := by
    decide +kernel
  exact ⟨hcode, codec_roundTrip fastlzLibrary fullHeader fullHeader AppPsHeader.zero _ _
    (by decide) hcode (by decide)⟩

/-! ### Wrong payloads -/

/-- The decompression returns nothing when the output does not fit. -/
def FastLz.ShortOutputFails (lz : FastLz) : Prop :=
  ∀ block comp, lz.compress block = some comp →
    ∀ maxout < block.length, lz.decompress comp maxout = []

/-- A frame that the decoder accepts gives the payload it was made of. -/
def FastLz.NoWrongPayload (lz : FastLz) (payload frame : List UInt8) : Prop :=
  ∀ header outputData, lz.decode frame = .ok (.accepted header outputData) →
    outputData.getD [] = payload

/-- The payload is too long for the decoder, and compressed into a frame that is not. -/
def FastLz.LongInShort (lz : FastLz) (psHeader : AppPsHeader) (payload : List UInt8) : Prop :=
  psHeader.property.compressFlag = true ∧ appMaxDecodingDataLen < payload.length ∧
    psHeader.property.headerLen + compDataLen (lz.compress payload) ≤ appMaxDecodingDataLen

section Wrong

variable {lz : FastLz} {psHeader psHeader' : AppPsHeader} {payload frame : List UInt8}

/-- A long payload in a short frame was compressed, and the decoder hands out nothing for it. -/
lemma FastLz.LongInShort.decode (h : lz.LongInShort psHeader payload)
    (hfails : lz.ShortOutputFails)
    (hcode : lz.code psHeader payload = .ok (.coded psHeader' frame)) :
    ∃ header, lz.decode frame = .ok (.accepted header (some [])) := by
  obtain ⟨hflag, hlong, hle⟩ := h
  obtain ⟨hlen, rfl, hframe⟩ := FastLz.code_eq hcode
  have hnil : payload ≠ [] := List.length_pos_iff.mp (by omega)
  have hshort : lz.Shortens psHeader payload := ⟨hnil, hflag, by omega⟩
  obtain ⟨comp, hcomp, hdata⟩ := hshort.compress hlen
  have hheader : lz.codedHeader psHeader payload = psHeader := if_neg fun h => h.2 hshort
  have hsize : frame.length ≤ appMaxDecodingDataLen := by
    rw [hframe, hdata, hheader, List.length_append, psHeader.length_bytes]
    rw [hcomp] at hle
    exact hle
  rw [FastLz.decode_code hcode hsize, hdata, hshort.decodedData hcomp,
    hfails payload comp hcomp _ hlong]
  exact ⟨_, rfl⟩

/-- Every other frame is rejected or gives its payload. -/
lemma FastLz.noWrongPayload_of_not
    (hcode : lz.code psHeader payload = .ok (.coded psHeader' frame))
    (h : ¬ lz.LongInShort psHeader payload) : lz.NoWrongPayload payload frame := by
  intro header outputData hdecode
  by_cases hsize : frame.length ≤ appMaxDecodingDataLen
  · rw [FastLz.decode_code hcode hsize] at hdecode
    obtain ⟨hlen, rfl, hframe⟩ := FastLz.code_eq hcode
    cases hdecode
    by_cases hshort : lz.Shortens psHeader payload
    · obtain ⟨comp, hcomp, hdata⟩ := hshort.compress hlen
      have hheader : lz.codedHeader psHeader payload = psHeader := if_neg fun h => h.2 hshort
      have hfits : payload.length ≤ appMaxDecodingDataLen := by
        by_contra hlong
        refine h ⟨hshort.2.1, Nat.not_le.mp hlong, ?_⟩
        rw [hframe, hdata, hheader, List.length_append, psHeader.length_bytes] at hsize
        rw [hcomp]
        exact hsize
      rw [hdata, hshort.decodedData hcomp, Option.getD_some]
      exact lz.decompress_compress payload comp hcomp _ hfits
    · rw [FastLz.decodedData_of_not hshort]
      split
      · rename_i hnil
        exact hnil.symm
      · rfl
  · rw [FastLz.decode, appDataDecoding_of_lt _ _ (Nat.not_le.mp hsize)] at hdecode
    cases hdecode

/-- The decoder never succeeds with a wrong payload, except on a payload that is too long for it and
was compressed into a frame that is not. -/
theorem wrongPayload_iff (lz : FastLz) (hfails : lz.ShortOutputFails)
    (psHeader psHeader' : AppPsHeader) (payload frame : List UInt8)
    (hcode : lz.code psHeader payload = .ok (.coded psHeader' frame)) :
    lz.NoWrongPayload payload frame ↔ ¬ lz.LongInShort psHeader payload := by
  refine ⟨fun hright hlong => ?_, FastLz.noWrongPayload_of_not hcode⟩
  obtain ⟨header, hdecode⟩ := hlong.decode hfails hcode
  have hnil : [] = payload := hright header (some []) hdecode
  have hlen := hlong.2.1
  rw [← hnil] at hlen
  exact absurd hlen (Nat.not_lt_zero _)

end Wrong

/-- `fastlz_decompress` hands out nothing when the output does not fit. -/
lemma fastlzLibrary_shortOutputFails : fastlzLibrary.ShortOutputFails := by
  rintro block _ ⟨⟩ maxout hfull
  exact decompressBlock_full hfull

/-- The payload of twenty zeros is decoded as it was. -/
theorem wrongPayload_iff_zeros :
    fastlzLibrary.NoWrongPayload (List.replicate 20 0) (fullHeader.bytes ++ codedZeros) :=
  (wrongPayload_iff fastlzLibrary fastlzLibrary_shortOutputFails fullHeader fullHeader _ _
    (by decide +kernel)).mpr fun h => absurd h.2.1 (by decide)

/-- Three hundred zeros: between the literals a match of 262 bytes and one of 33. -/
def codedLong : List UInt8 := [1, 0, 0, 224, 253, 1, 224, 24, 1, 2, 0, 0, 0]

/-- Three hundred zeros are compressed into a short frame, and the decoder hands out nothing for
them. -/
theorem wrongPayload_zeros :
    fastlzLibrary.code fullHeader (List.replicate 300 0) =
        .ok (.coded fullHeader (fullHeader.bytes ++ codedLong)) ∧
      fastlzLibrary.decode (fullHeader.bytes ++ codedLong) =
        .ok (.accepted fullHeader (some [])) ∧
      ¬ fastlzLibrary.NoWrongPayload (List.replicate 300 0) (fullHeader.bytes ++ codedLong) := by
  have hcomp : compressBlock (List.replicate 300 0) = codedLong := by
    decide +kernel
  have hresult : fastlzLibrary.compress (List.replicate 300 0) = some codedLong :=
    congrArg some hcomp
  have hshort : fastlzLibrary.Shortens fullHeader (List.replicate 300 0) := by
    refine ⟨List.cons_ne_nil _ _, by decide, ?_⟩
    rw [hresult, List.length_replicate]
    decide
  have hdata : fastlzLibrary.codedData fullHeader (List.replicate 300 0) = codedLong := by
    rw [FastLz.codedData, if_pos hshort, hresult, Option.getD_some]
  have hlen : (List.replicate 300 (0 : UInt8)).length ≤ appMaxCodingDataLen := by
    rw [List.length_replicate]
    decide
  have hnone : fastlzLibrary.decompress codedLong appMaxDecodingDataLen = [] := by
    refine fastlzLibrary_shortOutputFails _ _ hresult _ ?_
    rw [List.length_replicate]
    decide
  have hdecode : fastlzLibrary.decode (fullHeader.bytes ++ codedLong) =
      .ok (.accepted fullHeader (some [])) := by
    rw [FastLz.decode, appDataDecoding_bytes _ (fun _ => rfl) (by decide), if_neg (by decide),
      if_pos (by decide), hnone]
    rfl
  refine ⟨by rw [hshort.code hlen, hdata], hdecode, fun hright => ?_⟩
  have hnil : [] = List.replicate 300 (0 : UInt8) := hright fullHeader (some []) hdecode
  cases hnil

/-! ### Truncated frames -/

/-- The length of the header that the first byte announces. -/
def announcedLen (inputData : List UInt8) : ℕ :=
  (AppPsProperty.ofByte (leValue (slice inputData 0 1))).headerLen

/-- The decoder stays inside the frame, and rejects one that is shorter than the header it
announces. -/
def DecoderBounds (decompress : List UInt8 → List UInt8) (malloc : ℕ → Bool)
    (inputData : List UInt8) : Prop :=
  (∀ fault, appDataDecoding decompress malloc inputData ≠ .error fault) ∧
    (inputData.length < announcedLen inputData →
      ∃ e, e ≠ 0 ∧ appDataDecoding decompress malloc inputData = .ok (.failed e))

/-- An optional field that lies in the frame is read. -/
lemma readField_of_le {present : Bool} {inputData : List UInt8} {offset n : ℕ}
    (h : offset + optLen present n ≤ inputData.length) :
    readField present inputData offset n =
      .ok (slice inputData offset (optLen present n), offset + optLen present n) := by
  cases present with
  | false => simp [readField, optLen]
  | true =>
    change offset + n ≤ inputData.length at h
    simp only [readField, if_true, readAt_of_le h, ok_bind]
    rfl

/-- An optional field that leaves the frame is not. -/
lemma readField_of_lt {present : Bool} {inputData : List UInt8} {offset n : ℕ}
    (hoffset : offset ≤ inputData.length) (h : inputData.length < offset + optLen present n) :
    readField present inputData offset n = .error .outOfBounds := by
  cases present with
  | false => exact absurd h (Nat.not_lt.mpr hoffset)
  | true =>
    change inputData.length < offset + n at h
    simp only [readField, if_true, readAt_of_lt h, error_bind]

/-- The header is read if the frame is as long as its first byte announces. -/
lemma readHeader_of_le {inputData : List UInt8} (hlen : announcedLen inputData ≤ inputData.length) :
    ∃ header, readHeader inputData = .ok (header, announcedLen inputData) := by
  have hpos := (AppPsProperty.ofByte (leValue (slice inputData 0 1))).headerLen_bounds.1
  have hread : readAt inputData 0 1 = .ok (slice inputData 0 1) := by
    unfold announcedLen at hlen
    exact readAt_of_le (by omega)
  unfold announcedLen at hlen ⊢
  unfold readHeader
  simp only [hread, ok_bind]
  generalize AppPsProperty.ofByte (leValue (slice inputData 0 1)) = property at hlen
  unfold AppPsProperty.headerLen at hlen ⊢
  rw [readField_of_le (by omega)]
  simp only [ok_bind]
  rw [readField_of_le (by omega)]
  simp only [ok_bind]
  rw [readField_of_le (by omega)]
  simp only [ok_bind]
  rw [readField_of_le (by omega)]
  simp only [ok_bind]
  rw [readAt_of_le (by omega), ok_bind]
  exact ⟨_, rfl⟩

/-- A shorter frame is left. -/
lemma readHeader_of_lt {inputData : List UInt8} (hpos : 0 < inputData.length)
    (hlen : inputData.length < announcedLen inputData) :
    readHeader inputData = .error .outOfBounds := by
  have hread : readAt inputData 0 1 = .ok (slice inputData 0 1) := readAt_of_le hpos
  unfold announcedLen at hlen
  unfold readHeader
  simp only [hread, ok_bind]
  generalize AppPsProperty.ofByte (leValue (slice inputData 0 1)) = property at hlen
  unfold AppPsProperty.headerLen at hlen
  -- the first field that does not fit ends the reading
  by_cases hsrc : 1 + optLen property.isSrcAddr 4 ≤ inputData.length
  · rw [readField_of_le hsrc]
    simp only [ok_bind]
    by_cases hdest : 1 + optLen property.isSrcAddr 4 + optLen property.isDestAddr 4 ≤
        inputData.length
    · rw [readField_of_le hdest]
      simp only [ok_bind]
      by_cases hnum : 1 + optLen property.isSrcAddr 4 + optLen property.isDestAddr 4 +
          optLen property.isPacketNum 1 ≤ inputData.length
      · rw [readField_of_le hnum]
        simp only [ok_bind]
        by_cases hseg : 1 + optLen property.isSrcAddr 4 + optLen property.isDestAddr 4 +
            optLen property.isPacketNum 1 + optLen property.segmentFlag 2 ≤ inputData.length
        · rw [readField_of_le hseg]
          simp only [ok_bind]
          rw [readAt_of_lt hlen, error_bind]
        · rw [readField_of_lt hnum (Nat.not_le.mp hseg), error_bind]
      · rw [readField_of_lt hdest (Nat.not_le.mp hnum), error_bind]
    · rw [readField_of_lt hsrc (Nat.not_le.mp hdest), error_bind]
  · rw [readField_of_lt hpos (Nat.not_le.mp hsrc), error_bind]

/-- The decoder stays inside the frame exactly when the frame is as long as the header that its
first byte announces. -/
theorem decoderBounds_iff (decompress : List UInt8 → List UInt8) (malloc : ℕ → Bool)
    (inputData : List UInt8) (hpos : 1 ≤ inputData.length) (hlen : inputData.length ≤ 294) :
    DecoderBounds decompress malloc inputData ↔ announcedLen inputData ≤ inputData.length := by
  have hlimit : ¬ (inputData.length = 0 ∨ inputData.length > appMaxDecodingDataLen) := by
    rintro (hzero | hlong)
    · omega
    · exact absurd hlong (Nat.not_lt.mpr hlen)
  constructor
  · rintro ⟨hok, -⟩
    by_contra hshort
    refine hok .outOfBounds ?_
    rw [appDataDecoding, if_neg hlimit, readHeader_of_lt hpos (Nat.not_le.mp hshort), error_bind]
  · intro hle
    refine ⟨fun fault hfault => ?_, fun hlt => absurd hle (Nat.not_le.mpr hlt)⟩
    obtain ⟨header, hheader⟩ := readHeader_of_le hle
    rw [appDataDecoding, if_neg hlimit, hheader, ok_bind] at hfault
    simp only [pure_eq_ok] at hfault
    split_ifs at hfault

/-- A frame of a property byte and a command stays in bounds. -/
theorem decoderBounds_iff_two : DecoderBounds id (fun _ => true) [0, 40] :=
  (decoderBounds_iff id (fun _ => true) [0, 40] (by decide) (by decide)).mpr (by decide)

/-- A frame of one byte that announces a source address: the decoder reads beyond its end. -/
theorem decoderBounds_one : ¬ DecoderBounds id (fun _ => true) [0x80] :=
  fun h => h.1 .outOfBounds (by decide)

end WiotaAp
