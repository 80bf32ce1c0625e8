import WiotaAp.Manager.Codec
import WiotaAp.Codec.FastlzRoundTrip

/-!
# The codec of frames over FastLZ

In `Manager/Codec` the compression is a parameter of the coder and the decoder.  Here it is what
`fastlz_compress` and `fastlz_decompress` compute in the blocks that `app_data_coding` and
`app_data_decoding` allocate for them, and the round trip is that of the program as it runs:
`codec_over_fastlz`.
-/

namespace WiotaAp

open Buffers

/-- The result of `fastlz_compress`, with the block of the output. -/
def compResult (result : ℤ × List UInt8) : Option (List UInt8) :=
  if result.1 < 0 then none else some (result.2.take result.1.toNat)

/-- The compression is tried. -/
def triesCompression (psHeader : AppPsHeader) (inputData : List UInt8) : Bool :=
  decide (inputData.length ≤ appMaxCodingDataLen) && decide (inputData.length ≠ 0) &&
    psHeader.property.compressFlag

/-- `app_data_coding` with `fastlz_compress` in a zeroed block of `APP_MAX_CODING_DATA_LEN` bytes;
allocations succeed. -/
def appDataCodingRun (psHeader : AppPsHeader) (inputData : List UInt8) (fuel : ℕ) : Run Coded :=
  if triesCompression psHeader inputData then do
    let result ← fastlzCompress true inputData inputData.length
      (List.replicate appMaxCodingDataLen 0) fuel
    Run.ofExcept (appDataCoding (fun _ => compResult result) (fun _ => true) psHeader inputData)
  else Run.ofExcept (appDataCoding (fun _ => none) (fun _ => true) psHeader inputData)

/-- `app_data_decoding` with `fastlz_decompress` in a zeroed block of `APP_MAX_DECODING_DATA_LEN`
bytes.  The data has been copied into a block with one more byte, and `heap` is the memory behind
that block. -/
def appDataDecodingRun (heap inputData : List UInt8) (fuel : ℕ) : Run Decoded :=
  if inputData.length = 0 ∨ inputData.length > appMaxDecodingDataLen then .done (.failed (-1))
  else do
    let (header, offset) ← Run.ofExcept (readHeader inputData)
    let buf := inputData.drop offset
    if header.property.compressFlag = true ∧ buf ≠ [] then do
      let (ret, out) ← fastlzDecompress (buf ++ 0 :: heap) buf.length
        (List.replicate appMaxDecodingDataLen 0) appMaxDecodingDataLen fuel
      Run.ofExcept (appDataDecoding (fun _ => out.take ret) (fun _ => true) inputData)
    else Run.ofExcept (appDataDecoding (fun _ => []) (fun _ => true) inputData)

/-! ### The coder -/

/-- The coder asks for the compression of its payload only. -/
lemma appDataCoding_congr {compress compress' : List UInt8 → Option (List UInt8)}
    {psHeader : AppPsHeader} {inputData : List UInt8} (malloc : ℕ → Bool)
    (h : triesCompression psHeader inputData = true → compress inputData = compress' inputData) :
    appDataCoding compress malloc psHeader inputData =
      appDataCoding compress' malloc psHeader inputData := by
  by_cases htries : triesCompression psHeader inputData = true
  · unfold appDataCoding
    rw [h htries]
  · unfold triesCompression at htries
    simp only [Bool.and_eq_true, decide_eq_true_eq, not_and] at htries
    unfold appDataCoding
    by_cases hlen : inputData.length > appMaxCodingDataLen
    · rw [if_pos hlen, if_pos hlen]
    rw [if_neg hlen, if_neg hlen]
    by_cases hne : inputData.length ≠ 0
    · have hflag := htries ⟨Nat.not_lt.mp hlen, hne⟩
      simp only [hflag, Bool.false_eq_true, if_false]
    · simp only [if_neg hne]

/-- The compression of one payload, with its result. -/
def payloadLz (payload comp : List UInt8) (hcomp : comp ≠ []) : FastLz where
  compress block := if block = payload then some comp else none
  decompress data maxout := if data = comp ∧ payload.length ≤ maxout then payload else []
  compress_ne_nil := by
    intro block comp' hblock _
    split at hblock
    · cases hblock
      exact hcomp
    · cases hblock
  decompress_compress := by
    intro block comp' hblock maxout hmax
    split at hblock
    · rename_i heq
      subst heq
      cases hblock
      exact if_pos ⟨rfl, hmax⟩
    · cases hblock

/-- What the coder runs `fastlz_compress` for stays in its block, if the payload leaves room for the
control bytes. -/
lemma fastlzCompress_payload {payload : List UInt8} (hpos : 1 ≤ payload.length)
    (hroom : fastlzRoom payload.length ≤ appMaxCodingDataLen) :
    ∃ comp rest, Settles (fastlzCompress true payload payload.length
        (List.replicate appMaxCodingDataLen 0)) payload.length ((comp.length : ℕ), comp ++ rest) ∧
      CompressesTo payload comp := by
  have hlong : ¬ 65536 ≤ payload.length := by
    unfold fastlzRoom appMaxCodingDataLen at hroom
    omega
  obtain ⟨comp, rest, hrun, hcomp, -⟩ := fastlzCompress_compresses hpos (le_refl payload.length)
    (fun h => absurd h hlong)
    (show fastlzRoom payload.length ≤ (List.replicate appMaxCodingDataLen (0 : UInt8)).length by
      rw [List.length_replicate]; exact hroom)
  rw [List.take_length] at hcomp
  exact ⟨comp, rest, hrun, hcomp⟩

/-- The result of a run of `fastlz_compress`. -/
lemma compResult_append (comp rest : List UInt8) :
    compResult ((comp.length : ℕ), comp ++ rest) = some comp := by
  rw [compResult, if_neg (by omega), Int.toNat_natCast, List.take_left]

/-- The coder does not fail, if the compressed payload fits into its block. -/
lemma payloadLz_code {payload comp : List UInt8} (hne : comp ≠ []) {psHeader : AppPsHeader}
    (hlen : payload.length ≤ appMaxCodingDataLen)
    (hcomp : triesCompression psHeader payload = true → comp.length ≤ appMaxCodingDataLen) :
    ∃ psHeader' frame, (payloadLz payload comp hne).code psHeader payload =
      .ok (.coded psHeader' frame) := by
  have hresult : (payloadLz payload comp hne).compress payload = some comp := if_pos rfl
  unfold FastLz.code appDataCoding
  simp only [if_neg (Nat.not_lt.mpr hlen), Bool.true_eq_false, if_false, hresult,
    Option.getD_some]
  by_cases hzero : payload.length ≠ 0
  · rw [if_pos hzero]
    by_cases hflag : psHeader.property.compressFlag = true
    · have htries : triesCompression psHeader payload = true := by
        unfold triesCompression
        rw [decide_eq_true hlen, decide_eq_true hzero, hflag]
        rfl
      rw [if_pos hflag, if_neg (Nat.not_lt.mpr (hcomp htries))]
      split
      · exact ⟨_, _, rfl⟩
      · exact ⟨_, _, rfl⟩
    · rw [if_neg hflag]
      exact ⟨_, _, rfl⟩
  · rw [if_neg hzero]
    exact ⟨_, _, rfl⟩

/-- The coder over FastLZ is that over a library that knows its payload. -/
lemma appDataCodingRun_eq (psHeader : AppPsHeader) {payload : List UInt8}
    (hroom : fastlzRoom payload.length ≤ appMaxCodingDataLen) :
    ∃ (comp : List UInt8) (hne : comp ≠ []),
      (triesCompression psHeader payload = true → CompressesTo payload comp) ∧
      ∀ coded, (payloadLz payload comp hne).code psHeader payload = .ok coded →
        Terminates (appDataCodingRun psHeader payload) coded := by
  by_cases htries : triesCompression psHeader payload = true
  · have hpos : 1 ≤ payload.length := by
      unfold triesCompression at htries
      simp only [Bool.and_eq_true, decide_eq_true_eq] at htries
      omega
    obtain ⟨comp, rest, hrun, hcomp⟩ := fastlzCompress_payload hpos hroom
    refine ⟨comp, hcomp.ne_nil, fun _ => hcomp, fun coded hcode =>
      ⟨payload.length, fun fuel hfuel => ?_⟩⟩
    have hcoding : appDataCoding (fun _ => compResult ((comp.length : ℕ), comp ++ rest))
        (fun _ => true) psHeader payload = .ok coded := by
      rw [← hcode, FastLz.code]
      refine appDataCoding_congr _ fun _ => ?_
      rw [compResult_append]
      exact (if_pos rfl).symm
    rw [appDataCodingRun, if_pos htries, hrun fuel hfuel, Run.done_bind, hcoding]
    rfl
  · refine ⟨[0], List.cons_ne_nil 0 [], fun h => absurd h htries, fun coded hcode =>
      ⟨0, fun fuel _ => ?_⟩⟩
    have hcoding : appDataCoding (fun _ => none) (fun _ => true) psHeader payload = .ok coded := by
      rw [← hcode, FastLz.code]
      exact appDataCoding_congr _ fun h => absurd h htries
    rw [appDataCodingRun, if_neg htries, hcoding]
    rfl

/-! ### The decoder -/

section Decoder

variable {header : AppPsHeader} {data : List UInt8}

/-- The decoder over FastLZ behind the header of a frame that is not too long. -/
lemma appDataDecodingRun_bytes (heap : List UInt8) (fuel : ℕ)
    (hlen : (header.bytes ++ data).length ≤ appMaxDecodingDataLen) :
    appDataDecodingRun heap (header.bytes ++ data) fuel =
      if header.property.compressFlag = true ∧ data ≠ [] then do
        let (ret, out) ← fastlzDecompress (data ++ 0 :: heap) data.length
          (List.replicate appMaxDecodingDataLen 0) appMaxDecodingDataLen fuel
        Run.ofExcept (appDataDecoding (fun _ => out.take ret) (fun _ => true)
          (header.bytes ++ data))
      else Run.ofExcept (appDataDecoding (fun _ => []) (fun _ => true) (header.bytes ++ data)) := by
  have hheader := header.property.headerLen_bounds.1
  have hsum : (header.bytes ++ data).length = header.property.headerLen + data.length := by
    rw [List.length_append, header.length_bytes]
  have hdrop : (header.bytes ++ data).drop header.property.headerLen = data := by
    rw [← header.length_bytes, List.drop_left]
  rw [appDataDecodingRun, if_neg (by omega), readHeader_bytes]
  change (if header.property.compressFlag = true ∧
    (header.bytes ++ data).drop header.property.headerLen ≠ [] then _ else _) = _
  rw [hdrop]

/-- Data that is not compressed, or is not there. -/
lemma appDataDecodingRun_plain (heap : List UInt8)
    (hplain : header.property.compressFlag = true → data = [])
    (hlen : (header.bytes ++ data).length ≤ appMaxDecodingDataLen) :
    Terminates (appDataDecodingRun heap (header.bytes ++ data))
      (.accepted (header.writeTo AppPsHeader.zero) (if data = [] then none else some data)) := by
  refine ⟨0, fun fuel _ => ?_⟩
  rw [appDataDecodingRun_bytes heap fuel hlen, if_neg fun h => h.2 (hplain h.1),
    appDataDecoding_bytes _ (fun _ => rfl) hlen]
  by_cases hnil : data = []
  · rw [if_pos hnil, if_pos hnil]
    rfl
  · rw [if_neg hnil, if_neg hnil, if_neg fun h => hnil (hplain h)]
    rfl

/-- Data that is compressed. -/
lemma appDataDecodingRun_compressed (heap : List UInt8) {payload : List UInt8}
    (hflag : header.property.compressFlag = true) (hcomp : CompressesTo payload data)
    (hpayload : payload.length ≤ appMaxDecodingDataLen)
    (hlen : (header.bytes ++ data).length ≤ appMaxDecodingDataLen) :
    Terminates (appDataDecodingRun heap (header.bytes ++ data))
      (.accepted (header.writeTo AppPsHeader.zero) (some payload)) := by
  obtain ⟨hne, -, hback, -⟩ := hcomp
  have hrun := hback (0 :: heap) (List.replicate appMaxDecodingDataLen 0)
    appMaxDecodingDataLen hpayload (Nat.le_of_eq List.length_replicate.symm)
  refine ⟨data.length, fun fuel hfuel => ?_⟩
  rw [appDataDecodingRun_bytes heap fuel hlen, if_pos ⟨hflag, hne⟩, hrun fuel hfuel,
    Run.done_bind]
  dsimp only
  rw [appDataDecoding_bytes _ (fun _ => rfl) hlen, if_neg hne, if_pos hflag, List.take_left]
  rfl

end Decoder

/-- The codec with the compression as it runs: for every header and every payload that the decoder
can hold, the coder comes to an end inside its blocks, and the decoder turns a frame that is not too
long back into the fields of the header whose flag is set and the payload, whatever stands in the
memory behind its block. -/
theorem codec_over_fastlz (psHeader : AppPsHeader) {payload : List UInt8}
    (hpayload : payload.length ≤ appMaxDecodingDataLen) :
    ∃ psHeader' frame, Terminates (appDataCodingRun psHeader payload) (.coded psHeader' frame) ∧
      (psHeader' = psHeader ∨ psHeader' = psHeader.clearCompressFlag) ∧
      ∀ heap, frame.length ≤ appMaxDecodingDataLen →
        Terminates (appDataDecodingRun heap frame) (.accepted (psHeader'.writeTo AppPsHeader.zero)
          (if payload = [] then none else some payload)) := by
  have hmax : appMaxDecodingDataLen = 294 := rfl
  have hroom : fastlzRoom payload.length ≤ appMaxCodingDataLen := by
    unfold fastlzRoom appMaxCodingDataLen
    omega
  have hlen : payload.length ≤ appMaxCodingDataLen := by
    unfold fastlzRoom at hroom
    omega
  obtain ⟨comp, hne, hcomp, hrun⟩ := appDataCodingRun_eq psHeader hroom
  obtain ⟨psHeader', frame, hcode⟩ := payloadLz_code hne hlen fun htries => by
    have hsize := (hcomp htries).length_le
    unfold appMaxCodingDataLen
    omega
  obtain ⟨-, hheader, hframe⟩ := FastLz.code_eq hcode
  refine ⟨psHeader', frame, hrun _ hcode, ?_, fun heap hsize => ?_⟩
  · rw [hheader, FastLz.codedHeader]
    split
    · exact .inr rfl
    · exact .inl rfl
  · subst hframe
    by_cases hshort : (payloadLz payload comp hne).Shortens psHeader payload
    · -- the frame holds the compressed payload
      have hsame : psHeader' = psHeader := hheader.trans (if_neg fun h => h.2 hshort)
      have htries : triesCompression psHeader payload = true := by
        unfold triesCompression
        rw [decide_eq_true hlen, decide_eq_true (mt List.length_eq_zero_iff.mp hshort.1),
          hshort.2.1]
        rfl
      have hdata : (payloadLz payload comp hne).codedData psHeader payload = comp := by
        obtain ⟨comp', hcomp', hdata⟩ := hshort.compress hlen
        have hresult : (payloadLz payload comp hne).compress payload = some comp := if_pos rfl
        rw [hdata]
        exact Option.some.inj (hcomp'.symm.trans hresult)
      rw [hdata, hsame] at hsize ⊢
      rw [if_neg hshort.1]
      exact appDataDecodingRun_compressed heap hshort.2.1 (hcomp htries) hpayload hsize
    · have hdata : (payloadLz payload comp hne).codedData psHeader payload = payload :=
        if_neg hshort
      rw [hdata] at hsize ⊢
      refine appDataDecodingRun_plain heap (fun hflag => ?_) hsize
      by_contra hnil
      rw [hheader, FastLz.codedHeader, if_pos ⟨hnil, hshort⟩] at hflag
      cases hflag

/-- Fifty equal bytes with every optional field. -/
theorem codec_over_fastlz_run :
    ∃ psHeader' frame, Terminates (appDataCodingRun fullHeader (List.replicate 50 7))
        (.coded psHeader' frame) ∧
      (psHeader' = fullHeader ∨ psHeader' = fullHeader.clearCompressFlag) ∧
      ∀ heap, frame.length ≤ appMaxDecodingDataLen →
        Terminates (appDataDecodingRun heap frame) (.accepted (psHeader'.writeTo AppPsHeader.zero)
          (if List.replicate 50 (7 : UInt8) = [] then none else some (List.replicate 50 7))) :=
  codec_over_fastlz fullHeader (by decide)

end WiotaAp
