import WiotaAp.Codec.FastlzEncode
import WiotaAp.Codec.FastlzSafety

/-!
# The round trip of FastLZ

What `fastlz_compress` makes of a text, `fastlz_decompress` turns back into the text
(`fastlz_round_trip`), whatever stands in the memory behind the compressed bytes and in the memory
of the output.  For arbitrary bytes `fastlz_decompress_confined` says what is left of this: the
output is not left, and nothing that was in it before is handed out.
-/

namespace WiotaAp

open Buffers

/-- The control byte with the marker of level 2. -/
lemma toNat_marker {c : ℕ} (hc : c < 32) : (UInt8.ofNat c ||| 32).toNat = 32 + c := by
  interval_cases c <;> rfl

/-- The number of a level in the first byte of a block. -/
def FastlzLevel.number : FastlzLevel → ℕ
  | .one => 1
  | .two => 2

/-- `fastlz_decompress` of a block with the level of one of the decompressors. -/
lemma fastlzDecompress_of_level {level : FastlzLevel} {magic : UInt8}
    (h : magic.toNat / 32 + 1 = level.number) (rest : List UInt8) (length maxout : ℕ)
    (output : List UInt8) :
    fastlzDecompress (magic :: rest) length output maxout =
      fastlzDecompressor level (magic :: rest) length output maxout := by
  funext fuel
  have hbyte : byteAt (magic :: rest) 0 = .ok magic := rfl
  rw [fastlzDecompress, hbyte]
  change (if magic.toNat / 32 + 1 = 1 then _ else _) = _
  rw [h]
  cases level with
  | one => rfl
  | two => rfl

/-- `fastlz_decompress` refuses a block with another level. -/
lemma fastlzDecompress_of_not_level {magic : UInt8}
    (h : ∀ level : FastlzLevel, magic.toNat / 32 + 1 ≠ level.number) (rest : List UInt8)
    (length maxout : ℕ) (output : List UInt8) (fuel : ℕ) :
    fastlzDecompress (magic :: rest) length output maxout fuel = .done (0, output) := by
  have hbyte : byteAt (magic :: rest) 0 = .ok magic := rfl
  rw [fastlzDecompress, hbyte]
  exact (if_neg (h .one)).trans (if_neg (h .two))

/-- The first byte of a marked code: the level in the upper bits, and the control byte. -/
lemma marked_literals (level : FastlzLevel) {cells : List UInt8} (rest : List UInt8)
    (h : Encodable level (.literals cells)) :
    ∃ magic, marked level (tokenBytes level (.literals cells) ++ rest) =
        magic :: (cells ++ rest) ∧
      magic.toNat % 32 = (UInt8.ofNat (cells.length - 1)).toNat ∧
      magic.toNat / 32 + 1 = level.number := by
  obtain ⟨hpos, hcopy⟩ := h
  unfold fastlzMaxCopy at hcopy
  have hbyte : (UInt8.ofNat (cells.length - 1)).toNat = cells.length - 1 :=
    toNat_ofNat_byte (by omega)
  cases level with
  | one =>
    refine ⟨_, rfl, ?_, ?_⟩
    · rw [hbyte]
      omega
    · rw [hbyte, FastlzLevel.number]
      omega
  | two =>
    refine ⟨_, rfl, ?_, ?_⟩
    · rw [hbyte, toNat_marker (by omega)]
      omega
    · rw [toNat_marker (by omega), FastlzLevel.number]
      omega

/-- Every token has a byte. -/
lemma length_le_encodeTokens {level : FastlzLevel} {toks : List (LzToken UInt8)}
    (henc : ∀ tok ∈ toks, Encodable level tok) :
    toks.length ≤ (encodeTokens level toks).length := by
  induction toks with
  | nil => exact Nat.zero_le _
  | cons tok toks ih =>
    obtain ⟨ctrl, operands, hparts⟩ := exists_tokenParts (henc tok List.mem_cons_self)
    have hrest := ih fun t ht => henc t (List.mem_cons_of_mem tok ht)
    rw [encodeTokens_cons, hparts, List.length_append, List.length_cons, List.length_cons]
    omega

/-- `fastlz_decompress` of the marked code of tokens is the loop over them; the first control byte
has been read. -/
lemma fastlzDecompress_marked (level : FastlzLevel) {cells : List UInt8}
    (henc : Encodable level (.literals cells)) (toks : List (LzToken UInt8))
    (tail output : List UInt8) (maxout fuel : ℕ) :
    ∃ magic, fastlzDecompress (marked level (encodeTokens level (.literals cells :: toks)) ++ tail)
        (encodeTokens level (.literals cells :: toks)).length output maxout fuel =
      loop (decompressRound level ([magic] ++ (cells ++ (encodeTokens level toks ++ tail)))
        ([magic].length + cells.length + (encodeTokens level toks).length) maxout) fuel
        ⟨[magic].length, 0, (UInt8.ofNat (cells.length - 1)).toNat, output⟩ := by
  obtain ⟨magic, hmarked, hctrl, hlevel⟩ := marked_literals level (encodeTokens level toks) henc
  have hbytes : marked level (encodeTokens level (.literals cells :: toks)) ++ tail =
      [magic] ++ (cells ++ (encodeTokens level toks ++ tail)) := by
    rw [encodeTokens_cons, hmarked, List.cons_append, List.append_assoc]
    rfl
  have hcount : (encodeTokens level (.literals cells :: toks)).length =
      [magic].length + cells.length + (encodeTokens level toks).length := by
    rw [encodeTokens_cons, tokenBytes, List.length_append, List.length_cons, List.length_singleton]
    omega
  have hbyte : byteAt ([magic] ++ (cells ++ (encodeTokens level toks ++ tail))) 0 = .ok magic := rfl
  refine ⟨magic, ?_⟩
  rw [hbytes, hcount, List.singleton_append, fastlzDecompress_of_level hlevel, fastlzDecompressor,
    ← List.singleton_append, hbyte, ← hctrl]
  rfl

section Tokens

variable {level : FastlzLevel} {text : List UInt8} {length maxout : ℕ}
  {toks : List (LzToken UInt8)} {output : List UInt8}

/-- The rounds for tokens that begin with literals: the literals take two bytes. -/
lemma rounds_le {cells : List UInt8}
    (henc : ∀ tok ∈ LzToken.literals cells :: toks, Encodable level tok) :
    toks.length + 1 ≤ (encodeTokens level (.literals cells :: toks)).length := by
  have hle := length_le_encodeTokens fun t ht => henc t (List.mem_cons_of_mem _ ht)
  have hcells := (henc _ List.mem_cons_self).1
  rw [encodeTokens_cons, tokenBytes, List.length_append, List.length_cons]
  omega

/-- The decompressor puts back the text of a list of tokens, for any memory behind the code and any
memory of the output. -/
theorem decompress_tokens (henc : ∀ tok ∈ toks, Encodable level tok)
    (hstarts : StartsLiteral toks) (hcov : Covers text 0 toks length)
    (hlen : length ≤ text.length) (hmax : length ≤ maxout) (hout : maxout ≤ output.length)
    (tail : List UInt8) :
    Settles (fastlzDecompress (marked level (encodeTokens level toks) ++ tail)
      (encodeTokens level toks).length output maxout) (encodeTokens level toks).length
      (length, text.take length ++ output.drop length) := by
  obtain ⟨cells, toks, rfl⟩ := hstarts
  intro fuel hfuel
  obtain ⟨n, rfl⟩ := Nat.exists_eq_add_of_le' ((rounds_le henc).trans hfuel)
  obtain ⟨magic, hrun⟩ := fastlzDecompress_marked level (henc _ List.mem_cons_self) toks tail
    output maxout (n + (toks.length + 1))
  have hroom : (output.take length).length + 0 = length := by
    rw [List.length_take]
    omega
  have hloop := loop_tokens hlen hmax toks [magic] tail (output.drop length) henc rfl hcov hroom n
  rw [List.take_zero, List.nil_append, List.take_append_drop] at hloop
  exact hrun.trans hloop

/-- The decompressor returns 0 for tokens that do not fit the output. -/
theorem decompress_tokens_full (henc : ∀ tok ∈ toks, Encodable level tok)
    (hstarts : StartsLiteral toks) (hcov : Covers text 0 toks length)
    (hlen : length ≤ text.length) (hfull : maxout < length) (hout : maxout ≤ output.length)
    (tail : List UInt8) {fuel : ℕ} (hfuel : (encodeTokens level toks).length ≤ fuel) :
    ∃ output', fastlzDecompress (marked level (encodeTokens level toks) ++ tail)
      (encodeTokens level toks).length output maxout fuel = .done (0, output') := by
  obtain ⟨cells, toks, rfl⟩ := hstarts
  obtain ⟨n, rfl⟩ := Nat.exists_eq_add_of_le' ((rounds_le henc).trans hfuel)
  obtain ⟨magic, hrun⟩ := fastlzDecompress_marked level (henc _ List.mem_cons_self) toks tail
    output maxout (n + (toks.length + 1))
  obtain ⟨output', hloop⟩ := loop_tokens_full hlen hfull toks [magic] tail henc rfl hcov hout n
  exact ⟨output', hrun.trans hloop⟩

end Tokens

/-- A text of less than four bytes becomes one token for literals, without a marker. -/
lemma compressor_short (level : FastlzLevel) {input output : List UInt8} {length : ℕ}
    (hpos : 1 ≤ length) (h4 : length < 4) (hlen : length ≤ input.length)
    (hroom : fastlzRoom length ≤ output.length) (fuel : ℕ) :
    fastlzCompressor level true input length output fuel =
      .done (((encodeTokens .one [.literals (input.take length)]).length : ℕ),
        marked .one (encodeTokens .one [.literals (input.take length)]) ++
          output.drop (length + 1)) := by
  have htake : (input.take length).length = length := by
    rw [List.length_take]
    omega
  unfold fastlzRoom at hroom
  have hread : readAt input 0 length = .ok (input.take length) :=
    @readAt_part _ _ [] (input.take length) (input.drop length) 0 length
      (List.take_append_drop length input).symm rfl htake.symm
  have hwrite : writeAt output 0 (UInt8.ofNat (length - 1) :: input.take length) =
      .ok (UInt8.ofNat (length - 1) :: input.take length ++ output.drop (length + 1)) := by
    have hparts : output = [] ++ (output.take (length + 1) ++ output.drop (length + 1)) :=
      (List.take_append_drop (length + 1) output).symm
    refine writeAt_part hparts rfl ?_
    rw [List.length_take, List.length_cons, htake]
    omega
  have hcode : encodeTokens .one [.literals (input.take length)] =
      UInt8.ofNat (length - 1) :: input.take length := by
    rw [encodeTokens_cons, encodeTokens_nil, List.append_nil, tokenBytes, htake]
  rw [fastlzCompressor, if_neg (by decide), if_pos h4, if_pos (by omega), hread, ok_bind, hwrite,
    ok_bind, hcode, List.length_cons, htake]
  rfl

/-- A compressed text: a code that is not much longer, and decompresses to it if it fits the
output. -/
structure CompressesTo (text comp : List UInt8) : Prop where
  ne_nil : comp ≠ []
  length_le : comp.length ≤ text.length + (text.length + 31) / 32
  decompress : ∀ (tail output : List UInt8) (maxout : ℕ), text.length ≤ maxout →
    maxout ≤ output.length →
      Settles (fastlzDecompress (comp ++ tail) comp.length output maxout) comp.length
        (text.length, text ++ output.drop text.length)
  full : ∀ (tail output : List UInt8) (maxout fuel : ℕ), maxout < text.length →
    maxout ≤ output.length → comp.length ≤ fuel →
      ∃ output', fastlzDecompress (comp ++ tail) comp.length output maxout fuel =
        .done (0, output')

/-- The code of tokens that cover a text is a compressed text. -/
lemma compressesTo_of_covers {level : FastlzLevel} {input : List UInt8} {length : ℕ}
    {toks : List (LzToken UInt8)} (henc : ∀ tok ∈ toks, Encodable level tok)
    (hstarts : StartsLiteral toks) (hcov : Covers input 0 toks length)
    (hlen : length ≤ input.length)
    (hsize : (encodeTokens level toks).length ≤ length + (length + 31) / 32) :
    CompressesTo (input.take length) (marked level (encodeTokens level toks)) := by
  have htake : (input.take length).length = length := by
    rw [List.length_take]
    omega
  refine ⟨?_, ?_, fun tail output maxout hmax hout => ?_,
    fun tail output maxout fuel hfull hout hfuel => ?_⟩
  · obtain ⟨cells, toks, rfl⟩ := hstarts
    refine List.ne_nil_of_length_pos ?_
    rw [length_marked, encodeTokens_cons, tokenBytes, List.cons_append, List.length_cons]
    exact Nat.succ_pos _
  · rw [length_marked, htake]
    exact hsize
  · rw [htake] at hmax ⊢
    rw [length_marked]
    exact decompress_tokens henc hstarts hcov hlen hmax hout tail
  · rw [htake] at hfull
    rw [length_marked] at hfuel ⊢
    exact decompress_tokens_full henc hstarts hcov hlen hfull hout tail hfuel

/-- What the compressor of either level makes of a text that is not empty.  A text without matches
gets a control byte for every 32 bytes. -/
theorem compressor_compresses (level : FastlzLevel) {input output : List UInt8} {length : ℕ}
    (hpos : 1 ≤ length) (hlen : length ≤ input.length)
    (htwo : level = .two → length < input.length) (hroom : fastlzRoom length ≤ output.length) :
    ∃ comp rest, Settles (fastlzCompressor level true input length output) length
        ((comp.length : ℕ), comp ++ rest) ∧
      CompressesTo (input.take length) comp ∧
      (Unrepeated level input length → comp.length = length + (length + 31) / 32) := by
  by_cases h4 : 4 ≤ length
  · obtain ⟨toks, rest, hrun, henc, hstarts, hcov, hsize, hlit⟩ :=
      compressor_result level h4 hlen htwo hroom
    refine ⟨_, rest, ?_, compressesTo_of_covers henc hstarts hcov hlen hsize, ?_⟩
    · rw [length_marked]
      exact hrun
    · rw [length_marked]
      exact hlit
  · have htake : (input.take length).length = length := by
      rw [List.length_take]
      omega
    have hcov : Covers input 0 [.literals (input.take length)] length := by
      refine ⟨?_, ?_⟩
      · change slice input 0 (input.take length).length = input.take length
        rw [htake]
        rfl
      · change 0 + (input.take length).length = length
        rw [htake, Nat.zero_add]
    have hsize : (encodeTokens .one [.literals (input.take length)]).length =
        length + (length + 31) / 32 := by
      rw [encodeTokens_cons, encodeTokens_nil, List.append_nil, tokenBytes, List.length_cons, htake]
      omega
    refine ⟨marked .one (encodeTokens .one [.literals (input.take length)]),
      output.drop (length + 1), fun fuel _ => ?_,
      compressesTo_of_covers ?_ ⟨input.take length, [], rfl⟩ hcov hlen hsize.le, fun _ => ?_⟩
    · rw [length_marked]
      exact compressor_short level hpos (by omega) hlen hroom fuel
    · intro tok htok
      cases List.mem_singleton.mp htok
      refine ⟨by omega, ?_⟩
      unfold fastlzMaxCopy
      omega
    · rw [length_marked, hsize]

/-- What `fastlz_compress` makes of a text that is not empty; short texts are compressed with level
1. -/
lemma fastlzCompress_compresses {input output : List UInt8} {length : ℕ} (hpos : 1 ≤ length)
    (hlen : length ≤ input.length) (hlong : 65536 ≤ length → length < input.length)
    (hroom : fastlzRoom length ≤ output.length) :
    ∃ comp rest, Settles (fastlzCompress true input length output) length
        ((comp.length : ℕ), comp ++ rest) ∧
      CompressesTo (input.take length) comp ∧
      (length < 65536 → Unrepeated .one input length →
        comp.length = length + (length + 31) / 32) := by
  by_cases hlevel : length < 65536
  · have hrun : fastlzCompress true input length output =
        fastlzCompressor .one true input length output := funext fun _ => if_pos hlevel
    rw [hrun]
    obtain ⟨comp, rest, hsettles, hcomp, hlit⟩ := compressor_compresses .one hpos hlen nofun hroom
    exact ⟨comp, rest, hsettles, hcomp, fun _ => hlit⟩
  · have hrun : fastlzCompress true input length output =
        fastlzCompressor .two true input length output := funext fun _ => if_neg hlevel
    rw [hrun]
    obtain ⟨comp, rest, hsettles, hcomp, -⟩ :=
      compressor_compresses .two hpos hlen (fun _ => hlong (by omega)) hroom
    exact ⟨comp, rest, hsettles, hcomp, fun h => absurd h hlevel⟩

/-- A compressor comes to an end with bytes that `fastlz_decompress` turns back into the first
`length` bytes of the input, whatever stands behind them and in the output. -/
def RoundTrips (compress : ℕ → Run (ℤ × List UInt8)) (input : List UInt8) (length : ℕ) : Prop :=
  ∃ comp rest, Terminates compress ((comp.length : ℕ), comp ++ rest) ∧
    comp.length ≤ length + (length + 31) / 32 ∧
    ∀ (tail output : List UInt8) (maxout : ℕ), length ≤ maxout → maxout ≤ output.length →
      Terminates (fastlzDecompress (comp ++ tail) comp.length output maxout)
        (length, input.take length ++ output.drop length)

lemma CompressesTo.roundTrips {compress : ℕ → Run (ℤ × List UInt8)} {input comp rest : List UInt8}
    {length n : ℕ} (h : CompressesTo (input.take length) comp) (hlen : length ≤ input.length)
    (hrun : Settles compress n ((comp.length : ℕ), comp ++ rest)) :
    RoundTrips compress input length := by
  obtain ⟨-, hsize, hback, -⟩ := h
  have htake : (input.take length).length = length := by
    rw [List.length_take]
    omega
  rw [htake] at hsize hback
  exact ⟨comp, rest, hrun.terminates, hsize, fun tail output maxout hmax hout =>
    (hback tail output maxout hmax hout).terminates⟩

/-- `fastlz_compress` comes to an end for every text that is not empty, in a block of
`n + n / 32 + 1` bytes, and `fastlz_decompress` puts the text back, whatever stands behind the
compressed bytes and in the output.  A long text needs one more readable byte behind it, which the
hash at the end of the last match looks at.  The same holds of `fastlz_compress_level` for both
levels; level 2 always needs the byte. -/
theorem fastlz_round_trip {input output : List UInt8} {length : ℕ} (hpos : 1 ≤ length)
    (hlen : length ≤ input.length) (hlong : 65536 ≤ length → length < input.length)
    (hroom : fastlzRoom length ≤ output.length) :
    RoundTrips (fastlzCompress true input length output) input length ∧
      ∀ level : FastlzLevel, (level = .two → length < input.length) →
        RoundTrips (fastlzCompressLevel level.number true input length output) input length := by
  constructor
  · obtain ⟨comp, rest, hrun, hcomp, -⟩ := fastlzCompress_compresses hpos hlen hlong hroom
    exact hcomp.roundTrips hlen hrun
  · intro level htwo
    have hlevel : fastlzCompressLevel level.number true input length output =
        fastlzCompressor level true input length output := by
      cases level with
      | one => rfl
      | two => rfl
    obtain ⟨comp, rest, hrun, hcomp, -⟩ := compressor_compresses level hpos hlen htwo hroom
    rw [hlevel]
    exact hcomp.roundTrips hlen hrun

/-- Twenty equal bytes, with a byte behind them. -/
theorem fastlz_round_trip_run :
    RoundTrips (fastlzCompress true (List.replicate 21 7) 20 (List.replicate 21 0))
        (List.replicate 21 7) 20 ∧
      RoundTrips (fastlzCompressLevel 2 true (List.replicate 21 7) 20 (List.replicate 21 0))
        (List.replicate 21 7) 20 := by
  obtain ⟨hcompress, hlevel⟩ := @fastlz_round_trip (List.replicate 21 7) (List.replicate 21 0) 20
    (by decide) (by decide) (by decide) (by decide)
  exact ⟨hcompress, hlevel .two fun _ => by decide⟩

/-! ### Arbitrary bytes -/

/-- `fastlz_decompress` comes to an end for arbitrary bytes, if the memory behind them can be read
as far as the level of the block looks.  It writes a beginning of the output of at most `maxout`
bytes, the same for every memory of the output, and returns its length or 0. -/
theorem fastlz_decompress_confined {magic : UInt8} {rest : List UInt8} {length : ℕ}
    (hlen : 1 ≤ length)
    (hread : ∀ level : FastlzLevel, magic.toNat / 32 + 1 = level.number →
      ReadableBehind level (magic :: rest) length) (maxout : ℕ) :
    ∃ ret out, out.length ≤ maxout ∧ (ret = out.length ∨ ret = 0) ∧
      ∀ output : List UInt8, maxout ≤ output.length →
        Terminates (fastlzDecompress (magic :: rest) length output maxout)
          (ret, out ++ output.drop out.length) := by
  by_cases hlevel : ∃ level : FastlzLevel, magic.toNat / 32 + 1 = level.number
  · obtain ⟨level, hnumber⟩ := hlevel
    obtain ⟨ret, out, hmax, hret, hrun⟩ := decompressor_result hlen (hread level hnumber) maxout
    refine ⟨ret, out, hmax, hret, fun output houtput => ?_⟩
    rw [fastlzDecompress_of_level hnumber]
    exact (hrun output houtput).terminates
  · refine ⟨0, [], Nat.zero_le maxout, .inr rfl, fun output _ => ⟨0, fun fuel _ => ?_⟩⟩
    exact fastlzDecompress_of_not_level (fun level h => hlevel ⟨level, h⟩) rest length maxout output
      fuel

/-- A match of level 1 whose operands are missing. -/
theorem fastlz_decompress_confined_open :
    ∃ ret out, out.length ≤ 1 ∧ (ret = out.length ∨ ret = 0) ∧
      ∀ output : List UInt8, 1 ≤ output.length →
        Terminates (fastlzDecompress [0, 65, 255, 0, 0] 3 output 1)
          (ret, out ++ output.drop out.length) := by
  refine fastlz_decompress_confined (by decide) (fun level hlevel => ?_) 1
  cases level with
  | one => exact (show 3 + 2 ≤ 5 by decide)
  | two => exact absurd hlevel (by decide)

end WiotaAp
