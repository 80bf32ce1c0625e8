import WiotaAp.Codec.FastlzDecode

/-!
# Arbitrary bytes in the decompressor of FastLZ

What reaches `fastlz_decompress` comes from the radio, so it can be anything.  For arbitrary bytes
the decompressor comes to an end, writes a beginning of the output of at most `maxout` bytes and
nothing else, and what it writes does not depend on what was there (`decompressor_result`).

The input is not guarded in the same way: the operands of a match are read without a look at the
end.  `ReadableBehind` is the memory that has to be there; `margin_one_iff` says that level 1 needs
two bytes, and `not_margin_two` that no number of bytes is enough for level 2.
-/

namespace WiotaAp

open Buffers

/-- The memory behind the input from which the operands of a match may be read: two bytes on level
1; on level 2 a byte that ends the length, with three more behind it. -/
def ReadableBehind (level : FastlzLevel) (input : List UInt8) (length : ℕ) : Prop :=
  match level with
  | .one => length + 2 ≤ input.length
  | .two => ∃ k c, length ≤ k ∧ input[k]? = some c ∧ c ≠ 255 ∧ k + 4 ≤ input.length

section Rounds

variable {level : FastlzLevel} {input : List UInt8} {length maxout : ℕ}

/-- The input itself can be read. -/
lemma ReadableBehind.length_le (h : ReadableBehind level input length) :
    length ≤ input.length := by
  cases level with
  | one => exact Nat.le_trans (Nat.le_add_right _ 2) h
  | two =>
    obtain ⟨k, c, hk, -, -, hend⟩ := h
    omega

/-! ### The operands -/

/-- The length bytes of level 2 end at the latest with the first byte that is not 255. -/
lemma lenCodes_of_getElem {bytes : List UInt8} {j : ℕ} {c : UInt8} (hc : bytes[j]? = some c)
    (hne : c ≠ 255) : ∃ len n, lenCodes bytes = .ok (len, n) ∧ n ≤ j + 1 := by
  induction bytes generalizing j with
  | nil => cases hc
  | cons code rest ih =>
    rw [lenCodes]
    by_cases hcode : code = 255
    · rw [if_pos hcode]
      cases j with
      | zero => exact absurd (hcode ▸ (Option.some.inj hc).symm) hne
      | succ j =>
        obtain ⟨len, n, hlen, hn⟩ := ih hc
        rw [hlen]
        exact ⟨255 + len, n + 1, rfl, Nat.succ_le_succ hn⟩
    · rw [if_neg hcode]
      exact ⟨code.toNat, 1, rfl, Nat.succ_le_succ (Nat.zero_le j)⟩

/-- The length of a match is read, and behind it there is room for the reference. -/
lemma readLen_ok (hread : ReadableBehind level input length) {ip : ℕ} (hip : ip ≤ length)
    (ctrl : ℕ) : ∃ len ip', readLen level input ip ctrl = .ok (len, ip') ∧ ip ≤ ip' ∧
      (level = .one → ip' + 1 ≤ input.length) ∧ (level = .two → ip' + 3 ≤ input.length) := by
  have hlen := hread.length_le
  by_cases hlong : ctrl / 32 - 1 = 7 - 1
  · cases level with
    | one =>
      have hread : length + 2 ≤ input.length := hread
      obtain ⟨code, hcode⟩ := byteAt_of_lt (show ip < input.length by omega)
      refine ⟨ctrl / 32 - 1 + code.toNat, ip + 1, ?_, Nat.le_succ ip, fun _ => by omega, ?_⟩
      · rw [readLen, if_pos hlong, hcode]
        rfl
      · intro h
        exact absurd h (by decide)
    | two =>
      obtain ⟨k, c, hk, hc, hne, hend⟩ := hread
      have hc' : (input.drop ip)[k - ip]? = some c := by
        rw [List.getElem?_drop, Nat.add_sub_cancel' (Nat.le_trans hip hk), hc]
      obtain ⟨more, n, hmore, hn⟩ := lenCodes_of_getElem hc' hne
      refine ⟨ctrl / 32 - 1 + more, ip + n, ?_, Nat.le_add_right ip n, ?_, fun _ => by omega⟩
      · rw [readLen, if_pos hlong, hmore]
        rfl
      · intro h
        exact absurd h (by decide)
  · refine ⟨ctrl / 32 - 1, ip, if_neg hlong, le_rfl, ?_, ?_⟩
    · rintro rfl
      have hread : length + 2 ≤ input.length := hread
      omega
    · rintro rfl
      obtain ⟨k, c, hk, -, -, hend⟩ := hread
      omega

/-- The reference of a match is read, and does not point behind the output. -/
lemma readRef_ok {ip : ℕ} (hone : level = .one → ip + 1 ≤ input.length)
    (htwo : level = .two → ip + 3 ≤ input.length) (op ctrl : ℕ) :
    ∃ ref ip', readRef level input ip op ctrl = .ok (ref, ip') ∧ ip < ip' ∧ ref ≤ op := by
  have hlt : ip < input.length := by
    cases level with
    | one => exact hone rfl
    | two => exact Nat.lt_of_lt_of_le (Nat.lt_add_of_pos_right (by decide)) (htwo rfl)
  obtain ⟨code, hcode⟩ := byteAt_of_lt hlt
  rw [readRef, hcode, ok_bind]
  cases level with
  | one => exact ⟨_, ip + 1, rfl, Nat.lt_succ_self ip, by omega⟩
  | two =>
    have hend : ip + 3 ≤ input.length := htwo rfl
    dsimp only
    split
    · obtain ⟨high, hhigh⟩ := byteAt_of_lt (show ip + 1 < input.length by omega)
      obtain ⟨low, hlow⟩ := byteAt_of_lt (show ip + 2 < input.length by omega)
      rw [hhigh, ok_bind, hlow, ok_bind]
      exact ⟨_, ip + 3, rfl, by omega, by omega⟩
    · exact ⟨_, ip + 1, rfl, Nat.lt_succ_self ip, by omega⟩

/-! ### One round -/

/-- What a round does with the text `out` written so far, whatever the memory behind it holds: it
gives up, or it reads on and adds some bytes. -/
def RoundAdds (level : FastlzLevel) (input : List UInt8) (length maxout ip ctrl : ℕ)
    (out : List UInt8) : Prop :=
  (∀ rest, maxout ≤ out.length + rest.length →
    decompressRound level input length maxout ⟨ip, out.length, ctrl, out ++ rest⟩ =
      .ok (.inr (0, out ++ rest))) ∨
  ∃ add ip' next, ip < ip' ∧ nextCtrl input length ip' = .ok next ∧
    (out ++ add).length ≤ maxout ∧ ∀ rest, maxout ≤ out.length + rest.length →
      decompressRound level input length maxout ⟨ip, out.length, ctrl, out ++ rest⟩ =
        .ok (endRound next ip' (out ++ add).length (out ++ add ++ rest.drop add.length))

/-- The next control byte can be read. -/
lemma nextCtrl_ok (hlen : length ≤ input.length) (ip : ℕ) :
    ∃ next, nextCtrl input length ip = .ok next := by
  by_cases hip : ip < length
  · obtain ⟨ctrl, -, hnext⟩ := nextCtrl_of_lt hip hlen
    exact ⟨some ctrl, hnext⟩
  · exact ⟨none, nextCtrl_of_le (Nat.not_lt.mp hip)⟩

/-- Room for some more bytes in the memory behind the text. -/
lemma exists_room_of_le {out rest : List UInt8} {n : ℕ} (hmax : maxout ≤ out.length + rest.length)
    (hn : out.length + n ≤ maxout) :
    ∃ room, rest = room ++ rest.drop n ∧ room.length = n := by
  refine ⟨rest.take n, (List.take_append_drop n rest).symm, ?_⟩
  rw [List.length_take]
  omega

/-- A round for a match. -/
lemma roundAdds_match (hread : ReadableBehind level input length) {ip ctrl : ℕ}
    (hip : ip ≤ length) (hctrl : ctrl ≥ 32) (out : List UInt8) :
    RoundAdds level input length maxout ip ctrl out := by
  obtain ⟨len, ip₁, hlen, hip₁, hone, htwo⟩ := readLen_ok hread hip ctrl
  obtain ⟨ref, ip₂, href, hip₂, hle⟩ := readRef_ok hone htwo out.length ctrl
  have hround : ∀ rest, decompressRound level input length maxout
      ⟨ip, out.length, ctrl, out ++ rest⟩ =
      if out.length + len + 3 > maxout then .ok (.inr (0, out ++ rest))
      else if ref - 1 < 0 then .ok (.inr (0, out ++ rest))
      else do
        let next ← nextCtrl input length ip₂
        let output ← copyMatch (out ++ rest) out.length ref len
        return endRound next ip₂ (out.length + len + 3) output := by
    intro rest
    rw [decompressRound, if_pos hctrl, matchRound, hlen, ok_bind]
    dsimp only
    rw [href, ok_bind]
    rfl
  by_cases hroom : out.length + len + 3 > maxout
  · exact .inl fun rest _ => by rw [hround, if_pos hroom]
  by_cases hfront : ref - 1 < 0
  · exact .inl fun rest _ => by rw [hround, if_neg hroom, if_pos hfront]
  obtain ⟨next, hnext⟩ := nextCtrl_ok hread.length_le ip₂
  -- the reference is a distance of at least one into the text
  obtain ⟨dist, hdist, hdistle, hrefeq⟩ : ∃ dist, 1 ≤ dist ∧ dist ≤ out.length ∧
      ref = (out.length : ℤ) - (dist - 1 : ℕ) :=
    ⟨((out.length : ℤ) - ref).toNat + 1, by omega, by omega, by omega⟩
  have hlength := length_copyBack hdist (len + 3) hdistle
  have hsplit : out ++ (copyBack dist (len + 3) out).drop out.length =
      copyBack dist (len + 3) out := append_drop_copyBack dist (len + 3) out
  have hadd : ((copyBack dist (len + 3) out).drop out.length).length = len + 3 := by
    rw [List.length_drop, hlength]
    omega
  refine .inr ⟨(copyBack dist (len + 3) out).drop out.length, ip₂, next, by omega, hnext, ?_, ?_⟩
  · rw [hsplit, hlength]
    omega
  · intro rest hrest
    obtain ⟨room, hsplitRest, hroomLen⟩ := exists_room_of_le (n := len + 3) hrest (by omega)
    have hcopy := copyMatch_spec hdist hdistle hroomLen (rest.drop (len + 3))
    rw [← hsplitRest, ← hrefeq] at hcopy
    rw [hround, if_neg hroom, if_neg hfront, hnext, ok_bind, hcopy, ok_bind, hsplit, hadd, hlength,
      Nat.add_assoc]
    rfl

/-- A round for literals. -/
lemma roundAdds_literals (hlen : length ≤ input.length) {ip ctrl : ℕ} (hctrl : ¬ ctrl ≥ 32)
    (out : List UInt8) : RoundAdds level input length maxout ip ctrl out := by
  by_cases hroom : out.length + (ctrl + 1) > maxout
  · refine .inl fun rest _ => ?_
    rw [decompressRound, if_neg hctrl, literalRound]
    exact if_pos hroom
  by_cases hmore : ip + (ctrl + 1) > length
  · refine .inl fun rest _ => ?_
    rw [decompressRound, if_neg hctrl, literalRound]
    dsimp only
    rw [if_neg hroom, if_pos hmore]
  obtain ⟨next, hnext⟩ := nextCtrl_ok hlen (ip + (ctrl + 1))
  have hbytes : (slice input ip (ctrl + 1)).length = ctrl + 1 := length_slice (by omega)
  refine .inr ⟨slice input ip (ctrl + 1), ip + (ctrl + 1), next, by omega, hnext, ?_, ?_⟩
  · rw [List.length_append, hbytes]
    omega
  · intro rest hrest
    obtain ⟨room, hsplit, hroomLen⟩ := exists_room_of_le (n := ctrl + 1) hrest (by omega)
    have hwrite := writeAt_part (show out ++ rest = out ++ (room ++ rest.drop (ctrl + 1)) by
      rw [← hsplit]) rfl (hroomLen.trans hbytes.symm)
    rw [decompressRound, if_neg hctrl, literalRound]
    dsimp only
    rw [if_neg hroom, if_neg hmore, readAt_of_le (by omega), ok_bind, hwrite, ok_bind, hnext,
      ok_bind, hbytes, List.length_append, hbytes, List.append_assoc]
    rfl

/-- A round for any control byte. -/
lemma roundAdds (hread : ReadableBehind level input length) {ip : ℕ} (hip : ip ≤ length)
    (ctrl : ℕ) (out : List UInt8) : RoundAdds level input length maxout ip ctrl out := by
  by_cases hctrl : ctrl ≥ 32
  · exact roundAdds_match hread hip hctrl out
  · exact roundAdds_literals hread.length_le hctrl out

/-! ### The whole loop -/

/-- What the loop comes to behind the text `out`: the result `ret`, and the text `out'`, whatever
the memory behind `out` holds.  Every round takes at least one byte of the input. -/
def LoopYields (level : FastlzLevel) (input : List UInt8) (length maxout ip ctrl : ℕ)
    (out : List UInt8) (ret : ℕ) (out' : List UInt8) : Prop :=
  ∀ rest, maxout ≤ out.length + rest.length →
    Settles (fun fuel => loop (decompressRound level input length maxout) fuel
      ⟨ip, out.length, ctrl, out ++ rest⟩) (length - ip + 1)
      (ret, out' ++ rest.drop (out'.length - out.length))

/-- The loop comes to an end inside the output.  The induction is on the input that is left. -/
theorem exists_loopYields (hread : ReadableBehind level input length) {ip : ℕ}
    (hip : ip ≤ length) (ctrl : ℕ) {out : List UInt8} (hout : out.length ≤ maxout) :
    ∃ ret out', out.length ≤ out'.length ∧ out'.length ≤ maxout ∧
      (ret = out'.length ∨ ret = 0) ∧
      LoopYields level input length maxout ip ctrl out ret out' := by
  induction hleft : length - ip using Nat.strong_induction_on generalizing ip ctrl out with
  | _ left ih =>
    rcases roundAdds hread hip ctrl out with hgive | ⟨add, ip', next, hip', hnext, hmax, hround⟩
    · refine ⟨0, out, le_rfl, hout, .inr rfl, fun rest hrest => ?_⟩
      rw [Nat.sub_self, List.drop_zero]
      exact .succ fun n _ => loop_of_exit (hgive rest hrest) n
    have hlength : (out ++ add).length - out.length = add.length := by
      rw [List.length_append, Nat.add_sub_cancel_left]
    cases next with
    | none =>
      refine ⟨(out ++ add).length, out ++ add, ?_, hmax, .inl rfl, fun rest hrest => ?_⟩
      · rw [List.length_append]
        exact Nat.le_add_right _ _
      · rw [hlength]
        exact .succ fun n _ => loop_of_exit (hround rest hrest) n
    | some ctrl' =>
      have hlt : ip' < length := by
        by_contra hge
        rw [nextCtrl_of_le (Nat.not_lt.mp hge)] at hnext
        cases hnext
      obtain ⟨ret, out', hgrow, hmax', hret, hyields⟩ :=
        ih (length - (ip' + 1)) (by omega) (show ip' + 1 ≤ length from hlt) ctrl'.toNat hmax rfl
      rw [List.length_append] at hgrow
      refine ⟨ret, out', by omega, hmax', hret, fun rest hrest => ?_⟩
      have hrest' : maxout ≤ (out ++ add).length + (rest.drop add.length).length := by
        rw [List.length_append, List.length_drop]
        omega
      have hdrop : (rest.drop add.length).drop (out'.length - (out ++ add).length) =
          rest.drop (out'.length - out.length) := by
        rw [List.drop_drop, List.length_append]
        congr 1
        omega
      have hloop := hyields (rest.drop add.length) hrest'
      rw [hdrop] at hloop
      refine .succ fun n hn => ?_
      exact (loop_of_next (hround rest hrest) n).trans (hloop n (by omega))

end Rounds

/-- The decompressor comes to an end for every input of at least one byte and every `maxout`.  It
writes a beginning of the output of at most `maxout` bytes, the same for every memory of the output,
and returns its length or 0. -/
theorem decompressor_result {level : FastlzLevel} {input : List UInt8} {length : ℕ}
    (hlen : 1 ≤ length) (hread : ReadableBehind level input length) (maxout : ℕ) :
    ∃ ret out, out.length ≤ maxout ∧ (ret = out.length ∨ ret = 0) ∧
      ∀ output : List UInt8, maxout ≤ output.length →
        Settles (fastlzDecompressor level input length output maxout) length
          (ret, out ++ output.drop out.length) := by
  obtain ⟨ctrl, hctrl⟩ := byteAt_of_lt (Nat.lt_of_lt_of_le hlen hread.length_le)
  obtain ⟨ret, out, -, hmax, hret, hyields⟩ :=
    exists_loopYields hread hlen (ctrl.toNat % 32)
      (show ([] : List UInt8).length ≤ maxout from Nat.zero_le maxout)
  refine ⟨ret, out, hmax, hret, fun output houtput => ?_⟩
  intro fuel hfuel
  rw [fastlzDecompressor, hctrl]
  exact hyields output (by simpa using houtput) fuel (by omega)

/-! ### How much memory the input needs -/

/-- The decompressor comes to an end for every input with `margin` more bytes of memory behind
it. -/
def MarginSuffices (level : FastlzLevel) (margin : ℕ) : Prop :=
  ∀ data tail output : List UInt8, ∀ maxout, data ≠ [] → tail.length = margin →
    maxout ≤ output.length → ∃ result,
      Terminates (fastlzDecompressor level (data ++ tail) data.length output maxout) result

/-- A literal and the control byte of a long match at the end of the input. -/
def openMatch : List UInt8 := [0, 65, 255]

/-- The first round of the open match is its literal; the second one reads the length. -/
lemma decompressor_openMatch (level : FastlzLevel) (tail : List UInt8) {maxout : ℕ}
    (hmax : 1 ≤ maxout) (out : UInt8)
    (hsecond : matchRound level (openMatch ++ tail) 3 maxout ⟨3, 1, 255, [65]⟩ =
      .error .outOfBounds) :
    ∀ fuel ≥ 2, fastlzDecompressor level (openMatch ++ tail) 3 [out] maxout fuel =
      .faulted .outOfBounds := by
  intro fuel hfuel
  obtain ⟨n, rfl⟩ := Nat.exists_eq_add_of_le' hfuel
  have hfirst : decompressRound level (openMatch ++ tail) 3 maxout ⟨1, 0, 0, [out]⟩ =
      .ok (.inl ⟨3, 1, 255, [65]⟩) := by
    rw [decompressRound, if_neg (show ¬ 0 ≥ 32 by decide), literalRound]
    dsimp only
    rw [if_neg (by omega), if_neg (by decide)]
    rfl
  have hstart : fastlzDecompressor level (openMatch ++ tail) 3 [out] maxout (n + 1 + 1) =
      loop (decompressRound level (openMatch ++ tail) 3 maxout) (n + 1 + 1) ⟨1, 0, 0, [out]⟩ := rfl
  rw [hstart, loop_of_next hfirst]
  refine loop_of_fault ?_ n
  rw [decompressRound, if_pos (show 255 ≥ 32 by decide), hsecond]

/-- Level 1 needs two bytes of memory behind the input: the length and the distance of a match whose
control byte is the last byte of the input. -/
lemma margin_one_iff (margin : ℕ) : MarginSuffices .one margin ↔ 2 ≤ margin := by
  constructor
  · intro h
    by_contra hlt
    have htail := h openMatch (List.replicate margin 0) [0] 1 (by decide) List.length_replicate
      le_rfl
    obtain ⟨result, hresult⟩ := htail
    refine not_terminates_of_faulted (decompressor_openMatch .one _ le_rfl 0 ?_) hresult
    obtain rfl | rfl : margin = 0 ∨ margin = 1 := by omega
    · rfl
    · rfl
  · intro hmargin data tail output maxout hdata htail hmax
    have hlen : 1 ≤ data.length := List.length_pos_iff.mpr hdata
    have hread : ReadableBehind .one (data ++ tail) data.length := by
      change data.length + 2 ≤ (data ++ tail).length
      rw [List.length_append]
      omega
    obtain ⟨ret, out, -, -, hresult⟩ := decompressor_result hlen hread maxout
    exact ⟨_, (hresult output hmax).terminates⟩

/-- The length bytes of level 2 are looked for up to the end of the memory. -/
lemma lenCodes_replicate (n : ℕ) : lenCodes (List.replicate n 255) = .error .outOfBounds := by
  induction n with
  | zero => rfl
  | succ n ih =>
    rw [List.replicate_succ, lenCodes, if_pos rfl, ih]
    rfl

/-- No memory behind the input is enough for level 2: bytes of 255 are read as the length of a match
without an end. -/
lemma not_margin_two (margin : ℕ) : ¬ MarginSuffices .two margin := by
  intro h
  have htail := h openMatch (List.replicate margin 255) [0] 1 (by decide) List.length_replicate
    le_rfl
  obtain ⟨result, hresult⟩ := htail
  have hlen : readLen .two (openMatch ++ List.replicate margin 255) 3 255 =
      .error .outOfBounds := by
    have hdrop : (openMatch ++ List.replicate margin 255).drop 3 = List.replicate margin 255 := rfl
    rw [readLen, if_pos rfl, hdrop, lenCodes_replicate]
    rfl
  refine not_terminates_of_faulted (decompressor_openMatch .two _ le_rfl 0 ?_) hresult
  rw [matchRound, hlen]
  rfl

/-- The memory that arbitrary bytes need behind them: two bytes on level 1, and more than any number
of bytes on level 2. -/
theorem fastlz_margins (margin : ℕ) :
    (MarginSuffices .one margin ↔ 2 ≤ margin) ∧ ¬ MarginSuffices .two margin :=
  ⟨margin_one_iff margin, not_margin_two margin⟩

end WiotaAp
