import WiotaAp.Codec.Fastlz

/-!
# What the decompressor of FastLZ does

A compressed block is the codes of a list of tokens (`encodeTokens`).  `loop_tokens` is the meaning
of such a block: from where the decompressor stands in front of the codes, its loop writes the text
the tokens stand for.  What it does with a block of arbitrary bytes is in
`WiotaAp.Codec.FastlzSafety`.
-/

namespace WiotaAp

open Buffers

/-! ### The codes of the tokens -/

/-- The bytes of a token. -/
def tokenBytes (level : FastlzLevel) : LzToken UInt8 → List UInt8
  | .literals cells => UInt8.ofNat (cells.length - 1) :: cells
  | .back dist len => matchBytes level (dist - 1) (len - 2)

/-- The tokens that have a code. -/
def Encodable (level : FastlzLevel) : LzToken UInt8 → Prop
  | .literals cells => 1 ≤ cells.length ∧ cells.length ≤ fastlzMaxCopy
  | .back dist len => 1 ≤ dist ∧ dist < level.searchLimit ∧ 3 ≤ len ∧
      (level = .one → len ≤ fastlzMaxLen)

/-- The bytes of a list of tokens. -/
def encodeTokens (level : FastlzLevel) (toks : List (LzToken UInt8)) : List UInt8 :=
  toks.flatMap (tokenBytes level)

@[simp] lemma encodeTokens_nil (level : FastlzLevel) : encodeTokens level [] = [] := rfl

@[simp] lemma encodeTokens_cons (level : FastlzLevel) (tok : LzToken UInt8)
    (toks : List (LzToken UInt8)) :
    encodeTokens level (tok :: toks) = tokenBytes level tok ++ encodeTokens level toks := rfl

@[simp] lemma encodeTokens_append (level : FastlzLevel) (toks toks' : List (LzToken UInt8)) :
    encodeTokens level (toks ++ toks') = encodeTokens level toks ++ encodeTokens level toks' :=
  List.flatMap_append

/-- A byte of a number that fits. -/
lemma toNat_ofNat_byte {n : ℕ} (h : n < 256) : (UInt8.ofNat n).toNat = n :=
  UInt8.toNat_ofNat_of_lt' h

/-- A short match needs no code for long ones. -/
lemma longMatch_of_le (distance n : ℕ) {len : ℕ} (h : len ≤ fastlzMaxLen - 2) :
    longMatch distance n len = ([], len) := by
  cases n with
  | zero => rfl
  | succ n => rw [longMatch, if_neg (Nat.not_lt.mpr h)]

/-- The bytes of a match of level 1 that is not too long. -/
lemma matchBytes_one {len : ℕ} (h : len ≤ fastlzMaxLen - 2) (distance : ℕ) :
    matchBytes .one distance len = shortMatch distance len := by
  rw [matchBytes, longMatch_of_le distance len h]
  rfl

/-! ### The operands of a match -/

/-- What is read of a match: its control byte, and the bytes behind it at `ip`. -/
structure ReadsMatch (level : FastlzLevel) (bytes : List UInt8) (distance len : ℕ) : Prop where
  /-- The control byte is that of a match, and the operands tell the length and the reference. -/
  reads : ∃ ctrl operands, bytes = ctrl :: operands ∧ 32 ≤ ctrl.toNat ∧
    ∀ (pre post : List UInt8) (op : ℕ), ∃ ip,
      readLen level (pre ++ (operands ++ post)) pre.length ctrl.toNat = .ok (len, ip) ∧
      readRef level (pre ++ (operands ++ post)) ip op ctrl.toNat =
        .ok ((op : ℤ) - distance, pre.length + operands.length)

/-- A byte behind a part of the block. -/
lemma byteAt_behind {pre part post : List UInt8} {i : ℕ} {c : UInt8} (h : part[i]? = some c) :
    byteAt (pre ++ (part ++ post)) (pre.length + i) = .ok c := by
  obtain ⟨hlt, hc⟩ := List.getElem?_eq_some_iff.mp h
  rw [byteAt, List.getElem?_append_right (Nat.le_add_right _ _), Nat.add_sub_cancel_left,
    List.getElem?_append_left hlt, h]

/-- A control byte with the two parts of it. -/
lemma ctrl_parts {high low : ℕ} (hhigh : high < 8) (hlow : low < 32) :
    (UInt8.ofNat (high * 32 + low)).toNat / 32 = high ∧
      (UInt8.ofNat (high * 32 + low)).toNat % 32 = low := by
  rw [toNat_ofNat_byte (by omega)]
  omega

/-- A match of level 1. -/
lemma readsMatch_one {distance len : ℕ} (hdist : distance < 8192) (hlen : 1 ≤ len)
    (hmax : len ≤ fastlzMaxLen - 2) :
    ReadsMatch .one (matchBytes .one distance len) distance (len - 1) := by
  have hlow : distance / 256 < 32 := by omega
  have hbyte : distance % 256 < 256 := Nat.mod_lt _ (by omega)
  constructor
  rw [matchBytes_one hmax, shortMatch]
  by_cases hshort : len < 7
  · obtain ⟨hhigh, hrest⟩ := ctrl_parts (show len < 8 by omega) hlow
    rw [if_pos hshort]
    refine ⟨_, [UInt8.ofNat (distance % 256)], rfl, by omega, fun pre post op => ?_⟩
    refine ⟨pre.length, ?_, ?_⟩
    · rw [readLen, hhigh]
      exact if_neg (by omega)
    · have hcode : byteAt (pre ++ ([UInt8.ofNat (distance % 256)] ++ post)) pre.length =
          .ok (UInt8.ofNat (distance % 256)) := byteAt_behind (i := 0) rfl
      simp only [readRef, hcode, ok_bind, hrest, toNat_ofNat_byte hbyte, pure_eq_ok,
        List.length_singleton]
      congr 2
      omega
  · obtain ⟨hhigh, hrest⟩ := ctrl_parts (show 7 < 8 by omega) hlow
    have hlenByte : len - 7 < 256 := by
      unfold fastlzMaxLen at hmax
      omega
    rw [if_neg hshort]
    refine ⟨_, [UInt8.ofNat (len - 7), UInt8.ofNat (distance % 256)], rfl, by omega,
      fun pre post op => ?_⟩
    have hcode : byteAt (pre ++ ([UInt8.ofNat (len - 7), UInt8.ofNat (distance % 256)] ++ post))
        pre.length = .ok (UInt8.ofNat (len - 7)) := byteAt_behind (i := 0) rfl
    have hcode' : byteAt (pre ++ ([UInt8.ofNat (len - 7), UInt8.ofNat (distance % 256)] ++ post))
        (pre.length + 1) = .ok (UInt8.ofNat (distance % 256)) := byteAt_behind (i := 1) rfl
    refine ⟨pre.length + 1, ?_, ?_⟩
    · rw [readLen, hhigh, if_pos rfl, hcode, ok_bind, toNat_ofNat_byte hlenByte, pure_eq_ok]
      congr 2
      omega
    · simp only [readRef, hcode', ok_bind, hrest, toNat_ofNat_byte hbyte, pure_eq_ok,
        List.length_cons, List.length_nil]
      congr 2
      omega

/-- The length bytes of level 2 are read back. -/
lemma lenCodes_lenBytes {n len : ℕ} (h : len ≤ n) (post : List UInt8) :
    lenCodes (lenBytes n len ++ post) = .ok (len, (lenBytes n len).length) := by
  induction n generalizing len with
  | zero =>
    obtain rfl := Nat.le_zero.mp h
    rfl
  | succ n ih =>
    rw [lenBytes]
    by_cases hlen : len ≥ 255
    · rw [if_pos hlen, List.cons_append, lenCodes, if_pos rfl, ih (by omega), ok_bind]
      change Except.ok (255 + (len - 255), _) = _
      rw [Nat.add_sub_cancel' hlen]
      rfl
    · have hne : UInt8.ofNat len ≠ 255 := by
        intro heq
        have := congrArg UInt8.toNat heq
        rw [toNat_ofNat_byte (by omega)] at this
        exact hlen (Nat.le_of_eq this.symm)
      rw [if_neg hlen, List.singleton_append, lenCodes, if_neg hne, toNat_ofNat_byte (by omega)]
      rfl

/-- The control byte of level 2, and the length read behind it. -/
lemma lenCode2_reads {high len : ℕ} (hhigh : high < 32) (hlen : 1 ≤ len) :
    ∃ ctrl operands, lenCode2 high len = ctrl :: operands ∧ 32 ≤ ctrl.toNat ∧
      ctrl.toNat % 32 = high ∧
      ∀ (pre post : List UInt8), readLen .two (pre ++ (operands ++ post)) pre.length ctrl.toNat =
        .ok (len - 1, pre.length + operands.length) := by
  by_cases hshort : len < 7
  · obtain ⟨hquot, hrest⟩ := ctrl_parts (show len < 8 by omega) hhigh
    refine ⟨_, [], if_pos hshort, by omega, hrest, fun pre post => ?_⟩
    rw [readLen, hquot]
    exact if_neg (by omega)
  · obtain ⟨hquot, hrest⟩ := ctrl_parts (show 7 < 8 by omega) hhigh
    refine ⟨_, lenBytes len (len - 7), if_neg hshort, by omega, hrest, fun pre post => ?_⟩
    rw [readLen, hquot, if_pos rfl, List.drop_left, lenCodes_lenBytes (Nat.sub_le _ _), ok_bind]
    change Except.ok (7 - 1 + (len - 7), _) = _
    congr 2
    omega

/-- The bytes of a near match of level 2. -/
lemma matchBytes_near {distance : ℕ} (h : distance < 8191) (len : ℕ) :
    matchBytes .two distance len =
      lenCode2 (distance / 256) len ++ [UInt8.ofNat (distance % 256)] :=
  if_pos h

/-- The bytes of a far match of level 2. -/
lemma matchBytes_far (far len : ℕ) :
    matchBytes .two (8191 + far) len =
      lenCode2 31 len ++ [255, UInt8.ofNat (far / 256), UInt8.ofNat (far % 256)] := by
  have hfar : ¬ 8191 + far < FastlzLevel.two.maxDistance := Nat.not_lt.mpr (Nat.le_add_right _ _)
  have hsub : 8191 + far - FastlzLevel.two.maxDistance = far := Nat.add_sub_cancel_left 8191 far
  simp only [matchBytes, if_neg hfar, hsub]

/-- A near match of level 2: the largest distance is not taken for the mark of a far one. -/
lemma readsMatch_near {distance len : ℕ} (hdist : distance < 8191) (hlen : 1 ≤ len) :
    ReadsMatch .two (matchBytes .two distance len) distance (len - 1) := by
  have hbyte : distance % 256 < 256 := Nat.mod_lt _ (by omega)
  obtain ⟨ctrl, operands, hcode, hctrl, hrest, hread⟩ :=
    lenCode2_reads (show distance / 256 < 32 by omega) hlen
  constructor
  refine ⟨ctrl, operands ++ [UInt8.ofNat (distance % 256)], ?_, hctrl, fun pre post op => ?_⟩
  · rw [matchBytes_near hdist, hcode, List.cons_append]
  · have hpart : byteAt (pre ++ (operands ++ [UInt8.ofNat (distance % 256)] ++ post))
        (pre.length + operands.length) = .ok (UInt8.ofNat (distance % 256)) :=
      byteAt_behind (by simp)
    have hnear : ¬ (UInt8.ofNat (distance % 256) = 255 ∧ distance / 256 * 256 = 31 * 256) := by
      rintro ⟨hbyte255, hquot⟩
      have h255 := congrArg UInt8.toNat hbyte255
      rw [toNat_ofNat_byte hbyte] at h255
      have : distance % 256 = 255 := h255
      omega
    refine ⟨pre.length + operands.length, ?_, ?_⟩
    · rw [List.append_assoc]
      exact hread pre _
    · rw [readRef, hpart]
      simp only [ok_bind, hrest, if_neg hnear, toNat_ofNat_byte hbyte, pure_eq_ok,
        List.length_append, List.length_singleton]
      congr 2
      omega

/-- A far match of level 2. -/
lemma readsMatch_far {distance len : ℕ} (hdist : 8191 ≤ distance)
    (hmax : distance < 8191 + 65536) (hlen : 1 ≤ len) :
    ReadsMatch .two (matchBytes .two distance len) distance (len - 1) := by
  obtain ⟨far, rfl⟩ := Nat.exists_eq_add_of_le hdist
  have hhigh : far / 256 < 256 := by omega
  have hlow : far % 256 < 256 := Nat.mod_lt _ (by omega)
  obtain ⟨ctrl, operands, hcode, hctrl, hrest, hread⟩ := lenCode2_reads (show 31 < 32 by omega) hlen
  constructor
  refine ⟨ctrl, operands ++ [255, UInt8.ofNat (far / 256), UInt8.ofNat (far % 256)], ?_, hctrl,
    fun pre post op => ?_⟩
  · rw [matchBytes_far, hcode, List.cons_append]
  · have hpart : ∀ (i : ℕ) (c : UInt8),
        [255, UInt8.ofNat (far / 256), UInt8.ofNat (far % 256)][i]? = some c →
        byteAt
          (pre ++ (operands ++ [255, UInt8.ofNat (far / 256), UInt8.ofNat (far % 256)] ++ post))
          (pre.length + operands.length + i) = .ok c := by
      intro i c hc
      rw [Nat.add_assoc]
      refine byteAt_behind ?_
      rw [List.getElem?_append_right (Nat.le_add_right _ _), Nat.add_sub_cancel_left, hc]
    refine ⟨pre.length + operands.length, ?_, ?_⟩
    · rw [List.append_assoc]
      exact hread pre _
    · have h₀ := hpart 0 255 rfl
      rw [Nat.add_zero] at h₀
      rw [readRef, h₀]
      simp only [ok_bind, hrest, hpart 1 _ rfl, hpart 2 _ rfl, toNat_ofNat_byte hhigh,
        toNat_ofNat_byte hlow, pure_eq_ok, List.length_append, List.length_cons, List.length_nil,
        and_self, if_true, FastlzLevel.maxDistance]
      congr 2
      omega

/-- A match that has a code is read back. -/
theorem readsMatch {level : FastlzLevel} {dist len : ℕ} (h : Encodable level (.back dist len)) :
    ReadsMatch level (tokenBytes level (.back dist len)) (dist - 1) (len - 3) := by
  obtain ⟨hdist, hlimit, hlen, hmax⟩ := h
  have hread : ReadsMatch level (matchBytes level (dist - 1) (len - 2)) (dist - 1)
      (len - 2 - 1) := by
    cases level with
    | one =>
      have hle : len ≤ fastlzMaxLen := hmax rfl
      exact readsMatch_one (by simp only [FastlzLevel.searchLimit] at hlimit; omega) (by omega)
        (by unfold fastlzMaxLen at *; omega)
    | two =>
      simp only [FastlzLevel.searchLimit] at hlimit
      by_cases hnear : dist - 1 < 8191
      · exact readsMatch_near hnear (by omega)
      · exact readsMatch_far (by omega) (by omega) (by omega)
  rwa [show len - 2 - 1 = len - 3 by omega] at hread

/-! ### A block of tokens -/

/-- A match is carried out as a back reference. -/
lemma copyMatch_spec {dist len : ℕ} (hdist : 1 ≤ dist) {out room : List UInt8}
    (hout : dist ≤ out.length) (hroom : room.length = len + 3) (rest : List UInt8) :
    copyMatch (out ++ (room ++ rest)) out.length ((out.length : ℤ) - (dist - 1 : ℕ)) len =
      .ok (copyBack dist (len + 3) out ++ rest) := by
  rw [copyMatch]
  by_cases hone : dist = 1
  · subst hone
    obtain rfl | ⟨out, x, rfl⟩ := List.eq_nil_or_concat' out
    · cases hout
    have hlast : byteAt (out ++ [x] ++ (room ++ rest)) ((out ++ [x]).length - 1) = .ok x := by
      have hparts : out ++ [x] ++ (room ++ rest) = out ++ x :: (room ++ rest) := by
        rw [List.append_assoc, List.singleton_append]
      refine byteAt_part hparts ?_
      rw [List.length_append, List.length_singleton, Nat.add_sub_cancel]
    rw [if_pos (by omega), hlast, ok_bind, copyBack_one]
    have hwrite := writeAt_part (show out ++ [x] ++ (room ++ rest) = (out ++ [x]) ++ (room ++ rest)
      from rfl) rfl (show room.length = (List.replicate (len + 3) x).length by
        rw [hroom, List.length_replicate])
    rw [hwrite, ← List.append_assoc]
  · rw [if_neg (by omega), show ((out.length : ℤ) - (dist - 1 : ℕ) - 1).toNat = out.length - dist
      by omega, copyCells_spec hdist hout hroom]

/-- The control byte behind a round, if there is more of the block. -/
lemma nextCtrl_of_lt {input : List UInt8} {length ip : ℕ} (hip : ip < length)
    (hlen : length ≤ input.length) :
    ∃ ctrl, input[ip]? = some ctrl ∧ nextCtrl input length ip = .ok (some ctrl) := by
  have hlt : ip < input.length := by omega
  refine ⟨input.get ⟨ip, hlt⟩, List.getElem?_eq_getElem hlt, ?_⟩
  rw [nextCtrl, if_pos hip, byteAt, List.getElem?_eq_getElem hlt]
  rfl

/-- At the end of the block there is no control byte. -/
lemma nextCtrl_of_le {input : List UInt8} {length ip : ℕ} (hip : length ≤ ip) :
    nextCtrl input length ip = .ok none :=
  if_neg (Nat.not_lt.mpr hip)

/-- The first byte of a token, with the others. -/
def TokenParts (level : FastlzLevel) (tok : LzToken UInt8) (ctrl : UInt8)
    (operands : List UInt8) : Prop :=
  tokenBytes level tok = ctrl :: operands

/-- A token is a control byte with operands. -/
lemma exists_tokenParts {level : FastlzLevel} {tok : LzToken UInt8} (h : Encodable level tok) :
    ∃ ctrl operands, TokenParts level tok ctrl operands := by
  cases tok with
  | literals cells => exact ⟨_, cells, rfl⟩
  | back dist len =>
    obtain ⟨ctrl, operands, hbytes, -, -⟩ := (readsMatch h).reads
    exact ⟨ctrl, operands, hbytes⟩

section Token

variable {level : FastlzLevel} {tok : LzToken UInt8} {ctrl : UInt8} {operands : List UInt8}
  {text pre post room : List UInt8} {p length maxout : ℕ} {next : Option UInt8}

/-- The round for a token adds the cells that it covers. -/
theorem decompressRound_token (henc : Encodable level tok)
    (hparts : TokenParts level tok ctrl operands) (hp : p ≤ text.length)
    (hcov : tok.Covers text p) (hroom : room.length = tok.size) (hmax : p + tok.size ≤ maxout)
    (hlen : pre.length + operands.length ≤ length)
    (hnext : nextCtrl (pre ++ (operands ++ post)) length (pre.length + operands.length) =
      .ok next) (rest : List UInt8) :
    decompressRound level (pre ++ (operands ++ post)) length maxout
        ⟨pre.length, p, ctrl.toNat, text.take p ++ (room ++ rest)⟩ =
      .ok (endRound next (pre.length + operands.length) (p + tok.size)
        (text.take (p + tok.size) ++ rest)) := by
  have htake : (text.take p).length = p := by
    rw [List.length_take]
    omega
  have happend := LzToken.append_of_covers hcov
  cases tok with
  | literals cells =>
    obtain ⟨hpos, hcopy⟩ := henc
    obtain ⟨rfl, rfl⟩ : UInt8.ofNat (cells.length - 1) = ctrl ∧ cells = operands := by
      simpa [TokenParts, tokenBytes] using hparts
    have hsize : LzToken.size (.literals cells) = cells.length := rfl
    have hctrl : (UInt8.ofNat (cells.length - 1)).toNat + 1 = cells.length := by
      unfold fastlzMaxCopy at hcopy
      rw [toNat_ofNat_byte (by omega)]
      omega
    have hlit : ¬ (UInt8.ofNat (cells.length - 1)).toNat ≥ 32 := by
      unfold fastlzMaxCopy at hcopy
      omega
    rw [hsize] at hroom hmax happend ⊢
    have hwrite := writeAt_part (show text.take p ++ (room ++ rest) = text.take p ++ (room ++ rest)
      from rfl) htake.symm hroom
    rw [decompressRound, if_neg hlit, literalRound]
    dsimp only
    rw [hctrl, if_neg (by omega), if_neg (by omega), readAt_part rfl rfl rfl, ok_bind, hwrite,
      ok_bind, hnext, ok_bind, ← happend]
    change Except.ok (endRound next _ _ (text.take p ++ (cells ++ rest))) = _
    rw [LzToken.append, List.append_assoc]
  | back dist len =>
    obtain ⟨ctrl', operands', hbytes, hctrl, hreads⟩ := (readsMatch henc).reads
    obtain ⟨rfl, rfl⟩ : ctrl' = ctrl ∧ operands' = operands := by
      simpa using hbytes.symm.trans hparts
    obtain ⟨ip, hreadLen, hreadRef⟩ := hreads pre post p
    obtain ⟨hdist, -, hlen3, -⟩ := henc
    have hdistp : dist ≤ p := hcov.2.1
    have hsize : LzToken.size (.back dist len : LzToken UInt8) = len := rfl
    rw [hsize] at hroom hmax happend ⊢
    have hcopy := copyMatch_spec hdist (show dist ≤ (text.take p).length by omega)
      (show room.length = len - 3 + 3 by omega) rest
    rw [htake, show len - 3 + 3 = len by omega] at hcopy
    rw [decompressRound, if_pos hctrl, matchRound, hreadLen, ok_bind]
    dsimp only
    rw [hreadRef, ok_bind]
    dsimp only
    rw [if_neg (by omega), if_neg (by omega), hnext, ok_bind, hcopy, ok_bind, ← happend,
      show p + (len - 3) + 3 = p + len by omega]
    rfl

/-- The round for a token that does not fit gives up. -/
lemma decompressRound_full (henc : Encodable level tok)
    (hparts : TokenParts level tok ctrl operands) (hfull : maxout < p + tok.size)
    (output : List UInt8) :
    decompressRound level (pre ++ (operands ++ post)) length maxout
      ⟨pre.length, p, ctrl.toNat, output⟩ = .ok (.inr (0, output)) := by
  cases tok with
  | literals cells =>
    obtain ⟨hpos, hcopy⟩ := henc
    obtain ⟨rfl, rfl⟩ : UInt8.ofNat (cells.length - 1) = ctrl ∧ cells = operands := by
      simpa [TokenParts, tokenBytes] using hparts
    have hsize : maxout < p + cells.length := hfull
    unfold fastlzMaxCopy at hcopy
    have hctrl : (UInt8.ofNat (cells.length - 1)).toNat = cells.length - 1 :=
      toNat_ofNat_byte (by omega)
    rw [decompressRound, if_neg (by dsimp only; omega), literalRound]
    dsimp only
    rw [hctrl, if_pos (by omega)]
  | back dist len =>
    obtain ⟨ctrl', operands', hbytes, hctrl, hreads⟩ := (readsMatch henc).reads
    obtain ⟨rfl, rfl⟩ : ctrl' = ctrl ∧ operands' = operands := by
      simpa using hbytes.symm.trans hparts
    obtain ⟨ip, hreadLen, hreadRef⟩ := hreads pre post p
    obtain ⟨-, -, hlen3, -⟩ := henc
    have hsize : maxout < p + len := hfull
    rw [decompressRound, if_pos hctrl, matchRound, hreadLen, ok_bind]
    dsimp only
    rw [hreadRef, ok_bind]
    exact if_pos (by omega)

/-- The round for a token with another one behind it leads to that one. -/
lemma loop_next_token {tok' : LzToken UInt8} {ctrl' : UInt8} {operands' : List UInt8}
    (henc : Encodable level tok) (hparts : TokenParts level tok ctrl operands)
    (hparts' : TokenParts level tok' ctrl' operands') (hp : p ≤ text.length)
    (hcov : tok.Covers text p) (hroom : room.length = tok.size) (hmax : p + tok.size ≤ maxout)
    (toks : List (LzToken UInt8)) (tail rest : List UInt8) (fuel : ℕ) :
    loop (decompressRound level (pre ++ (operands ++ (encodeTokens level (tok' :: toks) ++ tail)))
        (pre.length + operands.length + (encodeTokens level (tok' :: toks)).length) maxout)
        (fuel + 1) ⟨pre.length, p, ctrl.toNat, text.take p ++ (room ++ rest)⟩ =
      loop (decompressRound level
        ((pre ++ (operands ++ [ctrl'])) ++ (operands' ++ (encodeTokens level toks ++ tail)))
        ((pre ++ (operands ++ [ctrl'])).length + operands'.length +
          (encodeTokens level toks).length) maxout) fuel
        ⟨(pre ++ (operands ++ [ctrl'])).length, p + tok.size, ctrl'.toNat,
          text.take (p + tok.size) ++ rest⟩ := by
  have hbytes : encodeTokens level (tok' :: toks) =
      ctrl' :: (operands' ++ encodeTokens level toks) := by
    rw [encodeTokens_cons, hparts', List.cons_append]
  have hinput : pre ++ (operands ++ (encodeTokens level (tok' :: toks) ++ tail)) =
      (pre ++ (operands ++ [ctrl'])) ++ (operands' ++ (encodeTokens level toks ++ tail)) := by
    rw [hbytes]
    simp
  have hpre : (pre ++ (operands ++ [ctrl'])).length = pre.length + operands.length + 1 := by
    simp only [List.length_append, List.length_singleton]
    omega
  have hlength : pre.length + operands.length + (encodeTokens level (tok' :: toks)).length =
      (pre ++ (operands ++ [ctrl'])).length + operands'.length +
        (encodeTokens level toks).length := by
    rw [hbytes, hpre, List.length_cons, List.length_append]
    omega
  have hnext : nextCtrl (pre ++ (operands ++ (encodeTokens level (tok' :: toks) ++ tail)))
      (pre.length + operands.length + (encodeTokens level (tok' :: toks)).length)
      (pre.length + operands.length) = .ok (some ctrl') := by
    rw [nextCtrl, if_pos (by rw [hbytes, List.length_cons]; omega), hbytes]
    rw [byteAt_part (show _ = (pre ++ operands) ++ ctrl' :: (operands' ++ encodeTokens level toks
      ++ tail) by simp) (by rw [List.length_append])]
    rfl
  have hround := decompressRound_token henc hparts hp hcov hroom hmax (Nat.le_add_right _ _) hnext
    rest
  rw [loop_of_next hround, ← hinput, ← hlength, hpre]

end Token

/-- The loop over the rest of a block: a token whose control byte has been read, and those behind
it. -/
theorem loop_tokens {level : FastlzLevel} {text : List UInt8} {q maxout : ℕ} (hq : q ≤ text.length)
    (hmax : q ≤ maxout) (toks : List (LzToken UInt8)) :
    ∀ {tok : LzToken UInt8} {ctrl : UInt8} {operands room : List UInt8} {p : ℕ}
      (pre tail rest : List UInt8), (∀ t ∈ tok :: toks, Encodable level t) →
      TokenParts level tok ctrl operands → Covers text p (tok :: toks) q → room.length + p = q →
      ∀ fuel, loop (decompressRound level (pre ++ (operands ++ (encodeTokens level toks ++ tail)))
          (pre.length + operands.length + (encodeTokens level toks).length) maxout)
          (fuel + (toks.length + 1)) ⟨pre.length, p, ctrl.toNat, text.take p ++ (room ++ rest)⟩ =
        .done (q, text.take q ++ rest) := by
  induction toks with
  | nil =>
    intro tok ctrl operands room p pre tail rest henc hparts hcov hroom fuel
    obtain ⟨htok, hsize⟩ := hcov
    have hend : p + tok.size = q := hsize
    have hnext : nextCtrl (pre ++ (operands ++ tail)) (pre.length + operands.length)
        (pre.length + operands.length) = .ok none := nextCtrl_of_le le_rfl
    have hround := decompressRound_token (henc tok List.mem_cons_self) hparts (by omega) htok
      (show room.length = tok.size by omega) (show p + tok.size ≤ maxout by omega) le_rfl hnext rest
    rw [hend] at hround
    exact loop_of_exit hround fuel
  | cons tok' toks ih =>
    intro tok ctrl operands room p pre tail rest henc hparts hcov hroom fuel
    obtain ⟨htok, hcov'⟩ := hcov
    have henc' : ∀ t ∈ tok' :: toks, Encodable level t := fun t ht =>
      henc t (List.mem_cons_of_mem tok ht)
    obtain ⟨ctrl', operands', hparts'⟩ := exists_tokenParts (henc' tok' List.mem_cons_self)
    have hle : p + tok.size ≤ q := covers_le hcov'
    obtain ⟨room₁, room₂, rfl, hroom₁⟩ : ∃ r r', room = r ++ r' ∧ r.length = tok.size :=
      ⟨room.take tok.size, room.drop tok.size, (List.take_append_drop _ _).symm,
        by rw [List.length_take]; omega⟩
    rw [List.length_append] at hroom
    rw [List.append_assoc room₁, List.length_cons, ← Nat.add_assoc,
      loop_next_token (henc tok List.mem_cons_self) hparts hparts' (by omega) htok hroom₁
        (show p + tok.size ≤ maxout by omega)]
    exact ih (pre ++ (operands ++ [ctrl'])) tail rest henc' hparts' hcov' (by omega) fuel

/-- The loop over tokens that do not fit: it gives up at the first one that goes beyond the
limit. -/
theorem loop_tokens_full {level : FastlzLevel} {text : List UInt8} {q maxout : ℕ}
    (hq : q ≤ text.length) (hfull : maxout < q) (toks : List (LzToken UInt8)) :
    ∀ {tok : LzToken UInt8} {ctrl : UInt8} {operands room : List UInt8} {p : ℕ}
      (pre tail : List UInt8), (∀ t ∈ tok :: toks, Encodable level t) →
      TokenParts level tok ctrl operands → Covers text p (tok :: toks) q →
      maxout ≤ room.length + p →
      ∀ fuel, ∃ output, loop (decompressRound level
          (pre ++ (operands ++ (encodeTokens level toks ++ tail)))
          (pre.length + operands.length + (encodeTokens level toks).length) maxout)
          (fuel + (toks.length + 1)) ⟨pre.length, p, ctrl.toNat, text.take p ++ room⟩ =
        .done (0, output) := by
  induction toks with
  | nil =>
    intro tok ctrl operands room p pre tail henc hparts hcov hroom fuel
    obtain ⟨htok, hsize⟩ := hcov
    have hend : p + tok.size = q := hsize
    exact ⟨_, loop_of_exit (decompressRound_full (henc tok List.mem_cons_self) hparts (by omega) _)
      fuel⟩
  | cons tok' toks ih =>
    intro tok ctrl operands room p pre tail henc hparts hcov hroom fuel
    obtain ⟨htok, hcov'⟩ := hcov
    by_cases hfit : maxout < p + tok.size
    · exact ⟨_, loop_of_exit (decompressRound_full (henc tok List.mem_cons_self) hparts hfit _)
        (fuel + (toks.length + 1))⟩
    have henc' : ∀ t ∈ tok' :: toks, Encodable level t := fun t ht =>
      henc t (List.mem_cons_of_mem tok ht)
    obtain ⟨ctrl', operands', hparts'⟩ := exists_tokenParts (henc' tok' List.mem_cons_self)
    have hle : p + tok.size ≤ q := covers_le hcov'
    obtain ⟨room₁, room₂, rfl, hroom₁⟩ : ∃ r r', room = r ++ r' ∧ r.length = tok.size :=
      ⟨room.take tok.size, room.drop tok.size, (List.take_append_drop _ _).symm,
        by rw [List.length_take]; omega⟩
    rw [List.length_append] at hroom
    rw [List.length_cons, ← Nat.add_assoc,
      loop_next_token (henc tok List.mem_cons_self) hparts hparts' (by omega) htok hroom₁
        (show p + tok.size ≤ maxout by omega)]
    exact ih (pre ++ (operands ++ [ctrl'])) tail henc' hparts' hcov' (by omega) fuel

end WiotaAp
