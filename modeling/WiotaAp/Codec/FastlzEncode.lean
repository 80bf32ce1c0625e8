import WiotaAp.Codec.FastlzMatch

/-!
# What the compressor of FastLZ writes

`CompressInv` is the invariant of the main loop: the output is the code of tokens for the text in
front, a control byte and the literals that wait behind it.  Every round keeps it, so the result is
the code of tokens that cover the whole text (`compressor_result`).

The invariant also bounds the output.  A control byte is paid for by the 32 literals behind it, or
by the match in front of it, which is longer than its code.  The compressor takes back the last
control byte when no literal follows, so one byte more is written than is returned.
-/

namespace WiotaAp

open Buffers

/-- Room that the compressor needs for `length` bytes. -/
def fastlzRoom (length : ℕ) : ℕ :=
  length + length / 32 + 1

/-- The first token is literals. -/
def StartsLiteral (toks : List (LzToken UInt8)) : Prop :=
  ∃ cells toks', toks = .literals cells :: toks'

/-- The tokens `toks` have been written and the literals `lits` wait; `rest` is the memory behind
them. -/
structure CompressInv (level : FastlzLevel) (input : List UInt8) (length : ℕ) (s : CompressState)
    (toks : List (LzToken UInt8)) (p : ℕ) (lits rest : List UInt8) : Prop where
  output_eq : s.output = encodeTokens level toks ++
    UInt8.ofNat (fastlzMaxCopy - 1) :: (lits ++ rest)
  op_eq : s.op = (encodeTokens level toks).length + 1 + lits.length
  copy_eq : s.copy = lits.length
  copy_lt : lits.length < fastlzMaxCopy
  encodable : ∀ tok ∈ toks, Encodable level tok
  starts : toks = [] ∧ 1 ≤ lits.length ∨ StartsLiteral toks
  covers : Covers input 0 toks p
  lits_eq : slice input p lits.length = lits
  ip_eq : s.ip = p + lits.length
  ip_le : s.ip ≤ length
  size : 32 * (encodeTokens level toks).length ≤ 33 * p
  room : fastlzRoom length ≤ s.output.length

variable {level : FastlzLevel} {input : List UInt8} {length : ℕ} {s : CompressState}
  {toks : List (LzToken UInt8)} {p : ℕ} {lits rest : List UInt8}

/-- The number of bytes in the block of the output. -/
lemma CompressInv.length_output (h : CompressInv level input length s toks p lits rest) :
    s.output.length = (encodeTokens level toks).length + 1 + lits.length + rest.length := by
  rw [h.output_eq]
  simp only [List.length_append, List.length_cons]
  omega

/-- There is room behind the literals as long as there is more of the text. -/
lemma CompressInv.room_left (h : CompressInv level input length s toks p lits rest) :
    length - s.ip ≤ rest.length ∧ (s.copy = 31 → s.ip < length → 2 ≤ rest.length) := by
  have hroom := h.room
  have hlength := h.length_output
  have hsize := h.size
  have hip := h.ip_eq
  have hcopy := h.copy_eq
  have hle := h.ip_le
  unfold fastlzRoom at hroom
  omega

/-- The tokens are literals, and every control byte has its full number. -/
def AllLiterals (level : FastlzLevel) (toks : List (LzToken UInt8)) (p : ℕ) : Prop :=
  32 * (encodeTokens level toks).length = 33 * p

/-- Literals that agree with the text, with one more. -/
lemma slice_snoc {b : UInt8} (hlits : slice input p lits.length = lits)
    (hb : byteAt input (p + lits.length) = .ok b) :
    slice input p (lits ++ [b]).length = lits ++ [b] := by
  have hget : input[p + lits.length]? = some b := getElem?_of_byteAt hb
  rw [List.length_append, List.length_singleton, slice, List.take_add_one, List.getElem?_drop, hget]
  exact congrArg (· ++ [b]) hlits

/-- Literals as one more token: their number less one, and the literals. -/
lemma encodeTokens_snoc_literals (level : FastlzLevel) (toks : List (LzToken UInt8))
    (cells : List UInt8) :
    encodeTokens level (toks ++ [.literals cells]) =
      encodeTokens level toks ++ UInt8.ofNat (cells.length - 1) :: cells := by
  rw [encodeTokens_append, encodeTokens_cons, encodeTokens_nil, List.append_nil, tokenBytes]

lemma length_encodeTokens_snoc_literals (level : FastlzLevel) (toks : List (LzToken UInt8))
    (cells : List UInt8) :
    (encodeTokens level (toks ++ [.literals cells])).length =
      (encodeTokens level toks).length + 1 + cells.length := by
  rw [encodeTokens_snoc_literals, List.length_append, List.length_cons]
  omega

lemma StartsLiteral.append {toks : List (LzToken UInt8)} (h : StartsLiteral toks)
    (toks' : List (LzToken UInt8)) : StartsLiteral (toks ++ toks') := by
  obtain ⟨cells, rest, rfl⟩ := h
  exact ⟨cells, rest ++ toks', rfl⟩

/-- The tokens with the next literals of the text as one more. -/
lemma CompressInv.snoc_literals (h : CompressInv level input length s toks p lits rest)
    (cells : List UInt8) (hcells : Encodable level (.literals cells))
    (hslice : slice input p cells.length = cells) :
    (∀ tok ∈ toks ++ [.literals cells], Encodable level tok) ∧
      StartsLiteral (toks ++ [.literals cells]) ∧
      Covers input 0 (toks ++ [.literals cells]) (p + cells.length) := by
  refine ⟨fun tok htok => ?_, ?_, covers_snoc h.covers hslice⟩
  · rcases List.mem_append.mp htok with hmem | hmem
    · exact h.encodable tok hmem
    · exact List.mem_singleton.mp hmem ▸ hcells
  · rcases h.starts with ⟨rfl, -⟩ | hstarts
    · exact ⟨cells, [], rfl⟩
    · exact hstarts.append _

/-! ### One more literal -/

section Literal

variable {b c : UInt8}

/-- The literal is written behind those that wait. -/
lemma CompressInv.writeAt_literal
    (h : CompressInv level input length s toks p lits (c :: rest)) (b : UInt8) :
    writeAt s.output s.op [b] = .ok (encodeTokens level toks ++
      UInt8.ofNat (fastlzMaxCopy - 1) :: (lits ++ b :: rest)) := by
  have hparts (d : UInt8) :
      encodeTokens level toks ++ UInt8.ofNat (fastlzMaxCopy - 1) :: lits ++ d :: rest =
        encodeTokens level toks ++ UInt8.ofNat (fastlzMaxCopy - 1) :: (lits ++ d :: rest) := by
    rw [List.append_assoc, List.cons_append]
  rw [← hparts]
  refine writeAt_cell (h.output_eq.trans (hparts c).symm) ?_
  rw [h.op_eq, List.length_append, List.length_cons]
  omega

/-- The literal waits with the others. -/
lemma CompressInv.wait (h : CompressInv level input length s toks p lits (c :: rest))
    (hb : byteAt input s.ip = .ok b) (hip : s.ip < length)
    (hcopy : s.copy + 1 ≠ fastlzMaxCopy) :
    CompressInv level input length
      ⟨s.ip + 1, s.op + 1, s.copy + 1, s.htab, encodeTokens level toks ++
        UInt8.ofNat (fastlzMaxCopy - 1) :: (lits ++ b :: rest)⟩ toks p (lits ++ [b]) rest := by
  have hsnoc : (lits ++ [b]).length = lits.length + 1 := by
    rw [List.length_append, List.length_singleton]
  have hcopyEq := h.copy_eq
  have hcopyLt := h.copy_lt
  have hroom := h.room
  have hlength := h.length_output
  rw [List.length_cons] at hlength
  refine ⟨?_, ?_, ?_, by omega, h.encodable, ?_, h.covers, slice_snoc h.lits_eq (h.ip_eq ▸ hb), ?_,
    hip, h.size, ?_⟩
  · rw [List.append_assoc, List.singleton_append]
  · change s.op + 1 = _
    rw [hsnoc, h.op_eq]
    omega
  · rw [hsnoc, hcopyEq]
  · rcases h.starts with ⟨htoks, -⟩ | hstarts
    · exact .inl ⟨htoks, by omega⟩
    · exact .inr hstarts
  · change s.ip + 1 = _
    rw [hsnoc, h.ip_eq]
    omega
  · simp only [List.length_append, List.length_cons]
    omega

/-- The literal is the last one for its control byte, which holds the full number already.  The next
control byte is written behind it. -/
lemma CompressInv.fill {c' : UInt8}
    (h : CompressInv level input length s toks p lits (c :: c' :: rest))
    (hb : byteAt input s.ip = .ok b) (hip : s.ip < length) (hcopy : s.copy + 1 = fastlzMaxCopy) :
    ∃ output, writeAt (encodeTokens level toks ++
        UInt8.ofNat (fastlzMaxCopy - 1) :: (lits ++ b :: c' :: rest)) (s.op + 1)
        [UInt8.ofNat (fastlzMaxCopy - 1)] = .ok output ∧
      CompressInv level input length ⟨s.ip + 1, s.op + 2, 0, s.htab, output⟩
        (toks ++ [.literals (lits ++ [b])]) (p + fastlzMaxCopy) [] rest := by
  have hmaxCopy : fastlzMaxCopy = 32 := rfl
  have hcells : (lits ++ [b]).length = fastlzMaxCopy := by
    rw [List.length_append, List.length_singleton, ← h.copy_eq, hcopy]
  have hlen := length_encodeTokens_snoc_literals level toks (lits ++ [b])
  have hcode := encodeTokens_snoc_literals level toks (lits ++ [b])
  have hslice := slice_snoc h.lits_eq (h.ip_eq ▸ hb)
  obtain ⟨hencodable, hstarts, hcovers⟩ :=
    h.snoc_literals (lits ++ [b]) ⟨by omega, Nat.le_of_eq hcells⟩ hslice
  rw [hcells] at hlen hcode hcovers
  have hcopyEq := h.copy_eq
  have hipEq := h.ip_eq
  have hsize := h.size
  have hroom := h.room
  have hlength := h.length_output
  simp only [List.length_cons] at hlength
  refine ⟨encodeTokens level (toks ++ [.literals (lits ++ [b])]) ++
    UInt8.ofNat (fastlzMaxCopy - 1) :: rest, writeAt_cell (c := c') ?_ ?_, rfl, ?_, rfl, by decide,
    hencodable, .inr hstarts, hcovers, rfl, ?_, hip, ?_, ?_⟩
  · rw [hcode]
    simp
  · rw [hlen, h.op_eq]
    omega
  · change s.op + 2 = _
    rw [hlen, h.op_eq, List.length_nil]
    omega
  · change s.ip + 1 = p + fastlzMaxCopy
    omega
  · rw [hlen]
    omega
  · rw [List.length_append, List.length_cons, hlen]
    omega

/-- The control bytes of literals only stay full. -/
lemma AllLiterals.fill {cells : List UInt8} (h : AllLiterals level toks p)
    (hcells : cells.length = fastlzMaxCopy) :
    AllLiterals level (toks ++ [.literals cells]) (p + fastlzMaxCopy) := by
  have hmaxCopy : fastlzMaxCopy = 32 := rfl
  unfold AllLiterals at h ⊢
  rw [length_encodeTokens_snoc_literals, hcells]
  omega

/-- One more literal. -/
lemma putLiteral_spec (h : CompressInv level input length s toks p lits rest)
    (hip : s.ip < length) (hlen : length ≤ input.length) :
    ∃ s' toks' p' lits' rest', putLiteral input s = .ok s' ∧
      CompressInv level input length s' toks' p' lits' rest' ∧ s'.ip = s.ip + 1 ∧
      s'.htab = s.htab ∧ (AllLiterals level toks p → AllLiterals level toks' p') := by
  obtain ⟨b, hb⟩ := byteAt_of_lt (show s.ip < input.length by omega)
  obtain ⟨hroom, hroom'⟩ := h.room_left
  obtain ⟨c, rest, rfl⟩ := List.exists_cons_of_length_pos (show 0 < rest.length by omega)
  rw [putLiteral, hb, ok_bind, h.writeAt_literal b, ok_bind]
  by_cases hfull : s.copy + 1 = fastlzMaxCopy
  · have hmaxCopy : fastlzMaxCopy = 32 := rfl
    have htwo : 2 ≤ (c :: rest).length := hroom' (by omega) hip
    obtain ⟨c', rest, rfl⟩ := List.exists_cons_of_length_pos
      (show 0 < rest.length by rw [List.length_cons] at htwo; omega)
    obtain ⟨output, hwrite, hinv⟩ := h.fill hb hip hfull
    have hcells : (lits ++ [b]).length = fastlzMaxCopy := by
      rw [List.length_append, List.length_singleton, ← h.copy_eq, hfull]
    rw [if_pos hfull, hwrite, ok_bind]
    exact ⟨_, _, _, _, _, rfl, hinv, rfl, rfl, fun hlit => hlit.fill hcells⟩
  · rw [if_neg hfull]
    exact ⟨_, _, _, _, _, rfl, h.wait hb hip hfull, rfl, rfl, id⟩

end Literal

/-! ### Closing the literals -/

/-- The tokens when the waiting literals are closed. -/
structure Closed (level : FastlzLevel) (input : List UInt8) (ip : ℕ) (output : List UInt8) (op : ℕ)
    (toks : List (LzToken UInt8)) (rest : List UInt8) : Prop where
  output_eq : output = encodeTokens level toks ++ rest
  op_eq : op = (encodeTokens level toks).length
  encodable : ∀ tok ∈ toks, Encodable level tok
  starts : StartsLiteral toks
  covers : Covers input 0 toks ip
  size : 32 * (encodeTokens level toks).length ≤ 33 * ip + 31

/-- The waiting literals become a token, or the control byte is taken back. -/
lemma closeLiterals_spec (h : CompressInv level input length s toks p lits rest) :
    ∃ op output toks' rest', closeLiterals s = .ok (op, output) ∧
      Closed level input s.ip output op toks' rest' ∧ output.length = s.output.length ∧
      (AllLiterals level toks p →
        (encodeTokens level toks').length = s.ip + (s.ip + 31) / 32) := by
  have hmaxCopy : fastlzMaxCopy = 32 := rfl
  have hcopyLt := h.copy_lt
  have hsize := h.size
  rw [closeLiterals]
  by_cases hcopy : s.copy ≠ 0
  · have hpos : 1 ≤ lits.length := by
      have := h.copy_eq
      omega
    have henc : encodeTokens level (toks ++ [.literals lits]) ++ rest =
        encodeTokens level toks ++ UInt8.ofNat (s.copy - 1) :: (lits ++ rest) := by
      rw [encodeTokens_snoc_literals, h.copy_eq, List.append_assoc, List.cons_append]
    have henclen := length_encodeTokens_snoc_literals level toks lits
    obtain ⟨hencodable, hstarts, hcovers⟩ :=
      h.snoc_literals lits ⟨hpos, Nat.le_of_lt h.copy_lt⟩ h.lits_eq
    have hwrite : writeAt s.output (s.op - s.copy - 1) [UInt8.ofNat (s.copy - 1)] =
        .ok (encodeTokens level (toks ++ [.literals lits]) ++ rest) := by
      rw [henc]
      refine writeAt_cell h.output_eq ?_
      rw [h.op_eq, h.copy_eq]
      omega
    rw [if_pos hcopy, hwrite, ok_bind]
    refine ⟨_, _, toks ++ [.literals lits], rest, rfl,
      ⟨rfl, ?_, hencodable, hstarts, h.ip_eq ▸ hcovers, ?_⟩, ?_, fun hlit => ?_⟩
    · rw [henclen, h.op_eq]
    · rw [henclen, h.ip_eq]
      omega
    · rw [h.length_output, List.length_append, henclen]
    · unfold AllLiterals at hlit
      rw [henclen, h.ip_eq]
      omega
  · have hzero : lits = [] := by
      rw [← List.length_eq_zero_iff, ← h.copy_eq]
      exact not_not.mp hcopy
    subst hzero
    rw [if_neg hcopy]
    refine ⟨_, _, toks, UInt8.ofNat (fastlzMaxCopy - 1) :: rest, rfl,
      ⟨h.output_eq, ?_, h.encodable, ?_, ?_, ?_⟩, rfl, fun hlit => ?_⟩
    · rw [h.op_eq]
      simp
    · rcases h.starts with ⟨-, hlits⟩ | hstarts
      · exact absurd hlits (by simp)
      · exact hstarts
    · have hip := h.ip_eq
      rw [List.length_nil, Nat.add_zero] at hip
      rw [hip]
      exact h.covers
    · rw [h.ip_eq]
      omega
    · unfold AllLiterals at hlit
      rw [h.ip_eq, List.length_nil]
      omega

/-! ### A match -/

/-- A place of the text is entered in the table. -/
lemma updateHash_spec {htab : List ℕ} {ip : ℕ} (hip : ip + 2 < input.length)
    (htable : TableBefore htab ip) :
    ∃ htab', updateHash input htab ip = .ok htab' ∧ TableBefore htab' (ip + 1) := by
  obtain ⟨hval, hhash, -⟩ := hashFunction_lt hip
  refine ⟨htab.set hval ip, ?_, htable.set hval (Nat.lt_succ_self ip) (Nat.le_succ ip)⟩
  rw [updateHash, hhash]
  rfl

/-- The table of an earlier place. -/
lemma TableBefore.mono {htab : List ℕ} {ip ip' : ℕ} (h : TableBefore htab ip) (hip : ip ≤ ip') :
    TableBefore htab ip' :=
  ⟨h.length_eq, fun ref href => Nat.lt_of_lt_of_le (h.lt ref href) hip⟩

/-- The last two places of a match are entered in the table. -/
lemma updateHash_twice {htab : List ℕ} {ip : ℕ} (hip : ip + 3 < input.length)
    (htable : TableBefore htab ip) :
    ∃ htab₁ htab₂, updateHash input htab ip = .ok htab₁ ∧
      updateHash input htab₁ (ip + 1) = .ok htab₂ ∧ TableBefore htab₂ (ip + 2) := by
  obtain ⟨htab₁, hhash₁, htable₁⟩ :=
    updateHash_spec (show ip + 2 < input.length by omega) htable
  obtain ⟨htab₂, hhash₂, htable₂⟩ :=
    updateHash_spec (show ip + 1 + 2 < input.length by omega) htable₁
  exact ⟨htab₁, htab₂, hhash₁, hhash₂, htable₂⟩

/-- The second hash reads `ip` behind the comparisons; level 2 may reach the end of the text. -/
lemma Found.end_lt {ip distance len k : ℕ} (h : Found level input ip distance len)
    (hext : Extended input length ip distance len k) (hlimit : ip + 12 < length)
    (hlen : length ≤ input.length) (htwo : level = .two → length < input.length) :
    ip + len + k < input.length := by
  have hbound := hext.bound
  rcases h.len_eq with rfl | ⟨rfl, hlevel⟩
  · omega
  · have hlt := htwo hlevel
    omega

section Match

variable {ip op dist len : ℕ} {output bytes : List UInt8} {mtoks : List (LzToken UInt8)}

/-- The code of a match is written behind the tokens, and the next control byte behind it. -/
lemma Closed.writeAt_match (h : Closed level input ip output op toks rest)
    (hm : MatchTokens level dist len bytes mtoks) (hroom : bytes.length < rest.length) :
    ∃ output' w, writeAt output op bytes = .ok output' ∧
      writeAt output' (op + bytes.length) [UInt8.ofNat (fastlzMaxCopy - 1)] =
        .ok (encodeTokens level (toks ++ mtoks) ++ UInt8.ofNat (fastlzMaxCopy - 1) :: w) ∧
      rest.length = bytes.length + 1 + w.length := by
  obtain ⟨u, v, c, w, rfl, hu, hv, -⟩ := exists_room (l := rest) (a := bytes.length) (b := 0) hroom
  obtain rfl : v = [] := List.length_eq_zero_iff.mp hv
  rw [List.nil_append] at h
  have henc : encodeTokens level toks ++ (bytes ++ c :: w) =
      encodeTokens level (toks ++ mtoks) ++ c :: w := by
    rw [encodeTokens_append, hm.bytes_eq, List.append_assoc]
  refine ⟨_, w, writeAt_part h.output_eq h.op_eq hu, writeAt_cell henc ?_, ?_⟩
  · rw [encodeTokens_append, List.length_append, hm.bytes_eq, h.op_eq]
  · rw [List.length_append, List.nil_append, List.length_cons, hu]
    omega

/-- Behind a match no literal waits. -/
lemma Closed.compressInv (h : Closed level input ip output op toks rest)
    (hm : MatchTokens level dist len bytes mtoks) (hcov : (LzToken.back dist len).Covers input ip)
    (hip : ip + len ≤ length) (hroom : fastlzRoom length ≤ output.length) (htab : List ℕ)
    {w : List UInt8} (hw : rest.length = bytes.length + 1 + w.length) :
    CompressInv level input length
      ⟨ip + len, op + bytes.length + 1, 0, htab,
        encodeTokens level (toks ++ mtoks) ++ UInt8.ofNat (fastlzMaxCopy - 1) :: w⟩
      (toks ++ mtoks) (ip + len) [] w := by
  have henc : (encodeTokens level (toks ++ mtoks)).length =
      (encodeTokens level toks).length + bytes.length := by
    rw [encodeTokens_append, List.length_append, hm.bytes_eq]
  have htotal : output.length = (encodeTokens level toks).length + rest.length := by
    rw [h.output_eq, List.length_append]
  have hshort := hm.shorter
  have hsize := h.size
  refine ⟨rfl, ?_, rfl, by decide, fun tok htok => ?_, .inr (h.starts.append mtoks),
    covers_append h.covers (hm.covers hcov), rfl, rfl, hip, ?_, ?_⟩
  · rw [henc, h.op_eq]
    rfl
  · rcases List.mem_append.mp htok with hmem | hmem
    · exact h.encodable tok hmem
    · exact hm.encodable tok hmem
  · rw [henc]
    omega
  · rw [List.length_append, List.length_cons, henc]
    omega

end Match

/-- A match is written, and the text goes on behind it. -/
lemma encodeMatch_spec (h : CompressInv level input length s toks p lits rest)
    (hlimit : s.ip + 12 < length) (hlen : length ≤ input.length)
    (htwo : level = .two → length < input.length) {distance len : ℕ} {htab : List ℕ}
    (hfound : Found level input s.ip distance len) (htable : TableBefore htab (s.ip + 1)) :
    ∃ s' toks' p' lits' rest', encodeMatch level input length s distance len htab = .ok s' ∧
      CompressInv level input length s' toks' p' lits' rest' ∧ s.ip < s'.ip ∧
      TableBefore s'.htab s'.ip := by
  have hlen5 : len ≤ 5 ∧ 3 ≤ len := by
    rcases hfound.len_eq with rfl | ⟨rfl, -⟩ <;> omega
  obtain ⟨k, hextend, hext⟩ := extend_spec hfound.pos hfound.le
    (show s.ip + len + 8 ≤ length by omega) hlen
  have hcov := hext.covers hfound.pos hfound.le (by omega) hlen hfound.agree
  have hread := hfound.end_lt hext hlimit hlen htwo
  have hk := hext.pos
  have hbound := hext.bound
  obtain ⟨mtoks, hmtoks⟩ := matchBytes_tokens hfound.pos hfound.limit
    (show 3 ≤ len + k - 1 by omega)
    (fun hlevel hfar => by have := hfound.far hlevel hfar; omega)
  obtain ⟨op, output, toks', rest', hclose, hclosed, hlength, -⟩ := closeLiterals_spec h
  have hbias : s.ip + len + k - 3 - s.ip = len + k - 1 - 2 := by omega
  have hip : s.ip + len + k - 3 + 2 = s.ip + (len + k - 1) := by omega
  obtain ⟨bytes, hbytes⟩ : ∃ bytes, matchBytes level (distance - 1) (len + k - 1 - 2) = bytes :=
    ⟨_, rfl⟩
  rw [hbytes] at hmtoks
  have hroom : fastlzRoom length ≤ output.length := hlength ▸ h.room
  -- the room behind the tokens holds the code and the next control byte
  have hfits : bytes.length < rest'.length := by
    have hshort := hmtoks.shorter
    have hsize := hclosed.size
    have htotal := congrArg List.length hclosed.output_eq
    rw [List.length_append] at htotal
    unfold fastlzRoom at hroom
    omega
  obtain ⟨output', w, hwrite, hwrite', hw⟩ := hclosed.writeAt_match hmtoks hfits
  obtain ⟨htab₁, htab₂, hhash₁, hhash₂, htable₂⟩ := updateHash_twice
    (show s.ip + len + k - 3 + 3 < input.length by omega)
    (htable.mono (show s.ip + 1 ≤ s.ip + len + k - 3 by omega))
  rw [encodeMatch, hextend, ok_bind, hclose, ok_bind]
  dsimp only
  rw [hbias, hbytes, hwrite, ok_bind, hhash₁, ok_bind, hhash₂, ok_bind, hwrite', ok_bind, hip]
  have hinv := hclosed.compressInv hmtoks hcov (show s.ip + (len + k - 1) ≤ length by omega) hroom
    htab₂ hw
  refine ⟨_, _, _, _, _, rfl, hinv, ?_, hip ▸ htable₂⟩
  change s.ip < s.ip + (len + k - 1)
  omega

/-! ### The loops -/

/-- The search of the main loop finds nothing in the text. -/
def Unrepeated (level : FastlzLevel) (input : List UInt8) (length : ℕ) : Prop :=
  ∀ anchor distance len, anchor + 12 < length → ¬ Found level input anchor distance len

/-- A round of the main loop.  A text without matches becomes literals. -/
lemma compressRound_spec (h : CompressInv level input length s toks p lits rest)
    (hlimit : s.ip + 12 < length) (hlen : length ≤ input.length)
    (htwo : level = .two → length < input.length) (hpos : 1 ≤ s.ip)
    (htable : TableBefore s.htab s.ip) :
    ∃ s' toks' p' lits' rest', compressRound level input length s = .ok (.inl s') ∧
      CompressInv level input length s' toks' p' lits' rest' ∧ s.ip < s'.ip ∧
      TableBefore s'.htab s'.ip ∧ (Unrepeated level input length → AllLiterals level toks p →
        AllLiterals level toks' p') := by
  obtain ⟨found, htab, hfind, htable', hspec⟩ := findMatch_spec level hpos hlimit hlen
    htable
  rw [compressRound, if_pos hlimit, hfind, ok_bind]
  cases found with
  | none =>
    -- only the table differs from the state of the invariant
    have h' : CompressInv level input length { s with htab := htab } toks p lits rest :=
      ⟨h.output_eq, h.op_eq, h.copy_eq, h.copy_lt, h.encodable, h.starts, h.covers, h.lits_eq,
        h.ip_eq, h.ip_le, h.size, h.room⟩
    obtain ⟨s', toks', p', lits', rest', hput, hinv, hip, hhtab, hlit⟩ :=
      putLiteral_spec h' (show s.ip < length by omega) hlen
    dsimp only
    rw [hput, ok_bind]
    refine ⟨s', toks', p', lits', rest', rfl, hinv, ?_, ?_, fun _ => hlit⟩
    · rw [hip]
      exact Nat.lt_succ_self _
    · rw [hip, hhtab]
      exact htable'
  | some found =>
    obtain ⟨distance, len⟩ := found
    have hfound := hspec distance len rfl
    obtain ⟨s', toks', p', lits', rest', hencode, hinv, hip, hhtab⟩ :=
      encodeMatch_spec h hlimit hlen htwo hfound htable'
    dsimp only
    rw [hencode, ok_bind]
    exact ⟨s', toks', p', lits', rest', rfl, hinv, hip, hhtab,
      fun hnone => absurd hfound (hnone s.ip distance len hlimit)⟩

/-- The main loop comes to an end near the end of the text, with the invariant; every round takes
at least one byte. -/
theorem loop_compress (h : CompressInv level input length s toks p lits rest)
    (hlen : length ≤ input.length) (htwo : level = .two → length < input.length)
    (hpos : 1 ≤ s.ip) (htable : TableBefore s.htab s.ip) :
    ∃ s' toks' p' lits' rest',
      Settles (fun fuel => loop (compressRound level input length) fuel s) (length - s.ip + 1) s' ∧
      CompressInv level input length s' toks' p' lits' rest' ∧
      (Unrepeated level input length → AllLiterals level toks p →
        AllLiterals level toks' p') := by
  induction hleft : length - s.ip using Nat.strong_induction_on generalizing s toks p lits rest with
  | _ left ih =>
    by_cases hlimit : s.ip + 12 < length
    · obtain ⟨s', toks', p', lits', rest', hround, hinv, hip, htable', hlit⟩ :=
        compressRound_spec h hlimit hlen htwo hpos htable
      obtain ⟨s'', toks'', p'', lits'', rest'', hloop, hinv'', hlit'⟩ :=
        ih (length - s'.ip) (by omega) hinv (by omega) htable' rfl
      refine ⟨s'', toks'', p'', lits'', rest'', .succ fun n hn => ?_, hinv'',
        fun hnone h => hlit' hnone (hlit hnone h)⟩
      exact (loop_of_next hround n).trans (hloop n (by omega))
    · have hexit : compressRound level input length s = .ok (.inr s) := if_neg hlimit
      exact ⟨s, toks, p, lits, rest, .succ fun n _ => loop_of_exit hexit n, h, fun _ => id⟩

/-- The left-over. -/
lemma leftOver_spec (n : ℕ) (h : CompressInv level input length s toks p lits rest)
    (hn : s.ip + n = length) (hlen : length ≤ input.length) :
    ∃ s' toks' p' lits' rest', leftOver input n s = .ok s' ∧
      CompressInv level input length s' toks' p' lits' rest' ∧ s'.ip = length ∧
      (AllLiterals level toks p → AllLiterals level toks' p') := by
  induction n generalizing s toks p lits rest with
  | zero => exact ⟨s, toks, p, lits, rest, rfl, h, hn, id⟩
  | succ n ih =>
    obtain ⟨s', toks', p', lits', rest', hput, hinv, hip, -, hlit⟩ :=
      putLiteral_spec h (by omega) hlen
    obtain ⟨s'', toks'', p'', lits'', rest'', hleft, hinv', hip', hlit'⟩ := ih hinv (by omega)
    refine ⟨s'', toks'', p'', lits'', rest'', ?_, hinv', hip', fun h => hlit' (hlit h)⟩
    rw [leftOver, hput, ok_bind, hleft]

/-- The first bytes in front of the main loop. -/
lemma startCompress_spec (level : FastlzLevel) {output : List UInt8} (h4 : 4 ≤ length)
    (hlen : length ≤ input.length) (hroom : fastlzRoom length ≤ output.length) :
    ∃ s lits rest, startCompress input output = .ok s ∧
      CompressInv level input length s [] 0 lits rest ∧ s.ip = 2 ∧ TableBefore s.htab s.ip := by
  obtain ⟨b, b', tail, rfl⟩ : ∃ b b' tail, input = b :: b' :: tail := by
    match input, hlen with
    | b :: b' :: tail, _ => exact ⟨b, b', tail, rfl⟩
    | [], hlen => simp at hlen; omega
    | [b], hlen => simp at hlen; omega
  unfold fastlzRoom at hroom
  obtain ⟨c₀, c₁, c₂, rest, rfl⟩ : ∃ c₀ c₁ c₂ rest, output = c₀ :: c₁ :: c₂ :: rest := by
    match output, hroom with
    | c₀ :: c₁ :: c₂ :: rest, _ => exact ⟨c₀, c₁, c₂, rest, rfl⟩
    | [], hroom => simp at hroom
    | [_], hroom => simp at hroom; omega
    | [_, _], hroom => simp at hroom; omega
  have hparts : c₀ :: c₁ :: c₂ :: rest = [] ++ ([c₀, c₁, c₂] ++ rest) := rfl
  have hwrite : writeAt (c₀ :: c₁ :: c₂ :: rest) 0 [UInt8.ofNat (fastlzMaxCopy - 1), b, b'] =
      .ok (UInt8.ofNat (fastlzMaxCopy - 1) :: b :: b' :: rest) :=
    writeAt_part hparts rfl rfl
  refine ⟨⟨2, 3, 2, List.replicate fastlzHashSize 0,
    UInt8.ofNat (fastlzMaxCopy - 1) :: b :: b' :: rest⟩, [b, b'], rest, ?_, ?_, rfl, ?_⟩
  · have hbyte : byteAt (b :: b' :: tail) 0 = .ok b := rfl
    have hbyte' : byteAt (b :: b' :: tail) 1 = .ok b' := rfl
    rw [startCompress, hbyte, ok_bind, hbyte', ok_bind, hwrite, ok_bind]
    rfl
  · refine ⟨rfl, rfl, rfl, ?_, nofun, .inl ⟨rfl, Nat.le_add_left 1 1⟩, rfl, rfl, rfl, ?_, le_rfl,
      hroom⟩
    · exact (show 2 < 32 by decide)
    · change 2 ≤ length
      omega
  · refine ⟨List.length_replicate, fun ref href => ?_⟩
    rw [List.eq_of_mem_replicate href]
    exact Nat.zero_lt_two

/-- The output with the marker of its level in the first byte. -/
def marked (level : FastlzLevel) (bytes : List UInt8) : List UInt8 :=
  match level, bytes with
  | .two, b :: rest => (b ||| 32) :: rest
  | _, bytes => bytes

/-- The marker does not change the length. -/
@[simp] lemma length_marked (level : FastlzLevel) (bytes : List UInt8) :
    (marked level bytes).length = bytes.length := by
  unfold marked
  split <;> rfl

/-- The marker is written in the first byte. -/
lemma putMarker_spec (level : FastlzLevel) {bytes : List UInt8} (hne : bytes ≠ [])
    (rest : List UInt8) : putMarker level (bytes ++ rest) = .ok (marked level bytes ++ rest) := by
  obtain ⟨b, bytes, rfl⟩ := List.exists_cons_of_ne_nil hne
  cases level with
  | one => rfl
  | two =>
    have hparts : b :: bytes ++ rest = [] ++ b :: (bytes ++ rest) := rfl
    exact writeAt_cell hparts rfl

/-- The part behind the main loop: the output is the marked code of tokens for the whole text. -/
lemma finishCompress_spec (h : CompressInv level input length s toks p lits rest)
    (hlen : length ≤ input.length) :
    ∃ toks' rest', finishCompress level input length s =
        .ok (((encodeTokens level toks').length : ℕ),
          marked level (encodeTokens level toks') ++ rest') ∧
      (∀ tok ∈ toks', Encodable level tok) ∧ StartsLiteral toks' ∧ Covers input 0 toks' length ∧
      (encodeTokens level toks').length ≤ length + (length + 31) / 32 ∧
      (AllLiterals level toks p →
        (encodeTokens level toks').length = length + (length + 31) / 32) := by
  obtain ⟨s₁, toks₁, p₁, lits₁, rest₁, hleft, hinv₁, rfl, hlit₁⟩ :=
    leftOver_spec (length - s.ip) h (by have := h.ip_le; omega) hlen
  obtain ⟨op, out, toks', rest', hclose, hclosed, -, hlit⟩ := closeLiterals_spec hinv₁
  have hne : encodeTokens level toks' ≠ [] := by
    obtain ⟨cells, toks'', rfl⟩ := hclosed.starts
    rw [encodeTokens_cons, tokenBytes]
    exact List.cons_ne_nil _ _
  refine ⟨toks', rest', ?_, hclosed.encodable, hclosed.starts, hclosed.covers, ?_,
    fun h => hlit (hlit₁ h)⟩
  · rw [finishCompress, hleft, ok_bind, hclose, ok_bind]
    dsimp only
    rw [hclosed.output_eq, putMarker_spec level hne, ok_bind, hclosed.op_eq]
    rfl
  · have hsize := hclosed.size
    omega

/-- The compressor comes to an end for every text of at least four bytes.  The output is the marked
code of tokens for the text, and takes at most one byte for every 32 bytes more than the text; it
takes so much if the text has no matches. -/
theorem compressor_result (level : FastlzLevel) {output : List UInt8} (h4 : 4 ≤ length)
    (hlen : length ≤ input.length) (htwo : level = .two → length < input.length)
    (hroom : fastlzRoom length ≤ output.length) :
    ∃ toks rest, Settles (fastlzCompressor level true input length output) length
        (((encodeTokens level toks).length : ℕ), marked level (encodeTokens level toks) ++ rest) ∧
      (∀ tok ∈ toks, Encodable level tok) ∧ StartsLiteral toks ∧ Covers input 0 toks length ∧
      (encodeTokens level toks).length ≤ length + (length + 31) / 32 ∧
      (Unrepeated level input length →
        (encodeTokens level toks).length = length + (length + 31) / 32) := by
  obtain ⟨s, lits, rest, hstart, hinv, hip, htable⟩ := startCompress_spec level h4 hlen hroom
  obtain ⟨s₁, toks₁, p₁, lits₁, rest₁, hloop, hinv₁, hlit₁⟩ :=
    loop_compress hinv hlen htwo (by omega) htable
  obtain ⟨toks, rest, hfinish, henc, hstarts, hcov, hsize, hlit⟩ := finishCompress_spec hinv₁ hlen
  refine ⟨toks, rest, fun fuel hfuel => ?_, henc, hstarts, hcov, hsize,
    fun hnone => hlit (hlit₁ hnone rfl)⟩
  rw [fastlzCompressor, if_neg (by decide), if_neg (by omega), hstart]
  change loop _ fuel s >>= _ = _
  rw [show loop (compressRound level input length) fuel s = .done s₁ from hloop fuel (by omega),
    Run.done_bind, hfinish]
  rfl

end WiotaAp
