import WiotaAp.Codec.CJson

/-!
# The parser of cJSON stays in its text

The parser looks ahead by one byte without a check in one place only: `parse_object` steps over a
comma and lets `parse_string` read the first byte of a name.  A text that ends in its terminator
stops it before the end (`Guarded`); a text that is given by its length needs one byte behind it.

A string is read twice.  The first loop of `parse_string` counts backslashes in pairs, and the
second one reads the escapes, which need not be the same pairs: four bytes behind `\u` that are no
digits are taken for the code zero, whatever they are.  `Room` says why the output has room all the
same.
-/

namespace WiotaAp

open Buffers

variable {content : List UInt8} {length : ℕ}

/-! ### Places in the text -/

/-- The memory that the parser needs: a byte behind the text, or a terminator at its end. -/
structure Guarded (content : List UInt8) (length : ℕ) : Prop where
  length_le : length ≤ content.length
  guard : length < content.length ∨ content[length - 1]? = some 0

/-- A place at which the parser can stand: every byte up to there can be read. -/
def Inside (content : List UInt8) (length offset : ℕ) : Prop :=
  offset ≤ length ∧ offset < content.length

lemma Guarded.lt_length (h : Guarded content length) {offset : ℕ} (hlt : offset < length) :
    offset < content.length :=
  Nat.lt_of_lt_of_le hlt h.length_le

lemma Guarded.inside (h : Guarded content length) {offset : ℕ} (hlt : offset < length) :
    Inside content length offset :=
  ⟨Nat.le_of_lt hlt, h.lt_length hlt⟩

/-- The parser can step over a byte that is not the terminator. -/
lemma Guarded.step (h : Guarded content length) {offset : ℕ} {c : UInt8} (hlt : offset < length)
    (hbyte : content[offset]? = some c) (hc : c ≠ 0) : Inside content length (offset + 1) := by
  have hle := h.length_le
  refine ⟨hlt, ?_⟩
  rcases h.guard with hbehind | hzero
  · omega
  · by_contra hend
    have hlast : length - 1 = offset := by omega
    rw [hlast, hbyte] at hzero
    exact hc (Option.some.inj hzero)

lemma exists_byteAt {i : ℕ} (h : i < content.length) :
    ∃ c, byteAt content i = .ok c ∧ content[i]? = some c := by
  obtain ⟨c, hc⟩ := byteAt_of_lt h
  exact ⟨c, hc, getElem?_of_byteAt hc⟩

/-! ### Single tests -/

/-- A test of the next byte says something about a byte of the text. -/
lemma byteIs_ok (h : Guarded content length) (b : ParseBuffer) (test : UInt8 → Bool) :
    ∃ v, byteIs content length b test = .ok v ∧
      (v = true → b.offset < length ∧ ∃ c, content[b.offset]? = some c ∧ test c = true) := by
  by_cases hlt : b.offset < length
  · obtain ⟨c, hc, hbyte⟩ := exists_byteAt (h.lt_length hlt)
    refine ⟨test c, ?_, fun htest => ⟨hlt, c, hbyte, htest⟩⟩
    rw [byteIs, if_pos hlt, hc]
    rfl
  · exact ⟨false, if_neg hlt, nofun⟩

/-- A comparison with a word in the text. -/
lemma startsWith_ok {word : List UInt8} {offset : ℕ} (h : offset + word.length ≤ content.length) :
    ∃ v, startsWith content offset word = .ok v ∧
      (v = true → ∀ i c, word[i]? = some c → content[offset + i]? = some c) := by
  induction word generalizing offset with
  | nil => exact ⟨true, rfl, fun _ i c hc => by simp at hc⟩
  | cons a word ih =>
    rw [List.length_cons] at h
    obtain ⟨d, hd, hbyte⟩ := exists_byteAt (show offset < content.length by omega)
    rw [startsWith, hd, ok_bind]
    by_cases hda : d = a
    · obtain ⟨v, hv, hword⟩ := ih (show offset + 1 + word.length ≤ content.length by omega)
      refine ⟨v, by rw [if_pos hda, hv], ?_⟩
      intro htrue i c hc
      cases i with
      | zero =>
        cases hc
        rw [← hda]
        exact hbyte
      | succ i =>
        have := hword htrue i c hc
        rwa [Nat.add_assoc, Nat.add_comm 1 i] at this
    · exact ⟨false, by rw [if_neg hda]; rfl, nofun⟩

/-- Behind a word the parser can stand. -/
lemma wordIs_ok (h : Guarded content length) (b : ParseBuffer) {word : List UInt8} {i : ℕ}
    {c : UInt8} (hlast : word[i]? = some c) (hlen : word.length = i + 1) (hc : c ≠ 0) :
    ∃ v, wordIs content length b word = .ok v ∧
      (v = true → Inside content length (b.offset + word.length)) := by
  have hle := h.length_le
  by_cases hlt : b.offset + word.length ≤ length
  · obtain ⟨v, hv, hword⟩ := startsWith_ok (Nat.le_trans hlt hle)
    refine ⟨v, by rw [wordIs, if_pos hlt, hv], ?_⟩
    intro htrue
    rw [hlen] at hlt ⊢
    exact h.step (show b.offset + i < length by omega) (hword htrue i c hlast) hc
  · exact ⟨false, if_neg hlt, nofun⟩

/-! ### White space -/

/-- The loop over white space ends in the text. -/
lemma skipLoop_ok {left offset : ℕ} (h : offset + left ≤ content.length) :
    ∃ p, skipLoop content left offset = .ok p ∧ offset ≤ p ∧ p ≤ offset + left := by
  induction left generalizing offset with
  | zero => exact ⟨offset, rfl, le_rfl, le_rfl⟩
  | succ left ih =>
    obtain ⟨c, hc, -⟩ := exists_byteAt (show offset < content.length by omega)
    rw [skipLoop, hc, ok_bind]
    by_cases hspace : c ≤ 32
    · obtain ⟨p, hp, hle, hend⟩ := ih (show offset + 1 + left ≤ content.length by omega)
      exact ⟨p, by rw [if_pos hspace, hp], by omega, by omega⟩
    · exact ⟨offset, by rw [if_neg hspace]; rfl, le_rfl, Nat.le_add_right _ _⟩

/-- White space is skipped inside the text, and the end of the text is not reached. -/
lemma bufferSkipWhitespace_ok (h : Guarded content length) {b : ParseBuffer}
    (hb : Inside content length b.offset) :
    ∃ p, bufferSkipWhitespace content length b = .ok ⟨p, b.depth⟩ ∧ b.offset ≤ p ∧
      Inside content length p ∧ (b.offset < length → p < length) := by
  have hlen := h.length_le
  by_cases hlt : b.offset < length
  · obtain ⟨p, hp, hle, hend⟩ :=
      skipLoop_ok (show b.offset + (length - b.offset) ≤ content.length by omega)
    rw [bufferSkipWhitespace, if_pos hlt, hp, ok_bind]
    by_cases heq : p = length
    · refine ⟨p - 1, by rw [if_pos heq]; rfl, by omega, ⟨by omega, by omega⟩, fun _ => by omega⟩
    · refine ⟨p, by rw [if_neg heq]; rfl, hle, ⟨by omega, by omega⟩, fun _ => by omega⟩
  · exact ⟨b.offset, if_neg hlt, le_rfl, hb, fun hlt' => absurd hlt' hlt⟩

/-! ### Numbers -/

/-- What `parse_number` copies are bytes of the text. -/
lemma copyNumber_ok {left offset : ℕ} (h : offset + left ≤ content.length) :
    ∃ text, copyNumber content left offset = .ok text ∧ text.length ≤ left ∧
      ∀ i < text.length, ∃ c, content[offset + i]? = some c ∧ isNumberChar c := by
  induction left generalizing offset with
  | zero => exact ⟨[], rfl, le_rfl, fun i hi => absurd hi (Nat.not_lt_zero i)⟩
  | succ left ih =>
    obtain ⟨c, hc, hbyte⟩ := exists_byteAt (show offset < content.length by omega)
    rw [copyNumber, hc, ok_bind]
    by_cases hchar : isNumberChar c = true
    · obtain ⟨text, htext, hle, hall⟩ := ih (show offset + 1 + left ≤ content.length by omega)
      refine ⟨c :: text, by rw [if_pos hchar, htext]; rfl, Nat.succ_le_succ hle, ?_⟩
      intro i hi
      cases i with
      | zero => exact ⟨c, hbyte, hchar⟩
      | succ i =>
        have := hall i (Nat.lt_of_succ_lt_succ hi)
        rwa [Nat.add_assoc, Nat.add_comm 1 i] at this
    · exact ⟨[], by rw [if_neg hchar]; rfl, Nat.zero_le _,
        fun i hi => absurd hi (Nat.not_lt_zero i)⟩

lemma ne_zero_of_isNumberChar {c : UInt8} (h : isNumberChar c = true) : c ≠ 0 := by
  rintro rfl
  exact absurd h (by decide)

/-! ### Strings -/

lemma hexDigit_lt {c : UInt8} {d : ℕ} (h : hexDigit c = some d) : d < 16 := by
  simp only [hexDigit, UInt8.le_iff_toNat_le, UInt8.reduceToNat] at h
  split_ifs at h <;> cases h <;> omega

/-- The digits of a code are read in the text, and the code has sixteen bits. -/
lemma hexLoop_ok {left input h : ℕ} (hin : input + (left + 1) ≤ content.length) :
    ∃ r, hexLoop content (left + 1) input h = .ok r ∧ r < h * 16 ^ left + 16 ^ (left + 1) := by
  induction left generalizing input h with
  | zero =>
    obtain ⟨c, hc, -⟩ := exists_byteAt (show input < content.length by omega)
    rw [hexLoop, hc, ok_bind]
    cases hd : hexDigit c with
    | none => exact ⟨0, rfl, by omega⟩
    | some d => exact ⟨h + d, rfl, by have := hexDigit_lt hd; omega⟩
  | succ left ih =>
    obtain ⟨c, hc, -⟩ := exists_byteAt (show input < content.length by omega)
    rw [hexLoop, hc, ok_bind]
    cases hd : hexDigit c with
    | none => exact ⟨0, rfl, by positivity⟩
    | some d =>
      have hlt := hexDigit_lt hd
      obtain ⟨r, hr, hbound⟩ :=
        ih (h := (h + d) <<< 4) (show input + 1 + (left + 1) ≤ content.length by omega)
      refine ⟨r, hr, Nat.lt_of_lt_of_le hbound ?_⟩
      rw [Nat.shiftLeft_eq]
      calc (h + d) * 2 ^ 4 * 16 ^ left + 16 ^ (left + 1)
          = h * 16 ^ (left + 1) + (d + 1) * 16 ^ (left + 1) := by ring
        _ ≤ h * 16 ^ (left + 1) + 16 * 16 ^ (left + 1) :=
          Nat.add_le_add_left (Nat.mul_le_mul_right _ hlt) _
        _ = h * 16 ^ (left + 1) + 16 ^ (left + 1 + 1) := by ring

lemma parseHex4_ok {input : ℕ} (h : input + 4 ≤ content.length) :
    ∃ code, parseHex4 content input = .ok code ∧ code < 0x10000 := by
  obtain ⟨code, hcode, hlt⟩ := hexLoop_ok (h := 0) (show input + (3 + 1) ≤ content.length from h)
  exact ⟨code, hcode, by simpa using hlt⟩

lemma length_utf8Tail (position codepoint : ℕ) (bytes : List UInt8) :
    (utf8Tail position codepoint bytes).2.length = position + bytes.length := by
  induction position generalizing codepoint bytes with
  | zero => exact (Nat.zero_add _).symm
  | succ position ih =>
    rw [utf8Tail, ih, List.length_cons]
    omega

/-- The number of the bytes for a code point. -/
lemma length_utf8Bytes {codepoint : ℕ} {bytes : List UInt8} (h : utf8Bytes codepoint = some bytes) :
    bytes.length ≤ 4 ∧ (codepoint < 0x10000 → bytes.length ≤ 3) := by
  rw [utf8Bytes] at h
  split_ifs at h <;> cases h <;>
    simp only [utf8Bytes.withMark, List.length_cons, length_utf8Tail, List.length_nil] <;> omega

/-- A literal lies in front of the end of the string, and takes more bytes there than it gives. -/
lemma utf16LiteralToUtf8_ok {inputEnd : ℕ} (hend : inputEnd ≤ content.length)
    (inputPointer : ℕ) :
    ∃ r, utf16LiteralToUtf8 content inputPointer inputEnd = .ok r ∧
      ∀ n bytes, r = some (n, bytes) → inputPointer + n ≤ inputEnd ∧ 0 < n ∧
        2 * bytes.length ≤ n := by
  rw [utf16LiteralToUtf8, utf16Literal]
  by_cases hshort : inputEnd - inputPointer < 6
  · exact ⟨none, by rw [if_pos hshort]; rfl, nofun⟩
  rw [if_neg hshort]
  obtain ⟨first, hfirst, hlt⟩ :=
    parseHex4_ok (show inputPointer + 2 + 4 ≤ content.length by omega)
  rw [hfirst, ok_bind]
  by_cases hlow : 0xDC00 ≤ first ∧ first ≤ 0xDFFF
  · exact ⟨none, by rw [if_pos hlow]; rfl, nofun⟩
  rw [if_neg hlow]
  by_cases hhigh : 0xD800 ≤ first ∧ first ≤ 0xDBFF
  · rw [if_pos hhigh]
    by_cases hshort' : inputEnd - (inputPointer + 6) < 6
    · exact ⟨none, by rw [if_pos hshort']; rfl, nofun⟩
    rw [if_neg hshort']
    obtain ⟨marked, hmarked, -⟩ :=
      startsWith_ok (show inputPointer + 6 + [92, 117].length ≤ content.length by simp; omega)
    rw [hmarked, ok_bind]
    cases marked with
    | false => exact ⟨none, rfl, nofun⟩
    | true =>
      rw [if_pos rfl]
      obtain ⟨second, hsecond, -⟩ :=
        parseHex4_ok (show inputPointer + 8 + 4 ≤ content.length by omega)
      rw [hsecond, ok_bind]
      by_cases hout : second < 0xDC00 ∨ second > 0xDFFF
      · exact ⟨none, by rw [if_pos hout]; rfl, nofun⟩
      · rw [if_neg hout]
        refine ⟨_, rfl, ?_⟩
        intro n bytes hr
        obtain ⟨bs, hbs, heq⟩ := Option.map_eq_some_iff.mp hr
        cases heq
        have := (length_utf8Bytes hbs).1
        omega
  · rw [if_neg hhigh]
    refine ⟨_, rfl, ?_⟩
    intro n bytes hr
    obtain ⟨bs, hbs, heq⟩ := Option.map_eq_some_iff.mp hr
    cases heq
    have := (length_utf8Bytes hbs).2 hlt
    omega

/-- The bytes from `p` to `q` are `k` units for the first loop of `parse_string`: single bytes, and
backslashes with the byte behind them. -/
inductive Units (content : List UInt8) : (p q k : ℕ) → Prop
  | nil (p : ℕ) : Units content p p 0
  | single {p q k : ℕ} {c : UInt8} (hbyte : content[p]? = some c) (hc : c ≠ 92)
      (h : Units content (p + 1) q k) : Units content p q (k + 1)
  | pair {p q k : ℕ} (hbyte : content[p]? = some 92) (h : Units content (p + 2) q k) :
      Units content p q (k + 1)

lemma Units.le {p q k : ℕ} (h : Units content p q k) : p ≤ q := by
  induction h with
  | nil p => exact le_rfl
  | single hbyte hc h ih => omega
  | pair hbyte h ih => omega

/-- From any place on, the rest is units, or is so behind the second byte of a pair.  Every unit
counts for two bytes at most. -/
lemma Units.drop {p q k m : ℕ} (h : Units content p q k) (hp : p ≤ m) (hq : m ≤ q) :
    (∃ k', Units content m q k' ∧ 2 * k' + (m - p) ≤ 2 * k) ∨
      (m < q ∧ ∃ k', Units content (m + 1) q k' ∧ 2 * k' + (m + 1 - p) ≤ 2 * k) := by
  induction h with
  | nil p =>
    obtain rfl := Nat.le_antisymm hp hq
    exact .inl ⟨0, .nil _, by omega⟩
  | @single p q k c hbyte hc h ih =>
    rcases Nat.eq_or_lt_of_le hp with rfl | hlt
    · exact .inl ⟨k + 1, .single hbyte hc h, by omega⟩
    · rcases ih hlt hq with ⟨k', hk', hle⟩ | ⟨hmq, k', hk', hle⟩
      · exact .inl ⟨k', hk', by omega⟩
      · exact .inr ⟨hmq, k', hk', by omega⟩
  | @pair p q k hbyte h ih =>
    have hle := h.le
    rcases Nat.eq_or_lt_of_le hp with rfl | hlt
    · exact .inl ⟨k + 1, .pair hbyte h, by omega⟩
    rcases Nat.eq_or_lt_of_le hlt with rfl | hlt'
    · exact .inr ⟨by omega, k, h, by omega⟩
    · rcases ih hlt' hq with ⟨k', hk', hle'⟩ | ⟨hmq, k', hk', hle'⟩
      · exact .inl ⟨k', hk', by omega⟩
      · exact .inr ⟨hmq, k', hk', by omega⟩

/-- The second loop of `parse_string` at the place `ip` with `op` bytes written has room in an
output for `size` units: one for each unit that is still to come, also when `ip` is the second byte
of a unit.  The closing quote can be taken for the second byte of an escape. -/
def Room (content : List UInt8) (inputEnd size ip op : ℕ) : Prop :=
  (∃ k, Units content ip inputEnd k ∧ op + k ≤ size) ∨
    (ip < inputEnd ∧ ∃ k, Units content (ip + 1) inputEnd k ∧ op + 1 + k ≤ size) ∨
    (ip = inputEnd + 1 ∧ op ≤ size)

lemma Room.le {inputEnd size ip op : ℕ} (h : Room content inputEnd size ip op) : op ≤ size := by
  rcases h with ⟨k, -, hle⟩ | ⟨-, k, -, hle⟩ | ⟨-, hle⟩ <;> omega

/-- Some bytes are read, and at most half as many are written. -/
lemma Room.advance {inputEnd size ip op n w : ℕ} (h : Room content inputEnd size ip op)
    (hn : ip + n ≤ inputEnd) (hpos : 0 < n) (hw : 2 * w ≤ n) :
    Room content inputEnd size (ip + n) (op + w) := by
  rcases h with ⟨k, hk, hle⟩ | ⟨hlt, k, hk, hle⟩ | ⟨heq, hle⟩
  · rcases hk.drop (Nat.le_add_right ip n) hn with ⟨k', hk', hle'⟩ | ⟨hmq, k', hk', hle'⟩
    · exact .inl ⟨k', hk', by omega⟩
    · exact .inr (.inl ⟨hmq, k', hk', by omega⟩)
  · rcases hk.drop (show ip + 1 ≤ ip + n by omega) hn with ⟨k', hk', hle'⟩ | ⟨hmq, k', hk', hle'⟩
    · exact .inl ⟨k', hk', by omega⟩
    · exact .inr (.inl ⟨hmq, k', hk', by omega⟩)
  · omega

/-- A byte that is no backslash is copied. -/
lemma Room.copy {inputEnd size ip op : ℕ} {c : UInt8} (h : Room content inputEnd size ip op)
    (hlt : ip < inputEnd) (hbyte : content[ip]? = some c) (hc : c ≠ 92) :
    Room content inputEnd size (ip + 1) (op + 1) := by
  rcases h with ⟨k, hk, hle⟩ | ⟨-, k, hk, hle⟩ | ⟨heq, hle⟩
  · cases hk with
    | nil => omega
    | single hbyte' hc' h => exact .inl ⟨_, h, by omega⟩
    | pair hbyte' h =>
      rw [hbyte] at hbyte'
      exact absurd (Option.some.inj hbyte') hc
  · exact .inl ⟨k, hk, by omega⟩
  · omega

/-- An escape of one byte is copied. -/
lemma Room.escape {inputEnd size ip op : ℕ} (h : Room content inputEnd size ip op)
    (hlt : ip < inputEnd) (hbyte : content[ip]? = some 92) :
    Room content inputEnd size (ip + 2) (op + 1) := by
  rcases Nat.lt_or_ge inputEnd (ip + 2) with hend | hend
  · -- the second byte is the closing quote
    obtain rfl : inputEnd = ip + 1 := by omega
    rcases h with ⟨k, hk, hle⟩ | ⟨-, k, hk, hle⟩ | ⟨heq, hle⟩
    · cases hk with
      | single hbyte' hc' h =>
        rw [hbyte] at hbyte'
        exact absurd (Option.some.inj hbyte').symm hc'
      | pair hbyte' h =>
        have := h.le
        omega
    · exact .inr (.inr ⟨rfl, by omega⟩)
    · omega
  · exact h.advance hend (by decide) (by decide)

/-- A byte of the first loop of `parse_string`. -/
lemma scanString_succ (left inputEnd skipped : ℕ) :
    scanString content (left + 1) inputEnd skipped = (do
      let c ← byteAt content inputEnd
      if c = 34 then return some (inputEnd, skipped)
      else if c = 92 then
        match left with
        | 0 => return none
        | left + 1 => scanString content left (inputEnd + 2) (skipped + 1)
      else scanString content left (inputEnd + 1) skipped) := by
  cases left <;> rfl

/-- What the first loop of `parse_string` finds. -/
lemma scanString_ok {left inputEnd : ℕ} (skipped : ℕ) (h : inputEnd + left ≤ content.length) :
    ∃ r, scanString content left inputEnd skipped = .ok r ∧
      ∀ e sk, r = some (e, sk) → e < inputEnd + left ∧ content[e]? = some 34 ∧
        ∃ k, Units content inputEnd e k ∧ e + skipped = inputEnd + k + sk := by
  induction left using Nat.strong_induction_on generalizing inputEnd skipped with
  | _ left ih =>
    cases left with
    | zero => exact ⟨none, rfl, nofun⟩
    | succ left =>
      obtain ⟨c, hc, hbyte⟩ := exists_byteAt (show inputEnd < content.length by omega)
      rw [scanString_succ, hc, ok_bind]
      by_cases hquote : c = 34
      · refine ⟨some (inputEnd, skipped), by rw [if_pos hquote]; rfl, ?_⟩
        intro e sk hr
        cases hr
        exact ⟨by omega, by rw [hbyte, hquote], 0, .nil _, by omega⟩
      rw [if_neg hquote]
      by_cases hslash : c = 92
      · rw [if_pos hslash]
        cases left with
        | zero => exact ⟨none, rfl, nofun⟩
        | succ left =>
          obtain ⟨r, hr, hspec⟩ := ih left (by omega) (skipped + 1)
            (show inputEnd + 2 + left ≤ content.length by omega)
          refine ⟨r, hr, ?_⟩
          intro e sk hres
          obtain ⟨hlt, hend, k, hk, hcount⟩ := hspec e sk hres
          exact ⟨by omega, hend, k + 1, .pair (by rw [hbyte, hslash]) hk, by omega⟩
      · rw [if_neg hslash]
        obtain ⟨r, hr, hspec⟩ := ih left (by omega) skipped
          (show inputEnd + 1 + left ≤ content.length by omega)
        refine ⟨r, hr, ?_⟩
        intro e sk hres
        obtain ⟨hlt, hend, k, hk, hcount⟩ := hspec e sk hres
        exact ⟨by omega, hend, k + 1, .single hbyte hslash hk, by omega⟩

/-- The state of the second loop of `parse_string`. -/
def UnescapeState.Good (content : List UInt8) (inputEnd size : ℕ) (s : UnescapeState) : Prop :=
  s.output.length = size + 2 ∧ Room content inputEnd size s.inputPointer s.outputPointer

/-- What the second loop ends with: where it fails, or an output with room for the terminator. -/
def UnescapeEnds : ℕ ⊕ (ℕ × List UInt8) → Prop
  | .inl _ => True
  | .inr (outputPointer, output) => outputPointer < output.length

lemma UnescapeState.put_ok {inputEnd size : ℕ} {s : UnescapeState}
    (hgood : s.Good content inputEnd size) {n : ℕ} {bytes : List UInt8}
    (hroom : Room content inputEnd size (s.inputPointer + n) (s.outputPointer + bytes.length)) :
    ∃ s', s.put n bytes = .ok s' ∧ s'.Good content inputEnd size ∧
      s'.inputPointer = s.inputPointer + n := by
  have hle : s.outputPointer + bytes.length ≤ s.output.length := by
    have := hroom.le
    have := hgood.1
    omega
  rw [put, writeAt_of_le hle, ok_bind]
  exact ⟨_, rfl, ⟨by rw [length_splice hle, hgood.1], hroom⟩, rfl⟩

/-- A round of the second loop of `parse_string` stays in the text and in the output. -/
lemma unescapeRound_ok {inputEnd size : ℕ} (hend : inputEnd < content.length) {s : UnescapeState}
    (hgood : s.Good content inputEnd size) :
    (∃ r, unescapeRound content inputEnd s = .ok (.inr r) ∧ UnescapeEnds r) ∨
      ∃ s', unescapeRound content inputEnd s = .ok (.inl s') ∧ s'.Good content inputEnd size ∧
        inputEnd - s'.inputPointer < inputEnd - s.inputPointer := by
  have ⟨hlen, hroom⟩ := hgood
  rw [unescapeRound]
  by_cases hlt : s.inputPointer < inputEnd
  swap
  · refine .inl ⟨_, if_neg hlt, ?_⟩
    change s.outputPointer < s.output.length
    have := hroom.le
    omega
  rw [if_pos hlt]
  obtain ⟨c, hc, hbyte⟩ := exists_byteAt (show s.inputPointer < content.length by omega)
  rw [hc, ok_bind]
  by_cases hslash : c ≠ 92
  · obtain ⟨s', hs', hgood', hip⟩ : ∃ s', s.put 1 [c] = .ok s' ∧ _ :=
      UnescapeState.put_ok hgood (hroom.copy hlt hbyte hslash)
    exact .inr ⟨s', by rw [if_pos hslash, hs']; rfl, hgood', by omega⟩
  rw [if_neg hslash]
  rw [not_not] at hslash
  obtain ⟨e, he, -⟩ := exists_byteAt (show s.inputPointer + 1 < content.length by omega)
  rw [he, ok_bind]
  cases hescape : escapes.lookup e with
  | some d =>
    obtain ⟨s', hs', hgood', hip⟩ : ∃ s', s.put 2 [d] = .ok s' ∧ _ :=
      UnescapeState.put_ok hgood (hroom.escape hlt (by rw [hbyte, hslash]))
    exact .inr ⟨s', by simp only [hs']; rfl, hgood', by omega⟩
  | none =>
    by_cases hu : e = 117
    swap
    · exact .inl ⟨.inl s.inputPointer, by simp only [if_neg hu]; rfl, trivial⟩
    simp only [if_pos hu]
    obtain ⟨r, hr, hspec⟩ := utf16LiteralToUtf8_ok (Nat.le_of_lt hend) s.inputPointer
    rw [hr, ok_bind]
    cases r with
    | none => exact .inl ⟨.inl s.inputPointer, rfl, trivial⟩
    | some literal =>
      obtain ⟨n, bytes⟩ := literal
      obtain ⟨hn, hpos, hw⟩ := hspec n bytes rfl
      obtain ⟨s', hs', hgood', hip⟩ := UnescapeState.put_ok hgood (hroom.advance hn hpos hw)
      exact .inr ⟨s', by simp only [hs']; rfl, hgood', by omega⟩

/-- What a function of the parser gives that starts at `b`: with a value, it stands behind it in the
text.  `P` is what is known of the value. -/
def Progress {α : Type} (content : List UInt8) (length : ℕ) (b : ParseBuffer) (P : α → Prop)
    (r : Option α × ParseBuffer) : Prop :=
  ∀ a, r.1 = some a → P a ∧ Inside content length r.2.offset ∧ b.offset < r.2.offset ∧
    r.2.depth = b.depth

lemma Progress.none {α : Type} {b b' : ParseBuffer} {P : α → Prop} :
    Progress content length b P (none, b') :=
  nofun

/-- The end of a string has room for its terminator. -/
lemma endString_ok (h : Guarded content length) {b : ParseBuffer} {inputEnd : ℕ}
    (hlt : inputEnd < length) (hclose : content[inputEnd]? = some 34) (hle : b.offset ≤ inputEnd)
    {r : ℕ ⊕ ℕ × List UInt8} (hends : UnescapeEnds r) :
    ∃ r', endString b inputEnd r = .ok r' ∧ Progress content length b (fun _ => True) r' := by
  cases r with
  | inl ip => exact ⟨(none, { b with offset := ip }), rfl, .none⟩
  | inr r =>
    obtain ⟨op, out⟩ := r
    refine ⟨(some (CText.ofBlock (out.take op ++ 0 :: out.drop (op + 1))),
      { b with offset := inputEnd + 1 }), ?_, ?_⟩
    · rw [endString, writeAt_one 0 hends]
      rfl
    · intro text _
      exact ⟨trivial, h.step hlt hclose (by decide), Nat.lt_succ_of_le hle, rfl⟩

/-- A string is read inside the text. -/
lemma parseString_ok (h : Guarded content length) (heap : JsonHeap) {b : ParseBuffer}
    (hb : Inside content length b.offset) :
    ∃ r, Settles (fun fuel => parseString content length heap fuel b) (length - b.offset) r ∧
      Progress content length b (fun _ => True) r := by
  have hle := h.length_le
  obtain ⟨c, hc, hbyte⟩ := exists_byteAt hb.2
  by_cases hquote : c ≠ 34
  · refine ⟨(none, { b with offset := b.offset + 1 }), ?_, .none⟩
    intro fuel _
    simp only [parseString, hc, Run.lift_ok, Run.done_bind, if_pos hquote]
    rfl
  rw [not_not] at hquote
  -- the first byte may be the one behind the text
  rcases Nat.lt_or_ge b.offset length with hlt | hge
  swap
  · refine ⟨(none, { b with offset := b.offset + 1 }), ?_, .none⟩
    intro fuel _
    have hleft : length - (b.offset + 1) = 0 := by omega
    simp only [parseString, hc, Run.lift_ok, Run.done_bind, hquote, hleft, scanString]
    rfl
  obtain ⟨scanned, hscan, hspec⟩ := scanString_ok 0
    (show b.offset + 1 + (length - (b.offset + 1)) ≤ content.length by omega)
  cases scanned with
  | none =>
    refine ⟨(none, { b with offset := b.offset + 1 }), ?_, .none⟩
    intro fuel _
    simp only [parseString, hc, Run.lift_ok, Run.done_bind, hquote, hscan]
    rfl
  | some scanned =>
    obtain ⟨inputEnd, skipped⟩ := scanned
    obtain ⟨hin, hclose, k, hunits, hcount⟩ := hspec inputEnd skipped rfl
    cases hblock : heap.block b.offset (inputEnd - b.offset - skipped + 1) with
    | none =>
      refine ⟨(none, { b with offset := b.offset + 1 }), ?_, .none⟩
      intro fuel _
      simp only [parseString, hc, Run.lift_ok, Run.done_bind, hquote, hscan, hblock]
      rfl
    | some output =>
      have hsize : output.length = k + 2 := by
        rw [heap.length_block hblock]
        have := hunits.le
        omega
      have hgood : UnescapeState.Good content inputEnd k ⟨b.offset + 1, 0, output⟩ :=
        ⟨hsize, .inl ⟨k, hunits, (Nat.zero_add k).le⟩⟩
      obtain ⟨r, hsettles, hends⟩ :=
        loop_settles (fun s : UnescapeState => inputEnd - s.inputPointer)
          (fun _ hs => unescapeRound_ok (show inputEnd < content.length by omega) hs) hgood
      have hrun : ∀ fuel ≥ length - b.offset,
          parseString content length heap fuel b = liftM (endString b inputEnd r) := by
        intro fuel hfuel
        have hfuel' : inputEnd - (b.offset + 1) + 1 ≤ fuel := by omega
        simp only [parseString, hc, Run.lift_ok, Run.done_bind, hquote, hscan, hblock,
          hsettles fuel hfuel']
        rfl
      obtain ⟨r', hr', hprogress⟩ := endString_ok h (show inputEnd < length by omega) hclose
        (show b.offset ≤ inputEnd by omega) hends
      refine ⟨r', fun fuel hfuel => ?_, hprogress⟩
      exact (hrun fuel hfuel).trans (congrArg liftM hr')

/-! ### Values -/

mutual

/-- How deep arrays and objects are nested in an item. -/
def JsonItem.nesting {D : Type} : JsonItem D → ℕ
  | .array child => child.nesting + 1
  | .object child => child.nesting + 1
  | _ => 0

/-- How deep arrays and objects are nested in a list of items. -/
def JsonChain.nesting {D : Type} : JsonChain D → ℕ
  | .nil => 0
  | .cons _ item next => max item.nesting next.nesting

end

section Values

variable {D : Type}

/-- An item that is read at the depth `depth` is not nested too deep. -/
def FitsAt (depth : ℕ) (item : JsonItem D) : Prop :=
  item.nesting + depth ≤ cjsonNestingLimit

/-- A number is read inside the text. -/
lemma parseNumber_ok (h : Guarded content length) (dbl : Doubles D) {b : ParseBuffer}
    (hlt : b.offset < length) (hdepth : b.depth ≤ cjsonNestingLimit) :
    ∃ r, parseNumber content length dbl b = .ok r ∧
      Progress content length b (FitsAt b.depth) r := by
  have hle := h.length_le
  obtain ⟨text, htext, hlen, hchars⟩ := copyNumber_ok
    (show b.offset + min 63 (length - b.offset) ≤ content.length by omega)
  rw [parseNumber, htext, ok_bind]
  have htake := dbl.strtod_le text
  by_cases hn : (dbl.strtod text).2 = 0
  · exact ⟨(none, b), if_pos hn, .none⟩
  refine ⟨_, if_neg hn, ?_⟩
  rintro item ⟨⟩
  -- the last byte of the number is a byte of the text
  obtain ⟨n, hn'⟩ := Nat.exists_eq_succ_of_ne_zero hn
  obtain ⟨c, hc, hchar⟩ := hchars n (by omega)
  have hinside := h.step (show b.offset + n < length by omega) hc (ne_zero_of_isNumberChar hchar)
  refine ⟨?_, ?_, ?_, rfl⟩
  · change 0 + b.depth ≤ cjsonNestingLimit
    omega
  · change Inside content length (b.offset + (dbl.strtod text).2)
    rwa [hn']
  · change b.offset < b.offset + (dbl.strtod text).2
    omega

variable (heap : JsonHeap)

/-- What is needed of the function that reads an element or a value, behind the place `low`. -/
def Reads {α : Type} (content : List UInt8) (length low : ℕ) (P : ℕ → α → Prop)
    (read : ℕ → ParseBuffer → Run (Option α × ParseBuffer)) : Prop :=
  ∀ b : ParseBuffer, Inside content length b.offset → low < b.offset →
    b.depth ≤ cjsonNestingLimit →
    ∃ r, Settles (fun fuel => read fuel b) (length - b.offset + 1) r ∧
      Progress content length b (P b.depth) r

lemma parseElement_reads {low : ℕ}
    {value : ℕ → ParseBuffer → Run (Option (JsonItem D) × ParseBuffer)}
    (hvalue : Reads content length low FitsAt value) :
    Reads content length low (fun depth new => FitsAt depth new.2)
      (fun fuel => parseElement (value fuel)) := by
  intro b hb hlow hdepth
  obtain ⟨⟨item, b'⟩, hsettles, hprogress⟩ := hvalue b hb hlow hdepth
  refine ⟨(item.map fun item => (none, item), b'), ?_, ?_⟩
  · intro fuel hfuel
    have hrun : value fuel b = .done (item, b') := hsettles fuel hfuel
    simp only [parseElement, hrun, Run.done_bind]
    rfl
  · intro new hnew
    obtain ⟨item, rfl, rfl⟩ := Option.map_eq_some_iff.mp hnew
    exact hprogress item rfl

lemma parseMember_reads (h : Guarded content length) {low : ℕ}
    {value : ℕ → ParseBuffer → Run (Option (JsonItem D) × ParseBuffer)}
    (hvalue : Reads content length low FitsAt value) :
    Reads content length low (fun depth new => FitsAt depth new.2)
      (fun fuel => parseMember content length heap fuel (value fuel)) := by
  intro b hb hlow hdepth
  obtain ⟨⟨string, b₁⟩, hstring, hprogress⟩ := parseString_ok h heap hb
  have hrun : ∀ fuel ≥ length - b.offset + 1,
      parseString content length heap fuel b = .done (string, b₁) :=
    fun fuel hfuel => hstring fuel (by omega)
  cases string with
  | none =>
    refine ⟨(none, b₁), ?_, .none⟩
    intro fuel hfuel
    simp only [parseMember, hrun fuel hfuel, Run.done_bind]
    rfl
  | some string =>
    obtain ⟨-, (hin₁ : Inside content length b₁.offset), (hlt₁ : b.offset < b₁.offset),
      (hdepth₁ : b₁.depth = b.depth)⟩ := hprogress string rfl
    obtain ⟨p, hskip, hle₂, hin₂, -⟩ := bufferSkipWhitespace_ok h hin₁
    obtain ⟨colon, hcolon, hspec⟩ := byteIs_ok h ⟨p, b₁.depth⟩ (· = 58)
    cases colon with
    | false =>
      refine ⟨(none, ⟨p, b₁.depth⟩), ?_, .none⟩
      intro fuel hfuel
      simp only [parseMember, hrun fuel hfuel, Run.done_bind, hskip, hcolon, Run.lift_ok]
      rfl
    | true =>
      obtain ⟨hlt, c, hc, htest⟩ := hspec rfl
      obtain rfl : c = 58 := by simpa using htest
      obtain ⟨q, hskip', (hle₃ : p + 1 ≤ q), hin₃, -⟩ :=
        bufferSkipWhitespace_ok h (b := ⟨p + 1, b₁.depth⟩) (h.step hlt hc (by decide))
      obtain ⟨⟨item, b₂⟩, hsettles, hprogress'⟩ :=
        hvalue ⟨q, b₁.depth⟩ hin₃ (show low < q by omega) (hdepth₁ ▸ hdepth)
      refine ⟨(item.map fun item => (some string, item), b₂), ?_, ?_⟩
      · intro fuel hfuel
        have hvalue' : value fuel ⟨q, b₁.depth⟩ = .done (item, b₂) :=
          hsettles fuel (show length - q + 1 ≤ fuel by omega)
        simp only [parseMember, hrun fuel hfuel, Run.done_bind, hskip, hcolon, Run.lift_ok, hskip',
          hvalue']
        rfl
      · intro new hnew
        obtain ⟨item, rfl, rfl⟩ := Option.map_eq_some_iff.mp hnew
        obtain ⟨hfits, hin, (hlt' : q < b₂.offset), hdepth'⟩ := hprogress' item rfl
        exact ⟨hdepth₁ ▸ hfits, hin, show b.offset < b₂.offset by omega, hdepth'.trans hdepth₁⟩

/-- A list of elements is read inside the text, from the byte in front of the first one on. -/
lemma parseChain_ok (h : Guarded content length) {low : ℕ}
    {element : ℕ → ParseBuffer → Run (Option (Option CText × JsonItem D) × ParseBuffer)}
    (helement : Reads content length low (fun depth new => FitsAt depth new.2) element)
    {b : ParseBuffer} (hlow : low ≤ b.offset) (hlt : b.offset < length)
    (hb : Inside content length (b.offset + 1)) (hdepth : b.depth ≤ cjsonNestingLimit) :
    ∃ r, (∀ fuel ≥ length - low, ∀ n ≥ length - b.offset,
        parseChain content length heap (element fuel) n b = .done r) ∧
      Progress content length b (fun child => child.nesting + b.depth ≤ cjsonNestingLimit) r := by
  induction hleft : length - b.offset using Nat.strong_induction_on generalizing b with
  | _ left ih =>
    subst hleft
    by_cases hitem : heap.item (b.offset + 1) = true
    swap
    · refine ⟨(none, b), ?_, .none⟩
      intro fuel _ n hn
      obtain ⟨m, rfl⟩ := Nat.exists_eq_succ_of_ne_zero (show n ≠ 0 by omega)
      rw [parseChain, if_neg hitem]
      rfl
    obtain ⟨p, hskip, (hle₁ : b.offset + 1 ≤ p), hin₁, -⟩ :=
      bufferSkipWhitespace_ok h (b := ⟨b.offset + 1, b.depth⟩) hb
    obtain ⟨⟨new, b₁⟩, hsettles, hprogress⟩ :=
      helement ⟨p, b.depth⟩ hin₁ (show low < p by omega) hdepth
    have hnew : ∀ fuel ≥ length - low, element fuel ⟨p, b.depth⟩ = .done (new, b₁) :=
      fun fuel hfuel => hsettles fuel (show length - p + 1 ≤ fuel by omega)
    cases new with
    | none =>
      refine ⟨(none, b₁), ?_, .none⟩
      intro fuel hfuel n hn
      obtain ⟨m, rfl⟩ := Nat.exists_eq_succ_of_ne_zero (show n ≠ 0 by omega)
      simp only [parseChain, if_pos hitem, hskip, Run.lift_ok, Run.done_bind, hnew fuel hfuel]
      rfl
    | some new =>
      obtain ⟨string, item⟩ := new
      obtain ⟨(hfits : item.nesting + b.depth ≤ cjsonNestingLimit),
        (hin₂ : Inside content length b₁.offset), (hlt₂ : p < b₁.offset),
        (hdepth₂ : b₁.depth = b.depth)⟩ := hprogress (string, item) rfl
      obtain ⟨q, hskip', hle₃, hin₃, -⟩ := bufferSkipWhitespace_ok h hin₂
      obtain ⟨more, hmore, hspec⟩ := byteIs_ok h ⟨q, b₁.depth⟩ (· = 44)
      cases more with
      | false =>
        refine ⟨(some (.cons string item .nil), ⟨q, b₁.depth⟩), ?_, ?_⟩
        · intro fuel hfuel n hn
          obtain ⟨m, rfl⟩ := Nat.exists_eq_succ_of_ne_zero (show n ≠ 0 by omega)
          simp only [parseChain, if_pos hitem, hskip, Run.lift_ok, Run.done_bind, hnew fuel hfuel,
            hskip', hmore]
          rfl
        · rintro child ⟨⟩
          refine ⟨?_, hin₃, show b.offset < q by omega, hdepth₂⟩
          simpa only [JsonChain.nesting, Nat.max_zero] using hfits
      | true =>
        obtain ⟨(hltq : q < length), c, hc, htest⟩ := hspec rfl
        obtain rfl : c = 44 := by simpa using htest
        obtain ⟨⟨next, b₂⟩, hrest, hprogress'⟩ := ih (length - q) (by omega)
          (b := ⟨q, b₁.depth⟩) (show low ≤ q by omega) hltq (h.step hltq hc (by decide))
          (hdepth₂ ▸ hdepth) rfl
        refine ⟨(next.map (.cons string item), b₂), ?_, ?_⟩
        · intro fuel hfuel n hn
          obtain ⟨m, rfl⟩ := Nat.exists_eq_succ_of_ne_zero (show n ≠ 0 by omega)
          have hm : length - q ≤ m := by omega
          simp only [parseChain, if_pos hitem, hskip, Run.lift_ok, Run.done_bind, hnew fuel hfuel,
            hskip', hmore, if_true, hrest fuel hfuel m hm]
          rfl
        · intro child hchild
          obtain ⟨next, rfl, rfl⟩ := Option.map_eq_some_iff.mp hchild
          obtain ⟨hfits', hin, (hlt' : q < b₂.offset), hdepth'⟩ := hprogress' next rfl
          refine ⟨?_, hin, show b.offset < b₂.offset by omega, hdepth'.trans hdepth₂⟩
          change next.nesting + b₁.depth ≤ cjsonNestingLimit at hfits'
          rw [JsonChain.nesting]
          omega

/-- The last bracket of an array or an object that starts at `b`. -/
lemma endItems_ok (h : Guarded content length) {close : UInt8} (hclose : close ≠ 0)
    {make : JsonChain D → JsonItem D} (hmake : ∀ child, (make child).nesting = child.nesting + 1)
    {b b₁ : ParseBuffer} (hlt : b.offset < b₁.offset + 1) (hdepth : b₁.depth = b.depth + 1)
    {child : JsonChain D} (hfits : child.nesting + (b.depth + 1) ≤ cjsonNestingLimit) :
    ∃ r, endItems content length close make (some child) b₁ = .ok r ∧
      Progress content length b (FitsAt b.depth) r := by
  obtain ⟨closed, hclosed, hspec⟩ := byteIs_ok h b₁ (· = close)
  cases closed with
  | false => exact ⟨(none, b₁), by rw [endItems, hclosed]; rfl, .none⟩
  | true =>
    obtain ⟨hltb, c, hc, htest⟩ := hspec rfl
    obtain rfl : c = close := by simpa using htest
    refine ⟨(some (make child), ⟨b₁.offset + 1, b₁.depth - 1⟩),
      by rw [endItems, hclosed]; rfl, ?_⟩
    rintro item ⟨⟩
    refine ⟨?_, h.step hltb hc hclose, hlt, ?_⟩
    · rw [FitsAt, hmake]
      omega
    · change b₁.depth - 1 = b.depth
      omega

/-- An array or an object is read inside the text, from its first bracket on. -/
lemma parseItems_ok (h : Guarded content length) {b : ParseBuffer}
    {element : ℕ → ParseBuffer → Run (Option (Option CText × JsonItem D) × ParseBuffer)}
    (helement : Reads content length b.offset (fun depth new => FitsAt depth new.2) element)
    {close : UInt8} (hclose : close ≠ 0) {make : JsonChain D → JsonItem D}
    (hmake : ∀ child, (make child).nesting = child.nesting + 1) (hlt : b.offset < length)
    (hb : Inside content length (b.offset + 1)) (hdepth : b.depth + 1 ≤ cjsonNestingLimit) :
    ∃ r, (∀ fuel ≥ length - b.offset,
        parseItems content length heap close (element fuel) make fuel ⟨b.offset, b.depth + 1⟩ =
          .done r) ∧
      Progress content length b (FitsAt b.depth) r := by
  obtain ⟨p, hskip, (hle₁ : b.offset + 1 ≤ p), hin₁, hlt₁⟩ :=
    bufferSkipWhitespace_ok h (b := ⟨b.offset + 1, b.depth + 1⟩) hb
  obtain ⟨empty, hempty, hspec⟩ := byteIs_ok h ⟨p, b.depth + 1⟩ (· = close)
  cases empty with
  | true =>
    obtain ⟨(hltp : p < length), c, hc, htest⟩ := hspec rfl
    obtain rfl : c = close := by simpa using htest
    refine ⟨(some (make .nil), ⟨p + 1, b.depth⟩), ?_, ?_⟩
    · intro fuel _
      simp only [parseItems, hskip, Run.lift_ok, Run.done_bind, hempty]
      rfl
    · rintro item ⟨⟩
      refine ⟨?_, h.step hltp hc hclose, show b.offset < p + 1 by omega, rfl⟩
      rw [FitsAt, hmake, JsonChain.nesting]
      omega
  | false =>
    by_cases hltp : p < length
    swap
    · refine ⟨(none, ⟨p - 1, b.depth + 1⟩), ?_, .none⟩
      intro fuel _
      simp only [parseItems, hskip, Run.lift_ok, Run.done_bind, hempty, hltp]
      rfl
    have hback : p - 1 + 1 = p := by omega
    obtain ⟨⟨child, b₁⟩, hrun, hprogress⟩ := parseChain_ok heap h helement
      (b := ⟨p - 1, b.depth + 1⟩) (show b.offset ≤ p - 1 by omega) (show p - 1 < length by omega)
      (show Inside content length (p - 1 + 1) by rwa [hback]) hdepth
    have hrun' : ∀ fuel ≥ length - b.offset,
        parseItems content length heap close (element fuel) make fuel ⟨b.offset, b.depth + 1⟩ =
          liftM (endItems content length close make child b₁) := by
      intro fuel hfuel
      simp only [parseItems, hskip, Run.lift_ok, Run.done_bind, hempty, hltp, if_true,
        hrun fuel hfuel fuel (show length - (p - 1) ≤ fuel by omega)]
      rfl
    cases child with
    | none => exact ⟨(none, b₁), hrun', .none⟩
    | some child =>
      obtain ⟨hfits, -, (hlt₂ : p - 1 < b₁.offset), hdepth₂⟩ := hprogress child rfl
      obtain ⟨r, hr, hend⟩ := endItems_ok h hclose hmake (show b.offset < b₁.offset + 1 by omega)
        hdepth₂ hfits
      refine ⟨r, fun fuel hfuel => ?_, hend⟩
      rw [hrun' fuel hfuel, hr]
      rfl

lemma parseArray_ok (h : Guarded content length) {b : ParseBuffer}
    {value : ℕ → ParseBuffer → Run (Option (JsonItem D) × ParseBuffer)}
    (hvalue : Reads content length b.offset FitsAt value) (hlt : b.offset < length)
    (hopen : content[b.offset]? = some 91) :
    ∃ r, (∀ fuel ≥ length - b.offset,
        parseArray content length heap (value fuel) fuel b = .done r) ∧
      Progress content length b (FitsAt b.depth) r := by
  by_cases hlimit : cjsonNestingLimit ≤ b.depth
  · exact ⟨(none, b), fun _ _ => if_pos hlimit, .none⟩
  obtain ⟨r, hr, hprogress⟩ := parseItems_ok heap h (parseElement_reads hvalue)
    (show (93 : UInt8) ≠ 0 by decide) (fun child => JsonItem.nesting.eq_1 child) hlt
    (h.step hlt hopen (by decide)) (Nat.lt_of_not_le hlimit)
  refine ⟨r, fun fuel hfuel => ?_, hprogress⟩
  obtain ⟨c, hc, hbyte⟩ := exists_byteAt (Nat.lt_of_lt_of_le hlt h.length_le)
  obtain rfl : c = 91 := Option.some.inj (hbyte.symm.trans hopen)
  simp only [parseArray, if_neg hlimit, hc, Run.lift_ok, Run.done_bind]
  exact hr fuel hfuel

lemma parseObject_ok (h : Guarded content length) {b : ParseBuffer}
    {value : ℕ → ParseBuffer → Run (Option (JsonItem D) × ParseBuffer)}
    (hvalue : Reads content length b.offset FitsAt value) (hlt : b.offset < length)
    (hopen : content[b.offset]? = some 123)
    (hopened : byteIs content length b (· = 123) = .ok true) :
    ∃ r, (∀ fuel ≥ length - b.offset,
        parseObject content length heap (value fuel) fuel b = .done r) ∧
      Progress content length b (FitsAt b.depth) r := by
  by_cases hlimit : cjsonNestingLimit ≤ b.depth
  · exact ⟨(none, b), fun _ _ => if_pos hlimit, .none⟩
  obtain ⟨r, hr, hprogress⟩ := parseItems_ok heap h (parseMember_reads heap h hvalue)
    (show (125 : UInt8) ≠ 0 by decide) (fun child => JsonItem.nesting.eq_2 child) hlt
    (h.step hlt hopen (by decide)) (Nat.lt_of_not_le hlimit)
  refine ⟨r, fun fuel hfuel => ?_, hprogress⟩
  simp only [parseObject, if_neg hlimit, hopened, Run.lift_ok, Run.done_bind]
  exact hr fuel hfuel

/-- What is read of a literal. -/
lemma progress_word {b : ParseBuffer} {n : ℕ} {item : JsonItem D} (hitem : item.nesting = 0)
    (hpos : 0 < n) (hin : Inside content length (b.offset + n))
    (hdepth : b.depth ≤ cjsonNestingLimit) :
    Progress content length b (FitsAt b.depth) (some item, ⟨b.offset + n, b.depth⟩) := by
  rintro item' ⟨⟩
  refine ⟨?_, hin, Nat.lt_add_of_pos_right hpos, rfl⟩
  rw [FitsAt, hitem]
  omega

/-- A value is read inside the text, with fuel for the bytes that are left. -/
theorem parseValue_ok (h : Guarded content length) (dbl : Doubles D) {b : ParseBuffer}
    (hb : Inside content length b.offset) (hdepth : b.depth ≤ cjsonNestingLimit) :
    ∃ r, Settles (fun fuel => parseValue content length dbl heap fuel b) (length - b.offset + 1) r ∧
      Progress content length b (FitsAt b.depth) r := by
  induction hleft : length - b.offset using Nat.strong_induction_on generalizing b with
  | _ left ih =>
    subst hleft
    have hvalue : Reads content length b.offset FitsAt (parseValue content length dbl heap) := by
      intro b' hb' hlt hdepth'
      have := hb'.1
      exact ih (length - b'.offset) (by omega) hb' hdepth' rfl
    obtain ⟨isNull, hnull, hinNull⟩ := wordIs_ok h b
      (show (textBytes "null")[3]? = some 108 by decide) (by decide) (by decide)
    obtain ⟨isFalse, hfalse, hinFalse⟩ := wordIs_ok h b
      (show (textBytes "false")[4]? = some 101 by decide) (by decide) (by decide)
    obtain ⟨isTrue, htrue, hinTrue⟩ := wordIs_ok h b
      (show (textBytes "true")[3]? = some 101 by decide) (by decide) (by decide)
    obtain ⟨isString, hstring, -⟩ := byteIs_ok h b (· = 34)
    obtain ⟨isNumber, hnumber, hltNumber⟩ := byteIs_ok h b startsNumber
    obtain ⟨isArray, harray, hinArray⟩ := byteIs_ok h b (· = 91)
    obtain ⟨isObject, hobject, hinObject⟩ := byteIs_ok h b (· = 123)
    -- the tests of the first bytes, in the order of the source
    cases isNull with
    | true =>
      refine ⟨(some .null, ⟨b.offset + 4, b.depth⟩), .succ fun m _ => ?_,
        progress_word rfl (by decide) (hinNull rfl) hdepth⟩
      simp only [parseValue, hnull, Run.lift_ok, Run.done_bind]
      rfl
    | false =>
    cases isFalse with
    | true =>
      refine ⟨(some (.bool false), ⟨b.offset + 5, b.depth⟩), .succ fun m _ => ?_,
        progress_word rfl (by decide) (hinFalse rfl) hdepth⟩
      simp only [parseValue, hnull, hfalse, Run.lift_ok, Run.done_bind]
      rfl
    | false =>
    cases isTrue with
    | true =>
      refine ⟨(some (.bool true), ⟨b.offset + 4, b.depth⟩), .succ fun m _ => ?_,
        progress_word rfl (by decide) (hinTrue rfl) hdepth⟩
      simp only [parseValue, hnull, hfalse, htrue, Run.lift_ok, Run.done_bind]
      rfl
    | false =>
    cases isString with
    | true =>
      obtain ⟨⟨string, b'⟩, hsettles, hprogress⟩ := parseString_ok h heap hb
      refine ⟨(string.map fun string => .string (some string), b'), .succ fun m hm => ?_, ?_⟩
      · have hread : parseString content length heap m b = .done (string, b') := hsettles m hm
        simp only [parseValue, hnull, hfalse, htrue, hstring, Run.lift_ok, Run.done_bind, hread]
        rfl
      · intro item hitem
        obtain ⟨string, rfl, rfl⟩ := Option.map_eq_some_iff.mp hitem
        refine ⟨?_, (hprogress string rfl).2⟩
        change 0 + b.depth ≤ cjsonNestingLimit
        omega
    | false =>
    cases isNumber with
    | true =>
      obtain ⟨r, hr, hprogress⟩ := parseNumber_ok h dbl (hltNumber rfl).1 hdepth
      refine ⟨r, .succ fun m _ => ?_, hprogress⟩
      simp only [parseValue, hnull, hfalse, htrue, hstring, hnumber, Run.lift_ok, Run.done_bind, hr]
      rfl
    | false =>
    cases isArray with
    | true =>
      obtain ⟨hlt, c, hc, htest⟩ := hinArray rfl
      obtain rfl : c = 91 := by simpa using htest
      obtain ⟨r, hr, hprogress⟩ := parseArray_ok heap h hvalue hlt hc
      refine ⟨r, .succ fun m hm => ?_, hprogress⟩
      simp only [parseValue, hnull, hfalse, htrue, hstring, hnumber, harray, Run.lift_ok,
        Run.done_bind]
      exact hr m hm
    | false =>
    cases isObject with
    | true =>
      obtain ⟨hlt, c, hc, htest⟩ := hinObject rfl
      obtain rfl : c = 123 := by simpa using htest
      obtain ⟨r, hr, hprogress⟩ := parseObject_ok heap h hvalue hlt hc hobject
      refine ⟨r, .succ fun m hm => ?_, hprogress⟩
      simp only [parseValue, hnull, hfalse, htrue, hstring, hnumber, harray, hobject, Run.lift_ok,
        Run.done_bind]
      exact hr m hm
    | false =>
      refine ⟨(none, b), .succ fun m _ => ?_, .none⟩
      simp only [parseValue, hnull, hfalse, htrue, hstring, hnumber, harray, hobject, Run.lift_ok,
        Run.done_bind]
      rfl

/-! ### Whole texts -/

lemma errorPosition_lt (hpos : 0 < length) (b : ParseBuffer) : errorPosition length b < length := by
  rw [errorPosition]
  split_ifs <;> omega

/-- The byte order mark is skipped inside the text. -/
lemma skipUtf8Bom_ok (h : Guarded content length) (hpos : 0 < length) :
    ∃ p, skipUtf8Bom content length ⟨0, 0⟩ = .ok ⟨p, 0⟩ ∧ p < length := by
  have hle := h.length_le
  by_cases hlong : 0 + 4 < length
  · obtain ⟨bom, hbom, -⟩ := startsWith_ok
      (show 0 + [0xEF, 0xBB, 0xBF].length ≤ content.length by simp; omega)
    rw [skipUtf8Bom, if_pos hlong, hbom, ok_bind]
    cases bom with
    | false => exact ⟨0, rfl, hpos⟩
    | true => exact ⟨3, rfl, by omega⟩
  · exact ⟨0, if_neg hlong, hpos⟩

/-- What is behind the value is looked at inside the text. -/
lemma endParse_ok (h : Guarded content length) (hpos : 0 < length) (requireNullTerminated : Bool)
    {item : Option (JsonItem D)} {b : ParseBuffer}
    (hb : ∀ a, item = some a → Inside content length b.offset) :
    ∃ r, endParse content length requireNullTerminated item b = .ok r ∧
      (r.1 = none ∨ r.1 = item) ∧ Inside content length r.2 := by
  have herror (b : ParseBuffer) : Inside content length (errorPosition length b) :=
    h.inside (errorPosition_lt hpos b)
  cases item with
  | none => exact ⟨_, rfl, .inl rfl, herror b⟩
  | some item =>
    have hin := hb item rfl
    cases requireNullTerminated with
    | false => exact ⟨_, rfl, .inr rfl, hin⟩
    | true =>
      obtain ⟨p, hskip, -, hin', -⟩ := bufferSkipWhitespace_ok h hin
      obtain ⟨terminated, hterminated, -⟩ := byteIs_ok h ⟨p, b.depth⟩ (· = 0)
      simp only [endParse, if_true, hskip, ok_bind, hterminated]
      cases terminated with
      | false => exact ⟨_, rfl, .inl rfl, herror _⟩
      | true => exact ⟨_, rfl, .inr rfl, hin'⟩

/-- A text is parsed inside the memory. -/
lemma cjsonParseWithLengthOpts_ok (h : Guarded content length) (dbl : Doubles D)
    (requireNullTerminated : Bool) :
    ∃ r, Terminates (fun fuel => cjsonParseWithLengthOpts dbl heap fuel content length
        requireNullTerminated) r ∧
      (∀ item, r.1 = some item → item.nesting ≤ cjsonNestingLimit) ∧
      (0 < length → Inside content length r.2) := by
  rcases Nat.eq_zero_or_pos length with rfl | hpos
  · exact ⟨(none, 0), ⟨0, fun _ _ => rfl⟩, nofun, fun hpos => absurd hpos (lt_irrefl 0)⟩
  have hzero : ¬ length = 0 := by omega
  by_cases hitem : heap.item 0 = true
  swap
  · refine ⟨(none, 0), ⟨0, fun fuel _ => ?_⟩, nofun, fun _ => h.inside hpos⟩
    simp only [cjsonParseWithLengthOpts, if_neg hzero, if_neg hitem]
    rfl
  obtain ⟨p, hbom, hp⟩ := skipUtf8Bom_ok h hpos
  obtain ⟨q, hskip, -, hin, -⟩ := bufferSkipWhitespace_ok h (b := ⟨p, 0⟩) (h.inside hp)
  obtain ⟨⟨item, b⟩, hsettles, hprogress⟩ :=
    parseValue_ok heap h dbl (b := ⟨q, 0⟩) hin (Nat.zero_le _)
  obtain ⟨r, hr, hsame, hinr⟩ := endParse_ok h hpos requireNullTerminated
    (fun a ha => (hprogress a ha).2.1)
  refine ⟨r, ⟨length - q + 1, ?_⟩, ?_, fun _ => hinr⟩
  · intro fuel hfuel
    have hvalue : parseValue content length dbl heap fuel ⟨q, 0⟩ = .done (item, b) :=
      hsettles fuel hfuel
    simp only [cjsonParseWithLengthOpts, if_neg hzero, if_pos hitem, hbom, hskip, Run.lift_ok,
      Run.done_bind, hvalue, hr]
  · intro item' hitem'
    rcases hsame with hnone | hsame
    · rw [hnone] at hitem'
      cases hitem'
    · exact (hprogress item' (hsame ▸ hitem')).1

/-- A parser ends with a place in the string, and accepts nothing that is nested deeper than the
limit. -/
def ParsesWithin (text : CText) (run : ℕ → Run (Option (JsonItem D) × ℕ)) : Prop :=
  ∃ r, Terminates run r ∧ r.2 ≤ text.1.length ∧
    ∀ item, r.1 = some item → item.nesting ≤ cjsonNestingLimit

/-- `cJSON_Parse` and `cJSON_ParseWithOpts` end for every string, read nothing behind its terminator
and write nothing outside their blocks.  The place that is returned is in the string, and what is
accepted is nested no deeper than the limit. -/
theorem cjson_parse_safe (dbl : Doubles D) (text : CText) :
    ParsesWithin text (fun fuel => cjsonParse dbl heap fuel (text.1 ++ [0])) ∧
    ∀ requireNullTerminated, ParsesWithin text
      (fun fuel => cjsonParseWithOpts dbl heap fuel (text.1 ++ [0]) requireNullTerminated) := by
  have hguarded : Guarded (text.1 ++ [0]) (text.1.length + 1) :=
    ⟨by simp, .inr (by simp)⟩
  have hopts : ∀ requireNullTerminated, ParsesWithin text
      (fun fuel => cjsonParseWithOpts dbl heap fuel (text.1 ++ [0]) requireNullTerminated) := by
    intro requireNullTerminated
    obtain ⟨r, hterminates, hnesting, hin⟩ :=
      cjsonParseWithLengthOpts_ok heap hguarded dbl requireNullTerminated
    refine ⟨r, ?_, ?_, hnesting⟩
    · simpa only [cjsonParseWithOpts, strlen_text text.2 [], Run.lift_ok, Run.done_bind]
        using hterminates
    · have hlt := (hin (Nat.succ_pos _)).2
      rw [List.length_append] at hlt
      exact Nat.le_of_lt_succ hlt
  exact ⟨hopts false, hopts⟩

/-- A heap that never runs out of memory, which it does not clear. -/
def fullHeap : JsonHeap where
  item _ := true
  block _ size := some (List.replicate size 0xFF)
  length_block h := by
    cases h
    exact List.length_replicate

/-- A string with two numbers is parsed. -/
theorem cjson_parse_safe_numbers :
    ParsesWithin ⟨textBytes "[-7, 120]", by decide⟩
      (fun fuel => cjsonParse Doubles.ints fullHeap fuel (textBytes "[-7, 120]" ++ [0])) ∧
    cjsonParse Doubles.ints fullHeap 20 (textBytes "[-7, 120]" ++ [0]) =
      .done (some (.array (.ofList [(none, .number (-7) (-7)), (none, .number 120 120)])), 9) := by
  refine ⟨(cjson_parse_safe fullHeap Doubles.ints ⟨textBytes "[-7, 120]", by decide⟩).1, ?_⟩
  decide +kernel

/-! ### Texts with a length -/

/-- `margin` readable bytes behind a text are enough for `cJSON_ParseWithLength`. -/
def LengthMarginSuffices (dbl : Doubles D) (margin : ℕ) : Prop :=
  ∀ (heap : JsonHeap) (text behind : List UInt8), behind.length = margin →
    ∃ r, Terminates (fun fuel =>
      cjsonParseWithLength dbl heap fuel (text ++ behind) text.length) r

/-- `cJSON_ParseWithLength` needs one readable byte behind the text: without it, a text that ends in
a comma between two members of an object is read behind its end. -/
theorem cjson_length_margin (dbl : Doubles D) (margin : ℕ) :
    LengthMarginSuffices dbl margin ↔ 1 ≤ margin := by
  constructor
  · intro h
    by_contra hmargin
    obtain ⟨r, hr⟩ := h fullHeap (textBytes "\x7b\"\":null,") [] (by simp; omega)
    refine not_terminates_of_faulted (f := .outOfBounds) (n := 10) ?_ hr
    intro fuel hfuel
    obtain ⟨m, rfl⟩ := Nat.exists_eq_add_of_le' hfuel
    rfl
  · intro hmargin heap text behind hbehind
    have hguarded : Guarded (text ++ behind) text.length :=
      ⟨by simp, .inl (by rw [List.length_append]; omega)⟩
    obtain ⟨r, hterminates, -⟩ := cjsonParseWithLengthOpts_ok heap hguarded dbl false
    exact ⟨r, hterminates⟩

/-- One readable byte is enough for a text that ends in a number, and none is not for all texts. -/
theorem cjson_length_margin_number :
    (∃ r, Terminates (fun fuel => cjsonParseWithLength Doubles.ints fullHeap fuel
        (textBytes "[-7, 120" ++ [0x30]) 8) r) ∧
      ¬ LengthMarginSuffices Doubles.ints 0 := by
  refine ⟨?_, fun hnone => absurd ((cjson_length_margin Doubles.ints 0).mp hnone) (by decide)⟩
  have hone := (cjson_length_margin Doubles.ints 1).mpr le_rfl
  exact hone fullHeap (textBytes "[-7, 120") [0x30] rfl

end Values

end WiotaAp
