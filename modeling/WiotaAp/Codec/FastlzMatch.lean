import WiotaAp.Codec.FastlzDecode

/-!
# Matches that the compressor of FastLZ finds

The search for a match and its extension compare bytes of the input with earlier ones.  They stay
inside the input, what they find is a back reference into the text (`findMatch_spec`,
`extend_spec`), and its code is shorter than the match, also when it is cut into several tokens
(`matchBytes_tokens`).
-/

namespace WiotaAp

open Buffers

variable {level : FastlzLevel} {input : List UInt8}

/-! ### Comparing -/

/-- A read inside the block, with the byte. -/
lemma byteAt_eq {i : ℕ} (h : i < input.length) : byteAt input i = .ok (input.get ⟨i, h⟩) := by
  rw [byteAt, List.getElem?_eq_getElem h]
  rfl

/-- Comparisons go on as long as the bytes agree. -/
lemma compareBytes_spec (ref ip n : ℕ) (href : ref + n ≤ input.length)
    (hip : ip + n ≤ input.length) :
    ∃ k same, compareBytes input ref ip n = .ok (ip + k, same) ∧ k ≤ n ∧
      (same = true → k = n ∧ ∀ j < n, input[ip + j]? = input[ref + j]?) ∧
      (same = false → 1 ≤ k ∧ ∀ j, j + 1 < k → input[ip + j]? = input[ref + j]?) := by
  induction n generalizing ref ip with
  | zero => exact ⟨0, true, rfl, le_rfl, fun _ => ⟨rfl, fun j hj => absurd hj (Nat.not_lt_zero j)⟩,
      nofun⟩
  | succ n ih =>
    have hr : ref < input.length := by omega
    have hi : ip < input.length := by omega
    rw [compareBytes, byteAt_eq hr, ok_bind, byteAt_eq hi, ok_bind]
    by_cases hne : input.get ⟨ref, hr⟩ ≠ input.get ⟨ip, hi⟩
    · rw [if_pos hne]
      refine ⟨1, false, rfl, by omega, nofun, fun _ => ⟨le_rfl, ?_⟩⟩
      intro j hj
      omega
    · have hfirst : input[ip]? = input[ref]? := by
        rw [List.getElem?_eq_getElem hi, List.getElem?_eq_getElem hr]
        exact congrArg some (not_not.mp hne).symm
      -- the first bytes agree, so the others are compared
      have hstep : ∀ j, (∀ i, j = i + 1 → input[ip + 1 + i]? = input[ref + 1 + i]?) →
          input[ip + j]? = input[ref + j]? := by
        intro j hj
        cases j with
        | zero => exact hfirst
        | succ i =>
          have h := hj i rfl
          rwa [Nat.add_right_comm ip 1 i, Nat.add_right_comm ref 1 i] at h
      rw [if_neg hne]
      obtain ⟨k, same, hk, hle, htrue, hfalse⟩ :=
        ih (ref + 1) (ip + 1) (by omega) (by omega)
      refine ⟨k + 1, same, ?_, Nat.succ_le_succ hle, ?_, ?_⟩
      · rw [hk]
        congr 2
        omega
      · intro hsame
        obtain ⟨hkn, hall⟩ := htrue hsame
        exact ⟨congrArg (· + 1) hkn, fun j hj => hstep j fun i hi => hall i (by omega)⟩
      · intro hsame
        obtain ⟨hk1, hall⟩ := hfalse hsame
        exact ⟨by omega, fun j hj => hstep j fun i hi => hall i (by omega)⟩

/-- A run goes on as long as the bytes are `x`. -/
lemma extendRun_spec (x : UInt8) (ref ip n : ℕ) (href : ref + n ≤ input.length) :
    ∃ k, extendRun input x ref ip n = .ok (ip + k) ∧ k ≤ n ∧
      (∀ j < k, input[ref + j]? = some x) ∧ (k < n → input[ref + k]? ≠ some x) := by
  induction n generalizing ref ip with
  | zero => exact ⟨0, rfl, le_rfl, fun j hj => absurd hj (Nat.not_lt_zero j),
      fun h => absurd h (Nat.lt_irrefl 0)⟩
  | succ n ih =>
    have hr : ref < input.length := by omega
    have hget : input[ref]? = some (input.get ⟨ref, hr⟩) := List.getElem?_eq_getElem hr
    rw [extendRun, byteAt_eq hr, ok_bind]
    by_cases hne : input.get ⟨ref, hr⟩ ≠ x
    · rw [if_pos hne]
      refine ⟨0, rfl, Nat.zero_le _, fun j hj => absurd hj (Nat.not_lt_zero j), fun _ hx => hne ?_⟩
      exact Option.some.inj (hget.symm.trans hx)
    · rw [if_neg hne]
      obtain ⟨k, hk, hle, hall, hstop⟩ := ih (ref + 1) (ip + 1) (by omega)
      refine ⟨k + 1, ?_, Nat.succ_le_succ hle, ?_, ?_⟩
      · rw [hk]
        congr 1
        omega
      · intro j hj
        cases j with
        | zero => exact hget.trans (congrArg some (not_not.mp hne))
        | succ j =>
          have h := hall j (by omega)
          rwa [Nat.add_right_comm ref 1 j] at h
      · intro hlt
        have h := hstop (by omega)
        rwa [Nat.add_right_comm ref 1 k] at h

/-! ### The extension of a match -/

/-- A match that is extended by `k` comparisons is one byte shorter than these. -/
structure Extended (input : List UInt8) (length anchor distance len k : ℕ) : Prop where
  pos : 1 ≤ k
  agree : ∀ j, j + 1 < k → input[anchor + len + j]? = input[anchor + len + j - distance]?
  bound : anchor + len + k ≤ anchor + len + 8 ∨ anchor + len + k ≤ length - 2

/-- The extension of a match that is not a run. -/
lemma extendMatch_spec {length anchor distance len : ℕ} (hdist : distance ≤ anchor)
    (hlimit : anchor + len + 8 ≤ length) (hlen : length ≤ input.length) :
    ∃ k, extendMatch input (length - 2) (anchor - distance + len) (anchor + len) =
        .ok (anchor + len + k) ∧ Extended input length anchor distance len k := by
  have hplace : ∀ j, anchor - distance + len + j = anchor + len + j - distance := by
    intro j
    omega
  obtain ⟨k, same, hk, hle, htrue, hfalse⟩ := compareBytes_spec
    (anchor - distance + len) (anchor + len) 8 (show _ ≤ input.length by omega) (by omega)
  rw [extendMatch, hk, ok_bind]
  cases same with
  | false =>
    obtain ⟨hpos, hall⟩ := hfalse rfl
    refine ⟨k, rfl, hpos, fun j hj => ?_, .inl (by omega)⟩
    rw [hall j hj, hplace]
  | true =>
    obtain ⟨rfl, hall⟩ := htrue rfl
    obtain ⟨k', same', hk', hle', htrue', hfalse'⟩ := compareBytes_spec
      (anchor - distance + len + 8) (anchor + len + 8) (length - 2 - (anchor + len + 8))
      (show _ ≤ input.length by omega) (by omega)
    refine ⟨8 + k', ?_, by omega, fun j hj => ?_, ?_⟩
    · simp only [if_true, hk', ok_bind, pure_eq_ok]
      congr 1
      omega
    · by_cases hj8 : j < 8
      · rw [hall j hj8, hplace]
      · obtain ⟨i, rfl⟩ := Nat.exists_eq_add_of_le (Nat.not_lt.mp hj8)
        have hi : input[anchor + len + 8 + i]? = input[anchor - distance + len + 8 + i]? := by
          cases same' with
          | true => exact (htrue' rfl).2 i (by have := (htrue' rfl).1; omega)
          | false => exact (hfalse' rfl).2 i (by omega)
        rw [← hplace, ← Nat.add_assoc, ← Nat.add_assoc, hi]
    · by_cases hmore : anchor + len + 8 ≤ length - 2
      · exact .inr (by omega)
      · exact .inl (by omega)

/-- The extension of a run: the first byte compared is the last one of the run, so that a comparison
is one byte behind. -/
lemma extendRun_extended {length anchor len : ℕ} (hanchor : 1 ≤ anchor)
    (hlimit : anchor + len + 3 ≤ length) (hlen : length ≤ input.length) :
    ∃ k, (do
        let x ← byteAt input (anchor + len - 1)
        extendRun input x (anchor - 1 + len) (anchor + len) (length - 2 - (anchor + len))) =
        .ok (anchor + len + k) ∧ Extended input length anchor 1 len k := by
  obtain ⟨b, hb⟩ : ∃ b, anchor + len = b + 1 := ⟨anchor + len - 1, by omega⟩
  have hx : b < input.length := by omega
  rw [hb, Nat.add_sub_cancel, byteAt_eq hx, ok_bind, show anchor - 1 + len = b by omega]
  obtain ⟨k, hk, hle, hall, hstop⟩ := extendRun_spec (input.get ⟨b, hx⟩) b (b + 1)
    (length - 2 - (b + 1)) (show _ ≤ input.length by omega)
  have hpos : 1 ≤ k := by
    by_contra hzero
    obtain rfl : k = 0 := by omega
    exact hstop (by omega) (List.getElem?_eq_getElem hx)
  refine ⟨k, hk, hpos, fun j hj => ?_, .inr (by omega)⟩
  -- both bytes are that of the run
  have h₁ := hall (j + 1) hj
  have h₀ := hall j (Nat.lt_of_succ_lt hj)
  rw [hb, show b + 1 + j = b + (j + 1) by omega, h₁, show b + (j + 1) - 1 = b + j by omega, h₀]

/-- The extension of a match. -/
theorem extend_spec {length anchor distance len : ℕ} (hdist : 1 ≤ distance)
    (hanchor : distance ≤ anchor) (hlimit : anchor + len + 8 ≤ length)
    (hlen : length ≤ input.length) :
    ∃ k, extend input length anchor distance len = .ok (anchor + len + k) ∧
      Extended input length anchor distance len k := by
  rw [extend]
  by_cases hrun : distance - 1 = 0
  · obtain rfl : distance = 1 := by omega
    rw [if_pos hrun]
    exact extendRun_extended (by omega) (by omega) hlen
  · rw [if_neg hrun]
    exact extendMatch_spec hanchor hlimit hlen

/-- A match with its extension is a back reference. -/
lemma Extended.covers {length anchor distance len k : ℕ}
    (h : Extended input length anchor distance len k) (hdist : 1 ≤ distance)
    (hanchor : distance ≤ anchor) (hlimit : anchor + len + 8 ≤ length)
    (hlen : length ≤ input.length)
    (hagree : ∀ i < len, input[anchor + i]? = input[anchor - distance + i]?) :
    (LzToken.back distance (len + k - 1)).Covers input anchor := by
  have hbound := h.bound
  refine ⟨hdist, hanchor, by omega, fun i hi => ?_⟩
  by_cases hfirst : i < len
  · exact hagree i hfirst
  · obtain ⟨j, rfl⟩ := Nat.exists_eq_add_of_le (Nat.not_lt.mp hfirst)
    have hj := h.agree j (by omega)
    rw [← Nat.add_assoc, hj]
    congr 1
    omega

/-! ### The search -/

/-- Two bytes are read as one number. -/
lemma fastlzReadu16_eq {p : ℕ} (h : p + 1 < input.length) :
    fastlzReadu16 input p = .ok ((input.get ⟨p, Nat.lt_of_succ_lt h⟩).toNat +
      256 * (input.get ⟨p + 1, h⟩).toNat) := by
  have hor : ∀ low high : UInt8, low.toNat ||| high.toNat <<< 8 =
      low.toNat + 256 * high.toNat := by
    intro low high
    rw [Nat.or_comm, ← Nat.shiftLeft_add_eq_or_of_lt low.toNat_lt, Nat.shiftLeft_eq]
    omega
  rw [fastlzReadu16, byteAt_eq (Nat.lt_of_succ_lt h), ok_bind, byteAt_eq h, ok_bind, hor]
  rfl

/-- The table has a place for every three bytes. -/
lemma hashFunction_lt {p : ℕ} (h : p + 2 < input.length) :
    ∃ hval, hashFunction input p = .ok hval ∧ hval < fastlzHashSize := by
  rw [hashFunction, fastlzReadu16_eq (by omega), ok_bind, fastlzReadu16_eq h, ok_bind]
  exact ⟨_, rfl, Nat.mod_lt _ (by decide)⟩

/-- A run that is found is one. -/
lemma isRun_spec (level : FastlzLevel) {ip : ℕ} (hpos : 1 ≤ ip) (hip : ip + 2 < input.length) :
    ∃ run, isRun level input ip = .ok run ∧
      (run = true → ∀ i < 3, input[ip + i]? = input[ip - 1 + i]?) := by
  obtain ⟨b, rfl⟩ := Nat.exists_eq_add_of_le' hpos
  cases level with
  | one => exact ⟨false, rfl, nofun⟩
  | two =>
    have h₁ : b + 1 < input.length := by omega
    have h₀ : b < input.length := by omega
    rw [isRun, Nat.add_sub_cancel, byteAt_eq h₁, ok_bind, byteAt_eq h₀, ok_bind]
    by_cases heq : input.get ⟨b + 1, h₁⟩ = input.get ⟨b, h₀⟩
    · rw [if_pos heq, fastlzReadu16_eq (by omega), ok_bind, fastlzReadu16_eq (by omega), ok_bind]
      refine ⟨_, rfl, fun hrun => ?_⟩
      have hlow := (input.get ⟨b, h₀⟩).toNat_lt
      have hlow' := (input.get ⟨b + 1 + 1, by omega⟩).toNat_lt
      have hsum := of_decide_eq_true hrun
      have hthird : input.get ⟨b + 1 + 1, by omega⟩ = input.get ⟨b, h₀⟩ :=
        UInt8.toNat_inj.mp (by omega)
      have hfourth : input.get ⟨b + 1 + 1 + 1, by omega⟩ = input.get ⟨b + 1, h₁⟩ :=
        UInt8.toNat_inj.mp (by omega)
      intro i hi
      rw [List.getElem?_eq_getElem (by omega), List.getElem?_eq_getElem (by omega)]
      refine congrArg some ?_
      obtain rfl | rfl | rfl : i = 0 ∨ i = 1 ∨ i = 2 := by omega
      · exact heq
      · exact hthird.trans heq.symm
      · exact hfourth.trans (heq.trans hthird.symm)
    · rw [if_neg heq]
      exact ⟨false, rfl, nofun⟩

/-- A match that has been found: a distance into the text, and the bytes that agree. -/
structure Found (level : FastlzLevel) (input : List UInt8) (anchor distance len : ℕ) : Prop where
  pos : 1 ≤ distance
  le : distance ≤ anchor
  limit : distance < level.searchLimit
  len_eq : len = 3 ∨ len = 5 ∧ level = .two
  far : level = .two → level.maxDistance ≤ distance - 1 → len = 5
  agree : ∀ i < len, input[anchor + i]? = input[anchor - distance + i]?

/-- A candidate that passes the comparison is a match. -/
lemma checkMatch_spec (level : FastlzLevel) {length anchor ref : ℕ} (hlimit : anchor + 12 < length)
    (hlen : length ≤ input.length) (href : ref < anchor) :
    ∃ found, checkMatch level input anchor ref = .ok found ∧
      ∀ len, found = some len → Found level input anchor (anchor - ref) len := by
  obtain ⟨d, rfl⟩ := Nat.exists_eq_add_of_lt href
  have hdist : ref + d + 1 - ref = d + 1 := by omega
  have hback : ∀ i, ref + d + 1 - (d + 1) + i = ref + i := by
    intro i
    omega
  rw [checkMatch, hdist]
  dsimp only
  by_cases hskip : d + 1 = 0 ∨ d + 1 ≥ level.searchLimit
  · rw [if_pos hskip]
    exact ⟨none, rfl, nofun⟩
  rw [if_neg hskip]
  obtain ⟨k, same, hk, -, htrue, -⟩ := compareBytes_spec ref (ref + d + 1) 3
    (show _ ≤ input.length by omega) (by omega)
  rw [hk, ok_bind]
  dsimp only
  cases same with
  | false =>
    rw [if_pos rfl]
    exact ⟨none, rfl, nofun⟩
  | true =>
    obtain ⟨-, hthree⟩ := htrue rfl
    rw [if_neg (by decide)]
    by_cases hfar : level = .two ∧ d + 1 ≥ level.maxDistance
    · obtain ⟨k', same', hk', -, htrue', -⟩ := compareBytes_spec (ref + 3) (ref + d + 1 + 3)
        2 (show _ ≤ input.length by omega) (by omega)
      rw [if_pos hfar, hk', ok_bind]
      dsimp only
      cases same' with
      | false =>
        rw [if_pos rfl]
        exact ⟨none, rfl, nofun⟩
      | true =>
        obtain ⟨-, htwo⟩ := htrue' rfl
        rw [if_neg (by decide)]
        refine ⟨some 5, rfl, ?_⟩
        rintro len ⟨⟩
        refine ⟨by omega, by omega, by omega, .inr ⟨rfl, hfar.1⟩, fun _ _ => rfl, fun i hi => ?_⟩
        rw [hback]
        by_cases hi3 : i < 3
        · exact hthree i hi3
        · obtain ⟨j, rfl⟩ := Nat.exists_eq_add_of_le (Nat.not_lt.mp hi3)
          have hj := htwo j (by omega)
          rwa [Nat.add_assoc (ref + d + 1), Nat.add_assoc ref 3] at hj
    · rw [if_neg hfar]
      refine ⟨some 3, rfl, ?_⟩
      rintro len ⟨⟩
      refine ⟨by omega, by omega, by omega, .inl rfl, fun htwo hmax => ?_, fun i hi => ?_⟩
      · exact absurd ⟨htwo, by omega⟩ hfar
      · rw [hback]
        exact hthree i hi

/-- The table of the compressor: every place of it is in front of `ip`. -/
structure TableBefore (htab : List ℕ) (ip : ℕ) : Prop where
  length_eq : htab.length = fastlzHashSize
  lt : ∀ ref ∈ htab, ref < ip

/-- A place is entered in the table. -/
lemma TableBefore.set {htab : List ℕ} {ip place ip' : ℕ} (h : TableBefore htab ip) (hval : ℕ)
    (hplace : place < ip') (hip : ip ≤ ip') : TableBefore (htab.set hval place) ip' := by
  refine ⟨by rw [List.length_set, h.length_eq], fun ref href => ?_⟩
  rcases List.mem_or_eq_of_mem_set href with hmem | rfl
  · exact Nat.lt_of_lt_of_le (h.lt ref hmem) hip
  · exact hplace

/-- The search finds matches only, and enters the place in the table. -/
theorem findMatch_spec (level : FastlzLevel) {length anchor : ℕ} {htab : List ℕ} (hpos : 1 ≤ anchor)
    (hlimit : anchor + 12 < length) (hlen : length ≤ input.length)
    (htable : TableBefore htab anchor) :
    ∃ found htab', findMatch level input anchor htab = .ok (found, htab') ∧
      TableBefore htab' (anchor + 1) ∧
      ∀ distance len, found = some (distance, len) → Found level input anchor distance len := by
  obtain ⟨run, hrun, hagree⟩ := isRun_spec level hpos
    (show anchor + 2 < input.length by omega)
  rw [findMatch, hrun, ok_bind]
  cases run with
  | true =>
    rw [if_pos rfl]
    refine ⟨_, htab, rfl, ⟨htable.length_eq, fun ref href => ?_⟩, ?_⟩
    · exact Nat.lt_succ_of_lt (htable.lt ref href)
    · rintro distance len ⟨⟩
      refine ⟨le_rfl, hpos, ?_, .inl rfl, fun htwo hmax => ?_, hagree rfl⟩
      · cases level <;> decide
      · subst htwo
        exact absurd hmax (by decide)
  | false =>
    obtain ⟨hval, hhash, hlt⟩ := hashFunction_lt (show anchor + 2 < input.length by omega)
    obtain ⟨ref, href⟩ := byteAt_of_lt (show hval < htab.length by rw [htable.length_eq]; exact hlt)
    have hmem : ref ∈ htab := List.mem_of_getElem? (getElem?_of_byteAt href)
    obtain ⟨found, hfound, hspec⟩ := checkMatch_spec level hlimit hlen
      (htable.lt ref hmem)
    rw [if_neg (by decide), hhash, ok_bind, href, ok_bind, hfound, ok_bind]
    refine ⟨_, _, rfl, htable.set hval (Nat.lt_succ_self anchor) (Nat.le_succ anchor), ?_⟩
    intro distance len hsome
    cases found with
    | none => cases hsome
    | some len' =>
      cases hsome
      exact hspec _ rfl

/-! ### The code of a match -/

/-- The tokens of a match, and how long its code is. -/
structure MatchTokens (level : FastlzLevel) (dist len : ℕ) (bytes : List UInt8)
    (toks : List (LzToken UInt8)) : Prop where
  bytes_eq : encodeTokens level toks = bytes
  encodable : ∀ tok ∈ toks, Encodable level tok
  covers : ∀ {text : List UInt8} {p : ℕ}, (LzToken.back dist len).Covers text p →
    Covers text p toks (p + len)
  shorter : bytes.length + 1 ≤ len

/-- A match of level 1 is cut into pieces that have a code. -/
lemma matchTokens_one {dist : ℕ} (hdist : 1 ≤ dist) (hlimit : dist < 8192) {n len : ℕ}
    (hn : len ≤ n) (hpos : 1 ≤ len) :
    ∃ toks, MatchTokens .one dist (len + 2)
      ((longMatch (dist - 1) n len).1 ++ shortMatch (dist - 1) (longMatch (dist - 1) n len).2)
      toks := by
  induction n generalizing len with
  | zero => omega
  | succ n ih =>
    rw [longMatch]
    by_cases hlong : len > fastlzMaxLen - 2
    · obtain ⟨rest, rfl⟩ := Nat.exists_eq_add_of_lt hlong
      have hmax : fastlzMaxLen - 2 = 262 := rfl
      obtain ⟨toks, htoks⟩ := ih (show rest + 1 ≤ n by omega) (by omega)
      have hsub : fastlzMaxLen - 2 + rest + 1 - (fastlzMaxLen - 2) = rest + 1 := by omega
      have hbytes : tokenBytes .one (.back dist (fastlzMaxLen - 2)) =
          [UInt8.ofNat (7 * 32 + (dist - 1) / 256), UInt8.ofNat (fastlzMaxLen - 2 - 7 - 2),
            UInt8.ofNat ((dist - 1) % 256)] := by
        rw [tokenBytes, matchBytes_one (by decide)]
        rfl
      rw [if_pos hlong, hsub]
      refine ⟨.back dist (fastlzMaxLen - 2) :: toks, ?_, ?_, fun {text p} hcov => ?_, ?_⟩
      · rw [encodeTokens_cons, hbytes, htoks.bytes_eq]
        rfl
      · intro tok htok
        rcases List.mem_cons.mp htok with rfl | htok
        · exact ⟨hdist, hlimit, by decide, fun _ => by decide⟩
        · exact htoks.encodable tok htok
      · have hsplit : fastlzMaxLen - 2 + rest + 1 + 2 = fastlzMaxLen - 2 + (rest + 1 + 2) := by
          omega
        rw [hsplit] at hcov ⊢
        obtain ⟨hfirst, hrest⟩ := LzToken.covers_back_add hcov
        refine ⟨hfirst, ?_⟩
        rw [← Nat.add_assoc]
        exact htoks.covers hrest
      · have hshort := htoks.shorter
        have h3 : 3 ≤ fastlzMaxLen - 2 := by decide
        simp only [List.cons_append, List.length_cons] at hshort ⊢
        omega
    · have hle : len ≤ fastlzMaxLen - 2 := Nat.not_lt.mp hlong
      rw [if_neg hlong]
      refine ⟨[.back dist (len + 2)], ?_, ?_, fun {text p} hcov => ⟨hcov, rfl⟩, ?_⟩
      · rw [encodeTokens_cons, encodeTokens_nil, List.append_nil, tokenBytes, Nat.add_sub_cancel,
          matchBytes_one hle]
        rfl
      · intro tok htok
        cases List.mem_singleton.mp htok
        refine ⟨hdist, hlimit, by omega, fun _ => ?_⟩
        unfold fastlzMaxLen at *
        omega
      · rw [List.nil_append, shortMatch]
        split <;> simp only [List.length_cons, List.length_nil] <;> omega

/-- The length bytes of level 2 are few. -/
lemma length_lenBytes_le (n len : ℕ) : (lenBytes n len).length ≤ len / 255 + 1 := by
  induction n generalizing len with
  | zero => exact Nat.succ_le_succ (Nat.zero_le _)
  | succ n ih =>
    rw [lenBytes]
    split
    · have h := ih (len - 255)
      rw [List.length_cons]
      omega
    · exact Nat.succ_le_succ (Nat.zero_le _)

/-- The code of a length of level 2. -/
lemma length_lenCode2_le (high len : ℕ) :
    (lenCode2 high len).length ≤ if len < 7 then 1 else len - 5 := by
  rw [lenCode2]
  split
  · exact le_rfl
  · have h := length_lenBytes_le len (len - 7)
    rw [List.length_cons]
    omega

/-- A match of level 2 has one code; that of a far match is longer, so that it needs five bytes. -/
lemma matchTokens_two {dist len : ℕ} (hdist : 1 ≤ dist)
    (hlimit : dist < FastlzLevel.two.searchLimit) (hlen : 3 ≤ len)
    (hfar : FastlzLevel.two.maxDistance ≤ dist - 1 → 5 ≤ len) :
    MatchTokens .two dist len (matchBytes .two (dist - 1) (len - 2)) [.back dist len] := by
  refine ⟨?_, ?_, fun {text p} hcov => ⟨hcov, rfl⟩, ?_⟩
  · rw [encodeTokens_cons, encodeTokens_nil, List.append_nil]
    rfl
  · intro tok htok
    cases List.mem_singleton.mp htok
    exact ⟨hdist, hlimit, hlen, nofun⟩
  · by_cases hnear : dist - 1 < 8191
    · have hcode := length_lenCode2_le ((dist - 1) / 256) (len - 2)
      rw [matchBytes_near hnear, List.length_append, List.length_singleton]
      split at hcode <;> omega
    · obtain ⟨far, hfareq⟩ := Nat.exists_eq_add_of_le (Nat.not_lt.mp hnear)
      have hcode := length_lenCode2_le 31 (len - 2)
      have hfive : 5 ≤ len := hfar (Nat.not_lt.mp hnear)
      rw [hfareq, matchBytes_far, List.length_append]
      simp only [List.length_cons, List.length_nil]
      split at hcode <;> omega

/-- The code of a match is that of tokens that stand for it, and shorter than it. -/
theorem matchBytes_tokens {dist len : ℕ} (hdist : 1 ≤ dist) (hlimit : dist < level.searchLimit)
    (hlen : 3 ≤ len)
    (hfar : level = .two → level.maxDistance ≤ dist - 1 → 5 ≤ len) :
    ∃ toks, MatchTokens level dist len (matchBytes level (dist - 1) (len - 2)) toks := by
  cases level with
  | one =>
    obtain ⟨l, rfl⟩ := Nat.exists_eq_add_of_le' (show 2 ≤ len by omega)
    rw [Nat.add_sub_cancel]
    exact matchTokens_one hdist hlimit le_rfl (by omega)
  | two => exact ⟨_, matchTokens_two hdist hlimit hlen (hfar rfl)⟩

end WiotaAp
