import WiotaAp.Foundation.Bitmap

/-!
# The flags of the chunks that are to be resent

A device that has missed parts of an update asks for ranges of the file.  `manager_update.c` keeps a
bitmap with one flag for each chunk of 512 bytes, and `manager_set_resend_sub_flag` sets the flags
of a range: as many as there are whole chunks in its length, from the chunk of its offset on.

The offset and the length are divided separately, so a range that is not aligned to chunks loses the
last ones that it touches.  `resend_covers_iff` says which they are, and that a request is covered
exactly if they are flagged anyway.
`resend_stays_inside_iff` says which offsets and lengths of a device keep the loop in the bitmap and
in the file.
-/

namespace WiotaAp

open Buffers

/-! ### The bitmap -/

/-- `MANAGER_OTA_SEND_BIN_SIZE`. -/
def managerOtaSendBinSize : ℤ := 512

/-- `t_data_offset`. -/
structure DataOffset where
  offset : Int32
  len : Int32
  deriving DecidableEq, Repr

/-- `sub_flag_bit_count`. -/
def subFlagBitCount (len subLen : ℤ) : ℤ :=
  len.tdiv subLen + (if len.tmod subLen > 0 then len.tmod subLen else 0)

/-- `manager_init_resend_sub_flag`: the flags, which are all clear, and `flag_num`. -/
def managerInitResendSubFlag (len subLen : ℤ) : List UInt8 × ℤ :=
  (List.replicate ((subFlagBitCount len subLen).tdiv 8 + 1).toNat 0,
    (subFlagBitCount len subLen).tdiv 8 +
      (if (subFlagBitCount len subLen).tmod 8 > 0 then 1 else 0))

/-- The loop of `manager_set_resend_sub_flag` in its remaining rounds.  There is no flag at a
negative position: from -8 on the byte lies in front of the bitmap, and from -7 to -1 it is the
first byte of the bitmap, but the shift by `start_bit % 8` is undefined. -/
def setFlagLoop : List UInt8 → ℤ → ℕ → Except Fault (List UInt8)
  | flag, _, 0 => .ok flag
  | flag, startBit, rounds + 1 =>
    if startBit < 0 then .error .outOfBounds
    else do
      let flag ← orBit flag startBit.toNat
      setFlagLoop flag (startBit + 1) rounds

/-- The rounds of `while (block_num)`: an `int` is counted down to zero, and a negative one wraps
around. -/
def countDownRounds (blockNum : ℤ) : ℕ :=
  (blockNum % 2 ^ 32).toNat

/-- `manager_set_resend_sub_flag`. -/
def managerSetResendSubFlag (flag : List UInt8) (offset len subLen : ℤ) :
    Except Fault (List UInt8) :=
  setFlagLoop flag (offset.tdiv subLen) (countDownRounds (len.tdiv subLen))

/-- The loop of `manager_ota_resend_data` that sets the flags. -/
def setResendRanges : List UInt8 → List DataOffset → Except Fault (List UInt8)
  | flag, [] => .ok flag
  | flag, info :: infos => do
    let flag ← managerSetResendSubFlag flag info.offset.toInt info.len.toInt managerOtaSendBinSize
    setResendRanges flag infos

/-- `manager_get_resend_sub_flag`.  It can also return -1, for a byte other than zero without a bit
that is set; there is no such byte. -/
def managerGetResendSubFlag (flag : List UInt8) (flagNum : ℤ) : Except Fault ℤ := do
  match ← firstBitFrom flag 0 flagNum.toNat with
  | some k => return k
  | none => return -2

/-- `manager_clean_resend_sub_flag` at a position that is not negative. -/
def managerCleanResendSubFlag (flag : List UInt8) (bitNum : ℕ) : Except Fault (List UInt8) :=
  clearBit flag bitNum

/-! ### What a range sets -/

/-- The chunk of the offset. -/
def DataOffset.startBit (info : DataOffset) : ℤ :=
  info.offset.toInt.tdiv managerOtaSendBinSize

/-- The number of whole chunks in the length. -/
def DataOffset.blockNum (info : DataOffset) : ℤ :=
  info.len.toInt.tdiv managerOtaSendBinSize

/-- The flags that a range sets. -/
def DataOffset.Marks (info : DataOffset) (k : ℕ) : Prop :=
  info.startBit ≤ k ∧ k < info.startBit + info.blockNum

/-- A range stays in a bitmap of `length` bytes. -/
def DataOffset.Fits (info : DataOffset) (length : ℕ) : Prop :=
  info.blockNum = 0 ∨
    (0 < info.blockNum ∧ 0 ≤ info.startBit ∧ info.startBit + info.blockNum ≤ 8 * length)

/-- The number of chunks is that of a 32-bit length. -/
lemma DataOffset.blockNum_bounds (info : DataOffset) :
    -2 ^ 22 ≤ info.blockNum ∧ info.blockNum < 2 ^ 22 := by
  have hlt := Int32.toInt_lt info.len
  have hle := Int32.le_toInt info.len
  unfold DataOffset.blockNum managerOtaSendBinSize
  rcases Int.le_total 0 info.len.toInt with hpos | hneg
  · rw [Int.tdiv_eq_ediv_of_nonneg hpos]
    omega
  · obtain ⟨n, hn⟩ : ∃ n : ℤ, info.len.toInt = -n := ⟨-info.len.toInt, (neg_neg _).symm⟩
    rw [hn, Int.neg_tdiv, Int.tdiv_eq_ediv_of_nonneg (by omega)]
    omega

/-- At positions that are not negative the loop sets a row of bits. -/
lemma setFlagLoop_eq_orBits (flag : List UInt8) (k rounds : ℕ) :
    setFlagLoop flag k rounds = orBits flag k rounds := by
  induction rounds generalizing flag k with
  | zero => rfl
  | succ rounds ih =>
    rw [setFlagLoop, if_neg (by omega), orBits, Int.toNat_natCast]
    cases orBit flag k with
    | error fault => rfl
    | ok flag' => exact ih flag' (k + 1)

/-- Setting the flags of a range: it stays in the bitmap and its flags are set, or it does not and
the program faults. -/
lemma managerSetResendSubFlag_cases {flag : List UInt8} (hflag : flag.length < 2 ^ 28)
    (info : DataOffset) :
    (info.Fits flag.length ∧ ∃ flag',
      managerSetResendSubFlag flag info.offset.toInt info.len.toInt managerOtaSendBinSize =
        .ok flag' ∧ flag'.length = flag.length ∧
      ∀ k, bitAt flag' k = true ↔ bitAt flag k = true ∨ info.Marks k) ∨
    (¬ info.Fits flag.length ∧
      managerSetResendSubFlag flag info.offset.toInt info.len.toInt managerOtaSendBinSize =
        .error .outOfBounds) := by
  obtain ⟨hlow, hhigh⟩ := info.blockNum_bounds
  have hcall : managerSetResendSubFlag flag info.offset.toInt info.len.toInt managerOtaSendBinSize =
      setFlagLoop flag info.startBit (countDownRounds info.blockNum) := rfl
  unfold DataOffset.Fits DataOffset.Marks
  rw [hcall]
  by_cases hzero : info.blockNum = 0
  · -- nothing is set
    refine .inl ⟨.inl hzero, flag, ?_, rfl, fun k => ?_⟩
    · rw [hzero]
      rfl
    · exact (or_iff_left (by omega)).symm
  · have hrounds : countDownRounds info.blockNum ≠ 0 := by
      unfold countDownRounds
      omega
    rcases lt_or_ge info.startBit 0 with hneg | hstart
    · refine .inr ⟨by omega, ?_⟩
      obtain ⟨rounds, hsucc⟩ := Nat.exists_eq_succ_of_ne_zero hrounds
      rw [hsucc, setFlagLoop, if_pos hneg]
    · obtain ⟨start, hnat⟩ := Int.eq_ofNat_of_zero_le hstart
      rw [hnat, setFlagLoop_eq_orBits]
      rcases orBits_cases flag start (countDownRounds info.blockNum) with
        ⟨hrow, flag', hors, hlength, hbits⟩ | ⟨-, hout, hors⟩
      · -- a count that wraps around leaves the bitmap
        have hpos : (countDownRounds info.blockNum : ℤ) = info.blockNum := by
          unfold countDownRounds at hrow ⊢
          omega
        refine .inl ⟨.inr (by omega), flag', hors, hlength, fun k => ?_⟩
        rw [hbits, Bool.or_eq_true, decide_eq_true_eq]
        exact or_congr_right (by omega)
      · refine .inr ⟨?_, hors⟩
        unfold countDownRounds at hout
        omega

/-- Setting the flags of a list of ranges: all of them stay in the bitmap and their flags are set,
or the program faults. -/
lemma setResendRanges_cases {flag : List UInt8} (hflag : flag.length < 2 ^ 28)
    (infos : List DataOffset) :
    ((∀ info ∈ infos, info.Fits flag.length) ∧ ∃ flag', setResendRanges flag infos = .ok flag' ∧
      flag'.length = flag.length ∧
      ∀ k, bitAt flag' k = true ↔ bitAt flag k = true ∨ ∃ info ∈ infos, info.Marks k) ∨
    ((∃ info ∈ infos, ¬ info.Fits flag.length) ∧
      setResendRanges flag infos = .error .outOfBounds) := by
  induction infos generalizing flag with
  | nil =>
    refine .inl ⟨fun info hinfo => (List.not_mem_nil hinfo).elim, flag, rfl, rfl, fun k => ?_⟩
    simp
  | cons info infos ih =>
    rcases managerSetResendSubFlag_cases hflag info with
      ⟨hfits, flag', hset, hlength, hbits⟩ | ⟨hfits, hset⟩
    · rcases ih (hlength ▸ hflag) with
        ⟨hrest, flag'', hsets, hlength', hbits'⟩ | ⟨⟨info', hinfo', hnot⟩, hsets⟩
      · refine .inl ⟨?_, flag'', ?_, hlength'.trans hlength, fun k => ?_⟩
        · intro info' hinfo'
          rcases List.mem_cons.mp hinfo' with rfl | hmem
          · exact hfits
          · exact hlength ▸ hrest info' hmem
        · rw [setResendRanges, hset]
          exact hsets
        · rw [hbits', hbits, List.exists_mem_cons_iff, or_assoc]
      · refine .inr ⟨⟨info', List.mem_cons_of_mem _ hinfo', hlength ▸ hnot⟩, ?_⟩
        rw [setResendRanges, hset]
        exact hsets
    · refine .inr ⟨⟨info, List.mem_cons_self, hfits⟩, ?_⟩
      rw [setResendRanges, hset]
      rfl

/-- There are no more bytes to search than there are. -/
lemma managerInitResendSubFlag_num_le (len subLen : ℤ) :
    (managerInitResendSubFlag len subLen).2.toNat ≤
      (managerInitResendSubFlag len subLen).1.length := by
  unfold managerInitResendSubFlag
  rw [List.length_replicate]
  refine Int.toNat_le_toNat ?_
  split <;> omega

/-- The flags are clear at first. -/
lemma bitAt_managerInitResendSubFlag (len subLen : ℤ) (k : ℕ) :
    bitAt (managerInitResendSubFlag len subLen).1 k = false := by
  unfold bitAt managerInitResendSubFlag
  dsimp only
  rw [List.getD_eq_getElem?_getD, List.getElem?_replicate]
  split <;> simp [byteBit]

/-- The search for the first flag finds it, or there is none. -/
lemma managerGetResendSubFlag_cases {flag : List UInt8} {flagNum : ℤ}
    (hnum : flagNum.toNat ≤ flag.length) :
    (managerGetResendSubFlag flag flagNum = .ok (-2) ∧
      ∀ k < 8 * flagNum.toNat, bitAt flag k = false) ∨
    ∃ k : ℕ, managerGetResendSubFlag flag flagNum = .ok k ∧ k < 8 * flagNum.toNat ∧
      bitAt flag k = true ∧ ∀ j < k, bitAt flag j = false := by
  unfold managerGetResendSubFlag
  rcases firstBitFrom_cases flag (i := 0) ((Nat.zero_add _).trans_le hnum) with
    ⟨hsearch, hnone⟩ | ⟨k, hsearch, -, hk, hbit, hfirst⟩
  · refine .inl ⟨?_, fun k hk => hnone k (Nat.zero_le _) (by rwa [Nat.zero_add])⟩
    rw [hsearch]
    rfl
  · refine .inr ⟨k, ?_, by rwa [Nat.zero_add] at hk, hbit, fun j hj => hfirst j (Nat.zero_le _) hj⟩
    rw [hsearch]
    rfl

/-! ### Covering a request -/

/-- The number of flags for a file that is not negative. -/
lemma subFlagBitCount_eq {fileLen : ℤ} (hfile : 0 ≤ fileLen) :
    subFlagBitCount fileLen managerOtaSendBinSize = fileLen / 512 + fileLen % 512 := by
  unfold subFlagBitCount managerOtaSendBinSize
  rw [Int.tdiv_eq_ediv_of_nonneg hfile, Int.tmod_eq_emod_of_nonneg hfile]
  split
  · rfl
  · omega

/-- The number of bytes of the bitmap for a file that is not negative. -/
lemma length_managerInitResendSubFlag {fileLen : ℤ} (hfile : 0 ≤ fileLen) :
    ((managerInitResendSubFlag fileLen managerOtaSendBinSize).1.length : ℤ) =
      (fileLen / 512 + fileLen % 512) / 8 + 1 := by
  unfold managerInitResendSubFlag
  rw [List.length_replicate, subFlagBitCount_eq hfile, Int.tdiv_eq_ediv_of_nonneg (by omega)]
  omega

/-- The flags of the chunks of a file are searched. -/
lemma lt_managerInitResendSubFlag_num {fileLen : ℤ} {k : ℕ} (hk : 512 * (k : ℤ) < fileLen) :
    k < 8 * (managerInitResendSubFlag fileLen managerOtaSendBinSize).2.toNat := by
  have hfile : 0 ≤ fileLen := by omega
  have hcount : subFlagBitCount fileLen managerOtaSendBinSize = fileLen / 512 + fileLen % 512 :=
    subFlagBitCount_eq hfile
  have hnonneg : 0 ≤ fileLen / 512 + fileLen % 512 := by omega
  unfold managerInitResendSubFlag
  dsimp only
  rw [hcount, Int.tdiv_eq_ediv_of_nonneg hnonneg, Int.tmod_eq_emod_of_nonneg hnonneg]
  split <;> omega

/-- A range lies in the file. -/
def DataOffset.InFile (info : DataOffset) (fileLen : ℤ) : Prop :=
  0 ≤ info.offset.toInt ∧ 0 < info.len.toInt ∧ info.offset.toInt + info.len.toInt ≤ fileLen

/-- The chunk `k` has a byte of the range. -/
def DataOffset.Overlaps (info : DataOffset) (k : ℕ) : Prop :=
  ∃ x : ℤ, 512 * k ≤ x ∧ x < 512 * (k + 1) ∧ info.offset.toInt ≤ x ∧
    x < info.offset.toInt + info.len.toInt

/-- The flags are those that the request asks for: every chunk with a byte of a range is flagged,
what was flagged stays flagged, and nothing else is. -/
structure CoversRequest (infos : List DataOffset) (flag flag' : List UInt8) : Prop where
  requested : ∀ info ∈ infos, ∀ k, info.Overlaps k → bitAt flag' k = true
  kept : ∀ k, bitAt flag k = true → bitAt flag' k = true
  only : ∀ k, bitAt flag' k = true → bitAt flag k = true ∨ ∃ info ∈ infos, info.Overlaps k

/-- The chunk is one of the whole chunks in the length, counted from the chunk of the offset on. -/
def DataOffset.Counts (info : DataOffset) (k : ℕ) : Prop :=
  info.offset.toInt / 512 ≤ k ∧ k < info.offset.toInt / 512 + info.len.toInt / 512

/-- The chunk is behind those that the range counts, up to the chunk of its last byte. -/
def DataOffset.Loses (info : DataOffset) (k : ℕ) : Prop :=
  info.offset.toInt / 512 + info.len.toInt / 512 ≤ k ∧
    k ≤ (info.offset.toInt + info.len.toInt - 1) / 512

section InFile

variable {info : DataOffset} {fileLen : ℤ}

/-- The loop sets the flags of the chunks that a range in the file counts. -/
lemma DataOffset.InFile.marks_iff (h : info.InFile fileLen) (k : ℕ) :
    info.Marks k ↔ info.Counts k := by
  unfold DataOffset.Marks DataOffset.Counts DataOffset.startBit DataOffset.blockNum
    managerOtaSendBinSize
  rw [Int.tdiv_eq_ediv_of_nonneg h.1, Int.tdiv_eq_ediv_of_nonneg (le_of_lt h.2.1)]

/-- The chunks with a byte of a range are those from the chunk of its first byte to the one of its
last. -/
lemma DataOffset.InFile.overlaps_iff (h : info.InFile fileLen) (k : ℕ) :
    info.Overlaps k ↔ info.offset.toInt / 512 ≤ k ∧
      k ≤ (info.offset.toInt + info.len.toInt - 1) / 512 := by
  obtain ⟨-, hlen, -⟩ := h
  constructor
  · rintro ⟨x, hle, hlt, hstart, hend⟩
    omega
  · rintro ⟨hstart, hend⟩
    refine ⟨max (512 * k) info.offset.toInt, ?_⟩
    omega

/-- The chunks with a byte of a range are those that it counts and those that it loses. -/
lemma DataOffset.InFile.overlaps_iff_counts (h : info.InFile fileLen) (k : ℕ) :
    info.Overlaps k ↔ info.Counts k ∨ info.Loses k := by
  rw [h.overlaps_iff]
  obtain ⟨-, hlen, -⟩ := h
  unfold DataOffset.Counts DataOffset.Loses
  omega

/-- A range loses no chunk exactly if it begins and ends between chunks. -/
lemma DataOffset.InFile.loses_iff (h : info.InFile fileLen) :
    (∀ k, ¬ info.Loses k) ↔ 512 ∣ info.offset.toInt ∧ 512 ∣ info.len.toInt := by
  obtain ⟨hoffset, hlen, -⟩ := h
  unfold DataOffset.Loses
  constructor
  · intro hnone
    -- the first chunk behind those that are counted is not reached
    have hfirst := hnone (info.offset.toInt / 512 + info.len.toInt / 512).toNat
    omega
  · rintro ⟨hstart, hend⟩ k hk
    omega

end InFile

/-- A range in the file stays in the bitmap of the file. -/
lemma DataOffset.InFile.fits {info : DataOffset} {fileLen : ℤ} (h : info.InFile fileLen)
    {length : ℕ} (hlength : length =
      (managerInitResendSubFlag fileLen managerOtaSendBinSize).1.length) : info.Fits length := by
  obtain ⟨hoffset, hlen, hend⟩ := h
  have hbytes := length_managerInitResendSubFlag (by omega : 0 ≤ fileLen)
  rw [← hlength] at hbytes
  unfold DataOffset.Fits DataOffset.startBit DataOffset.blockNum managerOtaSendBinSize
  rw [Int.tdiv_eq_ediv_of_nonneg hoffset, Int.tdiv_eq_ediv_of_nonneg (le_of_lt hlen)]
  omega

/-- The bitmap of a file with a 32-bit length is small. -/
lemma length_lt_of_int32 {fileLen : Int32} (hfile : 0 ≤ fileLen.toInt) :
    (managerInitResendSubFlag fileLen.toInt managerOtaSendBinSize).1.length < 2 ^ 28 := by
  have hlt := Int32.toInt_lt fileLen
  have hbytes := length_managerInitResendSubFlag hfile
  omega

/-- For ranges in the file, the flags that the loop sets are those that the request asks for exactly
if every chunk that a range loses was flagged before or is counted by another range.  A range loses
the chunks from `offset / 512 + len / 512` to the one of its last byte: none exactly if the offset
and the length are both multiples of 512. -/
theorem resend_covers_iff (fileLen : Int32) (hfile : 0 ≤ fileLen.toInt) (flag : List UInt8)
    (hlength : flag.length =
      (managerInitResendSubFlag fileLen.toInt managerOtaSendBinSize).1.length)
    (infos : List DataOffset) (hinfos : ∀ info ∈ infos, info.InFile fileLen.toInt) :
    ((∃ flag', setResendRanges flag infos = .ok flag' ∧ CoversRequest infos flag flag') ↔
      ∀ info ∈ infos, ∀ k, info.Loses k →
        bitAt flag k = true ∨ ∃ info' ∈ infos, info'.Counts k) ∧
    ∀ info ∈ infos,
      (∀ k, ¬ info.Loses k) ↔ 512 ∣ info.offset.toInt ∧ 512 ∣ info.len.toInt := by
  refine ⟨?_, fun info hinfo => (hinfos info hinfo).loses_iff⟩
  have hflag : flag.length < 2 ^ 28 := hlength ▸ length_lt_of_int32 hfile
  rcases setResendRanges_cases hflag infos with
    ⟨-, flag', hset, -, hbits⟩ | ⟨⟨info, hinfo, hnot⟩, -⟩
  · have hcounts : ∀ k, bitAt flag' k = true ↔
        bitAt flag k = true ∨ ∃ info ∈ infos, info.Counts k := by
      intro k
      rw [hbits]
      refine or_congr_right (exists_congr fun info => and_congr_right fun hinfo => ?_)
      exact (hinfos info hinfo).marks_iff k
    constructor
    · rintro ⟨flag'', hset', hcovers⟩ info hinfo k hloses
      cases hset.symm.trans hset'
      exact (hcounts k).mp (hcovers.requested info hinfo k
        (((hinfos info hinfo).overlaps_iff_counts k).mpr (.inr hloses)))
    · intro hcondition
      refine ⟨flag', hset, ?_, ?_, ?_⟩
      · intro info hinfo k hoverlaps
        rw [hcounts]
        rcases ((hinfos info hinfo).overlaps_iff_counts k).mp hoverlaps with hown | hloses
        · exact .inr ⟨info, hinfo, hown⟩
        · exact hcondition info hinfo k hloses
      · intro k hold
        exact (hcounts k).mpr (.inl hold)
      · intro k hnew
        rcases (hcounts k).mp hnew with hold | ⟨info, hinfo, hown⟩
        · exact .inl hold
        · exact .inr ⟨info, hinfo, ((hinfos info hinfo).overlaps_iff_counts k).mpr (.inl hown)⟩
  · exact absurd ((hinfos info hinfo).fits hlength) hnot

/-- The last 400 bytes of a file of 1200 bytes are in its second and its last chunk.  The range of
them counts no chunk and loses both; another range counts the second one, and the last one was
flagged before. -/
theorem resend_covers_unaligned :
    ∃ flag', setResendRanges (4 :: List.replicate 22 0) [⟨800, 400⟩, ⟨512, 512⟩] = .ok flag' ∧
      CoversRequest [⟨800, 400⟩, ⟨512, 512⟩] (4 :: List.replicate 22 0) flag' := by
  have hinfos : ∀ info ∈ ([⟨800, 400⟩, ⟨512, 512⟩] : List DataOffset),
      info.InFile (1200 : Int32).toInt := by
    unfold DataOffset.InFile
    decide
  refine (resend_covers_iff 1200 (by decide) (4 :: List.replicate 22 0) (by decide)
    [⟨800, 400⟩, ⟨512, 512⟩] hinfos).1.mpr ?_
  intro info hinfo k hloses
  have hk : k < 3 := by
    have hend : (k : ℤ) ≤ (info.offset.toInt + info.len.toInt - 1) / 512 := hloses.2
    have hfile := (hinfos info hinfo).2.2
    have hvalue : (1200 : Int32).toInt = 1200 := by decide
    omega
  revert hloses
  unfold DataOffset.Loses DataOffset.Counts
  revert info k
  decide

/-- A file of 1000 bytes has a last chunk of 488 bytes.  The request for just this chunk sets no
flag at all. -/
theorem resend_loses_last_chunk :
    (managerInitResendSubFlag 1000 managerOtaSendBinSize).1.length = 62 ∧
    DataOffset.InFile ⟨512, 488⟩ 1000 ∧ DataOffset.Overlaps ⟨512, 488⟩ 1 ∧
    setResendRanges (managerInitResendSubFlag 1000 managerOtaSendBinSize).1 [⟨512, 488⟩] =
      .ok (managerInitResendSubFlag 1000 managerOtaSendBinSize).1 ∧
    bitAt (managerInitResendSubFlag 1000 managerOtaSendBinSize).1 1 = false := by
  refine ⟨by decide, ⟨by decide, by decide, by decide⟩, ⟨512, ?_⟩, by decide, by decide⟩
  decide

/-! ### Ranges from outside -/

/-- A range keeps to the flags of the file: it has no whole chunk, or as many as it counts are not
before the first chunk, and each of them begins in the file or is flagged already. -/
def DataOffset.StaysInside (info : DataOffset) (fileLen : ℤ) (flag : List UInt8) : Prop :=
  info.blockNum = 0 ∨ (0 < info.blockNum ∧ 0 ≤ info.startBit ∧
    ∀ k, info.Marks k → 512 * k < fileLen ∨ bitAt flag k = true)

/-- A range that keeps to the flags of the file stays in the bitmap. -/
lemma DataOffset.StaysInside.fits {info : DataOffset} {fileLen : ℤ} {flag : List UInt8}
    (h : info.StaysInside fileLen flag) (hfile : 0 ≤ fileLen)
    (hlength : flag.length = (managerInitResendSubFlag fileLen managerOtaSendBinSize).1.length) :
    info.Fits flag.length := by
  rcases h with hzero | ⟨hpos, hstart, hmarks⟩
  · exact .inl hzero
  · have hbytes := length_managerInitResendSubFlag hfile
    rw [← hlength] at hbytes
    refine .inr ⟨hpos, hstart, ?_⟩
    -- the last chunk of the range is in the bitmap
    obtain ⟨last, hlast⟩ := Int.eq_ofNat_of_zero_le
      (by omega : 0 ≤ info.startBit + info.blockNum - 1)
    have hlt : last < 8 * flag.length := by
      rcases hmarks last ⟨by omega, by omega⟩ with hfile' | hold
      · omega
      · exact lt_of_bitAt hold
    omega

/-- Whatever offsets and lengths a device sends: the loop stays in the bitmap, and every flag that
it sets belongs to a chunk that begins in the file, exactly if each range keeps to the flags of the
file. -/
theorem resend_stays_inside_iff (fileLen : Int32) (hpos : 1 ≤ fileLen.toInt) (flag : List UInt8)
    (hlength : flag.length =
      (managerInitResendSubFlag fileLen.toInt managerOtaSendBinSize).1.length)
    (infos : List DataOffset) :
    (∃ flag', setResendRanges flag infos = .ok flag' ∧ ∀ k, bitAt flag' k = true →
      bitAt flag k = false → 512 * k < fileLen.toInt) ↔
      ∀ info ∈ infos, info.StaysInside fileLen.toInt flag := by
  have hfile : 0 ≤ fileLen.toInt := le_trans (by decide) hpos
  have hflag : flag.length < 2 ^ 28 := hlength ▸ length_lt_of_int32 hfile
  rcases setResendRanges_cases hflag infos with
    ⟨hfits, flag', hset, -, hbits⟩ | ⟨⟨info, hinfo, hnot⟩, hset⟩
  · constructor
    · rintro ⟨flag'', hset', hinside⟩ info hinfo
      cases hset.symm.trans hset'
      rcases hfits info hinfo with hzero | ⟨hblock, hstart, -⟩
      · exact .inl hzero
      · refine .inr ⟨hblock, hstart, fun k hmarks => ?_⟩
        by_cases hold : bitAt flag k = true
        · exact .inr hold
        · refine .inl (hinside k ?_ (eq_false_of_ne_true hold))
          exact (hbits k).mpr (.inr ⟨info, hinfo, hmarks⟩)
    · intro hinside
      refine ⟨flag', hset, fun k hnew hold => ?_⟩
      rcases (hbits k).mp hnew with hold' | ⟨info, hinfo, hmarks⟩
      · cases hold.symm.trans hold'
      · rcases hinside info hinfo with hzero | ⟨-, -, hchunk⟩
        · unfold DataOffset.Marks at hmarks
          omega
        · rcases hchunk k hmarks with hlt | hold'
          · exact hlt
          · cases hold.symm.trans hold'
  · refine iff_of_false ?_ fun hinside => hnot ((hinside info hinfo).fits hfile hlength)
    rintro ⟨flag', hset', -⟩
    cases hset.symm.trans hset'

/-- The request for the first chunk of a file of one chunk keeps to the flags. -/
theorem resend_stays_inside_first :
    ∃ flag', setResendRanges [0] [⟨0, 512⟩] = .ok flag' ∧ ∀ k, bitAt flag' k = true →
      bitAt [0] k = false → 512 * k < (512 : Int32).toInt := by
  refine (resend_stays_inside_iff 512 (by decide) [0] (by decide) [⟨0, 512⟩]).mpr ?_
  intro info hinfo
  cases List.mem_singleton.mp hinfo
  refine .inr ⟨by decide, by decide, fun k hmarks => .inl ?_⟩
  have hlt : (k : ℤ) < 1 := hmarks.2
  have hvalue : (512 : Int32).toInt = 512 := by decide
  omega

/-- For a file of one chunk of 512 bytes: a range behind the bitmap and a range with a negative
length leave the bitmap, and a range that begins at the end of the file sets the flag of a chunk
that is not in it. -/
theorem resend_leaves_bitmap :
    (managerInitResendSubFlag 512 managerOtaSendBinSize).1 = [0] ∧
    setResendRanges [0] [⟨4096, 512⟩] = .error .outOfBounds ∧
    setResendRanges [0] [⟨0, -512⟩] = .error .outOfBounds ∧
    setResendRanges [0] [⟨512, 512⟩] = .ok [2] ∧ bitAt [2] 1 = true := by
  refine ⟨by decide, by decide, ?_, by decide, by decide⟩
  rcases setResendRanges_cases (by decide : [(0 : UInt8)].length < 2 ^ 28) [⟨0, -512⟩] with
    ⟨hfits, -⟩ | ⟨-, hset⟩
  · rcases hfits ⟨0, -512⟩ (List.mem_singleton_self _) with hzero | ⟨hpos, -⟩
    · exact absurd hzero (by decide)
    · exact absurd hpos (by decide)
  · exact hset

end WiotaAp
