import WiotaAp.SpiCom.DlBatch

/-!
# For which blocks the parse loop stays inside the block

The parse loop takes lengths from the block before it compares them with the block, and compares
only the length of one frame, not the end of the frame.  `Delimited` describes the blocks on which
this does no harm, by their contents alone: from the offset on, the block is a sequence of frames
that fit, up to the end of the block or to bytes that end the loop.

`parsesSafely_iff` says that these are exactly the blocks on which the loop terminates without
leaving the block and returns an offset inside it.
-/

namespace WiotaAp

open Buffers

section Contents

variable (crc32 : List UInt8 → UInt32) (dlData : List UInt8)

/-! ### What a block says -/

/-- The header the parser settles on at `off`, with the block it leaves. -/
def headerFound (off : ℕ) : Option (ℕ × List UInt8) :=
  if HeaderOk crc32 (slice dlData off 8) then some (off, dlData)
  else if HeaderOk crc32 (slice dlData (dlData.length / 2) 8) then
    some (dlData.length / 2, copyWithin dlData off (dlData.length / 2) 8)
  else none

/-- The bytes a header check at `off` reads lie in the block. -/
def HeaderFits (off : ℕ) : Prop :=
  off + 8 ≤ dlData.length ∧
    (¬ HeaderOk crc32 (slice dlData off 8) → dlData.length / 2 + 8 ≤ dlData.length)

/-- The copy of a frame of length `len` that the parser settles on, with the block it leaves. -/
def dataFound (off cmdHeader len : ℕ) : Option (ℕ × List UInt8) :=
  if FrameOk crc32 (slice dlData off len) then some (off, dlData)
  else if FrameOk crc32 (slice (copyWithin dlData len cmdHeader 8) len len) then
    some (len, copyWithin dlData len cmdHeader 8)
  else none

/-- The bytes a data check over `len` bytes at `off` reads and writes lie in the block. -/
def DataFits (off len : ℕ) : Prop :=
  4 ≤ len ∧ off + len ≤ dlData.length ∧
    (¬ FrameOk crc32 (slice dlData off len) → len + 8 ≤ dlData.length ∧ len + len ≤ dlData.length)

/-- The header at a pointer. -/
def headerAt (cmdHeader : ℕ) : CmdHeader :=
  CmdHeader.ofBytes (slice dlData cmdHeader 8)

/-- The frame behind a header, with the block the parser leaves and the length of two copies. -/
def frameFound (off cmdHeader : ℕ) : Option (ℕ × List UInt8 × ℕ) :=
  if (headerAt dlData cmdHeader).dataLen.toNat > 0 then
    (dataFound crc32 dlData off cmdHeader
      (subDataLenOf (headerAt dlData cmdHeader).dataLen.toNat)).map fun p =>
        (p.1, p.2, subDataLenOf (headerAt dlData cmdHeader).dataLen.toNat * 2 % 2 ^ 16)
  else some (off, dlData, 16)

/-- The frame behind a header lies in the block. -/
def FrameFits (off cmdHeader : ℕ) : Prop :=
  0 < (headerAt dlData cmdHeader).dataLen.toNat →
    DataFits crc32 dlData off (subDataLenOf (headerAt dlData cmdHeader).dataLen.toNat)

/-- The block and the offset of the next round, if there is one. -/
def nextFrame (off : ℕ) : Option (List UInt8 × ℕ) := do
  let (cmdHeader, dlData') ← headerFound crc32 dlData off
  let (_, dlData'', len) ← frameFound crc32 dlData' off cmdHeader
  if len ≤ dlData.length then some (dlData'', off + len) else none

/-- The round at `off` stays in the block: its header and its frame do, and if the frame is
dispatched, its command type has a handler and its second copy ends in the block. -/
def RoundFits (off : ℕ) : Prop :=
  HeaderFits crc32 dlData off ∧
    ∀ cmdHeader dlData', headerFound crc32 dlData off = some (cmdHeader, dlData') →
      FrameFits crc32 dlData' off cmdHeader ∧
        ∀ subData dlData'' len,
          frameFound crc32 dlData' off cmdHeader = some (subData, dlData'', len) →
          len ≤ dlData.length →
          off + len ≤ dlData.length ∧ (headerAt dlData'' cmdHeader).handler? ≠ none

end Contents

/-- From `off` on, the block is a sequence of frames that fit, up to its end or to bytes that end
the loop. -/
inductive Delimited (crc32 : List UInt8 → UInt32) : List UInt8 → ℕ → Prop
  | atEnd (dlData : List UInt8) : Delimited crc32 dlData dlData.length
  | last {dlData : List UInt8} {off : ℕ} (hlt : off < dlData.length)
      (hfits : RoundFits crc32 dlData off) (hnext : nextFrame crc32 dlData off = none) :
      Delimited crc32 dlData off
  | frame {dlData dlData' : List UInt8} {off off' : ℕ} (hlt : off < dlData.length)
      (hfits : RoundFits crc32 dlData off)
      (hnext : nextFrame crc32 dlData off = some (dlData', off'))
      (hrest : Delimited crc32 dlData' off') : Delimited crc32 dlData off

/-- The parse loop terminates, reads and writes only inside the block, and returns an offset in it.
-/
def ParsesSafely (crc32 : List UInt8 → UInt32) (dlData : List UInt8) : Prop :=
  ∃ fuel st, dlDataParseLoop crc32 fuel dlData = .done st ∧ st.subDataOffset ≤ dlData.length

variable {crc32 : List UInt8 → UInt32} {dlData dlData' : List UInt8} {off cmdHeader len : ℕ}

/-! ### The checks against what the block says -/

/-- A header check that fits gives what the block says. -/
lemma checkCmdHeader_of_fits (h : HeaderFits crc32 dlData off) :
    checkCmdHeader crc32 dlData off = .ok (headerFound crc32 dlData off) := by
  unfold headerFound
  by_cases hok : HeaderOk crc32 (slice dlData off 8)
  · rw [if_pos hok, checkCmdHeader_first h.1 hok]
  · rw [if_neg hok, checkCmdHeader_second h.1 hok (h.2 hok)]

/-- A header check that does not fit leaves the block. -/
lemma checkCmdHeader_of_not_fits (h : ¬ HeaderFits crc32 dlData off) :
    checkCmdHeader crc32 dlData off = .error .outOfBounds := by
  unfold HeaderFits at h
  unfold checkCmdHeader
  by_cases hb : off + 8 ≤ dlData.length
  · rw [readAt_of_le hb, ok_bind]
    have hok : ¬ HeaderOk crc32 (slice dlData off 8) := fun hok => h ⟨hb, fun hn => absurd hok hn⟩
    have hmid : ¬ dlData.length / 2 + 8 ≤ dlData.length := fun hmid => h ⟨hb, fun _ => hmid⟩
    rw [if_neg hok]
    simp only
    rw [readAt_of_lt (not_le.mp hmid), error_bind]
  · rw [readAt_of_lt (not_le.mp hb), error_bind]

/-- A header check keeps the length of the block, and its pointer points into the block. -/
lemma headerFound_bounds (h : HeaderFits crc32 dlData off)
    (hfound : headerFound crc32 dlData off = some (cmdHeader, dlData')) :
    dlData'.length = dlData.length ∧ cmdHeader + 8 ≤ dlData.length := by
  unfold headerFound at hfound
  split_ifs at hfound with hok hmid
  · cases hfound
    exact ⟨rfl, h.1⟩
  · cases hfound
    exact ⟨length_copyWithin _ _ _ _, h.2 hok⟩

/-- A CRC comparison over too few bytes, or over bytes behind the end, leaves the block. -/
lemma subDataCrcOk_of_not_fits {subData : ℕ} (hsize : dlData.length < 2 ^ 15)
    (h : len < 4 ∨ dlData.length < subData + len) :
    subDataCrcOk crc32 dlData subData len = .error .outOfBounds := by
  unfold subDataCrcOk
  by_cases hread : subData + toU32 ((len : ℤ) - ucCrc32Len) ≤ dlData.length
  · -- the bytes can be read, so the length did not wrap and the stored CRC lies behind the end
    have hword : dlData.length < subData + len - ucCrc32Len + ucCrc32Len := by
      simp only [toU32, ucCrc32Len] at hread ⊢
      omega
    rw [readAt_of_le hread, ok_bind, readAt_of_lt hword, error_bind]
  · rw [readAt_of_lt (not_le.mp hread), error_bind]

/-- A data check that fits gives what the block says. -/
lemma checkSubData_of_fits (hsize : dlData.length < 2 ^ 15) (hptr : cmdHeader + 8 ≤ dlData.length)
    (h : DataFits crc32 dlData off len) :
    checkSubData crc32 dlData off cmdHeader len =
      .ok (dataFound crc32 dlData off cmdHeader len) := by
  obtain ⟨h4, hb, hsecond⟩ := h
  unfold dataFound
  by_cases hok : FrameOk crc32 (slice dlData off len)
  · rw [if_pos hok, checkSubData_first h4 (by omega) hb hok]
  · obtain ⟨hdst, hb2⟩ := hsecond hok
    rw [if_neg hok, checkSubData_second h4 (by omega) hb hok hptr hdst hb2]

/-- A data check that does not fit leaves the block. -/
lemma checkSubData_of_not_fits (hsize : dlData.length < 2 ^ 15)
    (hptr : cmdHeader + 8 ≤ dlData.length) (h : ¬ DataFits crc32 dlData off len) :
    checkSubData crc32 dlData off cmdHeader len = .error .outOfBounds := by
  unfold checkSubData
  by_cases hfirst : len < 4 ∨ dlData.length < off + len
  · rw [subDataCrcOk_of_not_fits hsize hfirst, error_bind]
  rw [not_or, not_lt, not_lt] at hfirst
  obtain ⟨h4, hb⟩ := hfirst
  have hok : ¬ FrameOk crc32 (slice dlData off len) :=
    fun hok => h ⟨h4, hb, fun hn => absurd hok hn⟩
  rw [subDataCrcOk_of_le h4 (by omega) hb, ok_bind, if_neg (by simpa using hok)]
  by_cases hdst : len + 8 ≤ dlData.length
  · have hb2 : ¬ len + len ≤ dlData.length := fun hb2 => h ⟨h4, hb, fun _ => ⟨hdst, hb2⟩⟩
    rw [copyAt_of_le hptr hdst, ok_bind, subDataCrcOk_of_not_fits
      (by rw [length_copyWithin]; exact hsize)
      (Or.inr (by rw [length_copyWithin]; exact not_le.mp hb2)), error_bind]
  · rw [copyAt_of_lt (Or.inr (not_le.mp hdst)), error_bind]

/-- A frame that fits is located as the block says. -/
lemma locateSubData_of_fits (hsize : dlData.length < 2 ^ 15) (hptr : cmdHeader + 8 ≤ dlData.length)
    (h : FrameFits crc32 dlData off cmdHeader) :
    locateSubData crc32 dlData off cmdHeader = .ok (frameFound crc32 dlData off cmdHeader) := by
  unfold frameFound
  by_cases hpos : (headerAt dlData cmdHeader).dataLen.toNat > 0
  · rw [if_pos hpos]
    exact locateSubData_data hptr hpos (checkSubData_of_fits hsize hptr (h hpos))
  · rw [if_neg hpos]
    exact locateSubData_headerOnly hptr (Nat.eq_zero_of_not_pos hpos)

/-- A frame that does not fit leaves the block. -/
lemma locateSubData_of_not_fits (hsize : dlData.length < 2 ^ 15)
    (hptr : cmdHeader + 8 ≤ dlData.length) (h : ¬ FrameFits crc32 dlData off cmdHeader) :
    locateSubData crc32 dlData off cmdHeader = .error .outOfBounds := by
  unfold FrameFits at h
  obtain ⟨hpos, hnot⟩ := Classical.not_imp.mp h
  unfold locateSubData
  rw [readCmdHeader_of_le hptr, ok_bind,
    show CmdHeader.ofBytes (slice dlData cmdHeader 8) = headerAt dlData cmdHeader from rfl,
    if_pos hpos]
  simp only
  rw [checkSubData_of_not_fits hsize hptr hnot, error_bind]

/-- Locating a frame keeps the length of the block. -/
lemma length_frameFound {subData : ℕ}
    (h : frameFound crc32 dlData off cmdHeader = some (subData, dlData', len)) :
    dlData'.length = dlData.length := by
  unfold frameFound dataFound at h
  split_ifs at h <;> simp only [Option.map_some, Option.some.injEq, Prod.mk.injEq,
    Option.map_none, reduceCtorEq] at h
  · rw [← h.2.1]
  · rw [← h.2.1, length_copyWithin]
  · rw [← h.2.1]

/-! ### One round -/

section Round

variable {calls : List HandlerCall}

/-- A round that fits leaves the loop if the block says that there is no next frame. -/
lemma dlDataParseRound_of_last (hsize : dlData.length < 2 ^ 15) (hlt : off < dlData.length)
    (hfits : RoundFits crc32 dlData off) (hnext : nextFrame crc32 dlData off = none) :
    dlDataParseRound crc32 ⟨dlData, off, calls⟩ = .ok (.inr ⟨dlData, off, calls⟩) := by
  obtain ⟨hheader, hframe⟩ := hfits
  have hcheck := checkCmdHeader_of_fits hheader
  unfold nextFrame at hnext
  cases hfound : headerFound crc32 dlData off with
  | none => exact dlDataParseRound_of_noHeader hlt (hcheck.trans (congrArg _ hfound))
  | some found =>
    obtain ⟨cmdHeader, dlData'⟩ := found
    obtain ⟨hlen, hptr⟩ := headerFound_bounds hheader hfound
    rw [← hlen] at hptr
    have hlocate := locateSubData_of_fits (hlen ▸ hsize) hptr (hframe _ _ hfound).1
    rw [hfound] at hcheck hnext
    cases hloc : frameFound crc32 dlData' off cmdHeader with
    | none => exact dlDataParseRound_of_noData hlt hcheck (hlocate.trans (congrArg _ hloc))
    | some frame =>
      obtain ⟨subData, dlData'', len⟩ := frame
      have hlong : dlData''.length < len := by
        rw [length_frameFound hloc, hlen]
        simpa [hloc] using hnext
      rw [hloc] at hlocate
      exact dlDataParseRound_of_tooLong hlt hcheck hlocate hlong

/-- A round that fits goes on with the next frame of the block. -/
lemma dlDataParseRound_of_frame (hsize : dlData.length < 2 ^ 15) (hlt : off < dlData.length)
    (hfits : RoundFits crc32 dlData off) {off' : ℕ}
    (hnext : nextFrame crc32 dlData off = some (dlData', off')) :
    dlData'.length = dlData.length ∧ off' ≤ dlData.length ∧
      ∃ call, dlDataParseRound crc32 ⟨dlData, off, calls⟩ =
        .ok (.inl ⟨dlData', off', calls ++ [call]⟩) := by
  obtain ⟨hheader, hframe⟩ := hfits
  have hcheck := checkCmdHeader_of_fits hheader
  unfold nextFrame at hnext
  cases hfound : headerFound crc32 dlData off with
  | none => simp [hfound] at hnext
  | some found =>
    obtain ⟨cmdHeader, block⟩ := found
    obtain ⟨hlen, hptr⟩ := headerFound_bounds hheader hfound
    obtain ⟨hfit, hdispatch⟩ := hframe _ _ hfound
    have hlocate := locateSubData_of_fits (hlen ▸ hsize) (hlen.symm ▸ hptr) hfit
    rw [hfound] at hcheck hnext
    cases hloc : frameFound crc32 block off cmdHeader with
    | none => simp [hloc] at hnext
    | some frame =>
      obtain ⟨subData, block', len⟩ := frame
      have hlen' := length_frameFound hloc
      have hle : len ≤ dlData.length := by
        by_contra hnot
        simp [hloc, hnot] at hnext
      obtain ⟨rfl, rfl⟩ : block' = dlData' ∧ off + len = off' := by
        simpa [hloc, hle] using hnext
      obtain ⟨hend, hhandler⟩ := hdispatch _ _ _ hloc hle
      obtain ⟨handler, hhandler⟩ := Option.ne_none_iff_exists'.mp hhandler
      rw [hloc] at hlocate
      refine ⟨hlen'.trans hlen, hend, ⟨handler, subData, block'⟩, ?_⟩
      have hround := @dlDataParseRound_of_found crc32 ⟨dlData, off, calls⟩ block block' cmdHeader
        subData len handler hlt hcheck hlocate (by omega) (by omega) hhandler
      rw [hround, Nat.mod_eq_of_lt (show off + len < 2 ^ 16 by omega)]

/-- A round that does not fit faults, or steps over the end of the block. -/
lemma dlDataParseRound_of_not_fits (hsize : dlData.length < 2 ^ 15) (hlt : off < dlData.length)
    (hnot : ¬ RoundFits crc32 dlData off) :
    (∃ f, dlDataParseRound crc32 ⟨dlData, off, calls⟩ = .error f) ∨
      ∃ st, dlDataParseRound crc32 ⟨dlData, off, calls⟩ = .ok (.inl st) ∧
        dlData.length < st.subDataOffset ∧ st.dlData.length = dlData.length := by
  have hin : ¬ off ≥ dlData.length := not_le.mpr hlt
  by_cases hheader : HeaderFits crc32 dlData off
  swap
  · refine Or.inl ⟨.outOfBounds, ?_⟩
    rw [dlDataParseRound, if_neg hin, checkCmdHeader_of_not_fits hheader, error_bind]
  have hcheck := checkCmdHeader_of_fits hheader
  obtain ⟨cmdHeader, block, hfound, hbad⟩ : ∃ cmdHeader block,
      headerFound crc32 dlData off = some (cmdHeader, block) ∧
        ¬ (FrameFits crc32 block off cmdHeader ∧ ∀ subData block' len,
          frameFound crc32 block off cmdHeader = some (subData, block', len) →
          len ≤ dlData.length →
          off + len ≤ dlData.length ∧ (headerAt block' cmdHeader).handler? ≠ none) := by
    by_contra hall
    push Not at hall
    exact hnot ⟨hheader, hall⟩
  obtain ⟨hlen, hptr⟩ := headerFound_bounds hheader hfound
  rw [hfound] at hcheck
  by_cases hfit : FrameFits crc32 block off cmdHeader
  swap
  · refine Or.inl ⟨.outOfBounds, ?_⟩
    rw [dlDataParseRound, if_neg hin, hcheck, ok_bind]
    simp only
    rw [locateSubData_of_not_fits (hlen ▸ hsize) (hlen.symm ▸ hptr) hfit, error_bind]
  have hlocate := locateSubData_of_fits (hlen ▸ hsize) (hlen.symm ▸ hptr) hfit
  obtain ⟨subData, block', len, hloc, hle, hover⟩ : ∃ subData block' len,
      frameFound crc32 block off cmdHeader = some (subData, block', len) ∧ len ≤ dlData.length ∧
        ¬ (off + len ≤ dlData.length ∧ (headerAt block' cmdHeader).handler? ≠ none) := by
    by_contra hall
    push Not at hall
    exact hbad ⟨hfit, hall⟩
  have hlen' := length_frameFound hloc
  rw [hloc] at hlocate
  cases hhandler : (headerAt block' cmdHeader).handler? with
  | none =>
    refine Or.inl ⟨.assertion, ?_⟩
    exact dlDataParseRound_of_unknown hlt hcheck hlocate (by omega) (by omega) hhandler
  | some handler =>
    have hend : dlData.length < off + len := by
      by_contra hin'
      exact hover ⟨not_lt.mp hin', by simp [hhandler]⟩
    have hround := @dlDataParseRound_of_found crc32 ⟨dlData, off, calls⟩ block block' cmdHeader
      subData len handler hlt hcheck hlocate (by omega) (by omega) hhandler
    refine Or.inr ⟨_, hround, ?_, hlen'.trans hlen⟩
    rw [Nat.mod_eq_of_lt (show off + len < 2 ^ 16 by omega)]
    exact hend

end Round

/-! ### The whole loop -/

/-- On a delimited block the loop terminates in the block. -/
lemma Delimited.terminates (h : Delimited crc32 dlData off) (hsize : dlData.length < 2 ^ 15)
    (calls : List HandlerCall) :
    ∃ fuel st, loop (dlDataParseRound crc32) fuel ⟨dlData, off, calls⟩ = .done st ∧
      st.subDataOffset ≤ dlData.length := by
  induction h generalizing calls with
  | atEnd dlData =>
    exact ⟨1, _, loop_of_exit (dlDataParseRound_of_end le_rfl) 0, le_rfl⟩
  | last hlt hfits hnext =>
    exact ⟨1, _, loop_of_exit (dlDataParseRound_of_last hsize hlt hfits hnext) 0, hlt.le⟩
  | frame hlt hfits hnext hrest ih =>
    obtain ⟨hlen, -, call, hround⟩ := dlDataParseRound_of_frame hsize hlt hfits hnext
    obtain ⟨fuel, st, hloop, hst⟩ := ih (hlen ▸ hsize) _
    exact ⟨fuel + 1, st, (loop_of_next hround fuel).trans hloop, hlen ▸ hst⟩

/-- A round that leaves the loop was at the end of the block, or fits and has no next frame. -/
lemma delimited_of_exit {st b : ParseState} (hsize : st.dlData.length < 2 ^ 15)
    (hexit : dlDataParseRound crc32 st = .ok (.inr b)) :
    b = st ∧
      (st.subDataOffset ≤ st.dlData.length → Delimited crc32 st.dlData st.subDataOffset) := by
  obtain ⟨dlData, off, calls⟩ := st
  by_cases hlt : off < dlData.length
  · have hfits : RoundFits crc32 dlData off := by
      by_contra hnot
      rcases @dlDataParseRound_of_not_fits crc32 dlData off calls hsize hlt hnot with
        ⟨f, herr⟩ | ⟨st, hgo, -⟩
      · rw [hexit] at herr
        cases herr
      · rw [hexit] at hgo
        cases hgo
    cases hnext : nextFrame crc32 dlData off with
    | none =>
      rw [dlDataParseRound_of_last hsize hlt hfits hnext] at hexit
      cases hexit
      exact ⟨rfl, fun _ => .last hlt hfits hnext⟩
    | some next =>
      obtain ⟨-, -, call, hround⟩ := @dlDataParseRound_of_frame crc32 dlData _ off calls hsize hlt
        hfits _ hnext
      rw [hexit] at hround
      cases hround
  · rw [dlDataParseRound_of_end (not_lt.mp hlt)] at hexit
    cases hexit
    refine ⟨rfl, fun hle => ?_⟩
    obtain rfl : off = dlData.length := le_antisymm hle (not_lt.mp hlt)
    exact .atEnd dlData

/-- A round that goes on to an offset in the block fits, and goes on with the next frame. -/
lemma nextFrame_of_next {st st' : ParseState} (hsize : st.dlData.length < 2 ^ 15)
    (hgo : dlDataParseRound crc32 st = .ok (.inl st')) :
    st'.dlData.length = st.dlData.length ∧
      (st'.subDataOffset ≤ st.dlData.length → st.subDataOffset < st.dlData.length ∧
        RoundFits crc32 st.dlData st.subDataOffset ∧
        nextFrame crc32 st.dlData st.subDataOffset = some (st'.dlData, st'.subDataOffset)) := by
  obtain ⟨dlData, off, calls⟩ := st
  have hlt : off < dlData.length := by
    by_contra hnot
    rw [dlDataParseRound_of_end (not_lt.mp hnot)] at hgo
    cases hgo
  by_cases hfits : RoundFits crc32 dlData off
  · cases hnext : nextFrame crc32 dlData off with
    | none =>
      rw [dlDataParseRound_of_last hsize hlt hfits hnext] at hgo
      cases hgo
    | some next =>
      obtain ⟨hlen, -, call, hround⟩ :=
        @dlDataParseRound_of_frame crc32 dlData _ off calls hsize hlt hfits _ hnext
      rw [hround] at hgo
      cases hgo
      exact ⟨hlen, fun _ => ⟨hlt, hfits, rfl⟩⟩
  · rcases @dlDataParseRound_of_not_fits crc32 dlData off calls hsize hlt hfits with
      ⟨f, herr⟩ | ⟨st, hround, hover, hlen⟩
    · rw [hgo] at herr
      cases herr
    · rw [hgo] at hround
      cases hround
      exact ⟨hlen, fun hle => absurd hover (not_lt.mpr hle)⟩

/-- For every block, the parse loop terminates, stays inside the block and returns an offset in it
exactly when the block is delimited. -/
theorem parsesSafely_iff (hsize : dlData.length < 2 ^ 15) :
    ParsesSafely crc32 dlData ↔ Delimited crc32 dlData 0 := by
  constructor
  · rintro ⟨fuel, st, hloop, hst⟩
    -- backwards over the rounds: from a state whose run ends in the block, the block is delimited
    have key := @loop_rec _ _ (dlDataParseRound crc32) (fun st b => st.dlData.length < 2 ^ 15 →
        b.subDataOffset ≤ st.dlData.length →
        st.subDataOffset ≤ st.dlData.length ∧ Delimited crc32 st.dlData st.subDataOffset)
      ?_ ?_ _ _ _ hloop
    · exact (key hsize hst).2
    · intro st b hexit hsize hb
      obtain ⟨rfl, hdel⟩ := delimited_of_exit hsize hexit
      exact ⟨hb, hdel hb⟩
    · intro st st' b hgo ih hsize hb
      obtain ⟨hlen, hnext⟩ := nextFrame_of_next hsize hgo
      rw [hlen] at ih
      obtain ⟨hle, hdel⟩ := ih hsize hb
      obtain ⟨hlt, hfits, hframe⟩ := hnext hle
      exact ⟨hlt.le, .frame hlt hfits hframe hdel⟩
  · intro h
    exact h.terminates hsize []

/-- The block of one query, with its copy, is parsed safely. -/
theorem parsesSafely_iff_query : ParsesSafely byteSum (batchBytes byteSum [queryCmd]) := by
  have hheader : headerFound byteSum (batchBytes byteSum [queryCmd]) 0 =
      some (0, batchBytes byteSum [queryCmd]) := by decide
  have hframe : frameFound byteSum (batchBytes byteSum [queryCmd]) 0 0 =
      some (0, batchBytes byteSum [queryCmd], 16) := by decide
  have hfits : RoundFits byteSum (batchBytes byteSum [queryCmd]) 0 := by
    refine ⟨⟨by decide, by decide⟩, fun cmdHeader dlData' hfound => ?_⟩
    cases hheader.symm.trans hfound
    refine ⟨fun hpos => absurd hpos (by decide), fun subData dlData'' len hloc hle => ?_⟩
    cases hframe.symm.trans hloc
    exact ⟨hle, by decide⟩
  have hnext : nextFrame byteSum (batchBytes byteSum [queryCmd]) 0 =
      some (batchBytes byteSum [queryCmd], (batchBytes byteSum [queryCmd]).length) := by decide
  exact (parsesSafely_iff (by decide)).mpr (.frame (by decide) hfits hnext (.atEnd _))

/-- A block of eight bytes whose header is damaged makes the parser read twelve bytes, and a block
of three valid headers without data makes it return 32 of 24. -/
theorem parse_leaves_block :
    ¬ ParsesSafely byteSum [1, 0, 0, 0, 0, 0, 0, 0] ∧
      ¬ ParsesSafely byteSum (queryCmd.frame byteSum ++ batchBytes byteSum [queryCmd]) := by
  constructor
  · rintro ⟨fuel, st, hloop, -⟩
    have hmore := loop_add_of_done hloop 1
    have hfault : dlDataParseRound byteSum ⟨[1, 0, 0, 0, 0, 0, 0, 0], 0, []⟩ =
        .error .outOfBounds := by rfl
    rw [loop_of_fault hfault] at hmore
    cases hmore
  · rintro ⟨fuel, st, hloop, hle⟩
    generalize hblock : queryCmd.frame byteSum ++ batchBytes byteSum [queryCmd] = dlData
      at hloop hle
    have hmore := loop_add_of_done hloop 3
    have hfirst : dlDataParseRound byteSum ⟨dlData, 0, []⟩ =
        .ok (.inl ⟨dlData, 16, [⟨.query, 0, dlData⟩]⟩) := by
      subst hblock
      rfl
    have hsecond : dlDataParseRound byteSum ⟨dlData, 16, [⟨.query, 0, dlData⟩]⟩ =
        .ok (.inl ⟨dlData, 32, [⟨.query, 0, dlData⟩, ⟨.query, 16, dlData⟩]⟩) := by
      subst hblock
      rfl
    have hend : dlData.length = 24 := by
      subst hblock
      rfl
    rw [loop_of_next hfirst, loop_of_next hsecond,
      loop_of_exit (dlDataParseRound_of_end (show dlData.length ≤ 32 by omega))] at hmore
    cases hmore
    exact absurd hle (by simp [hend])

end WiotaAp
