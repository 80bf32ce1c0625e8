import WiotaAp.SpiCom.DlBatch

/-!
# Recovery from the second copy of a frame

Every frame of a batch is there twice, so that the parser can fall back on the second copy of a
header or of the data behind it.  `Received` is a command as it arrives: two headers and two bodies,
of each at least one intact, and every damaged one caught by its CRC.

The parser does not look for the second copies behind the first ones.  It looks for a second header
at the middle of the whole block, and for second data at `&dl_data[sub_data_len]`, without the
offset of the command.  `Recoverable` says when these are the right places.
-/

namespace WiotaAp

open Buffers

/-- A command as it is received. -/
structure Received (crc32 : List UInt8 → UInt32) where
  cmd : Command
  header₁ : List UInt8
  body₁ : List UInt8
  header₂ : List UInt8
  body₂ : List UInt8
  length_header₁ : header₁.length = 8
  length_body₁ : body₁.length + 8 = cmd.frameLen
  length_header₂ : header₂.length = 8
  length_body₂ : body₂.length + 8 = cmd.frameLen
  header₁_checked : header₁ ≠ (cmd.header crc32).toBytes → ¬ HeaderOk crc32 header₁
  header₂_checked : header₂ ≠ (cmd.header crc32).toBytes → ¬ HeaderOk crc32 header₂
  body₁_checked : body₁ ≠ cmd.body crc32 →
    ¬ FrameOk crc32 ((cmd.header crc32).toBytes ++ body₁)
  body₂_checked : body₂ ≠ cmd.body crc32 →
    ¬ FrameOk crc32 ((cmd.header crc32).toBytes ++ body₂)
  header_intact : header₁ = (cmd.header crc32).toBytes ∨ header₂ = (cmd.header crc32).toBytes
  body_intact : body₁ = cmd.body crc32 ∨ body₂ = cmd.body crc32

variable {crc32 : List UInt8 → UInt32}

namespace Received

/-- The bytes of a received command. -/
def bytes (r : Received crc32) : List UInt8 :=
  r.header₁ ++ (r.body₁ ++ (r.header₂ ++ r.body₂))

/-- The bytes the parser leaves behind: a valid first header, and a valid second one where the
second data was needed. -/
def repaired (r : Received crc32) : List UInt8 :=
  (r.cmd.header crc32).toBytes ++ (r.body₁ ++
    ((if r.body₁ = r.cmd.body crc32 then r.header₂ else (r.cmd.header crc32).toBytes) ++ r.body₂))

/-- A received command takes twice its frame. -/
lemma length_bytes (r : Received crc32) : r.bytes.length = 2 * r.cmd.frameLen := by
  have h₁ := r.length_header₁
  have h₂ := r.length_header₂
  have b₁ := r.length_body₁
  have b₂ := r.length_body₂
  simp only [bytes, List.length_append]
  omega

/-- The repair keeps the length. -/
lemma length_repaired (r : Received crc32) : r.repaired.length = 2 * r.cmd.frameLen := by
  have h₂ := r.length_header₂
  have b₁ := r.length_body₁
  have b₂ := r.length_body₂
  simp only [repaired, List.length_append, CmdHeader.length_toBytes]
  split
  · omega
  · rw [CmdHeader.length_toBytes]
    omega

/-- Without data both bodies are empty. -/
lemma body₁_of_empty (r : Received crc32) (hdata : r.cmd.data = []) :
    r.body₁ = r.cmd.body crc32 := by
  have hlen := r.length_body₁
  rw [Command.frameLen, if_pos hdata] at hlen
  rw [Command.body, if_pos hdata]
  exact List.length_eq_zero_iff.mp (by omega)

end Received

/-! ### One round -/

section Round

variable (r : Received crc32) (pre post : List UInt8)

/-- The second header of the command lies at the middle of the block, where the parser looks. -/
def HeaderBackupFound : Prop :=
  pre.length + r.cmd.frameLen = (pre ++ (r.bytes ++ post)).length / 2

/-- The pointer `cmd_header` after the header check. -/
def Received.headerAt : ℕ :=
  if r.header₁ = (r.cmd.header crc32).toBytes then pre.length
  else (pre ++ (r.bytes ++ post)).length / 2

/-- The block after the header check. -/
def Received.headerRepaired : List UInt8 :=
  pre ++ ((r.cmd.header crc32).toBytes ++ (r.body₁ ++ (r.header₂ ++ (r.body₂ ++ post))))

/-- The length of the block. -/
lemma length_block :
    (pre ++ (r.bytes ++ post)).length = pre.length + 2 * r.cmd.frameLen + post.length := by
  rw [List.length_append, List.length_append, r.length_bytes]
  omega

/-- The header check keeps the length of the block. -/
lemma Received.length_headerRepaired :
    (r.headerRepaired pre post).length = pre.length + 2 * r.cmd.frameLen + post.length := by
  have h₂ := r.length_header₂
  have b₁ := r.length_body₁
  have b₂ := r.length_body₂
  simp only [Received.headerRepaired, List.length_append, CmdHeader.length_toBytes]
  omega

variable {r pre post}

/-- The header check succeeds on an intact first header, and on the second one if it is found. -/
lemma checkCmdHeader_received
    (hhead : r.header₁ = (r.cmd.header crc32).toBytes ∨ HeaderBackupFound r pre post) :
    checkCmdHeader crc32 (pre ++ (r.bytes ++ post)) pre.length =
      .ok (some (r.headerAt pre post, r.headerRepaired pre post)) := by
  have hlen := length_block r pre post
  have hL := r.cmd.frameLen_bounds
  have hcut : pre ++ (r.bytes ++ post) =
      pre ++ (r.header₁ ++ (r.body₁ ++ (r.header₂ ++ (r.body₂ ++ post)))) := by
    simp only [Received.bytes, List.append_assoc]
  have hfirst : slice (pre ++ (r.bytes ++ post)) pre.length 8 = r.header₁ :=
    slice_part hcut rfl r.length_header₁.symm
  by_cases h₁ : r.header₁ = (r.cmd.header crc32).toBytes
  · rw [checkCmdHeader_first (by omega) (by rw [hfirst, h₁]; exact r.cmd.headerOk_header crc32),
      Received.headerAt, if_pos h₁, Received.headerRepaired, hcut, h₁]
  · have hfound := hhead.resolve_left h₁
    have hmid : (pre ++ (r.bytes ++ post)).length / 2 = pre.length + r.cmd.frameLen := hfound.symm
    have hsecond : slice (pre ++ (r.bytes ++ post)) ((pre ++ (r.bytes ++ post)).length / 2) 8 =
        (r.cmd.header crc32).toBytes := by
      rw [← r.header_intact.resolve_left h₁]
      refine @slice_part _ _ (pre ++ (r.header₁ ++ r.body₁)) _ (r.body₂ ++ post) _ _ ?_ ?_
        r.length_header₂.symm
      · simp only [Received.bytes, List.append_assoc]
      · have hb := r.length_body₁
        have hh := r.length_header₁
        rw [hmid]
        simp only [List.length_append]
        omega
    rw [checkCmdHeader_second (by omega) (by rw [hfirst]; exact r.header₁_checked h₁) (by omega),
      if_pos (by rw [hsecond]; exact r.cmd.headerOk_header crc32),
      copyWithin_eq_splice (by omega) (by omega) (by omega), hsecond,
      splice_part hcut rfl (by rw [r.length_header₁, CmdHeader.length_toBytes]),
      Received.headerAt, if_neg h₁, Received.headerRepaired]

/-- The pointer `cmd_header` points to a valid header of the command. -/
lemma slice_headerAt
    (hhead : r.header₁ = (r.cmd.header crc32).toBytes ∨ HeaderBackupFound r pre post) :
    slice (r.headerRepaired pre post) (r.headerAt pre post) 8 = (r.cmd.header crc32).toBytes ∧
      r.headerAt pre post + 8 ≤ (r.headerRepaired pre post).length ∧
      (r.headerAt pre post = pre.length ∨ r.headerAt pre post = pre.length + r.cmd.frameLen) := by
  have hlen := r.length_headerRepaired pre post
  have hL := r.cmd.frameLen_bounds
  rw [Received.headerAt]
  split
  · refine ⟨slice_part rfl rfl (CmdHeader.length_toBytes _).symm, by omega, Or.inl rfl⟩
  · rename_i h₁
    have hmid : (pre ++ (r.bytes ++ post)).length / 2 = pre.length + r.cmd.frameLen :=
      (hhead.resolve_left h₁).symm
    rw [hmid]
    refine ⟨?_, by omega, Or.inr rfl⟩
    rw [← r.header_intact.resolve_left h₁]
    refine @slice_part _ _ (pre ++ (r.header₂ ++ r.body₁)) _ (r.body₂ ++ post) _ _ ?_ ?_
      r.length_header₂.symm
    · simp only [Received.headerRepaired, r.header_intact.resolve_left h₁, List.append_assoc]
    · have hb := r.length_body₁
      have hh := r.length_header₂
      simp only [List.length_append]
      omega

/-- After the header check, the first copy of the frame is its header and the first body. -/
lemma slice_headerRepaired :
    slice (r.headerRepaired pre post) pre.length r.cmd.frameLen =
      (r.cmd.header crc32).toBytes ++ r.body₁ := by
  refine @slice_part _ _ pre _ (r.header₂ ++ (r.body₂ ++ post)) _ _ ?_ rfl ?_
  · simp only [Received.headerRepaired, List.append_assoc]
  · rw [List.length_append, CmdHeader.length_toBytes, Nat.add_comm, r.length_body₁]

/-- The data check of the first command falls back on its second body. -/
lemma copyWithin_headerRepaired {cmdHeader : ℕ} (hbody : r.body₁ ≠ r.cmd.body crc32)
    (hslice : slice (r.headerRepaired [] post) cmdHeader 8 = (r.cmd.header crc32).toBytes)
    (hat : cmdHeader = 0 ∨ cmdHeader = r.cmd.frameLen) :
    copyWithin (r.headerRepaired [] post) r.cmd.frameLen cmdHeader 8 = r.repaired ++ post := by
  have hlen := r.length_headerRepaired [] post
  have hL := r.cmd.frameLen_bounds
  have hb := r.length_body₁
  have hrepaired : r.repaired ++ post = ((r.cmd.header crc32).toBytes ++ r.body₁) ++
      ((r.cmd.header crc32).toBytes ++ (r.body₂ ++ post)) := by
    simp only [Received.repaired, if_neg hbody, List.append_assoc]
  have hcut : r.headerRepaired [] post = ((r.cmd.header crc32).toBytes ++ r.body₁) ++
      (r.header₂ ++ (r.body₂ ++ post)) := by
    simp only [Received.headerRepaired, List.append_assoc, List.nil_append]
  have hpos : r.cmd.frameLen = ((r.cmd.header crc32).toBytes ++ r.body₁).length := by
    rw [List.length_append, CmdHeader.length_toBytes]
    omega
  rcases hat with rfl | rfl
  · rw [List.length_nil] at hlen
    rw [copyWithin_eq_splice (by omega) (by omega) (by omega), hslice,
      splice_part hcut hpos (by rw [r.length_header₂, CmdHeader.length_toBytes]), hrepaired]
  · -- the pointer is already at the second header, which is then valid
    rw [copyWithin_self, hrepaired, hcut]
    rw [← hslice, slice_part hcut hpos r.length_header₂.symm]

/-- The data check succeeds on an intact first body. -/
lemma locateSubData_intactBody
    (hhead : r.header₁ = (r.cmd.header crc32).toBytes ∨ HeaderBackupFound r pre post)
    (h₁ : r.body₁ = r.cmd.body crc32) (hlen : (pre ++ (r.bytes ++ post)).length < 2 ^ 16) :
    locateSubData crc32 (r.headerRepaired pre post) pre.length (r.headerAt pre post) =
        .ok (some (pre.length, pre ++ (r.repaired ++ post), 2 * r.cmd.frameLen)) ∧
      slice (pre ++ (r.repaired ++ post)) pre.length r.cmd.frameLen = r.cmd.frame crc32 ∧
      slice (pre ++ (r.repaired ++ post)) (r.headerAt pre post) 8 =
        (r.cmd.header crc32).toBytes := by
  have hT := r.length_headerRepaired pre post
  have hL := r.cmd.frameLen_bounds
  rw [length_block] at hlen
  obtain ⟨hslice, hb, -⟩ := slice_headerAt hhead
  have hkept : r.headerRepaired pre post = pre ++ (r.repaired ++ post) := by
    simp only [Received.headerRepaired, Received.repaired, if_pos h₁, List.append_assoc]
  have hframe : slice (r.headerRepaired pre post) pre.length r.cmd.frameLen =
      r.cmd.frame crc32 := by
    rw [slice_headerRepaired, h₁, Command.frame]
  rw [← hkept]
  refine ⟨?_, hframe, hslice⟩
  by_cases hdata : r.cmd.data = []
  · exact locateSubData_noData hdata hslice hb
  · exact locateSubData_checked hdata hslice hb (by omega)
      (checkSubData_first (by omega) (by omega) (by omega)
        (by rw [hframe]; exact r.cmd.frameOk_frame crc32 hdata))

/-- The data check falls back on the second body of the first command. -/
lemma locateSubData_backupBody
    (hhead : r.header₁ = (r.cmd.header crc32).toBytes ∨ HeaderBackupFound r [] post)
    (h₁ : r.body₁ ≠ r.cmd.body crc32) (hlen : (r.bytes ++ post).length < 2 ^ 16) :
    locateSubData crc32 (r.headerRepaired [] post) 0 (r.headerAt [] post) =
        .ok (some (r.cmd.frameLen, r.repaired ++ post, 2 * r.cmd.frameLen)) ∧
      slice (r.repaired ++ post) r.cmd.frameLen r.cmd.frameLen = r.cmd.frame crc32 ∧
      slice (r.repaired ++ post) (r.headerAt [] post) 8 = (r.cmd.header crc32).toBytes := by
  have hT := r.length_headerRepaired [] post
  have hL := r.cmd.frameLen_bounds
  have hblock := length_block r [] post
  obtain ⟨hslice, hb, hat⟩ := slice_headerAt hhead
  have hdata : r.cmd.data ≠ [] := fun hdata => h₁ (r.body₁_of_empty hdata)
  simp only [List.length_nil, List.nil_append, Nat.zero_add] at hT hat hblock
  have hcopy := copyWithin_headerRepaired h₁ hslice hat
  have hframe : slice (r.repaired ++ post) r.cmd.frameLen r.cmd.frameLen =
      r.cmd.frame crc32 := by
    refine @slice_part _ _ ((r.cmd.header crc32).toBytes ++ r.body₁) _ post _ _ ?_ ?_
      (r.cmd.length_frame crc32).symm
    · simp only [Received.repaired, if_neg h₁, Command.frame, r.body_intact.resolve_left h₁,
        List.append_assoc]
    · rw [List.length_append, CmdHeader.length_toBytes, Nat.add_comm, r.length_body₁]
  have hbad : ¬ FrameOk crc32 (slice (r.headerRepaired [] post) 0 r.cmd.frameLen) := by
    have hfirst : slice (r.headerRepaired [] post) 0 r.cmd.frameLen = _ := slice_headerRepaired
    rw [hfirst]
    exact r.body₁_checked h₁
  have hcheck : checkSubData crc32 (r.headerRepaired [] post) 0 (r.headerAt [] post)
      r.cmd.frameLen = .ok (some (r.cmd.frameLen, r.repaired ++ post)) := by
    rw [checkSubData_second (by omega) (by omega) (by omega) hbad hb (by omega) (by omega), hcopy,
      if_pos (by rw [hframe]; exact r.cmd.frameOk_frame crc32 hdata)]
  refine ⟨locateSubData_checked hdata hslice hb (by omega) hcheck, hframe, ?_⟩
  rcases hat with hat | hat
  · rw [hat]
    refine @slice_part _ _ [] _
      (r.body₁ ++ ((r.cmd.header crc32).toBytes ++ (r.body₂ ++ post))) _ _ ?_ rfl
      (CmdHeader.length_toBytes _).symm
    simp only [Received.repaired, if_neg h₁, List.append_assoc, List.nil_append]
  · rw [hat]
    exact slice_header_of_frame hframe

/-- The data check succeeds on an intact first body, and on the second body of the first command. -/
lemma locateSubData_received
    (hhead : r.header₁ = (r.cmd.header crc32).toBytes ∨ HeaderBackupFound r pre post)
    (hbody : r.body₁ = r.cmd.body crc32 ∨ pre = [])
    (hlen : (pre ++ (r.bytes ++ post)).length < 2 ^ 16) :
    ∃ subData, locateSubData crc32 (r.headerRepaired pre post) pre.length (r.headerAt pre post) =
        .ok (some (subData, pre ++ (r.repaired ++ post), 2 * r.cmd.frameLen)) ∧
      slice (pre ++ (r.repaired ++ post)) subData r.cmd.frameLen = r.cmd.frame crc32 ∧
      slice (pre ++ (r.repaired ++ post)) (r.headerAt pre post) 8 =
        (r.cmd.header crc32).toBytes := by
  by_cases h₁ : r.body₁ = r.cmd.body crc32
  · exact ⟨pre.length, locateSubData_intactBody hhead h₁ hlen⟩
  · obtain rfl := hbody.resolve_left h₁
    exact ⟨r.cmd.frameLen, locateSubData_backupBody hhead h₁ hlen⟩

/-- One round hands the command over and leaves its repaired bytes behind, when the parser looks for
the second copies it needs at the right places. -/
theorem dlDataParseRound_recovers {handler : Handler} (hhandler : r.cmd.handler? = some handler)
    (hhead : r.header₁ = (r.cmd.header crc32).toBytes ∨ HeaderBackupFound r pre post)
    (hbody : r.body₁ = r.cmd.body crc32 ∨ pre = [])
    (hlen : (pre ++ (r.bytes ++ post)).length < 2 ^ 16) (calls : List HandlerCall) :
    ∃ call, HandedOver crc32 r.cmd call ∧
      dlDataParseRound crc32 ⟨pre ++ (r.bytes ++ post), pre.length, calls⟩ = .ok (.inl
        ⟨pre ++ (r.repaired ++ post), pre.length + 2 * r.cmd.frameLen, calls ++ [call]⟩) := by
  have hT := length_block r pre post
  have hL := r.cmd.frameLen_bounds
  have hrep : (pre ++ (r.repaired ++ post)).length = (pre ++ (r.bytes ++ post)).length := by
    simp only [List.length_append, r.length_repaired, r.length_bytes]
  obtain ⟨-, hb, -⟩ := slice_headerAt hhead
  rw [r.length_headerRepaired] at hb
  obtain ⟨subData, hlocate, hframe, hhdr⟩ := locateSubData_received hhead hbody hlen
  refine ⟨⟨handler, subData, pre ++ (r.repaired ++ post)⟩, .of_frame hhandler hframe, ?_⟩
  have hlt : pre.length < (pre ++ (r.bytes ++ post)).length := by omega
  have hround := @dlDataParseRound_of_found crc32
    ⟨pre ++ (r.bytes ++ post), pre.length, calls⟩ _ _ _ _ _ handler hlt
    (checkCmdHeader_received hhead) hlocate (by omega) (by omega)
    (by rw [hhdr, CmdHeader.ofBytes_toBytes, Command.header_handler?, hhandler])
  rw [hround, Nat.mod_eq_of_lt (show pre.length + 2 * r.cmd.frameLen < 2 ^ 16 by omega)]

/-- The loop leaves when the first header is damaged and the bytes at the middle of the block are
not a valid header either. -/
lemma dlDataParseRound_noHeader (h₁ : r.header₁ ≠ (r.cmd.header crc32).toBytes)
    (hstray : ¬ HeaderOk crc32 (slice (pre ++ (r.bytes ++ post))
      ((pre ++ (r.bytes ++ post)).length / 2) 8)) (calls : List HandlerCall) :
    dlDataParseRound crc32 ⟨pre ++ (r.bytes ++ post), pre.length, calls⟩ =
      .ok (.inr ⟨pre ++ (r.bytes ++ post), pre.length, calls⟩) := by
  have hT := length_block r pre post
  have hL := r.cmd.frameLen_bounds
  have hfirst : slice (pre ++ (r.bytes ++ post)) pre.length 8 = r.header₁ := by
    refine @slice_part _ _ pre _ (r.body₁ ++ (r.header₂ ++ (r.body₂ ++ post))) _ _ ?_ rfl
      r.length_header₁.symm
    simp only [Received.bytes, List.append_assoc]
  have hcheck : checkCmdHeader crc32 (pre ++ (r.bytes ++ post)) pre.length = _ :=
    checkCmdHeader_second (by omega) (by rw [hfirst]; exact r.header₁_checked h₁) (by omega)
  rw [if_neg hstray] at hcheck
  exact dlDataParseRound_of_noHeader (by omega) hcheck

/-- The loop leaves when the first body is damaged and the bytes at `&dl_data[sub_data_len]`, with
the header copied in front, do not pass the data check either. -/
lemma dlDataParseRound_noData
    (hhead : r.header₁ = (r.cmd.header crc32).toBytes ∨ HeaderBackupFound r pre post)
    (hbody : r.body₁ ≠ r.cmd.body crc32)
    (hlen : (pre ++ (r.bytes ++ post)).length < 2 ^ 16)
    (hstray : ¬ FrameOk crc32 (slice (copyWithin (r.headerRepaired pre post) r.cmd.frameLen
      (r.headerAt pre post) 8) r.cmd.frameLen r.cmd.frameLen)) (calls : List HandlerCall) :
    dlDataParseRound crc32 ⟨pre ++ (r.bytes ++ post), pre.length, calls⟩ =
      .ok (.inr ⟨pre ++ (r.bytes ++ post), pre.length, calls⟩) := by
  have hT := length_block r pre post
  have hT' := r.length_headerRepaired pre post
  have hL := r.cmd.frameLen_bounds
  have hdata : r.cmd.data ≠ [] := fun hdata => hbody (r.body₁_of_empty hdata)
  obtain ⟨hslice, hb, -⟩ := slice_headerAt hhead
  have hbad : ¬ FrameOk crc32 (slice (r.headerRepaired pre post) pre.length r.cmd.frameLen) := by
    rw [slice_headerRepaired]
    exact r.body₁_checked hbody
  have hcheck := checkSubData_second (show 4 ≤ r.cmd.frameLen by omega) (by omega) (by omega) hbad
    hb
    (by omega) (by omega)
  rw [if_neg hstray] at hcheck
  exact dlDataParseRound_of_noData (by omega) (checkCmdHeader_received hhead)
    (locateSubData_checked hdata hslice hb (by omega) hcheck)

end Round

/-! ### The whole loop -/

/-- The bytes of a received batch. -/
def receivedBytes (rs : List (Received crc32)) : List UInt8 :=
  rs.flatMap Received.bytes

/-- The bytes the parser leaves behind. -/
def repairedBytes (rs : List (Received crc32)) : List UInt8 :=
  rs.flatMap Received.repaired

/-- The repair keeps the length. -/
lemma length_repairedBytes (rs : List (Received crc32)) :
    (repairedBytes rs).length = (receivedBytes rs).length := by
  simp only [repairedBytes, receivedBytes, List.length_flatMap, Received.length_repaired,
    Received.length_bytes]

/-- The parser looks for the second copies it needs of `r` at the right places, when `r` follows the
commands `before` in a block of `total` bytes. -/
def RecoversAt (total : ℕ) (before : List (Received crc32)) (r : Received crc32) : Prop :=
  (r.header₁ = (r.cmd.header crc32).toBytes ∨
      (receivedBytes before).length + r.cmd.frameLen = total / 2) ∧
    (r.body₁ = r.cmd.body crc32 ∨ before = [])

/-- Every command whose first header is damaged has its second header at the middle of the block,
and no command but the first has damaged first data. -/
def Recoverable (rs : List (Received crc32)) : Prop :=
  ∀ before r after, rs = before ++ r :: after → RecoversAt (receivedBytes rs).length before r

/-- Where the parser looks for second copies at the wrong places, what it finds there does not pass
the CRC comparison. -/
def StrayFails (rs : List (Received crc32)) : Prop :=
  ∀ before r after, rs = before ++ r :: after →
    (r.header₁ ≠ (r.cmd.header crc32).toBytes →
      (receivedBytes before).length + r.cmd.frameLen ≠ (receivedBytes rs).length / 2 →
      ¬ HeaderOk crc32 (slice (repairedBytes before ++ (r.bytes ++ receivedBytes after))
        ((receivedBytes rs).length / 2) 8)) ∧
    (r.body₁ ≠ r.cmd.body crc32 → before ≠ [] →
      ¬ FrameOk crc32 (slice (copyWithin
        (r.headerRepaired (repairedBytes before) (receivedBytes after)) r.cmd.frameLen
        (r.headerAt (repairedBytes before) (receivedBytes after)) 8) r.cmd.frameLen r.cmd.frameLen))

/-- The block in front of a command has the length of the received batch. -/
lemma length_block_at (before : List (Received crc32)) (r : Received crc32)
    (after : List (Received crc32)) :
    (repairedBytes before ++ (r.bytes ++ receivedBytes after)).length =
      (receivedBytes (before ++ r :: after)).length := by
  simp only [List.length_append, length_repairedBytes]
  simp only [receivedBytes, List.flatMap_append, List.flatMap_cons, List.length_append]

/-- The rounds over the first commands of a batch, as long as the parser looks at the right places.
-/
lemma loop_recovers {before after : List (Received crc32)}
    (hhandled : ∀ r ∈ before, r.cmd.handler? ≠ none)
    (hlen : (receivedBytes (before ++ after)).length < 2 ^ 16)
    (hgood : ∀ b r a, before = b ++ r :: a →
      RecoversAt (receivedBytes (before ++ after)).length b r) :
    ∃ calls, List.Forall₂ (HandedOver crc32) (before.map Received.cmd) calls ∧
      ∀ fuel, dlDataParseLoop crc32 (before.length + fuel) (receivedBytes (before ++ after)) =
        loop (dlDataParseRound crc32) fuel
          ⟨repairedBytes before ++ receivedBytes after, (repairedBytes before).length, calls⟩ := by
  -- by induction on the commands that have been parsed, the last of them in the last round
  induction before using List.reverseRecOn generalizing after with
  | nil =>
    refine ⟨[], .nil, fun fuel => ?_⟩
    simp [dlDataParseLoop, repairedBytes]
  | append_singleton before r ih =>
    rw [List.append_assoc, List.singleton_append] at hlen hgood ⊢
    obtain ⟨calls, hcalls, hloop⟩ := @ih (r :: after)
      (fun r' hr' => hhandled r' (List.mem_append_left _ hr')) hlen
      (fun b r' a hb => hgood b r' (a ++ [r]) (by rw [hb]; simp))
    obtain ⟨handler, hhandler⟩ := Option.ne_none_iff_exists'.mp
      (hhandled r (List.mem_append_right _ (List.mem_singleton_self r)))
    obtain ⟨hhead, hbody⟩ := hgood before r [] rfl
    have hblock := length_block_at before r after
    obtain ⟨call, hcall, hround⟩ := @dlDataParseRound_recovers crc32 r (repairedBytes before)
      (receivedBytes after) handler hhandler
      (by rwa [HeaderBackupFound, length_repairedBytes, hblock])
      (hbody.imp_right fun h => by rw [h]; rfl) (by rwa [hblock]) calls
    refine ⟨calls ++ [call], ?_, fun fuel => ?_⟩
    · rw [List.map_append]
      exact List.rel_append hcalls (.cons hcall .nil)
    · have hcut : receivedBytes (r :: after) = r.bytes ++ receivedBytes after := by
        simp [receivedBytes]
      have hnext : repairedBytes (before ++ [r]) ++ receivedBytes after =
          repairedBytes before ++ (r.repaired ++ receivedBytes after) := by
        simp [repairedBytes]
      have hoff : (repairedBytes (before ++ [r])).length =
          (repairedBytes before).length + 2 * r.cmd.frameLen := by
        simp [repairedBytes, r.length_repaired]
      rw [List.length_append, List.length_singleton, Nat.add_assoc, Nat.add_comm 1, hloop, hcut,
        loop_of_next hround, hnext, hoff]

/-- A received batch is as long as the batch that was sent. -/
lemma length_receivedBytes (rs : List (Received crc32)) :
    (receivedBytes rs).length = (batchBytes crc32 (rs.map Received.cmd)).length := by
  induction rs with
  | nil => rfl
  | cons r rs ih =>
    rw [List.map_cons, length_batchBytes_cons, ← ih]
    simp [receivedBytes, r.length_bytes]

/-- A property of the elements of a list and the elements in front of them has a first violation. -/
lemma exists_first_violation {α : Type*} {P : List α → α → Prop} {l : List α}
    (h : ¬ ∀ before x after, l = before ++ x :: after → P before x) :
    ∃ before x after, l = before ++ x :: after ∧ ¬ P before x ∧
      ∀ b y a, before = b ++ y :: a → P b y := by
  induction l generalizing P with
  | nil => exact absurd (fun _ _ _ h => by simp at h) h
  | cons x l ih =>
    by_cases hx : P [] x
    · obtain ⟨before, y, after, rfl, hy, hfirst⟩ := @ih (fun before => P (x :: before)) fun hall =>
        h fun before y after hl => by
          cases before with
          | nil =>
            obtain ⟨rfl, -⟩ := List.cons.inj hl
            exact hx
          | cons z before =>
            obtain ⟨rfl, htail⟩ := List.cons.inj hl
            exact hall before y after htail
      refine ⟨x :: before, y, after, rfl, hy, fun b z a hb => ?_⟩
      cases b with
      | nil =>
        obtain ⟨rfl, -⟩ := List.cons.inj hb
        exact hx
      | cons w b =>
        obtain ⟨rfl, htail⟩ := List.cons.inj hb
        exact hfirst b z a htail
    · exact ⟨[], x, l, rfl, hx, fun b y a hb => by simp at hb⟩

/-! ### Delivery of a damaged batch -/

/-- The parser dispatches every command exactly once, in order, and hands over the header and the
data that were sent. -/
def Delivers (crc8 : List UInt8 → UInt32) (fuel : ℕ) (s : SpiCom) (rs : List (Received crc32)) :
    Prop :=
  ∃ s' offset calls, ucWiotaDlDataParse crc32 crc8 true fuel s = .done (s', offset, calls) ∧
    List.Forall₂ (HandedOver crc32) (rs.map Received.cmd) calls

section Delivery

variable {crc8 : List UInt8 → UInt32} {size : RingSize} {s : SpiCom} {rs : List (Received crc32)}
  {fuel : ℕ}

/-- What the loop hands over is what the parser hands over. -/
lemma parse_received (hne : rs ≠ []) (hbatch : PublishedBatch crc8 size s (receivedBytes rs))
    {st : ParseState} (hloop : dlDataParseLoop crc32 fuel (receivedBytes rs) = .done st) :
    ucWiotaDlDataParse crc32 crc8 true fuel s =
      .done (afterRead crc8 s (receivedBytes rs).length, st.subDataOffset, st.calls) := by
  have hbounds := length_batchBytes_bounds crc32 (show rs.map Received.cmd ≠ [] by simpa using hne)
  rw [← length_receivedBytes] at hbounds
  exact hbatch.dlDataParse_eq hbounds.1 hbounds.2 hloop

/-- A batch whose second copies lie where the parser looks for them is delivered. -/
lemma delivers_of_recoverable (hne : rs ≠ []) (hhandled : ∀ r ∈ rs, r.cmd.handler? ≠ none)
    (hbatch : PublishedBatch crc8 size s (receivedBytes rs)) (hfuel : rs.length < fuel)
    (hrec : Recoverable rs) : Delivers crc8 fuel s rs := by
  have hN := size.cells_bounds
  have hle := hbatch.length_le
  obtain ⟨n, rfl⟩ := Nat.exists_eq_add_of_lt hfuel
  obtain ⟨calls, hcalls, hloop⟩ := @loop_recovers crc32 rs [] hhandled
    (by rw [List.append_nil]; omega)
    (fun b r a h => by rw [List.append_nil]; exact hrec b r a h)
  have hend : repairedBytes rs ++ receivedBytes ([] : List (Received crc32)) =
      repairedBytes rs := by
    simp [receivedBytes]
  have hdone := hloop (n + 1)
  rw [List.append_nil, hend, loop_of_exit (dlDataParseRound_of_end le_rfl), ← Nat.add_assoc]
    at hdone
  exact ⟨_, _, calls, parse_received hne hbatch hdone, hcalls⟩

/-- If the bytes at the wrong places do not pass for valid ones, no other batch is delivered: the
loop leaves at the first command whose second copies lie elsewhere. -/
lemma recoverable_of_delivers (hne : rs ≠ []) (hhandled : ∀ r ∈ rs, r.cmd.handler? ≠ none)
    (hbatch : PublishedBatch crc8 size s (receivedBytes rs)) (hfuel : rs.length < fuel)
    (hstray : StrayFails rs) (hdel : Delivers crc8 fuel s rs) : Recoverable rs := by
  have hN := size.cells_bounds
  have hle := hbatch.length_le
  by_contra hnot
  obtain ⟨before, r, after, hrs, hbad, hgood⟩ := exists_first_violation hnot
  obtain ⟨hstray₁, hstray₂⟩ := hstray before r after hrs
  have hlen : (receivedBytes (before ++ r :: after)).length < 2 ^ 16 := by
    rw [← hrs]
    omega
  have hblock := length_block_at before r after
  obtain ⟨calls, hcalls, hloop⟩ := @loop_recovers crc32 before (r :: after)
    (fun r' hr' => hhandled r' (by rw [hrs]; exact List.mem_append_left _ hr')) hlen
    (by rw [← hrs]; exact hgood)
  have hexit : dlDataParseRound crc32 ⟨repairedBytes before ++ (r.bytes ++ receivedBytes after),
      (repairedBytes before).length, calls⟩ = .ok (.inr
        ⟨repairedBytes before ++ (r.bytes ++ receivedBytes after),
          (repairedBytes before).length, calls⟩) := by
    by_cases hhead : r.header₁ = (r.cmd.header crc32).toBytes ∨
        (receivedBytes before).length + r.cmd.frameLen = (receivedBytes rs).length / 2
    · have hbody : ¬ (r.body₁ = r.cmd.body crc32 ∨ before = []) := fun hbody => hbad ⟨hhead, hbody⟩
      rw [not_or] at hbody
      refine dlDataParseRound_noData ?_ hbody.1 (by rwa [hblock]) (hstray₂ hbody.1 hbody.2) calls
      rwa [HeaderBackupFound, length_repairedBytes, hblock, ← hrs]
    · rw [not_or] at hhead
      refine dlDataParseRound_noHeader hhead.1 ?_ calls
      rw [hblock, ← hrs]
      exact hstray₁ hhead.1 hhead.2
  have hcut : receivedBytes (r :: after) = r.bytes ++ receivedBytes after := by
    simp [receivedBytes]
  have hcount : before.length < rs.length := by simp [hrs]
  obtain ⟨n, rfl⟩ := Nat.exists_eq_add_of_lt (show before.length < fuel by omega)
  have hdone := hloop (n + 1)
  rw [hcut, loop_of_exit hexit, ← hrs, ← Nat.add_assoc] at hdone
  obtain ⟨s', offset, calls', hparse, hall⟩ := hdel
  rw [parse_received hne hbatch hdone] at hparse
  obtain ⟨-, -, rfl⟩ : _ ∧ _ ∧ calls = calls' := by simpa using hparse
  have hlen₁ := hall.length_eq
  have hlen₂ := hcalls.length_eq
  rw [List.length_map] at hlen₁ hlen₂
  omega

/-- A damaged batch is delivered if the second copies it needs lie where the parser looks for them,
and, when what lies at the wrong places does not pass for valid, only then. -/
theorem damagedBatch_delivered_iff (hne : rs ≠ []) (hhandled : ∀ r ∈ rs, r.cmd.handler? ≠ none)
    (hbatch : PublishedBatch crc8 size s (receivedBytes rs)) (hfuel : rs.length < fuel) :
    (Recoverable rs → Delivers crc8 fuel s rs) ∧
      (StrayFails rs → (Delivers crc8 fuel s rs ↔ Recoverable rs)) :=
  ⟨delivers_of_recoverable hne hhandled hbatch hfuel, fun hstray =>
    ⟨recoverable_of_delivers hne hhandled hbatch hfuel hstray,
      delivers_of_recoverable hne hhandled hbatch hfuel⟩⟩

end Delivery

/-- A setup with one byte of data, of which the first header and the first data are damaged. -/
def damagedSetup : Received byteSum where
  cmd := setupCmd
  header₁ := [0xFF, 0, 1, 0, 0x1A, 0, 0, 0]
  body₁ := [0xFF, 0, 0, 0, 0x3C, 0, 0, 0]
  header₂ := [0x19, 0, 1, 0, 0x1A, 0, 0, 0]
  body₂ := [7, 0, 0, 0, 0x3B, 0, 0, 0]
  length_header₁ := rfl
  length_body₁ := rfl
  length_header₂ := rfl
  length_body₂ := rfl
  header₁_checked := by decide
  header₂_checked := by decide
  body₁_checked := by decide
  body₂_checked := by decide
  header_intact := by decide
  body_intact := by decide

/-- Alone in the block, the damaged setup is delivered. -/
theorem damagedBatch_delivered_iff_setup :
    Delivers (fun _ => 0) 2 (gatewayPublish (fun _ => 0) (receivedBytes [damagedSetup])
      drainedNearEnd) [damagedSetup] := by
  have hrec : Recoverable [damagedSetup] := by
    intro before r after h
    obtain ⟨rfl, rfl, rfl⟩ : before = [] ∧ r = damagedSetup ∧ after = [] := by
      cases before <;> simp_all
    exact ⟨Or.inr (by decide), Or.inr rfl⟩
  exact (damagedBatch_delivered_iff (by simp) (by decide)
    (gatewayPublish_published (fun _ => by decide) drainedNearEnd_dlRing (by decide))
    (by decide)).1 hrec

/-- A query whose frames are intact. -/
def intactQuery : Received byteSum where
  cmd := queryCmd
  header₁ := [0x0A, 0, 0, 0, 0x0A, 0, 0, 0]
  body₁ := []
  header₂ := [0x0A, 0, 0, 0, 0x0A, 0, 0, 0]
  body₂ := []
  length_header₁ := rfl
  length_body₁ := rfl
  length_header₂ := rfl
  length_body₂ := rfl
  header₁_checked := by decide
  header₂_checked := by decide
  body₁_checked := by decide
  body₂_checked := by decide
  header_intact := by decide
  body_intact := by decide

/-- The same query with a damaged first header. -/
def damagedQuery : Received byteSum where
  __ := intactQuery
  header₁ := [0x0B, 0, 0, 0, 0x0A, 0, 0, 0]
  length_header₁ := rfl
  header₁_checked := by decide
  header_intact := by decide

/-- Behind an intact query, the damaged one is not dispatched, although its second header is intact:
the parser takes the damaged header, which lies at the middle of the block, for the second copy. -/
theorem damagedBatch_lost :
    ¬ ∃ fuel, Delivers (fun _ => 0) fuel (gatewayPublish (fun _ => 0)
      (receivedBytes [intactQuery, damagedQuery]) drainedNearEnd) [intactQuery, damagedQuery] := by
  have hfirst : dlDataParseRound byteSum
      ⟨receivedBytes [intactQuery, damagedQuery], 0, []⟩ = .ok (.inl
        ⟨receivedBytes [intactQuery, damagedQuery], 16,
          [⟨.query, 0, receivedBytes [intactQuery, damagedQuery]⟩]⟩) := by rfl
  have hexit : dlDataParseRound byteSum
      ⟨receivedBytes [intactQuery, damagedQuery], 16,
          [⟨.query, 0, receivedBytes [intactQuery, damagedQuery]⟩]⟩ = .ok (.inr
        ⟨receivedBytes [intactQuery, damagedQuery], 16,
          [⟨.query, 0, receivedBytes [intactQuery, damagedQuery]⟩]⟩) := by rfl
  rintro ⟨fuel, s', offset, calls, hdone, hall⟩
  have hloop : dlDataParseLoop byteSum (fuel + 2) (receivedBytes [intactQuery, damagedQuery]) = _ :=
    (loop_of_next hfirst (fuel + 1)).trans (loop_of_exit hexit fuel)
  have hbatch := @gatewayPublish_published (fun _ => 0) (fun _ => by decide) _ _
    drainedNearEnd_dlRing (receivedBytes [intactQuery, damagedQuery]) (by decide)
  have hdone := ucWiotaDlDataParse_add _ hdone 2
  rw [parse_received (by simp) hbatch hloop] at hdone
  obtain ⟨-, -, rfl⟩ : _ ∧ _ ∧ _ = calls := by simpa using hdone
  simpa using hall.length_eq

end WiotaAp
