import WiotaAp.Foundation.Chunks
import WiotaAp.Foundation.Memory
import WiotaAp.Manager.Update

/-!
# The downloaded image

`http_downloader.c` receives an image in shards of 4096 bytes and writes them into the flash, with
the bytes of every word in the opposite order.  When all shards are there, `md5_verification` reads
the image back block by block, restores the order and feeds the bytes to the digest.

Both directions swap whole words.  `image_round_trip_iff` says that what is fed to the digest is the
image exactly if its length is a multiple of four: otherwise `byte_swap` leaves the last shard, and
bytes of its last word are not written at all.
-/

namespace WiotaAp

open Buffers

/-! ### The functions -/

/-- `HTTP_DOWNLOADER_BLOCK_SIZE`. -/
def httpDownloaderBlockSize : ℕ := 4096

/-- `FLASH_ALIGN`. -/
def flashAlign (size : ℕ) : ℕ :=
  rtAlign size 4

/-- The body of the loop of `byte_swap`: the bytes at `i` and `i + 3` and those at `i + 1` and
`i + 2` are exchanged. -/
def swapWordAt (buffer : List UInt8) (i : ℕ) : Except Fault (List UInt8) := do
  match ← readAt buffer i 4 with
  | [a, b, c, d] => writeAt buffer i [d, c, b, a]
  | _ => .error .outOfBounds

/-- The loop of `byte_swap`; as many rounds as there are bytes are enough. -/
def byteSwapLoop (length : ℕ) : ℕ → ℕ → List UInt8 → Except Fault (List UInt8)
  | 0, _, buffer => .ok buffer
  | fuel + 1, i, buffer =>
    if i < length then do
      let buffer ← swapWordAt buffer i
      byteSwapLoop length fuel (i + 4) buffer
    else .ok buffer

/-- `byte_swap`. -/
def byteSwap (buffer : List UInt8) (length : ℕ) : Except Fault (List UInt8) :=
  byteSwapLoop length length 0 buffer

/-- The part of `t_download_file_info` that is used here, and the flash. -/
structure DownloadFile where
  fileSize : ℕ
  recvLen : ℕ
  flash : ℕ → UInt8

/-- The address of the image in the flash. -/
def imageAddress : ℕ :=
  ucOtaPartitionStartAddress.toNat

/-- `uc_wiota_flash_erase_4K`: the sector of the address is set to 0xFF. -/
def ucWiotaFlashErase4K (flash : ℕ → UInt8) (address : ℕ) : ℕ → UInt8 :=
  writeRange flash (address / 4096 * 4096) (List.replicate 4096 0xFF)

/-- `shard_download_handle` on the first `length` bytes of a buffer. -/
def shardDownloadHandle (buffer : List UInt8) (length : ℕ) (file : DownloadFile) :
    Except Fault DownloadFile := do
  let flash := ucWiotaFlashErase4K file.flash (imageAddress + file.recvLen)
  let buffer ← byteSwap buffer length
  let data ← readAt buffer 0 length
  return { file with
    flash := writeRange flash (imageAddress + file.recvLen) data
    recvLen := file.recvLen + length }

/-- The shards of a file that is delivered: 4096 bytes each, the last one what remains. -/
def shards (file : List UInt8) : List (List UInt8) :=
  chunks httpDownloaderBlockSize file.length file

/-- The delivery of a shard, which is all that its buffer holds. -/
def deliver (state : DownloadFile) (shard : List UInt8) : Except Fault DownloadFile :=
  shardDownloadHandle shard shard.length state

/-- The download of a file, shard by shard. -/
def downloadFile (flash : ℕ → UInt8) (file : List UInt8) : Except Fault DownloadFile :=
  (shards file).foldlM deliver ⟨file.length, 0, flash⟩

/-- One block of `md5_verification`: `readLen` bytes at `i` are read from the flash and swapped in
the buffer, and the first `len` of them are fed to the digest. -/
def md5Block (flash : ℕ → UInt8) (i readLen len : ℕ) (buffer ctx : List UInt8) :
    Except Fault (List UInt8 × List UInt8) := do
  let buffer ← writeAt buffer 0 (readRange flash (imageAddress + i) readLen)
  let buffer ← byteSwap buffer readLen
  let block ← readAt buffer 0 len
  return (buffer, ctx ++ block)

/-- The loop of `md5_verification`, with what has been fed to the digest.  As many rounds as there
are bytes are enough. -/
def md5Loop (file : DownloadFile) :
    ℕ → ℕ → List UInt8 → List UInt8 → Except Fault (ℕ × List UInt8 × List UInt8)
  | 0, i, buffer, ctx => .ok (i, buffer, ctx)
  | fuel + 1, i, buffer, ctx =>
    if (i : ℤ) < file.fileSize - httpDownloaderBlockSize then do
      let (buffer, ctx) ←
        md5Block file.flash i httpDownloaderBlockSize httpDownloaderBlockSize buffer ctx
      md5Loop file fuel (i + httpDownloaderBlockSize) buffer ctx
    else .ok (i, buffer, ctx)

/-- `md5_verification` up to the digest: the bytes that are fed to it, unless the download is not
complete.  The block that is allocated has any contents. -/
def md5Verification (malloc : ℕ → UInt8) (file : DownloadFile) :
    Except Fault (Option (List UInt8)) :=
  if file.recvLen < file.fileSize then .ok none
  else do
    let (i, buffer, ctx) ←
      md5Loop file file.fileSize 0 (readRange malloc 0 httpDownloaderBlockSize) []
    if i < file.fileSize then
      let (_, ctx) ←
        md5Block file.flash i (flashAlign (file.fileSize - i)) (file.fileSize - i) buffer ctx
      return some ctx
    else return some ctx

/-! ### Swapping -/

/-- A round of `byte_swap` inside the buffer. -/
lemma swapWordAt_part (pre post : List UInt8) (a b c d : UInt8) :
    swapWordAt (pre ++ (a :: b :: c :: d :: post)) pre.length =
      .ok (pre ++ [d, c, b, a] ++ post) := by
  have hbuffer : pre ++ (a :: b :: c :: d :: post) = pre ++ ([a, b, c, d] ++ post) := rfl
  have hread : readAt (pre ++ (a :: b :: c :: d :: post)) pre.length 4 = .ok [a, b, c, d] :=
    readAt_part hbuffer rfl rfl
  have hwrite : writeAt (pre ++ (a :: b :: c :: d :: post)) pre.length [d, c, b, a] =
      .ok (pre ++ ([d, c, b, a] ++ post)) :=
    writeAt_part hbuffer rfl rfl
  rw [swapWordAt, hread, ok_bind, List.append_assoc]
  exact hwrite

/-- The loop over whole words swaps them. -/
lemma byteSwapLoop_of_dvd {part : List UInt8} (hpart : 4 ∣ part.length) (pre post : List UInt8)
    {fuel : ℕ} (hfuel : part.length ≤ fuel) :
    byteSwapLoop (pre.length + part.length) fuel pre.length (pre ++ (part ++ post)) =
      .ok (pre ++ (swapWords part ++ post)) := by
  induction part using word_induction generalizing pre fuel with
  | short part hlt =>
    rw [eq_nil_of_dvd_of_lt hlt hpart]
    cases fuel with
    | zero => rfl
    | succ fuel => exact if_neg (Nat.lt_irrefl _)
  | word a b c d rest ih =>
    have hlen : (a :: b :: c :: d :: rest).length = rest.length + 4 := rfl
    have hpre : (pre ++ [d, c, b, a]).length = pre.length + 4 := List.length_append
    obtain ⟨fuel, rfl⟩ := Nat.exists_eq_add_of_le (show 1 ≤ fuel by omega)
    have hnext := ih ((four_dvd_length_cons a b c d rest).mp hpart) (pre ++ [d, c, b, a])
      (show rest.length ≤ fuel by omega)
    rw [hpre, Nat.add_assoc, Nat.add_comm 4] at hnext
    rw [Nat.add_comm 1, byteSwapLoop, if_pos (by omega), List.cons_append, List.cons_append,
      List.cons_append, List.cons_append, swapWordAt_part, ok_bind, hlen, hnext, List.append_assoc]
    rfl

/-- `byte_swap` on whole words. -/
lemma byteSwap_of_dvd {part : List UInt8} (hpart : 4 ∣ part.length) (post : List UInt8) :
    byteSwap (part ++ post) part.length = .ok (swapWords part ++ post) := by
  have hloop := byteSwapLoop_of_dvd hpart [] post le_rfl
  rw [List.length_nil, Nat.zero_add] at hloop
  exact hloop

/-- A loop over bytes that are not whole words leaves the buffer. -/
lemma byteSwapLoop_of_not_dvd {part : List UInt8} (hpart : ¬ 4 ∣ part.length) (pre : List UInt8)
    {fuel : ℕ} (hfuel : part.length ≤ fuel) :
    byteSwapLoop (pre.length + part.length) fuel pre.length (pre ++ part) =
      .error .outOfBounds := by
  induction part using word_induction generalizing pre fuel with
  | short part hlt =>
    have hpos : 0 < part.length := Nat.pos_of_ne_zero fun hzero => hpart (hzero ▸ Nat.dvd_zero 4)
    obtain ⟨fuel, rfl⟩ := Nat.exists_eq_add_of_le (show 1 ≤ fuel by omega)
    have hread : readAt (pre ++ part) pre.length 4 = .error .outOfBounds := by
      refine readAt_of_lt ?_
      rw [List.length_append]
      exact Nat.add_lt_add_left hlt _
    rw [Nat.add_comm 1, byteSwapLoop, if_pos (by omega), swapWordAt, hread]
    rfl
  | word a b c d rest ih =>
    have hlen : (a :: b :: c :: d :: rest).length = rest.length + 4 := rfl
    have hpre : (pre ++ [d, c, b, a]).length = pre.length + 4 := List.length_append
    obtain ⟨fuel, rfl⟩ := Nat.exists_eq_add_of_le (show 1 ≤ fuel by omega)
    have hnext := ih (mt (four_dvd_length_cons a b c d rest).mpr hpart) (pre ++ [d, c, b, a])
      (show rest.length ≤ fuel by omega)
    rw [hpre, Nat.add_assoc, Nat.add_comm 4] at hnext
    rw [Nat.add_comm 1, byteSwapLoop, if_pos (by omega), swapWordAt_part, ok_bind, hlen, hnext]

/-- `byte_swap` on bytes that are not whole words leaves the buffer. -/
lemma byteSwap_of_not_dvd {part : List UInt8} (hpart : ¬ 4 ∣ part.length) :
    byteSwap part part.length = .error .outOfBounds := by
  have hloop := byteSwapLoop_of_not_dvd hpart [] le_rfl
  rw [List.length_nil, Nat.zero_add] at hloop
  exact hloop

/-! ### The flash -/

/-- The flash holds the first bytes of the image, swapped. -/
structure HoldsImage (state : DownloadFile) (done : List UInt8) : Prop where
  recvLen_eq : state.recvLen = done.length
  flash_eq : readRange state.flash imageAddress done.length = swapWords done

/-- Behind whole sectors, the sector that is erased begins with the shard. -/
lemma sector_eq {n : ℕ} (hn : 4096 ∣ n) :
    (imageAddress + n) / 4096 * 4096 = imageAddress + n := by
  have haddress : 4096 ∣ imageAddress := by decide
  exact Nat.div_mul_cancel (Nat.dvd_add haddress hn)

/-- A shard of whole words is written behind the others. -/
lemma HoldsImage.shard {state : DownloadFile} {done : List UInt8} (h : HoldsImage state done)
    (hdone : 4096 ∣ done.length) {shard : List UInt8} (hshard : 4 ∣ shard.length) :
    ∃ state', shardDownloadHandle shard shard.length state = .ok state' ∧
      HoldsImage state' (done ++ shard) ∧ state'.fileSize = state.fileSize := by
  have hswap : byteSwap shard shard.length = .ok (swapWords shard) := by
    have hpart := byteSwap_of_dvd hshard []
    rwa [List.append_nil, List.append_nil] at hpart
  have hbuffer : swapWords shard = [] ++ (swapWords shard ++ []) := (List.append_nil _).symm
  have hread : readAt (swapWords shard) 0 shard.length = .ok (swapWords shard) :=
    readAt_part hbuffer rfl (length_swapWords shard).symm
  unfold shardDownloadHandle
  rw [hswap, ok_bind, hread, ok_bind, h.recvLen_eq]
  refine ⟨_, rfl, ⟨List.length_append.symm, ?_⟩, rfl⟩
  -- neither the erased sector nor the shard reaches back to what is there
  have hold : readRange (writeRange (ucWiotaFlashErase4K state.flash (imageAddress + done.length))
      (imageAddress + done.length) (swapWords shard)) imageAddress done.length =
        swapWords done := by
    rw [readRange_writeRange_of_disjoint _ (.inl le_rfl), ucWiotaFlashErase4K, sector_eq hdone,
      readRange_writeRange_of_disjoint _ (.inl le_rfl), h.flash_eq]
  have hnew := readRange_writeRange
    (ucWiotaFlashErase4K state.flash (imageAddress + done.length)) (imageAddress + done.length)
    (swapWords shard)
  rw [length_swapWords] at hnew
  rw [List.length_append, readRange_add, hold, hnew,
    swapWords_append (Nat.dvd_trans (by decide) hdone)]

/-- The rest of a file of whole words, behind whole sectors. -/
lemma HoldsImage.deliver_chunks {state : DownloadFile} {done rest : List UInt8} {fuel : ℕ}
    (h : HoldsImage state done) (hdone : 4096 ∣ done.length) (hrest : 4 ∣ rest.length)
    (hfuel : rest.length ≤ fuel) :
    ∃ state', (chunks httpDownloaderBlockSize fuel rest).foldlM deliver state = .ok state' ∧
      HoldsImage state' (done ++ rest) ∧ state'.fileSize = state.fileSize := by
  induction fuel generalizing state done rest with
  | zero =>
    rw [List.eq_nil_of_length_eq_zero (Nat.le_zero.mp hfuel), List.append_nil]
    exact ⟨state, rfl, h, rfl⟩
  | succ fuel ih =>
    rcases Nat.eq_zero_or_pos rest.length with hzero | hpos
    · rw [List.eq_nil_of_length_eq_zero hzero, List.append_nil]
      exact ⟨state, rfl, h, rfl⟩
    rcases Nat.lt_or_ge httpDownloaderBlockSize rest.length with hlong | hlast
    · have htake : (rest.take httpDownloaderBlockSize).length = 4096 :=
        List.length_take_of_le (le_of_lt hlong)
      have hdrop : (rest.drop httpDownloaderBlockSize).length = rest.length - 4096 :=
        List.length_drop
      have hword : 4 ∣ (rest.take httpDownloaderBlockSize).length := by
        rw [htake]
        decide
      obtain ⟨next, hdeliver, hnext, hsize⟩ := h.shard hdone hword
      obtain ⟨state', hfold, hholds, hsize'⟩ := ih hnext
        (by rw [List.length_append, htake]; omega) (by rw [hdrop]; omega) (by rw [hdrop]; omega)
      rw [List.append_assoc, List.take_append_drop] at hholds
      refine ⟨state', ?_, hholds, hsize'.trans hsize⟩
      rw [chunks_of_lt hlong, List.foldlM_cons, deliver, hdeliver]
      exact hfold
    · obtain ⟨state', hdeliver, hholds, hsize⟩ := h.shard hdone hrest
      refine ⟨state', ?_, hholds, hsize⟩
      rw [chunks_of_le hpos hlast, List.foldlM_cons, deliver, hdeliver]
      rfl

/-- The rest of a file that does not end with a whole word, behind whole sectors. -/
lemma HoldsImage.deliver_chunks_of_not_dvd {state : DownloadFile} {done rest : List UInt8}
    {fuel : ℕ} (h : HoldsImage state done) (hdone : 4096 ∣ done.length)
    (hrest : ¬ 4 ∣ rest.length) (hfuel : rest.length ≤ fuel) :
    (chunks httpDownloaderBlockSize fuel rest).foldlM deliver state = .error .outOfBounds := by
  induction fuel generalizing state done rest with
  | zero =>
    rw [Nat.le_zero.mp hfuel] at hrest
    exact absurd (Nat.dvd_zero 4) hrest
  | succ fuel ih =>
    rcases Nat.lt_or_ge httpDownloaderBlockSize rest.length with hlong | hlast
    · have htake : (rest.take httpDownloaderBlockSize).length = 4096 :=
        List.length_take_of_le (le_of_lt hlong)
      have hdrop : (rest.drop httpDownloaderBlockSize).length = rest.length - 4096 :=
        List.length_drop
      have hword : 4 ∣ (rest.take httpDownloaderBlockSize).length := by
        rw [htake]
        decide
      obtain ⟨next, hdeliver, hnext, -⟩ := h.shard hdone hword
      have hblock : httpDownloaderBlockSize = 4096 := rfl
      rw [chunks_of_lt hlong, List.foldlM_cons, deliver, hdeliver, ok_bind]
      exact ih hnext (by rw [List.length_append, htake]; omega) (by rw [hdrop]; omega)
        (by rw [hdrop]; omega)
    · have hpos : 0 < rest.length := Nat.pos_of_ne_zero fun hzero =>
        hrest (hzero ▸ Nat.dvd_zero 4)
      rw [chunks_of_le hpos hlast, List.foldlM_cons, deliver, shardDownloadHandle,
        byteSwap_of_not_dvd hrest]
      rfl

/-! ### Reading back -/

/-- A part of the image in the flash. -/
lemma readRange_part {flash : ℕ → UInt8} {pre part post : List UInt8}
    (h : readRange flash imageAddress (pre ++ (part ++ post)).length =
      swapWords (pre ++ (part ++ post)))
    (hpre : 4 ∣ pre.length) (hpart : 4 ∣ part.length) :
    readRange flash (imageAddress + pre.length) part.length = swapWords part := by
  rw [List.length_append, List.length_append, readRange_add, readRange_add, swapWords_append hpre,
    swapWords_append hpart] at h
  have htail := (List.append_inj h (by simp)).2
  exact (List.append_inj htail (by simp)).1

/-- A block of whole words is fed to the digest in the order of the image. -/
lemma md5Block_eq {flash : ℕ → UInt8} {i : ℕ} {part : List UInt8}
    (h : readRange flash (imageAddress + i) part.length = swapWords part)
    (hpart : 4 ∣ part.length) {buffer : List UInt8} (hbuffer : part.length ≤ buffer.length)
    (ctx : List UInt8) :
    ∃ buffer', md5Block flash i part.length part.length buffer ctx = .ok (buffer', ctx ++ part) ∧
      buffer'.length = buffer.length := by
  have hcut : buffer = [] ++ (buffer.take part.length ++ buffer.drop part.length) :=
    (List.take_append_drop _ _).symm
  have hwrite : writeAt buffer 0 (swapWords part) =
      .ok (swapWords part ++ buffer.drop part.length) :=
    writeAt_part hcut rfl (by rw [List.length_take_of_le hbuffer, length_swapWords])
  have hswap : byteSwap (swapWords part ++ buffer.drop part.length) part.length =
      .ok (part ++ buffer.drop part.length) := by
    have hword : 4 ∣ (swapWords part).length := by rwa [length_swapWords]
    have hwords := byteSwap_of_dvd hword (buffer.drop part.length)
    rwa [length_swapWords, swapWords_swapWords] at hwords
  have hread : readAt (part ++ buffer.drop part.length) 0 part.length = .ok part :=
    readAt_part (List.nil_append _).symm rfl rfl
  refine ⟨part ++ buffer.drop part.length, ?_, ?_⟩
  · rw [md5Block, h, hwrite, ok_bind, hswap, ok_bind, hread]
    rfl
  · rw [List.length_append, List.length_drop]
    omega

/-- The loop of `md5_verification` feeds blocks until at most one is left. -/
lemma md5Loop_eq {file : DownloadFile} {image pre rest : List UInt8} {fuel : ℕ}
    (himage : image = pre ++ rest) (hsize : file.fileSize = image.length)
    (hflash : readRange file.flash imageAddress image.length = swapWords image)
    (hpre : 4 ∣ pre.length) (hrest : 4 ∣ rest.length) (hfuel : rest.length ≤ fuel)
    {buffer : List UInt8} (hbuffer : buffer.length = httpDownloaderBlockSize) :
    ∃ pre' rest' buffer', image = pre' ++ rest' ∧ 4 ∣ pre'.length ∧ 4 ∣ rest'.length ∧
      rest'.length ≤ httpDownloaderBlockSize ∧ buffer'.length = httpDownloaderBlockSize ∧
      md5Loop file fuel pre.length buffer pre = .ok (pre'.length, buffer', pre') := by
  have hblock : httpDownloaderBlockSize = 4096 := rfl
  induction fuel generalizing pre rest buffer with
  | zero => exact ⟨pre, rest, buffer, himage, hpre, hrest, by omega, hbuffer, rfl⟩
  | succ fuel ih =>
    have hlength : image.length = pre.length + rest.length := by
      rw [himage, List.length_append]
    rw [md5Loop]
    split
    · rename_i hmore
      have htake : (rest.take 4096).length = 4096 := List.length_take_of_le (by omega)
      have hdrop : (rest.drop 4096).length = rest.length - 4096 := List.length_drop
      have hparts : image = pre ++ (rest.take 4096 ++ rest.drop 4096) := by
        rw [List.take_append_drop]
        exact himage
      have hword : 4 ∣ (rest.take 4096).length := by
        rw [htake]
        decide
      have hpart := readRange_part (hparts ▸ hflash) hpre hword
      obtain ⟨buffer', hfeed, hkeep⟩ := md5Block_eq hpart hword (by omega : _ ≤ buffer.length) pre
      rw [htake] at hfeed
      rw [← List.append_assoc] at hparts
      have hnext := ih hparts (by rw [List.length_append]; omega) (by omega) (by omega)
        (hkeep.trans hbuffer)
      rw [List.length_append, htake] at hnext
      rw [hblock, hfeed, ok_bind]
      exact hnext
    · rename_i hlast
      exact ⟨pre, rest, buffer, himage, hpre, hrest, by omega, hbuffer, rfl⟩

/-- An image of whole words that is in the flash is fed to the digest. -/
lemma md5Verification_eq (malloc : ℕ → UInt8) {file : DownloadFile} {image : List UInt8}
    (h : HoldsImage file image) (hsize : file.fileSize = image.length)
    (himage : 4 ∣ image.length) : md5Verification malloc file = .ok (some image) := by
  have hcomplete : ¬ file.recvLen < file.fileSize := by
    rw [h.recvLen_eq, hsize]
    exact Nat.lt_irrefl _
  have hnothing : image = [] ++ image := rfl
  obtain ⟨pre, rest, buffer, hparts, hpre, hrest, hlast, hbuffer, hloop⟩ :=
    md5Loop_eq hnothing hsize h.flash_eq (Nat.dvd_zero _) himage hsize.symm.le
      (length_readRange malloc 0 httpDownloaderBlockSize)
  have hlength : file.fileSize = pre.length + rest.length := by
    rw [hsize, hparts, List.length_append]
  rw [md5Verification, if_neg hcomplete]
  rw [List.length_nil] at hloop
  rw [hloop, ok_bind]
  dsimp only
  split
  · -- the last block is one of whole words, so rounding up changes nothing
    have halign : flashAlign (file.fileSize - pre.length) = rest.length := by
      rw [hlength, Nat.add_sub_cancel_left]
      exact rtAlign_of_aligned (Nat.mod_eq_zero_of_dvd hrest)
    have hlen : file.fileSize - pre.length = rest.length := by omega
    have hflash : readRange file.flash imageAddress (pre ++ (rest ++ [])).length =
        swapWords (pre ++ (rest ++ [])) := by
      rw [List.append_nil, ← hparts]
      exact h.flash_eq
    have hpart := readRange_part hflash hpre hrest
    obtain ⟨buffer', hfeed, -⟩ := md5Block_eq hpart hrest (hlast.trans hbuffer.ge) pre
    rw [halign, hlen, hfeed, ok_bind, hparts]
    rfl
  · rename_i hdone
    have hnil : rest = [] := List.eq_nil_of_length_eq_zero (by omega)
    rw [hparts, hnil, List.append_nil]
    rfl

/-- Of an image that is delivered in shards, just its bytes are fed to the digest after it has been
read back, and no position behind a shard or a block is touched, exactly if its length is a multiple
of four. -/
theorem image_round_trip_iff (malloc flash : ℕ → UInt8) (image : List UInt8) :
    (∃ file, downloadFile flash image = .ok file ∧
      md5Verification malloc file = .ok (some image)) ↔ 4 ∣ image.length := by
  have hstart : HoldsImage ⟨image.length, 0, flash⟩ [] := ⟨rfl, rfl⟩
  constructor
  · rintro ⟨file, hdownload, -⟩
    by_contra hnot
    have hfault := hstart.deliver_chunks_of_not_dvd (Nat.dvd_zero _) hnot le_rfl
    cases hdownload.symm.trans hfault
  · intro himage
    obtain ⟨file, hdownload, hholds, hsize⟩ :=
      hstart.deliver_chunks (Nat.dvd_zero _) himage le_rfl
    exact ⟨file, hdownload, md5Verification_eq malloc hholds hsize himage⟩

/-- An image of three bytes: `byte_swap` leaves the shard; and with one more byte in the buffer
other bytes are fed to the digest than those of the image. -/
theorem image_of_three_bytes :
    (downloadFile (fun _ => 0) [1, 2, 3] >>= md5Verification fun _ => 0) = .error .outOfBounds ∧
    (shardDownloadHandle [1, 2, 3, 0] 3 ⟨3, 0, fun _ => 0⟩ >>= md5Verification fun _ => 0) =
      .ok (some [0xFF, 2, 3]) := by
  constructor
  · decide +kernel
  · decide +kernel

end WiotaAp
