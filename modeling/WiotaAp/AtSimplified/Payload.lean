import WiotaAp.AtSimplified.RateState
import WiotaAp.Codec.FastlzBlock

/-!
# Payloads of the simplified AT commands

`AT+SEND` puts a payload behind a header of one byte, has it compressed in place by
`at_wiota_compress_and_pack` if this makes it shorter, and sends the frame;
`at_wiota_recv_callback` takes a frame apart.

Of the compression library only what `BlockLz` says is used: how much `fastlz_compress` writes, and
that `fastlz_decompress` with the limit of the receiver takes back what it has done.  It may also
fail, with the result -1, which is compared with the length of the payload as an unsigned number;
`fastlzBlocks` is the library of the program.  `payload_roundTrip` is the round trip, of the packed
frame and through `AT+SEND`.
-/

namespace WiotaAp

open Buffers

/-! ### The compression library -/

/-- The most that `fastlz_compress` writes for a block of `n` bytes. -/
def fastlzBound (n : ℕ) : ℕ := if n < 4 then n + 1 else n + (n + 31) / 32

/-- `DECOMPRESS_MAX_LEN`. -/
def decompressMaxLen : ℕ := 1024

/-- `fastlz_compress` and `fastlz_decompress`. -/
structure BlockLz where
  /-- What the compressor writes, also if it fails then. -/
  written : List UInt8 → List UInt8
  /-- The compressor returns the written length, and not -1. -/
  succeeds : List UInt8 → Bool
  /-- What the decompressor writes with a limit; its result is the length of it. -/
  decompress : List UInt8 → ℕ → List UInt8
  length_written : ∀ block, (written block).length ≤ fastlzBound block.length
  decompress_written : ∀ block, succeeds block = true → block.length ≤ decompressMaxLen →
    decompress (written block) decompressMaxLen = block

/-- `compressed_len` as an unsigned number. -/
def BlockLz.compressedLen (lz : BlockLz) (block : List UInt8) : UInt32 :=
  if lz.succeeds block then UInt32.ofNat (lz.written block).length else 0xFFFFFFFF

/-! ### Packing and unpacking -/

/-- `sizeof(app_header_t)`. -/
def headerLen : ℕ := 1

/-- `app_header->is_compress`, the lowest bit of the header. -/
def isCompress (header : UInt8) : Bool := header.toNat % 2 = 1

/-- Setting `app_header->is_compress`; the reserved bits stay. -/
def setCompress (header : UInt8) (flag : Bool) : UInt8 :=
  UInt8.ofNat (header.toNat / 2 * 2 + flag.toNat)

/-- The header at the front of a buffer is written. -/
def writeHeader (buf : List UInt8) (flag : Bool) : Except Fault (List UInt8) :=
  match buf with
  | [] => .error .outOfBounds
  | header :: rest => .ok (setCompress header flag :: rest)

/-- What `at_wiota_compress_and_pack` comes to: the returned error, or the buffer and
`*output_len`. -/
inductive Packed
  | failed (error : ℤ)
  | packed (buf : List UInt8) (outputLen : ℕ)
  deriving DecidableEq, Repr

/-- The buffer of `at_wiota_compress_and_pack` behind the compression, which has left `compData` in
the scratch buffer. -/
def packData (buf compData : List UInt8) (len : ℕ) (compressedLen dataLen : UInt32) :
    Except Fault Packed :=
  if compressedLen < dataLen then do
    let buf ← writeHeader buf true
    let comp ← readAt compData 0 compressedLen.toNat
    let buf ← writeAt buf len comp
    return .packed buf (len + compressedLen.toNat)
  else do
    let buf ← writeHeader buf false
    return .packed buf (len + dataLen.toNat)

/-- `at_wiota_compress_and_pack` on a buffer with the header at its front and the data behind `len`
bytes.  The scratch buffer has `COMPRESS_BUFFER_FACTOR` times the length of the data. -/
def atWiotaCompressAndPack (lz : BlockLz) (malloc : ℕ → Bool) (buf : List UInt8) (dataLen : UInt32)
    (len : ℕ) : Except Fault Packed :=
  if malloc (dataLen.toNat * 2) = false then .ok (.failed (-2))
  else do
    let block ← readAt buf len dataLen.toNat
    let compData ← writeAt (List.replicate (dataLen.toNat * 2) 0) 0 (lz.written block)
    packData buf compData len (lz.compressedLen block) dataLen

/-- The part of `uc_recv_detail_t` that is read; the data is `none` for the null pointer. -/
structure RecvDetail where
  userId : UInt32
  data : Option (List UInt8)
  rssi : Int8
  deriving DecidableEq

/-- What `at_wiota_recv_callback` comes to: one of its messages, or the line `+RECV` with the
address, the rssi, the length and the data. -/
inductive Recv
  | invalid
  | mallocFailed
  | decompressFailed
  | recv (userId : UInt32) (rssi : Int8) (dataLen : ℕ) (data : List UInt8)
  deriving DecidableEq

/-- `at_wiota_recv_callback`; the argument is `none` for the null pointer. -/
def atWiotaRecvCallback (lz : BlockLz) (malloc : ℕ → Bool) : Option RecvDetail → Recv
  | none => .invalid
  | some ⟨_, none, _⟩ => .invalid
  | some ⟨_, some [], _⟩ => .invalid
  | some ⟨userId, some (header :: rest), rssi⟩ =>
    if isCompress header then
      if malloc decompressMaxLen = false then .mallocFailed
      else
        let decompressData := lz.decompress rest decompressMaxLen
        if 0 < decompressData.length then
          .recv userId rssi decompressData.length decompressData
        else .decompressFailed
    else .recv userId rssi rest.length rest

/-- `max_data_len` of `at_wiota_send_setup`; the address 0 is for all. -/
def maxDataLen (addr : UInt32) : ℕ := if addr = 0 then 1024 - headerLen else 310 - headerLen

/-- A frame that is passed to the stack. -/
structure Sent where
  addr : UInt32
  frame : List UInt8
  timeout : ℕ
  deriving DecidableEq, Repr

/-- The end of `at_wiota_send_setup`: the packed frame is sent. -/
def sendPacked (addr : UInt32) (sendOk : Bool) (loc : AtLocal) :
    Packed → Except Fault (AtResult × Option Sent)
  | .failed _ => .ok (.faile, none)
  | .packed buf dataLen => do
    let frame ← readAt buf 0 dataLen
    let timeout ← atGetSendTimeout (if addr = 0 then 1 else 0) loc
    return (if sendOk then .ok else .faile, some ⟨addr, frame, timeout⟩)

/-- `at_wiota_send_setup`; `input` is what `at_server_recv` receives, and `sendOk` says whether the
stack sends the frame. -/
def atWiotaSendSetup (lz : BlockLz) (malloc : ℕ → Bool) (args : Option (UInt32 × UInt32))
    (input : List UInt8) (sendOk : Bool) (s : AtState) :
    Except Fault (AtResult × Option Sent) :=
  match args with
  | none => .ok (.parseFaile, none)
  | some (addr, recvLen) =>
    if recvLen.toNat < 1 ∨ maxDataLen addr < recvLen.toNat then .ok (.faile, none)
    else if malloc (headerLen + recvLen.toNat) = false then .ok (.faile, none)
    else if input.length ≠ recvLen.toNat then .ok (.faile, none)
    else do
      let packed ← atWiotaCompressAndPack lz malloc (List.replicate headerLen 0 ++ input) recvLen
        headerLen
      sendPacked addr sendOk s.loc packed

/-! ### The round trip -/

/-- The flag that is set is the one that is read. -/
@[simp] lemma isCompress_setCompress (header : UInt8) (flag : Bool) :
    isCompress (setCompress header flag) = flag := by
  have hlt := header.toNat_lt
  cases flag with
  | true =>
    rw [isCompress, setCompress, UInt8.toNat_ofNat', decide_eq_true_eq, Bool.toNat_true]
    omega
  | false =>
    rw [isCompress, setCompress, UInt8.toNat_ofNat', decide_eq_false_iff_not, Bool.toNat_false]
    omega

namespace BlockLz

variable (lz : BlockLz) {payload : List UInt8} {malloc : ℕ → Bool}

/-- The compression makes the payload shorter. -/
def Shortens (payload : List UInt8) : Prop :=
  lz.succeeds payload = true ∧ (lz.written payload).length < payload.length

instance (payload : List UInt8) : Decidable (lz.Shortens payload) :=
  inferInstanceAs (Decidable (_ ∧ _))

/-- The frame for a payload with a header. -/
def frame (header : UInt8) (payload : List UInt8) : List UInt8 :=
  setCompress header (lz.Shortens payload) ::
    if lz.Shortens payload then lz.written payload else payload

/-- The scratch buffer is large enough, down to a payload of one byte. -/
lemma length_written_le (hpos : 1 ≤ payload.length) :
    (lz.written payload).length ≤ payload.length * 2 := by
  have hbound := lz.length_written payload
  rw [fastlzBound] at hbound
  split at hbound <;> omega

/-- The frame is not longer than header and payload. -/
lemma length_frame_le (header : UInt8) (payload : List UInt8) :
    (lz.frame header payload).length ≤ headerLen + payload.length := by
  rw [frame, List.length_cons, headerLen, Nat.add_comm]
  refine Nat.add_le_add_left ?_ 1
  split
  · next hshort => exact hshort.2.le
  · exact le_rfl

/-- A failed compression is not shorter: -1 is the largest unsigned number. -/
lemma compressedLen_lt_iff (hpos : 1 ≤ payload.length) (hlen : payload.length < 2 ^ 31) :
    lz.compressedLen payload < UInt32.ofNat payload.length ↔ lz.Shortens payload := by
  have hwritten := lz.length_written_le hpos
  have hdata : (UInt32.ofNat payload.length).toNat = payload.length := by
    rw [UInt32.toNat_ofNat']
    exact Nat.mod_eq_of_lt (by omega)
  rw [UInt32.lt_iff_toNat_lt, hdata, compressedLen, Shortens]
  cases lz.succeeds payload with
  | true =>
    rw [if_pos rfl, UInt32.toNat_ofNat', Nat.mod_eq_of_lt (by omega)]
    exact (and_iff_right rfl).symm
  | false =>
    refine iff_of_false ?_ fun h => absurd h.1 Bool.false_ne_true
    have hmax : (0xFFFFFFFF : UInt32).toNat = 2 ^ 32 - 1 := rfl
    rw [if_neg Bool.false_ne_true, hmax]
    omega

/-- The frame is what lies at the front of the buffer, up to the length that is returned. -/
lemma exists_pack (hmalloc : ∀ n, malloc n = true) (header : UInt8) (hpos : 1 ≤ payload.length)
    (hlen : payload.length < 2 ^ 31) :
    ∃ rest, atWiotaCompressAndPack lz malloc (header :: payload)
        (UInt32.ofNat payload.length) headerLen =
      .ok (.packed (lz.frame header payload ++ rest) (lz.frame header payload).length) := by
  have hwritten := lz.length_written_le hpos
  have hdata : (UInt32.ofNat payload.length).toNat = payload.length := by
    rw [UInt32.toNat_ofNat']
    exact Nat.mod_eq_of_lt (by omega)
  have hread : readAt (header :: payload) headerLen payload.length = .ok payload :=
    readAt_part (show _ = [header] ++ (payload ++ []) by simp) rfl rfl
  have hscratch : writeAt (List.replicate (payload.length * 2) 0) 0 (lz.written payload) =
      .ok (lz.written payload ++
        (List.replicate (payload.length * 2) 0).drop (lz.written payload).length) := by
    refine writeAt_part (show _ = [] ++ (_ ++ _) from (List.take_append_drop _ _).symm) rfl ?_
    rw [List.length_take, List.length_replicate]
    exact Nat.min_eq_left hwritten
  rw [atWiotaCompressAndPack, hmalloc, if_neg Bool.false_ne_true.symm, hdata, hread, ok_bind,
    hscratch, ok_bind, packData]
  by_cases hshort : lz.Shortens payload
  · rw [if_pos ((lz.compressedLen_lt_iff hpos hlen).mpr hshort)]
    have hcomp : (lz.compressedLen payload).toNat = (lz.written payload).length := by
      rw [compressedLen, if_pos hshort.1, UInt32.toNat_ofNat']
      exact Nat.mod_eq_of_lt (by omega)
    have hback : ∀ pad, readAt (lz.written payload ++ pad) 0 (lz.written payload).length =
        .ok (lz.written payload) :=
      fun pad => readAt_part (show _ = [] ++ (_ ++ pad) from rfl) rfl rfl
    have hwrite : writeAt (setCompress header true :: payload) headerLen (lz.written payload) =
        .ok (setCompress header true ::
          (lz.written payload ++ payload.drop (lz.written payload).length)) := by
      have hbuf : setCompress header true :: payload = [setCompress header true] ++
          (payload.take (lz.written payload).length ++
            payload.drop (lz.written payload).length) := by
        rw [List.take_append_drop]
        rfl
      exact writeAt_part hbuf rfl (List.length_take_of_le hshort.2.le)
    refine ⟨payload.drop (lz.written payload).length, ?_⟩
    rw [hcomp, writeHeader, ok_bind, hback, ok_bind, hwrite, ok_bind, frame, if_pos hshort,
      decide_eq_true hshort, List.length_cons, headerLen, Nat.add_comm]
    rfl
  · rw [if_neg (mt (lz.compressedLen_lt_iff hpos hlen).mp hshort)]
    refine ⟨[], ?_⟩
    rw [hdata, writeHeader, ok_bind, frame, if_neg hshort, decide_eq_false hshort,
      List.length_cons, headerLen, Nat.add_comm, List.append_nil]
    rfl

/-- The receiver finds the payload in the frame. -/
lemma recv_frame (hmalloc : ∀ n, malloc n = true) (header : UInt8) (hpos : 1 ≤ payload.length)
    (hlen : payload.length ≤ decompressMaxLen) (userId : UInt32) (rssi : Int8) :
    atWiotaRecvCallback lz malloc (some ⟨userId, some (lz.frame header payload), rssi⟩) =
      .recv userId rssi payload.length payload := by
  simp only [atWiotaRecvCallback, frame, isCompress_setCompress]
  by_cases hshort : lz.Shortens payload
  · rw [if_pos (decide_eq_true hshort), hmalloc, if_neg Bool.false_ne_true.symm, if_pos hshort,
      lz.decompress_written payload hshort.1 hlen]
    exact if_pos hpos
  · rw [if_neg (by simpa using hshort), if_neg hshort]

end BlockLz

/-- The longest payload fits the buffer of the receiver. -/
lemma maxDataLen_lt (addr : UInt32) : maxDataLen addr < decompressMaxLen := by
  rw [maxDataLen]
  split <;> decide

/-- The timeout of a frame is always found. -/
lemma exists_sendTimeout (addr : UInt32) (loc : AtLocal) :
    ∃ timeout, atGetSendTimeout (if addr = 0 then 1 else 0) loc = .ok timeout := by
  obtain ⟨row, hrow, hlen⟩ : ∃ row,
      tableAt sendTimeout (if addr = 0 then 1 else 0) = .ok row ∧ row.length = 4 := by
    split
    · exact ⟨_, rfl, rfl⟩
    · exact ⟨_, rfl, rfl⟩
  have hlt : sendSymbolLength loc < row.length := by
    rw [hlen]
    exact loc.rateMode.symbolLength_lt
  rw [atGetSendTimeout, hrow, ok_bind, tableAt_of_lt hlt, ok_bind]
  exact ⟨_, rfl⟩

/-- `AT+SEND` passes the frame of its payload to the stack. -/
lemma BlockLz.exists_send (lz : BlockLz) {malloc : ℕ → Bool} (hmalloc : ∀ n, malloc n = true)
    (addr : UInt32) {payload : List UInt8} (hpos : 1 ≤ payload.length)
    (hlen : payload.length ≤ maxDataLen addr) (sendOk : Bool) (s : AtState) :
    ∃ timeout, atWiotaSendSetup lz malloc (some (addr, UInt32.ofNat payload.length)) payload
        sendOk s =
      .ok (if sendOk then .ok else .faile, some ⟨addr, lz.frame 0 payload, timeout⟩) := by
  have hmax := maxDataLen_lt addr
  rw [decompressMaxLen] at hmax
  have hdata : (UInt32.ofNat payload.length).toNat = payload.length := by
    rw [UInt32.toNat_ofNat']
    exact Nat.mod_eq_of_lt (by omega)
  obtain ⟨rest, hpack⟩ := lz.exists_pack hmalloc 0 hpos (by omega)
  obtain ⟨timeout, htimeout⟩ := exists_sendTimeout addr s.loc
  refine ⟨timeout, ?_⟩
  have hread : readAt (lz.frame 0 payload ++ rest) 0 (lz.frame 0 payload).length =
      .ok (lz.frame 0 payload) := readAt_part (show _ = [] ++ (_ ++ rest) from rfl) rfl rfl
  rw [atWiotaSendSetup, hdata, if_neg (by omega), hmalloc, if_neg Bool.false_ne_true.symm,
    if_neg (not_not.mpr rfl)]
  rw [show List.replicate headerLen 0 ++ payload = 0 :: payload from rfl, hpack, ok_bind,
    sendPacked, hread, ok_bind, htimeout, ok_bind]
  rfl

/-- The round trip.  For every payload that `AT+SEND` takes, to one address or to all, the packed
frame is at most as long as header and payload, its flag says whether the payload was compressed,
and the receiver outputs the payload; the scratch buffer is not left. -/
theorem payload_roundTrip (lz : BlockLz) {malloc : ℕ → Bool} (hmalloc : ∀ n, malloc n = true)
    (addr : UInt32) {payload : List UInt8} (hpos : 1 ≤ payload.length)
    (hlen : payload.length ≤ maxDataLen addr) :
    (lz.written payload).length ≤ payload.length * 2 ∧
    (∀ header, ∃ buf outputLen, atWiotaCompressAndPack lz malloc (header :: payload)
        (UInt32.ofNat payload.length) headerLen = .ok (.packed buf outputLen) ∧
      outputLen ≤ headerLen + payload.length ∧ outputLen ≤ buf.length ∧
      (∃ flag, (buf.take outputLen).head? = some flag ∧
        (isCompress flag = true ↔ lz.Shortens payload) ∧
        (buf.take outputLen).tail = if isCompress flag then lz.written payload else payload) ∧
      ∀ userId rssi,
        atWiotaRecvCallback lz malloc (some ⟨userId, some (buf.take outputLen), rssi⟩) =
          .recv userId rssi payload.length payload) ∧
    ∀ sendOk s, ∃ sent, atWiotaSendSetup lz malloc
        (some (addr, UInt32.ofNat payload.length)) payload sendOk s =
      .ok (if sendOk then .ok else .faile, some sent) ∧
      sent.addr = addr ∧
      ∀ userId rssi, atWiotaRecvCallback lz malloc (some ⟨userId, some sent.frame, rssi⟩) =
        .recv userId rssi payload.length payload := by
  have hmax := maxDataLen_lt addr
  have hfits : payload.length ≤ decompressMaxLen := by omega
  refine ⟨lz.length_written_le hpos, fun header => ?_, fun sendOk s => ?_⟩
  · rw [decompressMaxLen] at hmax
    obtain ⟨rest, hpack⟩ := lz.exists_pack hmalloc header hpos (by omega)
    have htake : (lz.frame header payload ++ rest).take (lz.frame header payload).length =
        lz.frame header payload := List.take_left
    refine ⟨_, _, hpack, lz.length_frame_le header payload, ?_, ?_, ?_⟩
    · rw [List.length_append]
      exact Nat.le_add_right _ _
    · rw [htake]
      refine ⟨_, rfl, ?_, ?_⟩
      · rw [isCompress_setCompress, decide_eq_true_eq]
      · rw [isCompress_setCompress]
        by_cases hshort : lz.Shortens payload
        · simp [BlockLz.frame, hshort]
        · simp [BlockLz.frame, hshort]
    · rw [htake]
      exact lz.recv_frame hmalloc header hpos hfits
  · obtain ⟨timeout, hsend⟩ := lz.exists_send hmalloc addr hpos hlen sendOk s
    exact ⟨_, hsend, rfl, lz.recv_frame hmalloc 0 hpos hfits⟩

/-- FastLZ, where the allocation of the table of the compressor succeeds. -/
def fastlzBlocks : BlockLz where
  written := compressBlock
  succeeds _ := true
  decompress := decompressBlock
  length_written block := by
    have hle := length_compressBlock_le block
    unfold fastlzBound
    split
    · omega
    · exact hle
  decompress_written _ _ hmax := decompressBlock_compressBlock hmax

/-- Sixteen zeros: the frame has the flag, two literals, a match of 11 bytes and three literals. -/
theorem payload_roundTrip_zeros :
    atWiotaCompressAndPack fastlzBlocks (fun _ => true) (0 :: List.replicate 16 0) 16 headerLen =
        .ok (.packed ([1, 1, 0, 0, 224, 2, 1, 2, 0, 0, 0] ++ List.replicate 6 0) 11) ∧
      atWiotaRecvCallback fastlzBlocks (fun _ => true)
          (some ⟨9, some [1, 1, 0, 0, 224, 2, 1, 2, 0, 0, 0], -30⟩) =
        .recv 9 (-30) 16 (List.replicate 16 0) := by
  have hpacked : atWiotaCompressAndPack fastlzBlocks (fun _ => true) (0 :: List.replicate 16 0) 16
      headerLen =
        .ok (.packed ([1, 1, 0, 0, 224, 2, 1, 2, 0, 0, 0] ++ List.replicate 6 0) 11) := by
    decide +kernel
  refine ⟨hpacked, ?_⟩
  have hpos : 1 ≤ (List.replicate 16 (0 : UInt8)).length := by decide
  obtain ⟨-, hpack, -⟩ := payload_roundTrip fastlzBlocks (fun _ => rfl : ∀ _, true = true) 7 hpos
    (by decide)
  obtain ⟨buf, outputLen, heq, -, -, -, hrecv⟩ := hpack 0
  cases hpacked.symm.trans heq
  exact hrecv 9 (-30)

end WiotaAp
