import WiotaAp.Manager.UpdateSystem

/-!
# The stream of chunks

When an image has been downloaded, `manager_start_iote_update` hands out its first chunk, and
`manager_ota_msg_result` the next one whenever the operation task has reported the last one.  The
operation task keeps the chunks in one list with the broadcasts of the state and with the messages
for single devices, which are retried, and reports the first broadcast of the list on each callback.

The invariant `Streaming` connects the address in the flash with the number of chunks that have been
handed out.  While a chunk is pending, none of the flags for resending is set, so the results of
chunks that were resent before move nothing.  `ota_chunk_stream` says what a run hands out, and that
the stream can always be brought to its end.

Nothing keeps the end of a second download from starting a broadcast while a chunk of the first one
is pending.  Then two chains of results move one address; `ota_chunk_stream_twice` is such a run.
-/

namespace WiotaAp

open Buffers

/-! ### Chunks of a file -/

/-- The length of a file; a negative number is not one. -/
def fileSize (fileLen : Int32) : ℕ :=
  fileLen.toInt.toNat

/-- The number of chunks of a file of `size` bytes. -/
def chunkNum (size : ℕ) : ℕ :=
  (size + 511) / 512

/-- The length of chunk `i`: 512 bytes, but the last one ends with the file, and is rounded up to a
multiple of 4. -/
def chunkLength (size i : ℕ) : ℕ :=
  if 512 * (i + 1) ≤ size then 512 else rtAlign (size - 512 * i) 4

/-- Where the first `k` chunks of a file end. -/
def streamEnd (size k : ℕ) : ℕ :=
  min (512 * k) (rtAlign size 4)

/-- The record is behind the first `k` chunks of its file. -/
structure AtChunk (u : ManagerUpdate) (fileLen : Int32) (k : ℕ) : Prop where
  nonneg : 0 ≤ fileLen.toInt
  fileLen_eq : u.info.fileLen = fileLen
  le : k ≤ chunkNum (fileSize fileLen)
  offset_eq : u.offset.toNat = streamEnd (fileSize fileLen) k

/-- The length of the file as an unsigned number. -/
lemma toNat_toUInt32 {fileLen : Int32} (h : 0 ≤ fileLen.toInt) :
    fileLen.toUInt32.toNat = fileSize fileLen ∧ fileSize fileLen < 2 ^ 31 := by
  have hle : 0 ≤ fileLen := Int32.le_iff_toInt_le.mpr h
  have hlt := Int32.toInt_lt fileLen
  have hnat := Int32.toNat_toUInt32_of_le hle
  unfold fileSize
  refine ⟨hnat.trans rfl, ?_⟩
  omega

/-- The current address determines the next chunk: there is none behind the last one. -/
lemma AtChunk.chunkLen_eq {u : ManagerUpdate} {fileLen : Int32} {k : ℕ}
    (h : AtChunk u fileLen k) : u.chunkLen =
      if k < chunkNum (fileSize fileLen) then some (chunkLength (fileSize fileLen) k)
      else none := by
  obtain ⟨hsize, hlt⟩ := toNat_toUInt32 h.nonneg
  have hle := h.le
  have hoffset := h.offset_eq
  have hconst : (512 : UInt32).toNat = 512 := rfl
  unfold streamEnd rtAlign at hoffset
  unfold chunkNum at hle ⊢
  unfold ManagerUpdate.chunkLen
  rw [h.fileLen_eq]
  simp only [gt_iff_lt, ge_iff_le, UInt32.lt_iff_toNat_lt, UInt32.le_iff_toNat_le,
    UInt32.toNat_add, hsize, hconst]
  by_cases hk : k < (fileSize fileLen + 511) / 512
  · have hat : u.offset.toNat = 512 * k := by omega
    have hmod : (u.offset.toNat + 512) % 2 ^ 32 = 512 * (k + 1) := by omega
    rw [if_pos hk, hmod, hat, chunkLength]
    by_cases hlast : 512 * (k + 1) ≤ fileSize fileLen
    · rw [if_neg (by omega), if_neg (by omega), if_pos hlast]
    · have hsub : (fileLen.toUInt32 - u.offset).toNat = fileSize fileLen - 512 * k := by
        rw [UInt32.toNat_sub_of_le _ _ (UInt32.le_iff_toNat_le.mpr (by omega)), hsize, hat]
      rw [if_pos (by omega), if_neg hlast, hsub]
  · rw [if_neg hk, if_neg (by omega), if_pos (by omega)]

/-- The offset behind the next `len` bytes. -/
lemma toNat_offset_advance {u : ManagerUpdate} {len : ℕ}
    (h : u.offset.toNat + len < 2 ^ 32) : (u.advance len).offset.toNat = u.offset.toNat + len := by
  have hoffset : (u.advance len).offset = u.offset + UInt32.ofNat len := by
    unfold ManagerUpdate.offset ManagerUpdate.advance
    rw [UInt32.sub_eq_iff_eq_add, UInt32.add_assoc, UInt32.add_comm (UInt32.ofNat len),
      ← UInt32.add_assoc, UInt32.sub_add_cancel]
  rw [hoffset, UInt32.toNat_add, UInt32.toNat_ofNat']
  omega

/-- Handing out the next chunk leads behind it. -/
lemma AtChunk.advance {u : ManagerUpdate} {fileLen : Int32} {k : ℕ} (h : AtChunk u fileLen k)
    (hk : k < chunkNum (fileSize fileLen)) :
    AtChunk (u.advance (chunkLength (fileSize fileLen) k)) fileLen (k + 1) := by
  obtain ⟨-, hlt⟩ := toNat_toUInt32 h.nonneg
  have hsum : u.offset.toNat + chunkLength (fileSize fileLen) k =
      streamEnd (fileSize fileLen) (k + 1) := by
    rw [h.offset_eq]
    unfold chunkNum at hk
    unfold streamEnd chunkLength rtAlign
    split <;> omega
  have hend : streamEnd (fileSize fileLen) (k + 1) < 2 ^ 32 := by
    unfold streamEnd rtAlign
    omega
  exact ⟨h.nonneg, h.fileLen_eq, hk, (toNat_offset_advance (hsum ▸ hend)).trans hsum⟩

/-- The broadcast starts at the first chunk. -/
lemma atChunk_start (u : ManagerUpdate) {fileLen : Int32} (h : 0 ≤ fileLen.toInt) :
    AtChunk (u.setFile fileLen).start fileLen 0 := by
  refine ⟨h, rfl, Nat.zero_le _, ?_⟩
  have hzero : (u.setFile fileLen).start.offset = 0 := UInt32.sub_self _
  rw [hzero]
  exact (Nat.zero_min _).symm

/-! ### The next chunk -/

/-- The chunk `i` of the file, as it was read from the flash on one of the inputs. -/
structure IsChunk (inputs : List UpdateInput) (size i : ℕ) (data : OtaData) : Prop where
  offset_eq : data.description.offset.toNat = 512 * i
  len_eq : data.description.len = chunkLength size i
  bin_eq : ∃ input ∈ inputs, data.bin = ucWiotaFlashRead input.env
    (ucOtaPartitionStartAddress + UInt32.ofNat (512 * i)) (chunkLength size i)

/-- More inputs do not matter. -/
lemma IsChunk.mono {inputs inputs' : List UpdateInput} {size i : ℕ} {data : OtaData}
    (h : IsChunk inputs size i data) (hsub : inputs ⊆ inputs') : IsChunk inputs' size i data := by
  obtain ⟨input, hmem, hbin⟩ := h.bin_eq
  exact ⟨h.offset_eq, h.len_eq, input, hsub hmem, hbin⟩

/-- The chunk that is handed out is the next one. -/
lemma AtChunk.isChunk {u : ManagerUpdate} {fileLen : Int32} {k : ℕ} (h : AtChunk u fileLen k)
    (hk : k < chunkNum (fileSize fileLen)) {inputs : List UpdateInput} {input : UpdateInput}
    (hmem : input ∈ inputs) :
    IsChunk inputs (fileSize fileLen) k
      (u.chunk input.env (chunkLength (fileSize fileLen) k)) := by
  have hoffset : u.offset.toNat = 512 * k := by
    rw [h.offset_eq]
    unfold chunkNum at hk
    unfold streamEnd rtAlign
    omega
  refine ⟨hoffset, rfl, input, hmem, ?_⟩
  have haddress : u.otaOpAddress = ucOtaPartitionStartAddress + UInt32.ofNat (512 * k) := by
    rw [← hoffset, UInt32.ofNat_toNat, UInt32.add_comm]
    exact (UInt32.sub_add_cancel _ _).symm
  rw [← haddress]
  rfl

/-- What `manager_start_send_page` does behind the first `k` chunks: behind the last one the update
is over, and otherwise the next chunk is handed out. -/
lemma AtChunk.sendPage {u : ManagerUpdate} {fileLen : Int32} {k : ℕ} (h : AtChunk u fileLen k)
    {env : UpdateEnv} (hcan : u.CanSend env) {sent : SentPage}
    (hsend : managerStartSendPage env u = .ok sent) :
    (k = chunkNum (fileSize fileLen) ∧ sent.update.state = .stop ∧ sent.chunk = none ∧
      OtaOperations .managerOtaStateResult sent.operations) ∨
    (k < chunkNum (fileSize fileLen) ∧
      sent.update = u.advance (chunkLength (fileSize fileLen) k) ∧
      sent.chunk = some (u.chunk env (chunkLength (fileSize fileLen) k)) ∧
      ∃ outputData, sent.operations = [otaOperation outputData .managerOtaMsgResult]) := by
  have hnext := h.chunkLen_eq
  rcases managerStartSendPage_cases hsend with ⟨hnone, hupdate, hchunk, hops⟩ | ⟨len, hlen, hrest⟩
  · refine .inl ⟨?_, hupdate ▸ rfl, hchunk, hops⟩
    by_contra hne
    rw [if_pos (lt_of_le_of_ne h.le hne), hnone] at hnext
    cases hnext
  · obtain ⟨hupdate, hcoded | hlong⟩ := hrest
    · rw [hlen] at hnext
      split at hnext
      · rename_i hk
        cases hnext
        exact .inr ⟨hk, hupdate, hcoded.2⟩
      · cases hnext
    · exact absurd (hcan len hlen) (Nat.not_le.mpr hlong.1)

/-! ### The stream -/

/-- The chunks that have been handed out are the first ones of the file.  Either one is pending and
the broadcast goes on behind them, with no flag set; or none is pending, these are all chunks of the
file, and the update is over. -/
structure Streaming (inputs : List UpdateInput) (s : UpdateSystem) (fileLen : Int32) : Prop where
  isChunk : ∀ i data, s.chunks[i]? = some data → IsChunk inputs (fileSize fileLen) i data
  phase : (s.countOf .managerOtaMsgResult = 1 ∧ s.update.state = .startTransferData ∧
      AtChunk s.update fileLen s.chunks.length ∧ s.update.FlagsClear) ∨
    (s.countOf .managerOtaMsgResult = 0 ∧ s.update.state = .stop ∧
      s.chunks.length = chunkNum (fileSize fileLen))

/-- There are no more chunks than the file has. -/
lemma Streaming.length_le {inputs : List UpdateInput} {s : UpdateSystem} {fileLen : Int32}
    (h : Streaming inputs s fileLen) : s.chunks.length ≤ chunkNum (fileSize fileLen) := by
  rcases h.phase with ⟨-, -, hat, -⟩ | ⟨-, -, hlength⟩
  · exact hat.le
  · exact hlength.le

/-- At most one chunk is pending. -/
lemma Streaming.countOf_le {inputs : List UpdateInput} {s : UpdateSystem} {fileLen : Int32}
    (h : Streaming inputs s fileLen) : s.countOf .managerOtaMsgResult ≤ 1 := by
  rcases h.phase with ⟨hone, -⟩ | ⟨hzero, -⟩
  · exact hone.le
  · exact hzero.trans_le (Nat.zero_le 1)

/-- If no chunk is pending, all of them have been handed out. -/
lemma Streaming.of_countOf_eq_zero {inputs : List UpdateInput} {s : UpdateSystem}
    {fileLen : Int32} (h : Streaming inputs s fileLen)
    (hcount : s.countOf .managerOtaMsgResult = 0) :
    s.chunks.length = chunkNum (fileSize fileLen) ∧ s.update.state = .stop := by
  rcases h.phase with ⟨hone, -⟩ | ⟨-, hstop, hlength⟩
  · exact absurd (hone.symm.trans hcount) (by decide)
  · exact ⟨hlength, hstop⟩

/-- One more chunk behind those that have been sent. -/
lemma forall_isChunk_snoc {inputs : List UpdateInput} {len : ℕ} {chunks : List OtaData}
    {new : OtaData} (hall : ∀ i data, chunks[i]? = some data → IsChunk inputs len i data)
    (hnew : IsChunk inputs len chunks.length new) :
    ∀ i data, (chunks ++ [new])[i]? = some data → IsChunk inputs len i data := by
  intro i data hdata
  rcases Nat.lt_or_ge i chunks.length with hlt | hle
  · rw [List.getElem?_append_left hlt] at hdata
    exact hall i data hdata
  · rw [List.getElem?_append_right hle, List.getElem?_singleton] at hdata
    split at hdata
    · rename_i hzero
      cases hdata
      rw [show i = chunks.length by omega]
      exact hnew
    · cases hdata

/-- Handing out the next chunk, when none is pending, continues the stream. -/
lemma Streaming.of_sendPage {inputs : List UpdateInput} {s : UpdateSystem} {fileLen : Int32}
    (hisChunk : ∀ i data, s.chunks[i]? = some data → IsChunk inputs (fileSize fileLen) i data)
    (hcount : s.countOf .managerOtaMsgResult = 0) {u : ManagerUpdate}
    (hstate : u.state = .startTransferData) (hat : AtChunk u fileLen s.chunks.length)
    (hflags : u.FlagsClear) {input : UpdateInput} (hmem : input ∈ inputs)
    (hcan : u.CanSend input.env) {sent : SentPage}
    (hsend : managerStartSendPage input.env u = .ok sent) :
    Streaming inputs (s.sendPage sent) fileLen := by
  rcases hat.sendPage hcan hsend with
    ⟨hk, hstop, hchunk, hops⟩ | ⟨hk, hupdate, hchunk, outputData, hops⟩
  · have hlog : (s.sendPage sent).chunks = s.chunks := by
      unfold UpdateSystem.sendPage
      rw [hchunk]
      exact List.append_nil _
    refine ⟨hlog ▸ hisChunk, .inr ⟨?_, hstop, hlog ▸ hk⟩⟩
    rw [s.countOf_sendPage hops, if_neg (by decide), Nat.add_zero]
    exact hcount
  · have hlog : (s.sendPage sent).chunks =
        s.chunks ++ [u.chunk input.env (chunkLength (fileSize fileLen) s.chunks.length)] := by
      unfold UpdateSystem.sendPage
      rw [hchunk]
      rfl
    have hlength : (s.sendPage sent).chunks.length = s.chunks.length + 1 := by
      rw [hlog, List.length_append, List.length_singleton]
    refine ⟨?_, .inl ⟨?_, ?_, ?_, ?_⟩⟩
    · rw [hlog]
      exact forall_isChunk_snoc hisChunk (hat.isChunk hk hmem)
    · rw [s.countOf_sendPage (hops ▸ otaOperations_singleton _ _), if_pos rfl, hops, hcount]
      rfl
    · exact (congrArg ManagerUpdate.state hupdate).trans hstate
    · rw [hlength]
      have hnext := hat.advance hk
      rw [← hupdate] at hnext
      exact hnext
    · have hclear : sent.update.FlagsClear := hupdate ▸ ⟨hflags.num_le, hflags.clear⟩
      exact hclear

/-- The chunks of a stream, and none pending without a stream. -/
structure StreamInv (inputs : List UpdateInput) (s : UpdateSystem) : Prop where
  inv : SystemInv s
  streaming : ∀ fileLen, s.stream = some fileLen → Streaming inputs s fileLen
  idle : s.stream = none → s.countOf .managerOtaMsgResult = 0

/-- The condition on the next event.  An update message or the end of a download does not come while
a chunk is pending, the lengths of files are not negative, and the description of the chunk that is
handed out is short. -/
def StreamEvent (env : UpdateEnv) (s : UpdateSystem) : UpdateEvent → Prop
  | .networkUpdate _ _ => s.countOf .managerOtaMsgResult = 0
  | .downloaded http =>
    s.countOf .managerOtaMsgResult = 0 ∧ 0 ≤ http.downFileSize.toInt ∧
      (s.update.setFile http.downFileSize).start.ShortDescription env
  | .handleResult =>
    (∀ page ∈ s.results.head?, page.data.resultFunction ≠ some .managerOtaMsgResult) ∨
      s.update.ShortDescription env
  | _ => True

instance (env : UpdateEnv) (s : UpdateSystem) : DecidablePred (StreamEvent env s) := fun event =>
  match event with
  | .networkUpdate _ _ => inferInstanceAs (Decidable (_ = _))
  | .downloaded _ => inferInstanceAs (Decidable (_ ∧ _ ∧ _))
  | .handleResult => inferInstanceAs (Decidable ((∀ page ∈ s.results.head?, _ ≠ _) ∨ _))
  | .wiotaMsg _ _ _ _ => inferInstanceAs (Decidable True)
  | .unicast _ => inferInstanceAs (Decidable True)
  | .sendState _ => inferInstanceAs (Decidable True)
  | .unicastResult _ => inferInstanceAs (Decidable True)
  | .broadcastDone => inferInstanceAs (Decidable True)
  | .operate => inferInstanceAs (Decidable True)

/-- The condition for a step of a run. -/
def StreamGuard (_ : List UpdateInput) (input : UpdateInput) (s : UpdateSystem) : Prop :=
  StreamEvent input.env s input.event

instance (inputs : List UpdateInput) (input : UpdateInput) (s : UpdateSystem) :
    Decidable (StreamGuard inputs input s) :=
  inferInstanceAs (Decidable (StreamEvent input.env s input.event))

/-- Steps that have to do with neither the update nor the chunks keep the stream. -/
lemma Streaming.of_eq {inputs inputs' : List UpdateInput} {s s' : UpdateSystem} {fileLen : Int32}
    (h : Streaming inputs s fileLen) (hsub : inputs ⊆ inputs') (hupdate : s'.update = s.update)
    (hchunks : s'.chunks = s.chunks)
    (hcount : s'.countOf .managerOtaMsgResult = s.countOf .managerOtaMsgResult) :
    Streaming inputs' s' fileLen := by
  refine ⟨fun i data hdata => ?_, ?_⟩
  · exact (h.isChunk i data (hchunks ▸ hdata)).mono hsub
  · rw [hupdate, hchunks, hcount]
    exact h.phase

/-- A call that resends chunks keeps a stream that is over. -/
lemma StreamInv.resend {inputs : List UpdateInput} {input : UpdateInput} {s : UpdateSystem}
    (h : StreamInv inputs s) (hstate : s.stream ≠ none → s.update.state ≠ .startTransferData)
    {u : ManagerUpdate} (hu : u.state = s.update.state) {operations : List OperationData}
    (hops : OtaOperations .managerOtaResendMsgResult operations) {results : List OperationPage}
    (hcount : UpdateSystem.countOf { s with results := results } .managerOtaMsgResult =
      s.countOf .managerOtaMsgResult)
    (hinv : SystemInv (UpdateSystem.post { s with results := results, update := u } operations)) :
    StreamInv (inputs ++ [input])
      (UpdateSystem.post { s with results := results, update := u } operations) := by
  have hpost : (UpdateSystem.post { s with results := results, update := u } operations).countOf
      .managerOtaMsgResult = s.countOf .managerOtaMsgResult := by
    rw [UpdateSystem.countOf_post _ hops, if_neg (by decide)]
    exact hcount
  refine ⟨hinv, fun fileLen hstream => ?_, fun hstream => hpost.trans (h.idle hstream)⟩
  have hold := h.streaming fileLen hstream
  refine ⟨fun i data hdata => (hold.isChunk i data hdata).mono (List.subset_append_left _ _), ?_⟩
  rcases hold.phase with ⟨-, hstart, -, -⟩ | ⟨hzero, hstop, hlength⟩
  · exact absurd hstart (hstate (hstream ▸ Option.some_ne_none fileLen))
  · exact .inr ⟨hpost.trans hzero, hu.trans hstop, hlength⟩

/-- Without a chunk pending, the end of a download starts a stream, or there is none. -/
lemma StreamInv.downloaded {inputs : List UpdateInput} {input : UpdateInput} {s : UpdateSystem}
    {http : HttpMessage} (hevent : StreamEvent input.env s (.downloaded http))
    {rest : List DownloadRequest} {sent : SentPage}
    (hcall : managerStartUpdate input.env http s.update = .ok sent)
    (hinv : SystemInv (UpdateSystem.sendPage
      { s with downloads := rest, stream := startedStream http s.update sent, chunks := [] }
      sent)) :
    StreamInv (inputs ++ [input]) (UpdateSystem.sendPage
      { s with downloads := rest, stream := startedStream http s.update sent, chunks := [] }
      sent) := by
  obtain ⟨hnone, hsize, hshort⟩ := hevent
  have hquiet : startedStream http s.update sent = none → sent.operations = [] →
      StreamInv (inputs ++ [input]) (UpdateSystem.sendPage
        { s with downloads := rest, stream := startedStream http s.update sent, chunks := [] }
        sent) := by
    intro hstream hops
    refine ⟨hinv, fun fileLen hsome => ?_, fun _ => ?_⟩
    · exact absurd (hstream.symm.trans hsome) (Option.some_ne_none fileLen).symm
    · rw [UpdateSystem.countOf_sendPage _ (hops ▸ otaOperations_nil .managerOtaMsgResult), hops]
      exact hnone
  rcases managerStartUpdate_cases hcall with
    ⟨hfail, rfl⟩ | ⟨-, -, rfl⟩ | ⟨hok, -, ⟨hactive, rfl⟩ | ⟨hactive, hsend⟩⟩
  · exact hquiet (if_pos (.inr (.inl hfail))) rfl
  · exact hquiet (if_pos (.inl rfl)) rfl
  · exact hquiet (if_pos (.inr (.inr hactive))) rfl
  · have hstart : Streaming (inputs ++ [input]) (UpdateSystem.sendPage
        { s with downloads := rest, stream := startedStream http s.update sent, chunks := [] }
        sent) http.downFileSize := by
      have hempty : ∀ i data, ([] : List OtaData)[i]? = some data →
          IsChunk (inputs ++ [input]) (fileSize http.downFileSize) i data := by
        intro i data hdata
        cases hdata
      exact Streaming.of_sendPage
        (s := { s with
          downloads := rest, stream := startedStream http s.update sent, chunks := [] })
        hempty hnone rfl (atChunk_start s.update hsize)
        (flagsClear_setFile s.update http.downFileSize)
        (List.mem_append_right _ List.mem_cons_self) hshort.canSend hsend
    have hstate : sent.update.state ≠ .system := by
      rcases hstart.phase with ⟨-, hstart, -⟩ | ⟨-, hstop, -⟩
      · exact fun heq => absurd (hstart.symm.trans heq) (by decide)
      · exact fun heq => absurd (hstop.symm.trans heq) (by decide)
    have hstream : startedStream http s.update sent = some http.downFileSize := by
      refine if_neg ?_
      rintro (hsystem | hfail | hzero)
      · exact hstate hsystem
      · exact absurd (hok.symm.trans hfail) (by decide)
      · exact hactive hzero
    refine ⟨hinv, fun fileLen hsome => ?_, fun hno => ?_⟩
    · cases hstream.symm.trans hsome
      exact hstart
    · cases hstream.symm.trans hno

/-- After the result of a chunk the next one is sent, or the stream is over. -/
lemma StreamInv.chunkResult {inputs : List UpdateInput} {input : UpdateInput} {s : UpdateSystem}
    (h : StreamInv inputs s) (hshort : s.update.ShortDescription input.env) {page : OperationPage}
    {rest : List OperationPage} (hresults : s.results = page :: rest)
    (hfunc : page.data.resultFunction = some .managerOtaMsgResult) {sent : SentPage}
    (hcall : managerStartSendPage input.env s.update = .ok sent)
    (hinv : SystemInv (UpdateSystem.sendPage { s with results := rest } sent)) :
    StreamInv (inputs ++ [input]) (UpdateSystem.sendPage { s with results := rest } sent) := by
  have hcount := UpdateSystem.countOf_results hresults hfunc .managerOtaMsgResult
  rw [if_pos rfl] at hcount
  have hpending : s.stream ≠ none := fun hno => by
    have hzero := h.idle hno
    omega
  refine ⟨hinv, fun fileLen hstream => ?_, fun hno => absurd hno hpending⟩
  have hold := h.streaming fileLen hstream
  rcases hold.phase with ⟨hone, hstate, hat, hflags⟩ | ⟨hzero, -, -⟩
  · refine Streaming.of_sendPage (s := { s with results := rest }) (fun i data hdata => ?_) ?_
      hstate hat hflags (List.mem_append_right _ List.mem_cons_self) hshort.canSend hcall
    · exact (hold.isChunk i data hdata).mono (List.subset_append_left _ _)
    · omega
  · omega

/-- The result of a resent chunk sends no chunk of the stream. -/
lemma StreamInv.resendResult {inputs : List UpdateInput} {input : UpdateInput} {s : UpdateSystem}
    (h : StreamInv inputs s) {page : OperationPage} {rest : List OperationPage}
    (hresults : s.results = page :: rest)
    (hfunc : page.data.resultFunction = some .managerOtaResendMsgResult) {u : ManagerUpdate}
    {operations : List OperationData}
    (hcall : managerResendData input.env s.update = .ok (u, operations))
    (hinv : SystemInv (UpdateSystem.post { s with results := rest, update := u } operations)) :
    StreamInv (inputs ++ [input])
      (UpdateSystem.post { s with results := rest, update := u } operations) := by
  have hcount := UpdateSystem.countOf_results hresults hfunc .managerOtaMsgResult
  rw [if_neg (by decide), Nat.add_zero] at hcount
  by_cases hstart : s.stream ≠ none ∧ s.update.state = .startTransferData
  · obtain ⟨fileLen, hstream⟩ := Option.ne_none_iff_exists'.mp hstart.1
    have hold := h.streaming fileLen hstream
    rcases hold.phase with ⟨-, -, -, hflags⟩ | ⟨-, hstop, -⟩
    · -- no flag is set, so there is nothing to resend
      cases (hflags.resendData input.env).symm.trans hcall
      have hpost : (UpdateSystem.post { s with results := rest } []).countOf
          .managerOtaMsgResult = s.countOf .managerOtaMsgResult := by
        rw [UpdateSystem.countOf_post _ (otaOperations_nil .managerOtaMsgResult), hcount]
        rfl
      refine ⟨hinv, fun fileLen' hstream' => ?_, fun hno => absurd hno hstart.1⟩
      exact (h.streaming fileLen' hstream').of_eq (List.subset_append_left _ _) rfl rfl hpost
    · exact absurd (hstart.2.symm.trans hstop) (by decide)
  · obtain ⟨hu, -, hops⟩ := managerResendData_frame hcall
    exact h.resend (fun hne heq => hstart ⟨hne, heq⟩) hu hops hcount.symm hinv

/-- A step that is admitted keeps the stream. -/
lemma StreamInv.step {inputs : List UpdateInput} {input : UpdateInput} {s s' : UpdateSystem}
    (h : StreamInv inputs s) (hguard : StreamGuard inputs input s)
    (hstep : updateStep input s = .ok s') : StreamInv (inputs ++ [input]) s' := by
  unfold StreamGuard at hguard
  obtain ⟨hinv, heffect⟩ := h.inv.step hstep
  have hsub : inputs ⊆ inputs ++ [input] := List.subset_append_left _ _
  cases heffect with
  | kept hkept =>
    have hcount := hkept.countOf_eq .managerOtaMsgResult rfl (by decide)
    refine ⟨hinv, fun fileLen hstream => ?_, fun hstream => ?_⟩
    · have hold := h.streaming fileLen (hkept.stream_eq ▸ hstream)
      exact hold.of_eq hsub hkept.update_eq hkept.chunks_eq hcount
    · exact hcount.trans (h.idle (hkept.stream_eq ▸ hstream))
  | networkUpdate hevent hcall =>
    rw [hevent] at hguard
    refine ⟨hinv, ?_, fun _ => hguard⟩
    intro fileLen hstream
    cases hstream
  | downloaded hevent hdownloads hcall =>
    rw [hevent] at hguard
    exact .downloaded hguard hcall hinv
  | resendRequest hevent hheader hstate hcall =>
    obtain ⟨hu, -, hops⟩ := managerOtaResendData_frame hcall
    exact h.resend (fun _ => by rw [hstate]; decide) hu hops rfl hinv
  | @chunkResult page rest sent hevent hresults hfunc hcall =>
    rw [hevent] at hguard
    rcases hguard with hother | hshort
    · exact absurd hfunc (hother page (hresults ▸ rfl))
    · exact h.chunkResult hshort hresults hfunc hcall hinv
  | @resendResult page rest update operations hevent hresults hfunc hcall =>
    exact h.resendResult hresults hfunc hcall hinv

/-- After any calls a download ends, while no chunk of an earlier broadcast is pending. -/
structure DownloadEnds (start : UpdateInput) (s₀ s₁ : UpdateSystem) : Prop where
  reached : ∃ before, runInputs updateStep before .init = .ok s₀
  alive : s₀.update.state ≠ .system
  running : s₀.downloads ≠ []
  event : ∃ http : HttpMessage, start.event = .downloaded http ∧
    s₀.countOf .managerOtaMsgResult = 0 ∧ 0 ≤ http.downFileSize.toInt ∧
    (s₀.update.setFile http.downFileSize).start.ShortDescription start.env
  step_eq : updateStep start s₀ = .ok s₁

/-- The end of a download starts a stream, or there is none. -/
lemma DownloadEnds.streamInv {start : UpdateInput} {s₀ s₁ : UpdateSystem}
    (h : DownloadEnds start s₀ s₁) : StreamInv [start] s₁ := by
  obtain ⟨before, hbefore⟩ := h.reached
  obtain ⟨hinv₁, -⟩ := (systemInv_of_run hbefore).step h.step_eq
  obtain ⟨http, hevent, hadmitted⟩ := h.event
  obtain ⟨request, rest, hdownloads⟩ := List.exists_cons_of_ne_nil h.running
  have hstep := h.step_eq
  rw [updateStep, if_neg h.alive, hevent] at hstep
  simp only [UpdateSystem.downloaded, hdownloads] at hstep
  obtain ⟨sent, hcall, hstep⟩ := exists_of_bind_eq_ok hstep
  cases hstep
  have hkeep : StreamInv ([] ++ [start]) _ := .downloaded hadmitted hcall hinv₁
  exact hkeep

/-- The invariant holds in every run behind the end of a download. -/
lemma DownloadEnds.streamInv_of_run {start : UpdateInput} {s₀ s₁ : UpdateSystem}
    (h : DownloadEnds start s₀ s₁) {inputs : List UpdateInput} {s : UpdateSystem}
    (hrun : GuardedRun updateStep StreamGuard s₁ inputs s) : StreamInv (start :: inputs) s :=
  hrun.invariant (P := fun inputs s => StreamInv (start :: inputs) s) h.streamInv
    fun _ _ _ _ hold hguard hstep => hold.step hguard hstep

/-! ### The end of the stream -/

/-- The descriptions of the chunks of an update are short, wherever its broadcast stands. -/
def ManagerUpdateInfo.ShortDescriptions (env : UpdateEnv) (info : ManagerUpdateInfo) : Prop :=
  ∀ u : ManagerUpdate, u.info = info → u.ShortDescription env

/-- The events that carry on what is pending. -/
def UpdateEvent.Internal : UpdateEvent → Prop
  | .broadcastDone => True
  | .operate => True
  | .handleResult => True
  | _ => False

/-- A pending page that is neither in a queue nor a result is in the list. -/
lemma SystemInv.broadcasts_pos {s : UpdateSystem} (h : SystemInv s) (hqueue : s.operationQueue = [])
    (hresults : s.results = []) (hpending : s.countOf .managerOtaMsgResult ≠ 0) :
    0 < s.broadcasts := by
  have hcount : s.sendList.countP (fun page => page.kind.1 == some .managerOtaMsgResult) ≠ 0 := by
    rw [UpdateSystem.countOf, s.count_eq, hqueue, hresults, List.filterMap_nil, List.countP_nil,
      Nat.zero_add] at hpending
    exact hpending
  obtain ⟨page, hpage, hfunc⟩ := List.countP_pos_iff.mp (Nat.pos_of_ne_zero hcount)
  have hlabel : mislabelled page.kind ≠ true := by
    have hnone := h.labelled
    rw [s.count_eq, hqueue, hresults, List.filterMap_nil, List.countP_nil, Nat.zero_add] at hnone
    exact List.countP_eq_zero.mp hnone page hpage
  have hota : page.isOta = true := by
    rw [mislabelled, beq_iff_eq.mp hfunc] at hlabel
    exact of_not_not fun hne => hlabel (bne_iff_ne.mpr fun heq => hne (beq_iff_eq.mpr heq))
  have hlist := List.countP_pos_iff.mpr ⟨page, hpage, hota⟩
  have haccounted := h.accounted
  rw [hqueue, List.countP_nil] at haccounted
  omega

/-- While a chunk is pending, a result can be handled, and this ends the stream or takes the measure
down. -/
lemma Streaming.exists_handleResult {inputs : List UpdateInput} {s : UpdateSystem}
    {fileLen : Int32} (h : Streaming inputs s fileLen)
    (hpending : s.countOf .managerOtaMsgResult ≠ 0) {page : OperationPage}
    {rest : List OperationPage} (hresults : s.results = page :: rest) {env : UpdateEnv}
    (hcan : s.update.CanSend env) :
    ∃ s', s.handleResult env = .ok s' ∧ s'.stream = s.stream ∧ s'.update.info = s.update.info ∧
      (s'.countOf .managerOtaMsgResult = 0 ∨
        s'.weight + 5 * (chunkNum (fileSize fileLen) - s'.chunks.length) <
          s.weight + 5 * (chunkNum (fileSize fileLen) - s.chunks.length)) := by
  have hweight := UpdateSystem.weight_results hresults
  unfold UpdateSystem.handleResult
  simp only [hresults]
  rcases h.phase with ⟨hone, -, hat, hflags⟩ | ⟨hzero, -, -⟩
  · split
    · rename_i hfunc
      obtain ⟨sent, hsend⟩ := hcan.exists_sendPage
      rw [hsend]
      refine ⟨_, rfl, rfl, (managerStartSendPage_frame hsend).2.1, ?_⟩
      have hcount := UpdateSystem.countOf_results hresults hfunc .managerOtaMsgResult
      rw [if_pos rfl, hone] at hcount
      rcases hat.sendPage hcan hsend with
        ⟨-, -, -, hops⟩ | ⟨hk, -, hchunk, outputData, hops⟩
      · refine .inl ?_
        rw [UpdateSystem.countOf_sendPage _ hops, if_neg (by decide)]
        exact (Nat.succ.inj hcount).symm
      · refine .inr ?_
        have hlog : (UpdateSystem.sendPage { s with results := rest } sent).chunks.length =
            s.chunks.length + 1 := by
          unfold UpdateSystem.sendPage
          rw [hchunk]
          exact List.length_append
        have hpost : (UpdateSystem.sendPage { s with results := rest } sent).weight =
            UpdateSystem.weight { s with results := rest } + 4 := by
          rw [UpdateSystem.sendPage, hops]
          exact UpdateSystem.weight_post _ _
        rw [hlog, hpost]
        omega
    · rw [hflags.resendData env]
      refine ⟨_, rfl, rfl, rfl, .inr ?_⟩
      rw [UpdateSystem.weight_post]
      exact Nat.add_lt_add_right (hweight ▸ Nat.lt_succ_self _) _
    · refine ⟨_, rfl, rfl, rfl, .inr ?_⟩
      exact Nat.add_lt_add_right (hweight ▸ Nat.lt_succ_self _) _
  · exact absurd hzero hpending

/-- While a chunk is pending, one of the tasks or the radio can go on, and this ends the stream or
takes the measure down. -/
lemma StreamInv.exists_progress {inputs : List UpdateInput} {s : UpdateSystem} {fileLen : Int32}
    (h : StreamInv inputs s) (hstream : s.stream = some fileLen)
    (hpending : s.countOf .managerOtaMsgResult ≠ 0) {env : UpdateEnv}
    (hcan : s.update.CanSend env) :
    ∃ event s', event.Internal ∧ updateStep ⟨env, event⟩ s = .ok s' ∧ s'.stream = some fileLen ∧
      s'.update.info = s.update.info ∧
      (s'.countOf .managerOtaMsgResult = 0 ∨
        s'.weight + 5 * (chunkNum (fileSize fileLen) - s'.chunks.length) <
          s.weight + 5 * (chunkNum (fileSize fileLen) - s.chunks.length)) := by
  have hold := h.streaming fileLen hstream
  have hgo : s.update.state ≠ .system := by
    rcases hold.phase with ⟨-, hstate, -⟩ | ⟨hzero, -⟩
    · exact fun heq => absurd (hstate.symm.trans heq) (by decide)
    · exact absurd hzero hpending
  cases hresults : s.results with
  | cons page rest =>
    obtain ⟨s', hhandle, hkeep, hinfo, hnext⟩ := hold.exists_handleResult hpending hresults hcan
    refine ⟨.handleResult, s', trivial, ?_, hkeep.trans hstream, hinfo, hnext⟩
    rw [updateStep, if_neg hgo]
    exact hhandle
  | nil =>
    cases hqueue : s.operationQueue with
    | cons message queue =>
      obtain ⟨s', hoperate, hdone⟩ := h.inv.exists_operate
      refine ⟨.operate, s', trivial, ?_, hdone.stream_eq.trans hstream,
        congrArg ManagerUpdate.info hdone.update_eq, .inr ?_⟩
      · rw [updateStep, if_neg hgo]
        exact hoperate
      · rw [hdone.chunks_eq]
        exact Nat.add_lt_add_right (hdone.weight_lt (hqueue ▸ List.cons_ne_nil _ _)) _
    | nil =>
      have hpos := h.inv.broadcasts_pos hqueue hresults hpending
      refine ⟨.broadcastDone, { s with
        broadcasts := s.broadcasts - 1
        operationQueue := s.operationQueue ++ [.otaRadioResult] }, trivial, ?_, hstream, rfl,
        .inr ?_⟩
      · rw [updateStep, if_neg hgo]
        exact if_pos hpos
      · refine Nat.add_lt_add_right ?_ _
        unfold UpdateSystem.weight
        dsimp only
        rw [hqueue, List.nil_append, List.map_singleton, List.sum_singleton, List.map_nil,
          List.sum_nil, OperationMsg.weight]
        omega

/-- An internal event is admitted. -/
lemma UpdateEvent.Internal.guard {event : UpdateEvent} (h : event.Internal) {env : UpdateEnv}
    {s : UpdateSystem} (hshort : s.update.ShortDescription env) (inputs : List UpdateInput) :
    StreamGuard inputs ⟨env, event⟩ s := by
  cases event with
  | networkUpdate dest json => exact h.elim
  | downloaded http => exact h.elim
  | handleResult => exact .inr hshort
  | _ => trivial

/-- The radio and the tasks can bring a stream to its end. -/
lemma DownloadEnds.exists_stream_end {start : UpdateInput} {s₀ s₁ : UpdateSystem}
    (h : DownloadEnds start s₀ s₁) {inputs : List UpdateInput} {s : UpdateSystem} {fileLen : Int32}
    (hrun : GuardedRun updateStep StreamGuard s₁ inputs s) (hstream : s.stream = some fileLen)
    {env : UpdateEnv} (hshort : s.update.info.ShortDescriptions env) :
    ∃ rest s', (∀ input ∈ rest, input.env = env ∧ input.event.Internal) ∧
      GuardedRun updateStep StreamGuard s₁ (inputs ++ rest) s' ∧
      s'.stream = some fileLen ∧ s'.countOf .managerOtaMsgResult = 0 := by
  have hdrain := hrun.exists_drain
    (fun t => t.stream = some fileLen ∧ t.update.info.ShortDescriptions env)
    (fun t => t.countOf .managerOtaMsgResult = 0)
    (fun input => input.env = env ∧ input.event.Internal)
    (fun t => t.weight + 5 * (chunkNum (fileSize fileLen) - t.chunks.length)) ?_ ⟨hstream, hshort⟩
  · obtain ⟨rest, s', hkind, hrun', ⟨hstream', -⟩, hdone⟩ := hdrain
    exact ⟨rest, s', hkind, hrun', hstream', hdone⟩
  · rintro inputs' t hrun' ⟨hstream', hshort'⟩ hpending
    have hnext := hshort' t.update rfl
    obtain ⟨event, t', hinternal, hstep, hkeep, hinfo, hless⟩ :=
      (h.streamInv_of_run hrun').exists_progress hstream' hpending hnext.canSend
    exact ⟨⟨env, event⟩, t', ⟨rfl, hinternal⟩, hinternal.guard hnext inputs', hstep,
      ⟨hkeep, hinfo ▸ hshort'⟩, hless⟩

/-- When a download has ended, while no chunk was pending, and in every run from there on in which
no update message and no end of another download comes while a chunk is pending: the chunks that
have been handed out since the broadcast of a file was started are its first ones, in order and each
of them once, and at most one of them is pending.  If none is pending, they are all chunks of the
file and the state is `MANAGER_UPDATE_STOP`; and the radio and the tasks can always bring it
there. -/
theorem ota_chunk_stream {start : UpdateInput} {s₀ s₁ : UpdateSystem}
    (hstart : DownloadEnds start s₀ s₁) {inputs : List UpdateInput} {s : UpdateSystem}
    {fileLen : Int32} (hrun : GuardedRun updateStep StreamGuard s₁ inputs s)
    (hstream : s.stream = some fileLen) :
    (∀ i data, s.chunks[i]? = some data → IsChunk (start :: inputs) (fileSize fileLen) i data) ∧
    s.chunks.length ≤ chunkNum (fileSize fileLen) ∧
    s.countOf .managerOtaMsgResult ≤ 1 ∧
    (s.countOf .managerOtaMsgResult = 0 →
      s.chunks.length = chunkNum (fileSize fileLen) ∧ s.update.state = .stop) ∧
    ∀ env : UpdateEnv, s.update.info.ShortDescriptions env → ∃ rest s',
      (∀ input ∈ rest, input.env = env ∧ input.event.Internal) ∧
      GuardedRun updateStep StreamGuard s₁ (inputs ++ rest) s' ∧
      s'.stream = some fileLen ∧ s'.countOf .managerOtaMsgResult = 0 ∧
      s'.chunks.length = chunkNum (fileSize fileLen) ∧ s'.update.state = .stop := by
  have hold := (hstart.streamInv_of_run hrun).streaming fileLen hstream
  refine ⟨hold.isChunk, hold.length_le, hold.countOf_le, hold.of_countOf_eq_zero, ?_⟩
  intro env hshort
  obtain ⟨rest, s', hkind, hrun', hstream', hdone⟩ :=
    hstart.exists_stream_end hrun hstream hshort
  have hend := (hstart.streamInv_of_run hrun').streaming fileLen hstream'
  exact ⟨rest, s', hkind, hrun', hstream', hdone, hend.of_countOf_eq_zero hdone⟩

/-- The broadcast of a file of 1000 bytes from the end of its download on, until the results of both
chunks are handled. -/
theorem ota_chunk_stream_twoChunks :
    ∃ s₀ s₁ s, DownloadEnds (sampleInput (.downloaded ⟨1000, true⟩)) s₀ s₁ ∧
      GuardedRun updateStep StreamGuard s₁ (sampleRounds 2) s ∧ s.stream = some 1000 ∧
      s.countOf .managerOtaMsgResult = 0 ∧ s.chunks.length = 2 ∧ s.update.state = .stop := by
  have hexec : (runInputs updateStep [sampleInput (.networkUpdate [5] (sampleOtaJson 1))]
      .init >>= fun s₀ => (updateStep (sampleInput (.downloaded ⟨1000, true⟩)) s₀).map fun s₁ =>
        ((s₀.update.state, s₀.downloads.length, s₀.countOf .managerOtaMsgResult,
          decide ((s₀.update.setFile 1000).start.ShortDescription (sampleUpdateEnv none))),
        (execGuarded updateStep StreamGuard [] (sampleRounds 2) s₁).map fun s =>
          (s.stream, s.countOf .managerOtaMsgResult))) =
      .ok ((.downPage, 1, 0, true), some (some 1000, 0)) := by
    decide +kernel
  obtain ⟨s₀, hbefore, hexec⟩ := exists_of_bind_eq_ok hexec
  obtain ⟨s₁, hstep, hfacts⟩ := exists_of_map_eq_ok hexec
  simp only [Prod.mk.injEq, decide_eq_true_eq, Option.map_eq_some_iff] at hfacts
  obtain ⟨⟨hstate, hdownloads, hidle, hshort⟩, s, hrun, hstream, hdone⟩ := hfacts
  have hstart : DownloadEnds (sampleInput (.downloaded ⟨1000, true⟩)) s₀ s₁ :=
    { reached := ⟨_, hbefore⟩
      alive := by rw [hstate]; decide
      running := List.length_pos_iff.mp (by rw [hdownloads]; exact Nat.one_pos)
      event := ⟨_, rfl, hidle, by decide, hshort⟩
      step_eq := hstep }
  have hguarded := guardedRun_of_exec hrun
  obtain ⟨-, -, -, hend, -⟩ := ota_chunk_stream hstart hguarded hstream
  obtain ⟨hlength, hstop⟩ := hend hdone
  exact ⟨s₀, s₁, s, hstart, hguarded, hstream, hdone, hlength, hstop⟩

/-- Two update messages, each with its download of 1024 bytes, of which the second one ends while
the first chunk of the first broadcast is pending: two chunks are pending after it, and when the
radio and the tasks have gone on, each chunk of the file has been handed out twice. -/
theorem ota_chunk_stream_twice :
    ∃ s₁ s, runInputs updateStep
        [sampleInput (.networkUpdate [5] (sampleOtaJson 1)),
          sampleInput (.downloaded ⟨1024, true⟩),
          sampleInput (.networkUpdate [5] (sampleOtaJson 1)),
          sampleInput (.downloaded ⟨1024, true⟩)] .init = .ok s₁ ∧
      s₁.stream = some 1024 ∧ s₁.countOf .managerOtaMsgResult = 2 ∧
      runInputs updateStep (sampleRounds 8) s₁ = .ok s ∧ s.stream = some 1024 ∧
      s.countOf .managerOtaMsgResult = 0 ∧
      s.chunks.map (fun data => data.description.offset) = [0, 512, 0, 512] := by
  have hexec : (runInputs updateStep
      [sampleInput (.networkUpdate [5] (sampleOtaJson 1)),
        sampleInput (.downloaded ⟨1024, true⟩),
        sampleInput (.networkUpdate [5] (sampleOtaJson 1)),
        sampleInput (.downloaded ⟨1024, true⟩)] .init >>= fun s₁ =>
      (runInputs updateStep (sampleRounds 8) s₁).map fun s =>
        (s₁.stream, s₁.countOf .managerOtaMsgResult, s.stream, s.countOf .managerOtaMsgResult,
          s.chunks.map fun data => data.description.offset)) =
      .ok (some 1024, 2, some 1024, 0, [0, 512, 0, 512]) := by
    decide +kernel
  obtain ⟨s₁, hstart, hexec⟩ := exists_of_bind_eq_ok hexec
  obtain ⟨s, hrun, hvalues⟩ := exists_of_map_eq_ok hexec
  simp only [Prod.mk.injEq] at hvalues
  obtain ⟨hstream₁, htwo, hstream, hnone, hoffsets⟩ := hvalues
  exact ⟨s₁, s, hstart, hstream₁, htwo, hrun, hstream, hnone, hoffsets⟩

end WiotaAp
