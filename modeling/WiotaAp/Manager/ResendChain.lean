import WiotaAp.Manager.UpdateSystem

/-!
# Chunks that are resent

When the broadcast of a file is over, devices ask for the chunks they have missed.  A request sets
the flags of its chunks and calls `manager_resend_data`, which hands out the first chunk that is
flagged; the result of a resent chunk does the same again.  So one chain of broadcasts should work
off all flags.

A request calls `manager_resend_data` unless the number of the first flag before it is zero.  This
is the right test only for the first chunk of the file: a request that arrives while a chunk is
outstanding starts a second chain unless this chunk is flagged.  And a flagged chunk that cannot be
coded is not sent, but its flag is cleared, so that the chain breaks there.  `resend_chain` says
which requests and results keep it at one chain.
-/

namespace WiotaAp

open Buffers

/-! ### Flags of a file -/

/-- The flags are those of the file, and only chunks that begin in the file are flagged. -/
structure FlagsOk (u : ManagerUpdate) : Prop where
  nonneg : 0 ≤ u.info.fileLen.toInt
  length_eq : u.remSubFlag.length =
    (managerInitResendSubFlag u.info.fileLen.toInt managerOtaSendBinSize).1.length
  num_eq : u.subFlagNum =
    (managerInitResendSubFlag u.info.fileLen.toInt managerOtaSendBinSize).2
  inFile : ∀ k, bitAt u.remSubFlag k = true → 512 * (k : ℤ) < u.info.fileLen.toInt

/-- The flags are those of the file as long as the record keeps them. -/
lemma FlagsOk.congr {u u' : ManagerUpdate} (h : FlagsOk u) (hinfo : u'.info = u.info)
    (hnum : u'.subFlagNum = u.subFlagNum) (hflag : u'.remSubFlag = u.remSubFlag) : FlagsOk u' := by
  refine ⟨?_, ?_, ?_, ?_⟩
  · rw [hinfo]
    exact h.nonneg
  · rw [hinfo, hflag]
    exact h.length_eq
  · rw [hinfo, hnum]
    exact h.num_eq
  · rw [hinfo, hflag]
    exact h.inFile

/-- The chunks that are flagged. -/
def ManagerUpdate.flagged (u : ManagerUpdate) : Set ℕ :=
  {k | bitAt u.remSubFlag k = true}

/-- The chunk `k` can be coded. -/
def ManagerUpdate.CanResend (env : UpdateEnv) (u : ManagerUpdate) (k : ℕ) : Prop :=
  (u.seek k []).CanSend env

instance (env : UpdateEnv) (u : ManagerUpdate) (k : ℕ) : Decidable (u.CanResend env k) :=
  inferInstanceAs (Decidable ((u.seek k []).CanSend env))

/-- The search finds the first flag, if there is one. -/
lemma FlagsOk.getResendSubFlag {u : ManagerUpdate} (h : FlagsOk u) :
    (u.flagged = ∅ ∧ managerGetResendSubFlag u.remSubFlag u.subFlagNum = .ok (-2)) ∨
    ∃ k : ℕ, managerGetResendSubFlag u.remSubFlag u.subFlagNum = .ok k ∧ IsLeast u.flagged k := by
  have hnum : u.subFlagNum.toNat ≤ u.remSubFlag.length := by
    rw [h.num_eq, h.length_eq]
    exact managerInitResendSubFlag_num_le _ _
  rcases managerGetResendSubFlag_cases hnum with ⟨hget, hnone⟩ | ⟨k, hget, -, hbit, hfirst⟩
  · refine .inl ⟨Set.eq_empty_of_forall_notMem fun k hbit => ?_, hget⟩
    have hlt := lt_managerInitResendSubFlag_num (h.inFile k hbit)
    rw [← h.num_eq] at hlt
    exact absurd (hbit.symm.trans (hnone k hlt)) (by decide)
  · refine .inr ⟨k, hget, hbit, fun j hj => ?_⟩
    by_contra hlt
    exact absurd (hj.symm.trans (hfirst j (Nat.lt_of_not_le hlt))) (by decide)

/-- Setting the flags of ranges in the file. -/
lemma FlagsOk.setResendRanges {u : ManagerUpdate} (h : FlagsOk u) {infos : List DataOffset}
    (hinfos : ∀ info ∈ infos, info.InFile u.info.fileLen.toInt) {flag : List UInt8}
    (hset : setResendRanges u.remSubFlag infos = .ok flag) :
    FlagsOk { u with remSubFlag := flag } ∧
      ManagerUpdate.flagged { u with remSubFlag := flag } =
        u.flagged ∪ {k | ∃ info ∈ infos, info.Counts k} := by
  have hsmall : u.remSubFlag.length < 2 ^ 28 := h.length_eq ▸ length_lt_of_int32 h.nonneg
  rcases setResendRanges_cases hsmall infos with ⟨-, flag', hset', hlength, hbits⟩ | ⟨-, hset'⟩
  · cases hset'.symm.trans hset
    have hflagged : ManagerUpdate.flagged { u with remSubFlag := flag } =
        u.flagged ∪ {k | ∃ info ∈ infos, info.Counts k} := by
      ext k
      refine (hbits k).trans (or_congr_right ?_)
      refine exists_congr fun info => and_congr_right fun hinfo => ?_
      exact (hinfos info hinfo).marks_iff k
    refine ⟨⟨h.nonneg, hlength.trans h.length_eq, h.num_eq, fun k hbit => ?_⟩, hflagged⟩
    rcases hflagged.subset hbit with hold | ⟨info, hinfo, -, hlt⟩
    · exact h.inFile k hold
    · have hrange := hinfos info hinfo
      unfold DataOffset.InFile at hrange
      dsimp only
      omega
  · cases hset'.symm.trans hset

/-- What `manager_resend_data` does: without a flag nothing; otherwise it clears the first flag, and
hands out its chunk if it can be coded. -/
lemma FlagsOk.resendData {u u' : ManagerUpdate} (h : FlagsOk u) {env : UpdateEnv}
    {operations : List OperationData}
    (hcall : managerResendData env u = .ok (u', operations)) :
    FlagsOk u' ∧
      ((u.flagged = ∅ ∧ u' = u ∧ operations = []) ∨
        ∃ k, IsLeast u.flagged k ∧ u'.flagged = u.flagged \ {k} ∧
          operations.length = if u.CanResend env k then 1 else 0) := by
  rcases managerResendData_cases hcall with
    ⟨loc, hneg, hget, rfl, rfl⟩ | ⟨loc, flag, len, hpos, hget, hclean, hlen, rfl, hsent⟩
  · refine ⟨h, .inl ?_⟩
    rcases h.getResendSubFlag with ⟨hnone, -⟩ | ⟨k, hget', -⟩
    · exact ⟨hnone, rfl, rfl⟩
    · cases hget'.symm.trans hget
      omega
  · rcases h.getResendSubFlag with ⟨-, hget'⟩ | ⟨k, hget', hleast⟩
    · cases hget'.symm.trans hget
      omega
    · cases hget'.symm.trans hget
      obtain ⟨flag', hclean', hlength, hbits⟩ := exists_clearBit (lt_of_bitAt hleast.1)
      rw [Int.toNat_natCast] at hclean hlen hsent ⊢
      cases hclean'.symm.trans hclean
      have hflagged : ∀ j, bitAt flag j = true ↔ j ∈ u.flagged \ {k} := by
        intro j
        rw [hbits, Bool.and_eq_true, Bool.not_eq_true', decide_eq_false_iff_not]
        rfl
      refine ⟨⟨h.nonneg, hlength.trans h.length_eq, h.num_eq, fun j hj => ?_⟩,
        .inr ⟨k, hleast, Set.ext hflagged, ?_⟩⟩
      · exact h.inFile j ((hflagged j).mp hj).1
      · rcases hsent with ⟨hcan, outputData, rfl⟩ | ⟨hcan, rfl⟩
        · exact (if_pos hcan).symm
        · exact (if_neg hcan).symm

/-! ### One chain -/

/-- At most one resent chunk is outstanding, and one is while a chunk is flagged. -/
structure ResendChain (s : UpdateSystem) : Prop where
  le_one : s.countOf .managerOtaResendMsgResult ≤ 1
  of_flagged : s.update.flagged.Nonempty → s.countOf .managerOtaResendMsgResult = 1

/-- The broadcast of a file is over, and the flags are those of the file. -/
structure ResendReady (s : UpdateSystem) : Prop where
  inv : SystemInv s
  stop : s.update.state = .stop
  flags : FlagsOk s.update

/-- A request of a device that is accepted. -/
structure AcceptedRequest (env : UpdateEnv) (u : ManagerUpdate) (header : AppPsHeader)
    (decodeData : Option (List UInt8)) (requst : IoteResendInfo) : Prop where
  header_eq : IsResendRequest header
  parsed : managerParsingIoteResendOtaMsg (env.parseResend decodeData) = .ok requst
  checked : managerCheckIoteResendQuest requst u.info = .ok 0

/-- Requests and results: no update message and no end of a download comes, and the ranges of
accepted requests lie in the file. -/
def ResendEvent (env : UpdateEnv) (s : UpdateSystem) : UpdateEvent → Prop
  | .networkUpdate _ _ => False
  | .downloaded _ => False
  | .wiotaMsg _ header decodeData _ =>
    ∀ requst, AcceptedRequest env s.update header decodeData requst →
      ∀ info ∈ requst.dataInfo, info.InFile s.update.info.fileLen.toInt
  | _ => True

/-- The condition on a call of `manager_resend_data` when the chunks of a set are flagged and `n`
resent chunks are outstanding: the first flagged chunk can be coded and none is outstanding; or it
cannot be coded, and one is outstanding or no other chunk is flagged. -/
def KeepsChain (env : UpdateEnv) (u : ManagerUpdate) (flagged : Set ℕ) (n : ℕ) : Prop :=
  ∀ k, IsLeast flagged k →
    (u.CanResend env k ∧ n = 0) ∨ (¬ u.CanResend env k ∧ (n = 1 ∨ flagged ⊆ {k}))

/-- The condition on the next event.  An accepted request meets it if the first chunk of the file
was flagged before, or for the call with the chunks that were flagged before or that the request
asks for; the result of a resent chunk, which is not outstanding any more, for the call with those
that are flagged. -/
def ChainCondition (env : UpdateEnv) (s : UpdateSystem) : UpdateEvent → Prop
  | .wiotaMsg _ header decodeData _ =>
    ∀ requst, AcceptedRequest env s.update header decodeData requst →
      0 ∈ s.update.flagged ∨
        KeepsChain env s.update
          (s.update.flagged ∪ {k | ∃ info ∈ requst.dataInfo, info.Counts k})
          (s.countOf .managerOtaResendMsgResult)
  | .handleResult =>
    ∀ page ∈ s.results.head?, page.data.resultFunction = some .managerOtaResendMsgResult →
      KeepsChain env s.update s.update.flagged 0
  | _ => True

/-- Requests and results that meet the condition. -/
def ResendGuard (_ : List UpdateInput) (input : UpdateInput) (s : UpdateSystem) : Prop :=
  ResendEvent input.env s input.event ∧ ChainCondition input.env s input.event

/-- The chain depends on the flags and on the number of resent chunks that are outstanding. -/
lemma ResendChain.congr {s s' : UpdateSystem} (h : ResendChain s)
    (hflag : s'.update.remSubFlag = s.update.remSubFlag)
    (hcount : s'.countOf .managerOtaResendMsgResult = s.countOf .managerOtaResendMsgResult) :
    ResendChain s' := by
  refine ⟨hcount.trans_le h.le_one, fun hsome => hcount.trans (h.of_flagged ?_)⟩
  unfold ManagerUpdate.flagged at hsome ⊢
  rwa [hflag] at hsome

/-- With no chunk outstanding, the condition on a call holds if all flagged chunks can be coded. -/
lemma keepsChain_of_canResend {env : UpdateEnv} {u : ManagerUpdate} {flagged : Set ℕ}
    (h : ∀ k ∈ flagged, u.CanResend env k) : KeepsChain env u flagged 0 :=
  fun k hleast => .inl ⟨h k hleast.1, rfl⟩

/-- The condition on a call, for the first flagged chunk. -/
lemma keepsChain_iff {env : UpdateEnv} {u : ManagerUpdate} {flagged : Set ℕ} {k n : ℕ}
    (hleast : IsLeast flagged k) : KeepsChain env u flagged n ↔
      (u.CanResend env k ∧ n = 0) ∨ (¬ u.CanResend env k ∧ (n = 1 ∨ flagged ⊆ {k})) := by
  refine ⟨fun hkeeps => hkeeps k hleast, fun hk j hj => ?_⟩
  rwa [hj.unique hleast]

/-- A call of `manager_resend_data` leaves one chain exactly under the condition on it. -/
lemma FlagsOk.resendChain_iff {u u' : ManagerUpdate} (h : FlagsOk u) {env : UpdateEnv}
    {operations : List OperationData} (hcall : managerResendData env u = .ok (u', operations))
    {t : UpdateSystem} (hle : t.countOf .managerOtaResendMsgResult ≤ 1) :
    ResendChain (UpdateSystem.post { t with update := u' } operations) ↔
      KeepsChain env u u.flagged (t.countOf .managerOtaResendMsgResult) := by
  obtain ⟨-, -, hops⟩ := managerResendData_frame hcall
  have hcount : (UpdateSystem.post { t with update := u' } operations).countOf
      .managerOtaResendMsgResult = t.countOf .managerOtaResendMsgResult + operations.length := by
    rw [UpdateSystem.countOf_post _ hops, if_pos rfl]
    rfl
  obtain ⟨-, ⟨hnone, rfl, rfl⟩ | ⟨k, hleast, hflagged, hlength⟩⟩ := h.resendData hcall
  · refine iff_of_true ⟨hcount.trans_le hle, fun hsome => ?_⟩ fun k hleast => ?_
    · exact absurd hnone (Set.nonempty_iff_ne_empty.mp hsome)
    · exact absurd hnone (Set.nonempty_iff_ne_empty.mp ⟨k, hleast.1⟩)
  · -- what is left of the flags is empty exactly if there was no other one
    have hrest : u'.flagged.Nonempty ↔ ¬ u.flagged ⊆ {k} := by
      rw [hflagged, Set.sdiff_nonempty]
    rw [keepsChain_iff hleast]
    by_cases hcan : u.CanResend env k
    · rw [if_pos hcan] at hlength
      rw [hlength] at hcount
      rw [or_iff_left fun hand => hand.1 hcan, and_iff_right hcan]
      constructor
      · intro hchain
        have hone := hchain.le_one
        omega
      · intro hzero
        have hone := hcount.trans (congrArg (· + 1) hzero)
        exact ⟨hone.le, fun _ => hone⟩
    · rw [if_neg hcan] at hlength
      rw [hlength, Nat.add_zero] at hcount
      rw [or_iff_right fun hand => hcan hand.1, and_iff_right hcan]
      constructor
      · intro hchain
        by_cases hsub : u.flagged ⊆ {k}
        · exact .inr hsub
        · exact .inl (hcount.symm.trans (hchain.of_flagged (hrest.mpr hsub)))
      · intro hcondition
        refine ⟨hcount.trans_le hle, fun hsome => hcount.trans ?_⟩
        exact hcondition.resolve_right (hrest.mp hsome)

/-- The search for a flag gives 0 exactly if the first chunk of the file is flagged. -/
lemma FlagsOk.getResendSubFlag_eq_zero_iff {u : ManagerUpdate} (h : FlagsOk u) {flag : ℤ}
    (hget : managerGetResendSubFlag u.remSubFlag u.subFlagNum = .ok flag) :
    flag = 0 ↔ 0 ∈ u.flagged := by
  rcases h.getResendSubFlag with ⟨hnone, hget'⟩ | ⟨k, hget', hleast⟩
  · cases hget'.symm.trans hget
    exact iff_of_false (by decide) fun hbit => Set.notMem_empty 0 (hnone.subset hbit)
  · cases hget'.symm.trans hget
    constructor
    · intro hk
      rw [← Int.natCast_eq_zero.mp hk]
      exact hleast.1
    · intro hfirst
      exact Int.natCast_eq_zero.mpr (Nat.le_zero.mp (hleast.2 hfirst))

/-! ### The steps -/

/-- A request of a device in the state `MANAGER_UPDATE_STOP` is passed to
`manager_ota_resend_data`. -/
lemma updateStep_of_request {input : UpdateInput} {s : UpdateSystem} {id : UInt32}
    {header : AppPsHeader} {decodeData : Option (List UInt8)} {ulData : List UInt8}
    (hevent : input.event = .wiotaMsg id header decodeData ulData)
    (hheader : IsResendRequest header) (hstate : s.update.state = .stop) :
    updateStep input s = s.msgAction input.env (.otaResendData decodeData) := by
  have hgo : s.update.state ≠ .system := by
    rw [hstate]
    decide
  have hmsg : runMsg (s.managerEnv input.env) id header decodeData ulData =
      [.otaResendData decodeData] := by
    have hbusy : ¬ (s.update.state ≠ .stop ∧ s.update.state ≠ .default) := fun hand =>
      hand.1 hstate
    rw [runMsg, hheader.1, if_neg Bool.false_ne_true, runCmd, hheader.2]
    exact (if_neg hbusy).trans (if_pos hstate)
  rw [updateStep, if_neg hgo, hevent]
  dsimp only
  rw [hmsg, List.foldlM_cons]
  cases s.msgAction input.env (.otaResendData decodeData) <;> rfl

/-- What an accepted request does: the flags stay those of the file, and there is one chain after it
exactly if the first chunk was flagged before or the call meets its condition. -/
lemma ResendReady.request {s : UpdateSystem} (h : ResendReady s) (hchain : ResendChain s)
    {env : UpdateEnv} {requst : IoteResendInfo}
    (hinfos : ∀ info ∈ requst.dataInfo, info.InFile s.update.info.fileLen.toInt)
    {flag : ℤ} (hget : managerGetResendSubFlag s.update.remSubFlag s.update.subFlagNum = .ok flag)
    {remSubFlag : List UInt8}
    (hset : setResendRanges s.update.remSubFlag requst.dataInfo = .ok remSubFlag)
    {u : ManagerUpdate} {operations : List OperationData}
    (hsent : (flag ≠ 0 ∧ managerResendData env { s.update with remSubFlag := remSubFlag } =
        .ok (u, operations)) ∨
      (flag = 0 ∧ u = { s.update with remSubFlag := remSubFlag } ∧ operations = [])) :
    FlagsOk u ∧ (ResendChain (UpdateSystem.post { s with update := u } operations) ↔
      0 ∈ s.update.flagged ∨
        KeepsChain env s.update
          (s.update.flagged ∪ {k | ∃ info ∈ requst.dataInfo, info.Counts k})
          (s.countOf .managerOtaResendMsgResult)) := by
  obtain ⟨hflags, hunion⟩ := h.flags.setResendRanges hinfos hset
  have hzero := h.flags.getResendSubFlag_eq_zero_iff hget
  rcases hsent with ⟨hne, hcall⟩ | ⟨heq, rfl, rfl⟩
  · refine ⟨(hflags.resendData hcall).1, ?_⟩
    rw [or_iff_right (mt hzero.mpr hne), hflags.resendChain_iff hcall hchain.le_one, hunion]
    rfl
  · refine ⟨hflags, ?_⟩
    have hcount := UpdateSystem.countOf_post
      { s with update := { s.update with remSubFlag := remSubFlag } }
      (otaOperations_nil .managerOtaResendMsgResult) .managerOtaResendMsgResult
    have hbit := hzero.mp heq
    have hone := hcount.trans (hchain.of_flagged ⟨0, hbit⟩)
    exact iff_of_true ⟨hone.le, fun _ => hone⟩ (.inl hbit)

/-- An accepted request. -/
lemma ResendReady.step_of_accepted {input : UpdateInput} {s s' : UpdateSystem} (h : ResendReady s)
    (hchain : ResendChain s) (hresend : ResendEvent input.env s input.event)
    (hstep : updateStep input s = .ok s') {id : UInt32} {header : AppPsHeader}
    {decodeData : Option (List UInt8)} {ulData : List UInt8}
    (hevent : input.event = .wiotaMsg id header decodeData ulData) {requst : IoteResendInfo}
    (haccepted : AcceptedRequest input.env s.update header decodeData requst) :
    ResendReady s' ∧ (ResendChain s' ↔ ChainCondition input.env s input.event) := by
  obtain ⟨hinv, -⟩ := h.inv.step hstep
  rw [hevent] at hresend ⊢
  rw [updateStep_of_request hevent haccepted.header_eq h.stop] at hstep
  obtain ⟨⟨u, operations⟩, hcall, hstep⟩ := exists_of_bind_eq_ok hstep
  cases hstep
  obtain ⟨hstate, -, -⟩ := managerOtaResendData_frame hcall
  rcases managerOtaResendData_cases hcall with
    ⟨hrejected, -, -⟩ | ⟨requst', flag, remSubFlag, hparse, -, hget, hset, hsent⟩
  · exact absurd haccepted.checked (hrejected requst haccepted.parsed)
  · cases haccepted.parsed.symm.trans hparse
    obtain ⟨hflags, hiff⟩ := h.request hchain (hresend requst haccepted) hget hset hsent
    refine ⟨⟨hinv, hstate.trans h.stop, hflags⟩, hiff.trans ⟨?_, ?_⟩⟩
    · -- there is no other request in the message
      intro hcondition requst' haccepted'
      cases haccepted.parsed.symm.trans haccepted'.parsed
      exact hcondition
    · exact fun hcondition => hcondition requst haccepted

/-- The result of a resent chunk: it was the only one outstanding. -/
lemma ResendReady.step_of_result {input : UpdateInput} {s s' : UpdateSystem} (h : ResendReady s)
    (hchain : ResendChain s) (hstep : updateStep input s = .ok s')
    (hevent : input.event = .handleResult) {page : OperationPage} {rest : List OperationPage}
    (hresults : s.results = page :: rest)
    (hfunc : page.data.resultFunction = some .managerOtaResendMsgResult) :
    ResendReady s' ∧ (ResendChain s' ↔ ChainCondition input.env s input.event) := by
  obtain ⟨hinv, -⟩ := h.inv.step hstep
  have hgo : s.update.state ≠ .system := by
    rw [h.stop]
    decide
  rw [updateStep, if_neg hgo, hevent] at hstep
  simp only [UpdateSystem.handleResult, hresults, hfunc] at hstep
  obtain ⟨⟨u, operations⟩, hcall, hstep⟩ := exists_of_bind_eq_ok hstep
  cases hstep
  obtain ⟨hstate, -, -⟩ := managerResendData_frame hcall
  have hcount := UpdateSystem.countOf_results hresults hfunc .managerOtaResendMsgResult
  rw [if_pos rfl] at hcount
  have hle := hchain.le_one
  have hzero : UpdateSystem.countOf { s with results := rest } .managerOtaResendMsgResult = 0 := by
    omega
  have hiff := h.flags.resendChain_iff hcall (hzero.trans_le (Nat.zero_le 1))
  rw [hzero] at hiff
  refine ⟨⟨hinv, hstate.trans h.stop, (h.flags.resendData hcall).1⟩, hiff.trans ?_⟩
  rw [hevent, ChainCondition, hresults]
  exact ⟨fun hkeeps _ _ _ => hkeeps, fun hcondition => hcondition page rfl hfunc⟩

/-- All other requests and results keep one chain. -/
lemma ResendReady.step_of_other {input : UpdateInput} {s s' : UpdateSystem}
    (h : ResendReady s) (hchain : ResendChain s) (hresend : ResendEvent input.env s input.event)
    (hstep : updateStep input s = .ok s')
    (hrequest : ∀ id header decodeData ulData,
      input.event = .wiotaMsg id header decodeData ulData →
        ∀ requst, ¬ AcceptedRequest input.env s.update header decodeData requst)
    (hresult : input.event = .handleResult → ∀ page rest, s.results = page :: rest →
      page.data.resultFunction ≠ some .managerOtaResendMsgResult) :
    ResendReady s' ∧ ResendChain s' := by
  obtain ⟨hinv, heffect⟩ := h.inv.step hstep
  cases heffect with
  | kept hkept =>
    have hcount := hkept.countOf_eq .managerOtaResendMsgResult rfl (by decide)
    refine ⟨⟨hinv, ?_, ?_⟩, hchain.congr (congrArg _ hkept.update_eq) hcount⟩
    · exact (congrArg _ hkept.update_eq).trans h.stop
    · rw [hkept.update_eq]
      exact h.flags
  | networkUpdate hevent hcall =>
    rw [hevent] at hresend
    exact hresend.elim
  | downloaded hevent hdownloads hcall =>
    rw [hevent] at hresend
    exact hresend.elim
  | resendRequest hevent hheader hstate hcall =>
    rcases managerOtaResendData_cases hcall with
      ⟨-, rfl, rfl⟩ | ⟨requst, flag, remSubFlag, hparse, hcheck, -⟩
    · have hcount := s.countOf_post (otaOperations_nil .managerOtaResendMsgResult)
        .managerOtaResendMsgResult
      exact ⟨⟨hinv, h.stop, h.flags⟩, hchain.congr rfl hcount⟩
    · exact absurd ⟨hheader, hparse, hcheck⟩ (hrequest _ _ _ _ hevent requst)
  | @chunkResult page rest sent hevent hresults hfunc hcall =>
    obtain ⟨hstate, hinfo, hnum, hflag⟩ := managerStartSendPage_frame hcall
    obtain ⟨func, hfunc', hops⟩ := managerStartSendPage_operations hcall
    have hcounts := UpdateSystem.countOf_results hresults hfunc .managerOtaResendMsgResult
    have hcount := UpdateSystem.countOf_sendPage { s with results := rest } hops
      .managerOtaResendMsgResult
    rw [if_neg (by decide)] at hcounts
    rw [if_neg hfunc', Nat.add_zero] at hcount
    refine ⟨⟨hinv, ?_, ?_⟩, hchain.congr hflag (hcount.trans hcounts.symm)⟩
    · rcases hstate with hstop | hsame
      · exact hstop
      · exact hsame.trans h.stop
    · exact h.flags.congr hinfo hnum hflag
  | @resendResult page rest update operations hevent hresults hfunc hcall =>
    exact absurd hfunc (hresult hevent page rest hresults)

/-- Requests and results keep the flags those of the file, and they keep one chain exactly under the
condition. -/
lemma ResendReady.step {input : UpdateInput} {s s' : UpdateSystem} (h : ResendReady s)
    (hchain : ResendChain s) (hresend : ResendEvent input.env s input.event)
    (hstep : updateStep input s = .ok s') :
    ResendReady s' ∧ (ResendChain s' ↔ ChainCondition input.env s input.event) := by
  by_cases haccepted : ∃ id header decodeData ulData requst,
      input.event = .wiotaMsg id header decodeData ulData ∧
        AcceptedRequest input.env s.update header decodeData requst
  · obtain ⟨id, header, decodeData, ulData, requst, hevent, haccepted⟩ := haccepted
    exact h.step_of_accepted hchain hresend hstep hevent haccepted
  by_cases hresult : ∃ page rest, input.event = .handleResult ∧ s.results = page :: rest ∧
      page.data.resultFunction = some .managerOtaResendMsgResult
  · obtain ⟨page, rest, hevent, hresults, hfunc⟩ := hresult
    exact h.step_of_result hchain hstep hevent hresults hfunc
  -- neither calls `manager_resend_data`
  have hrequest' : ∀ id header decodeData ulData,
      input.event = .wiotaMsg id header decodeData ulData →
        ∀ requst, ¬ AcceptedRequest input.env s.update header decodeData requst := by
    intro id header decodeData ulData hevent requst hrequst
    exact haccepted ⟨id, header, decodeData, ulData, requst, hevent, hrequst⟩
  have hresult' : input.event = .handleResult → ∀ page rest, s.results = page :: rest →
      page.data.resultFunction ≠ some .managerOtaResendMsgResult := by
    intro hevent page rest hresults hfunc
    exact hresult ⟨page, rest, hevent, hresults, hfunc⟩
  obtain ⟨hready, hchain'⟩ := h.step_of_other hchain hresend hstep hrequest' hresult'
  refine ⟨hready, iff_of_true hchain' ?_⟩
  cases hevent : input.event with
  | wiotaMsg id header decodeData ulData =>
    exact fun requst hrequst => absurd hrequst (hrequest' id header decodeData ulData hevent requst)
  | handleResult =>
    intro page hpage hfunc
    obtain ⟨rest, hresults⟩ := List.head?_eq_some_iff.mp hpage
    exact absurd hfunc (hresult' hevent page rest hresults)
  | _ => trivial

/-- In every run of requests and results from a state with one chain, if all of them meet the
condition: there is at most one resent chunk outstanding, and there is one while a chunk is flagged.
A next request or result keeps it so exactly under the condition. -/
theorem resend_chain {s₀ s : UpdateSystem} {inputs : List UpdateInput} (hready : ResendReady s₀)
    (hchain : ResendChain s₀)
    (hrun : GuardedRun updateStep ResendGuard s₀ inputs s) :
    ResendChain s ∧
    ∀ input s', ResendEvent input.env s input.event → updateStep input s = .ok s' →
      (ResendChain s' ↔ ChainCondition input.env s input.event) := by
  have hinv : ResendReady s ∧ ResendChain s := by
    refine hrun.invariant (P := fun _ s => ResendReady s ∧ ResendChain s) ⟨hready, hchain⟩ ?_
    intro _ input t t' ht hguard hstep
    obtain ⟨hready', hiff⟩ := ht.1.step ht.2 hguard.1 hstep
    exact ⟨hready', hiff.mpr hguard.2⟩
  refine ⟨hinv.2, fun input s' hevent hstep => ?_⟩
  exact (hinv.1.step hinv.2 hevent hstep).2

/-- The request of a device for both chunks of a file of 1024 bytes. -/
def sampleResendJson (updateType : Int32) : IoteResendJson where
  devType := some (textBytes "iote")
  oldVersion := some (textBytes "v1.1")
  newVersion := some (textBytes "v2.0")
  updateType := some updateType
  dataInfo := some [(some 0, some 1024)]

/-- The message with this request. -/
def sampleRequest (updateType : Int32) : UpdateInput :=
  ⟨sampleUpdateEnv (some (sampleResendJson updateType)),
    .wiotaMsg 7 { AppPsHeader.zero with cmdType := 52 } none []⟩

/-- The broadcast of a file of 1024 bytes from the update message to the end of the state behind its
chunks. -/
def sampleBroadcast : List UpdateInput :=
  sampleInput (.networkUpdate [5] (sampleOtaJson 1)) ::
    sampleInput (.downloaded ⟨1024, true⟩) :: sampleRounds 3

/-- When the broadcast is over, devices can ask for chunks, and all of them can be coded. -/
lemma sampleBroadcast_ready :
    ∃ s, runInputs updateStep sampleBroadcast .init = .ok s ∧ s.update.info.fileLen = 1024 ∧
      s.countOf .managerOtaResendMsgResult = 0 ∧ s.update.flagged = ∅ ∧
      (∀ k < 8, s.update.CanResend (sampleRequest 0).env k) ∧ ResendReady s ∧ ResendChain s := by
  have hend : (runInputs updateStep sampleBroadcast .init).map (fun s =>
      ((s.update.state, s.update.info.fileLen, s.update.remSubFlag, s.update.subFlagNum),
        s.countOf .managerOtaResendMsgResult,
        decide (∀ k : ℕ, k < 8 → s.update.CanResend (sampleRequest 0).env k))) =
      .ok ((.stop, 1024, [0], 1), 0, true) := by
    decide +kernel
  obtain ⟨s, hrun, hvalues⟩ := exists_of_map_eq_ok hend
  simp only [Prod.mk.injEq, decide_eq_true_eq] at hvalues
  obtain ⟨⟨hstate, hfile, hflag, hnum⟩, hcount, hcan⟩ := hvalues
  have hnone : ∀ k, ¬ bitAt s.update.remSubFlag k = true := by
    intro k
    have hinit : (managerInitResendSubFlag 1024 managerOtaSendBinSize).1 = [0] := by decide
    rw [hflag, ← hinit, bitAt_managerInitResendSubFlag]
    decide
  have hempty : s.update.flagged = ∅ := Set.eq_empty_of_forall_notMem hnone
  have hflags : FlagsOk s.update := by
    refine ⟨?_, ?_, ?_, fun k hbit => absurd hbit (hnone k)⟩
    · rw [hfile]
      decide
    · rw [hfile, hflag]
      decide
    · rw [hfile, hnum]
      decide
  refine ⟨s, hrun, hfile, hcount, hempty, hcan, ⟨systemInv_of_run hrun, hstate, hflags⟩,
    hcount.trans_le (Nat.zero_le 1), fun hsome => ?_⟩
  exact absurd hempty (Set.nonempty_iff_ne_empty.mp hsome)

/-- While no chunk is flagged or outstanding and all of them can be coded, the request meets the
condition. -/
lemma resendGuard_sampleRequest {s : UpdateSystem} (hfile : s.update.info.fileLen = 1024)
    (hcount : s.countOf .managerOtaResendMsgResult = 0) (hempty : s.update.flagged = ∅)
    (hcan : ∀ k < 8, s.update.CanResend (sampleRequest 0).env k) (inputs : List UpdateInput) :
    ResendGuard inputs (sampleRequest 0) s := by
  constructor
  · intro requst hrequst info hinfo
    cases hrequst.parsed
    rw [List.mem_singleton.mp hinfo, hfile]
    exact ⟨by decide, by decide, by decide⟩
  · intro requst hrequst
    cases hrequst.parsed
    rw [hcount, hempty, Set.empty_union]
    refine .inr (keepsChain_of_canResend fun k hk => hcan k ?_)
    obtain ⟨info, hinfo, -, hlt⟩ := hk
    rw [List.mem_singleton.mp hinfo] at hlt
    have htwo : (k : ℤ) < 2 := hlt
    omega

/-- After the broadcast of a file, a request for both of its chunks and the result of the first one
keep one chain: the second one is outstanding then. -/
theorem resend_chain_twoChunks :
    ∃ s s', ResendReady s ∧ ResendChain s ∧
      GuardedRun updateStep ResendGuard s (sampleRequest 0 :: sampleRounds 1) s' ∧
      ResendChain s' ∧ s'.countOf .managerOtaResendMsgResult = 1 := by
  obtain ⟨s, hrun, hfile, hcount, hempty, hcan, hready, hchain⟩ := sampleBroadcast_ready
  have hguard := resendGuard_sampleRequest hfile hcount hempty hcan []
  have hdone : (runInputs updateStep (sampleBroadcast ++ [sampleRequest 0,
      sampleInput .operate, sampleInput .broadcastDone, sampleInput .operate]) .init >>= fun t =>
      (updateStep (sampleInput .handleResult) t).map fun s' =>
        (t.update.remSubFlag.length,
          decide (∀ k : ℕ, k < 8 → t.update.CanResend (sampleUpdateEnv none) k),
          s'.countOf .managerOtaResendMsgResult)) = .ok (1, true, 1) := by
    decide +kernel
  obtain ⟨t, hrun', hdone⟩ := exists_of_bind_eq_ok hdone
  obtain ⟨s', hresult, hvalues⟩ := exists_of_map_eq_ok hdone
  simp only [Prod.mk.injEq, decide_eq_true_eq] at hvalues
  obtain ⟨hlength, hcan', hone⟩ := hvalues
  rw [runInputs_append, hrun, ok_bind] at hrun'
  obtain ⟨s₁, hrequest, hrun'⟩ := exists_of_bind_eq_ok hrun'
  obtain ⟨s₂, hqueue, hrun'⟩ := exists_of_bind_eq_ok hrun'
  obtain ⟨s₃, hradio, hrun'⟩ := exists_of_bind_eq_ok hrun'
  obtain ⟨s₄, hreport, hrun'⟩ := exists_of_bind_eq_ok hrun'
  cases hrun'
  have hcondition' : ChainCondition (sampleUpdateEnv none) t .handleResult := by
    intro page _ _
    refine keepsChain_of_canResend fun k hk => hcan' k ?_
    have hlt := lt_of_bitAt hk
    rw [hlength] at hlt
    omega
  have hguarded : GuardedRun updateStep ResendGuard s (sampleRequest 0 :: sampleRounds 1) s' := by
    refine .snoc (.snoc (.snoc (.snoc (.snoc .nil hguard hrequest) ?_ hqueue) ?_ hradio) ?_ hreport)
      ⟨trivial, hcondition'⟩ hresult
    all_goals exact ⟨trivial, trivial⟩
  exact ⟨s, s', hready, hchain, hguarded, (resend_chain hready hchain hguarded).1, hone⟩

/-- Two requests for the same chunks: the second one arrives while a chunk is outstanding, and then
two are.  And a request behind an update message for 26 devices whose download has failed: the
description is too long for a chunk of 512 bytes, so the first chunk is not sent, and the second one
is flagged while none is outstanding. -/
theorem resend_chain_twice :
    (∃ s, runInputs updateStep (sampleBroadcast ++ [sampleRequest 0, sampleRequest 0]) .init =
        .ok s ∧
      s.update.state = .stop ∧ s.countOf .managerOtaResendMsgResult = 2) ∧
    ∃ s, runInputs updateStep (sampleBroadcast ++
        [sampleInput (.networkUpdate (List.replicate 26 123456789)
            { sampleOtaJson 1 with updateType := some 1 }),
          sampleInput (.downloaded ⟨0, false⟩), sampleRequest 1]) .init = .ok s ∧
      s.update.state = .stop ∧ 1 ∈ s.update.flagged ∧
      s.countOf .managerOtaResendMsgResult = 0 := by
  have htwice : (runInputs updateStep (sampleBroadcast ++ [sampleRequest 0, sampleRequest 0])
      .init).map (fun s => (s.update.state, s.countOf .managerOtaResendMsgResult)) =
        .ok (.stop, 2) := by
    decide +kernel
  have hlong : (runInputs updateStep (sampleBroadcast ++
      [sampleInput (.networkUpdate (List.replicate 26 123456789)
          { sampleOtaJson 1 with updateType := some 1 }),
        sampleInput (.downloaded ⟨0, false⟩), sampleRequest 1]) .init).map
      (fun s => (s.update.state, bitAt s.update.remSubFlag 1,
        s.countOf .managerOtaResendMsgResult)) = .ok (.stop, true, 0) := by
    decide +kernel
  obtain ⟨s, hrun, hvalues⟩ := exists_of_map_eq_ok htwice
  obtain ⟨s', hrun', hvalues'⟩ := exists_of_map_eq_ok hlong
  simp only [Prod.mk.injEq] at hvalues hvalues'
  exact ⟨⟨s, hrun, hvalues⟩, ⟨s', hrun', hvalues'⟩⟩

end WiotaAp
