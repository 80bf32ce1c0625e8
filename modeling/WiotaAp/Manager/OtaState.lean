import WiotaAp.Manager.UpdateSystem

/-!
# The state of an update

The state of an update is set by an update message, by the end of a download, and when the last
chunk of the file is done.  Devices are served only in the states `MANAGER_UPDATE_DEFAULT` and
`MANAGER_UPDATE_STOP`.  In every other state something should be under way that leads back to them.

`OtaAlive` says that there is: a download, or a chunk whose result is to come.  The three lemmas
`otaAlive_networkUpdate_iff`, `otaAlive_downloaded_iff` and `otaAlive_chunkResult_iff` say exactly
when the steps that change the state leave it so; `ota_state_serves` is the result for runs.
-/

namespace WiotaAp

open Buffers

/-! ### States that serve devices -/

/-- The states in which devices are served.  In the third one the chip reboots. -/
def ManagerUpdateState.Serves (state : ManagerUpdateState) : Prop :=
  state = .default ∨ state = .stop ∨ state = .system

instance (state : ManagerUpdateState) : Decidable state.Serves :=
  inferInstanceAs (Decidable (_ ∨ _))

/-- Devices are served, or a download or a chunk is under way. -/
def OtaAlive (s : UpdateSystem) : Prop :=
  s.update.state.Serves ∨ s.downloads ≠ [] ∨ 0 < s.countOf .managerOtaMsgResult

/-! ### The steps that change the state -/

/-- After an update message something is under way if it was before, or if the message is accepted
and active. -/
lemma otaAlive_networkUpdate_iff {s : UpdateSystem} {dest : List UInt32} {json : NetworkOtaJson}
    {update : ManagerUpdate} {downloads : List DownloadRequest}
    (h : netUpdateVersionSponse dest json s.update = .ok (update, downloads)) :
    OtaAlive { s with update := update, downloads := s.downloads ++ downloads, stream := none } ↔
      s.downloads ≠ [] ∨ 0 < s.countOf .managerOtaMsgResult ∨
        (¬ json.OtherVersion s.update.info ∧ json.activeState s.update.info ≠ 0) := by
  have hstate : ¬ update.state.Serves := by
    rcases netUpdateVersionSponse_cases h with ⟨-, hresponse, -⟩ | ⟨-, hdown, -⟩
    · rw [hresponse]
      decide
    · rw [hdown]
      decide
  have hnew : downloads ≠ [] ↔
      ¬ json.OtherVersion s.update.info ∧ json.activeState s.update.info ≠ 0 := by
    rcases netUpdateVersionSponse_cases h with ⟨hother, -, hnone⟩ | ⟨hother, -, hiff⟩
    · exact iff_of_false (fun hne => hne hnone) fun hand => hand.1 hother
    · rw [ne_eq, hiff]
      exact (and_iff_right hother).symm
  have hlist : s.downloads ++ downloads ≠ [] ↔ s.downloads ≠ [] ∨ downloads ≠ [] := by
    rw [ne_eq, List.append_eq_nil_iff, not_and_or]
  unfold OtaAlive
  dsimp only
  rw [or_iff_right hstate, hlist, or_assoc, or_comm (a := downloads ≠ []), hnew]
  rfl

/-- After a call of `manager_start_send_page` something is under way if it was before, or if the
next chunk can be coded or the file is at its end. -/
lemma otaAlive_sendPage_iff {env : UpdateEnv} {u : ManagerUpdate} {sent : SentPage}
    (h : managerStartSendPage env u = .ok sent) (s : UpdateSystem) :
    OtaAlive (s.sendPage sent) ↔
      u.state.Serves ∨ s.downloads ≠ [] ∨ 0 < s.countOf .managerOtaMsgResult ∨ u.CanSend env := by
  unfold OtaAlive ManagerUpdate.CanSend
  rcases managerStartSendPage_cases h with
    ⟨hlen, hupdate, -, -⟩ | ⟨len, hlen, hupdate, hcoded | hlong⟩
  · have hstop : sent.update.state = .stop := congrArg ManagerUpdate.state hupdate
    refine iff_of_true (.inl (.inr (.inl hstop))) (.inr (.inr (.inr ?_)))
    intro len hmem
    rw [hlen] at hmem
    cases hmem
  · obtain ⟨hle, -, outputData, hops⟩ := hcoded
    have hcount : 0 < (s.sendPage sent).countOf .managerOtaMsgResult := by
      rw [s.countOf_sendPage (hops ▸ otaOperations_singleton _ _), if_pos rfl, hops]
      exact Nat.succ_pos _
    refine iff_of_true (.inr (.inr hcount)) (.inr (.inr (.inr ?_)))
    intro len' hmem
    cases hlen.symm.trans hmem
    exact hle
  · obtain ⟨hlt, -, hops⟩ := hlong
    have hstate : sent.update.state = (u.advance len).state := congrArg ManagerUpdate.state hupdate
    have hcount : (s.sendPage sent).countOf .managerOtaMsgResult =
        s.countOf .managerOtaMsgResult := by
      rw [s.countOf_sendPage hops, if_neg (by decide), Nat.add_zero]
    have hnot : ¬ u.CanSend env := fun hcan => absurd (hcan len hlen) (Nat.not_le.mpr hlt)
    change sent.update.state.Serves ∨ s.downloads ≠ [] ∨ _ ↔ _
    rw [hstate, hcount]
    unfold ManagerUpdate.CanSend at hnot
    rw [or_iff_left hnot]
    rfl

/-- After the end of a download something is under way if it still was besides it; or the download
has failed, or the access point reboots; or the update is active and its first chunk can be coded
or the file is empty. -/
lemma otaAlive_downloaded_iff {env : UpdateEnv} {http : HttpMessage} {s : UpdateSystem}
    {sent : SentPage} (h : managerStartUpdate env http s.update = .ok sent)
    {rest : List DownloadRequest} {stream : Option Int32} {chunks : List OtaData} :
    OtaAlive (UpdateSystem.sendPage
        { s with downloads := rest, stream := stream, chunks := chunks } sent) ↔
      rest ≠ [] ∨ 0 < s.countOf .managerOtaMsgResult ∨ http.ok = false ∨
        s.update.info.isApUpdate = .ok true ∨
        (s.update.info.activeState ≠ 0 ∧
          (s.update.setFile http.downFileSize).start.CanSend env) := by
  rcases managerStartUpdate_cases h with
    ⟨hfail, rfl⟩ | ⟨-, hap, rfl⟩ | ⟨hok, hap, hstart⟩
  · exact iff_of_true (.inl (.inr (.inl rfl))) (.inr (.inr (.inl hfail)))
  · exact iff_of_true (.inl (.inr (.inr rfl))) (.inr (.inr (.inr (.inl hap))))
  · have hnotfail : ¬ http.ok = false := by
      rw [hok]
      decide
    have hnotap : ¬ s.update.info.isApUpdate = .ok true := by
      rw [hap]
      decide
    have hserves : ¬ ManagerUpdateState.Serves .startTransferData := by decide
    rw [or_iff_right hnotfail, or_iff_right hnotap]
    rcases hstart with ⟨hactive, rfl⟩ | ⟨hactive, hsend⟩
    · have hnot : ¬ (s.update.info.activeState ≠ 0 ∧
          (s.update.setFile http.downFileSize).start.CanSend env) := fun hand => hand.1 hactive
      rw [or_iff_left hnot]
      refine (or_iff_right hserves).trans (or_congr_right ?_)
      rw [UpdateSystem.countOf_sendPage _ (otaOperations_nil .managerOtaMsgResult)]
      rfl
    · rw [otaAlive_sendPage_iff hsend, and_iff_right hactive]
      exact or_iff_right hserves

/-- After the result of a chunk something is under way if it still was besides it, or if the next
chunk can be coded or the file is at its end. -/
lemma otaAlive_chunkResult_iff {env : UpdateEnv} {s : UpdateSystem} {sent : SentPage}
    (h : managerStartSendPage env s.update = .ok sent) {page : OperationPage}
    {rest : List OperationPage} (hresults : s.results = page :: rest)
    (hfunc : page.data.resultFunction = some .managerOtaMsgResult) :
    OtaAlive (UpdateSystem.sendPage { s with results := rest } sent) ↔
      s.update.state.Serves ∨ s.downloads ≠ [] ∨ 1 < s.countOf .managerOtaMsgResult ∨
        s.update.CanSend env := by
  have hcount := UpdateSystem.countOf_results hresults hfunc .managerOtaMsgResult
  rw [if_pos rfl] at hcount
  rw [otaAlive_sendPage_iff h, hcount, Nat.lt_add_left_iff_pos]

/-! ### Runs -/

/-- The condition on the next event: an update message, the end of a download or the result of a
chunk leaves something under way. -/
def AliveEvent (env : UpdateEnv) (s : UpdateSystem) : UpdateEvent → Prop
  | .networkUpdate _ json =>
    s.downloads ≠ [] ∨ 0 < s.countOf .managerOtaMsgResult ∨
      (¬ json.OtherVersion s.update.info ∧ json.activeState s.update.info ≠ 0)
  | .downloaded http =>
    s.downloads = [] ∨ s.downloads.tail ≠ [] ∨ 0 < s.countOf .managerOtaMsgResult ∨
      http.ok = false ∨ s.update.info.isApUpdate = .ok true ∨
      (s.update.info.activeState ≠ 0 ∧ (s.update.setFile http.downFileSize).start.CanSend env)
  | .handleResult =>
    (∀ page ∈ s.results.head?, page.data.resultFunction ≠ some .managerOtaMsgResult) ∨
      s.update.state.Serves ∨ s.downloads ≠ [] ∨ 1 < s.countOf .managerOtaMsgResult ∨
      s.update.CanSend env
  | _ => True

instance (env : UpdateEnv) (s : UpdateSystem) : DecidablePred (AliveEvent env s) := fun event =>
  match event with
  | .networkUpdate _ _ => inferInstanceAs (Decidable (_ ∨ _ ∨ (_ ∧ _)))
  | .downloaded _ => inferInstanceAs (Decidable (_ ∨ _ ∨ _ ∨ _ ∨ _ ∨ (_ ∧ _)))
  | .handleResult => inferInstanceAs (Decidable ((∀ page ∈ s.results.head?, _ ≠ _) ∨ _ ∨ _ ∨ _ ∨ _))
  | .wiotaMsg _ _ _ _ => inferInstanceAs (Decidable True)
  | .unicast _ => inferInstanceAs (Decidable True)
  | .sendState _ => inferInstanceAs (Decidable True)
  | .unicastResult _ => inferInstanceAs (Decidable True)
  | .broadcastDone => inferInstanceAs (Decidable True)
  | .operate => inferInstanceAs (Decidable True)

/-- The condition for a step of a run; nothing happens any more when the access point reboots. -/
def AliveGuard (_ : List UpdateInput) (input : UpdateInput) (s : UpdateSystem) : Prop :=
  s.update.state = .system ∨ AliveEvent input.env s input.event

instance (inputs : List UpdateInput) (input : UpdateInput) (s : UpdateSystem) :
    Decidable (AliveGuard inputs input s) :=
  inferInstanceAs (Decidable (_ ∨ _))

/-- A step that meets the condition leaves something under way. -/
lemma otaAlive_step {input : UpdateInput} {s s' : UpdateSystem} (hinv : SystemInv s)
    (halive : OtaAlive s) (hguard : AliveEvent input.env s input.event)
    (hstep : updateStep input s = .ok s') : OtaAlive s' := by
  obtain ⟨-, heffect⟩ := hinv.step hstep
  cases heffect with
  | kept hkept =>
    unfold OtaAlive
    rw [hkept.update_eq, hkept.downloads_eq, hkept.countOf_eq .managerOtaMsgResult rfl (by decide)]
    exact halive
  | networkUpdate hevent hcall =>
    rw [hevent] at hguard
    exact (otaAlive_networkUpdate_iff hcall).mpr hguard
  | downloaded hevent hdownloads hcall =>
    rw [hevent] at hguard
    refine (otaAlive_downloaded_iff hcall).mpr ?_
    rw [AliveEvent, hdownloads, or_iff_right (List.cons_ne_nil _ _)] at hguard
    exact hguard
  | resendRequest hevent hheader hstate hcall =>
    obtain ⟨hu, -, -⟩ := managerOtaResendData_frame hcall
    exact .inl (.inr (.inl (hu.trans hstate)))
  | chunkResult hevent hresults hfunc hcall =>
    rw [hevent] at hguard
    refine (otaAlive_chunkResult_iff hcall hresults hfunc).mpr ?_
    rcases hguard with hother | hguard
    · exact absurd hfunc (hother _ (hresults ▸ rfl))
    · exact hguard
  | @resendResult page rest update operations hevent hresults hfunc hcall =>
    obtain ⟨hu, -, hops⟩ := managerResendData_frame hcall
    have hcount := UpdateSystem.countOf_results hresults hfunc .managerOtaMsgResult
    have hpost := UpdateSystem.countOf_post { s with results := rest, update := update } hops
      .managerOtaMsgResult
    rw [if_neg (by decide), Nat.add_zero] at hcount hpost
    rcases halive with hserves | hsome | hpending
    · exact .inl (by rwa [← hu] at hserves)
    · exact .inr (.inl hsome)
    · refine .inr (.inr ?_)
      rw [hpost]
      exact hcount ▸ hpending

/-- A step that leaves something under way meets the condition. -/
lemma aliveGuard_of_otaAlive {input : UpdateInput} {s s' : UpdateSystem}
    (hstep : updateStep input s = .ok s') (halive : OtaAlive s') :
    s.update.state = .system ∨ AliveEvent input.env s input.event := by
  by_cases hsystem : s.update.state = .system
  · exact .inl hsystem
  · refine .inr ?_
    rw [updateStep, if_neg hsystem] at hstep
    cases hevent : input.event with
    | networkUpdate dest json =>
      simp only [hevent] at hstep
      obtain ⟨⟨update, downloads⟩, hcall, hstep⟩ := exists_of_bind_eq_ok hstep
      cases hstep
      exact (otaAlive_networkUpdate_iff hcall).mp halive
    | downloaded http =>
      simp only [hevent, UpdateSystem.downloaded] at hstep
      cases hdownloads : s.downloads with
      | nil => exact .inl hdownloads
      | cons request rest =>
        simp only [hdownloads] at hstep
        obtain ⟨sent, hcall, hstep⟩ := exists_of_bind_eq_ok hstep
        cases hstep
        refine .inr ?_
        rw [hdownloads]
        exact (otaAlive_downloaded_iff hcall).mp halive
    | handleResult =>
      simp only [hevent, UpdateSystem.handleResult] at hstep
      cases hresults : s.results with
      | nil =>
        refine .inl fun page hpage => ?_
        rw [hresults] at hpage
        cases hpage
      | cons page rest =>
        simp only [hresults] at hstep
        by_cases hfunc : page.data.resultFunction = some .managerOtaMsgResult
        · simp only [hfunc] at hstep
          obtain ⟨sent, hcall, hstep⟩ := exists_of_bind_eq_ok hstep
          cases hstep
          exact .inr ((otaAlive_chunkResult_iff hcall hresults hfunc).mp halive)
        · refine .inl fun page' hpage => ?_
          rw [hresults] at hpage
          cases hpage
          exact hfunc
    | wiotaMsg id header decodeData ulData => trivial
    | unicast message => trivial
    | sendState state => trivial
    | unicastResult res => trivial
    | broadcastDone => trivial
    | operate => trivial

/-- In every run whose steps all meet the condition: when no download is queued or running and no
broadcast of an update is outstanding, the state is one in which devices are served, or the access
point has updated itself and reboots.  The state behind a next step is such a one, or has work under
way, exactly if the step meets the condition. -/
theorem ota_state_serves {inputs : List UpdateInput} {s : UpdateSystem}
    (hrun : GuardedRun updateStep AliveGuard .init inputs s) :
    (s.downloads = [] → (∀ func : ResultFunction, func.isOta = true → s.countOf func = 0) →
      s.update.state = .default ∨ s.update.state = .stop ∨ s.update.state = .system) ∧
    ∀ input s', updateStep input s = .ok s' → (OtaAlive s' ↔ AliveGuard inputs input s) := by
  have hstep : ∀ input t t', SystemInv t ∧ OtaAlive t → AliveGuard inputs input t →
      updateStep input t = .ok t' → SystemInv t' ∧ OtaAlive t' := by
    intro input t t' ht hguard hstep
    refine ⟨(ht.1.step hstep).1, ?_⟩
    rcases hguard with hsystem | hevent
    · rw [updateStep, if_pos hsystem] at hstep
      cases hstep
      exact ht.2
    · exact otaAlive_step ht.1 ht.2 hevent hstep
  have hinv : SystemInv s ∧ OtaAlive s := by
    refine hrun.invariant (P := fun _ s => SystemInv s ∧ OtaAlive s) ?_ ?_
    · exact ⟨systemInv_init, .inl (.inl rfl)⟩
    · exact fun _ => hstep
  refine ⟨fun hdownloads hota => ?_, fun input s' hnext => ⟨?_, ?_⟩⟩
  · rcases hinv.2 with hserves | hsome | hpending
    · exact hserves
    · exact absurd hdownloads hsome
    · exact absurd (hota .managerOtaMsgResult rfl) (Nat.pos_iff_ne_zero.mp hpending)
  · exact aliveGuard_of_otaAlive hnext
  · exact fun hguard => (hstep input s s' hinv hguard hnext).2

/-- An active update with a file of 1000 bytes: the run takes its two chunks and the broadcast of
the state behind them to their ends and meets the condition, and devices are served then. -/
theorem ota_state_serves_twoChunks :
    ∃ inputs s, GuardedRun updateStep AliveGuard .init inputs s ∧ s.chunks.length = 2 ∧
      (s.update.state = .default ∨ s.update.state = .stop ∨ s.update.state = .system) ∧
      ∀ input s', updateStep input s = .ok s' → (OtaAlive s' ↔ AliveGuard inputs input s) := by
  have hexec : (execGuarded updateStep AliveGuard []
      (sampleInput (.networkUpdate [5] (sampleOtaJson 1)) ::
        sampleInput (.downloaded ⟨1000, true⟩) :: sampleRounds 3) .init).map
      (fun s => (s.chunks.length, s.downloads, s.pending)) = some (2, [], []) := by
    decide +kernel
  obtain ⟨s, hrun, hvalues⟩ := Option.map_eq_some_iff.mp hexec
  simp only [Prod.mk.injEq] at hvalues
  obtain ⟨hlength, hdownloads, hpending⟩ := hvalues
  have hguarded := guardedRun_of_exec hrun
  have hnone : ∀ func : ResultFunction, func.isOta = true → s.countOf func = 0 := by
    intro func _
    rw [UpdateSystem.countOf, UpdateSystem.count, hpending, List.countP_nil]
  have hserves := ota_state_serves hguarded
  exact ⟨_, s, hguarded, hlength, hserves.1 hdownloads hnone, hserves.2⟩

/-- An update message that is not active, for devices and for the access point itself in another
version: no download is queued, nothing is pending, and the state is none in which devices are
served. -/
theorem ota_state_stuck :
    (∃ s, runInputs updateStep [sampleInput (.networkUpdate [5] (sampleOtaJson 0))] .init = .ok s ∧
      s.downloads = [] ∧ s.pending = [] ∧ s.broadcasts = 0 ∧ s.update.state = .downPage) ∧
    ∃ s, runInputs updateStep
        [sampleInput (.networkUpdate [5] { sampleOtaJson 1 with devType := some apText })] .init =
          .ok s ∧
      s.downloads = [] ∧ s.pending = [] ∧ s.broadcasts = 0 ∧ s.update.state = .responseMsg := by
  have hinactive : runInputs updateStep [sampleInput (.networkUpdate [5] (sampleOtaJson 0))] .init =
      .ok _ := rfl
  have hother : runInputs updateStep
      [sampleInput (.networkUpdate [5] { sampleOtaJson 1 with devType := some apText })] .init =
        .ok _ := rfl
  exact ⟨⟨_, hinactive, rfl, rfl, rfl, rfl⟩, ⟨_, hother, rfl, rfl, rfl, rfl⟩⟩

end WiotaAp
