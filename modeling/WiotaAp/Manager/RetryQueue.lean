import WiotaAp.Foundation.Logs
import WiotaAp.Foundation.Runs
import WiotaAp.Manager.WiotaFrame

/-!
# Messages that wait for their results

The operation task together with the radio.  Every call of `uc_wiota_send_data` is a transmission
that the radio answers later, with a result that carries only the user id of the device.  Beside the
list of the task, the state keeps what has been accepted, transmitted, answered and reported.

`retryQueue_conserved` says that no message is lost, reported twice or sent more than three times,
whatever the order of the results.  `results_attributed_of_inOrder` says when the reports are about
the right messages.
-/

namespace WiotaAp

open Buffers

/-! ### The task and the radio -/

/-- A transmission that awaits its result: the message it is of, and the device. -/
structure Transmission where
  block : ℕ
  userId : UInt32
  deriving DecidableEq, Repr

/-- The transmission of a message. -/
def OperationPage.transmission (page : OperationPage) : Transmission :=
  ⟨page.block, page.data.id⟩

/-- The state of the task and of the radio.  The blocks of the messages are numbered as they come:
`next` is the next number.  `accepted` are the messages for one device, `sent` the messages of the
transmissions, `outcomes` the messages of the answered ones with their success, and `reports` what
the logic task has been sent. -/
structure RadioState where
  list : List OperationPage
  next : ℕ
  accepted : List Transmission
  awaited : List Transmission
  sent : List ℕ
  outcomes : List (ℕ × Bool)
  reports : List OperationPage
  deriving DecidableEq, Repr

/-- The state at the start of `manager_operation`. -/
def RadioState.init : RadioState :=
  ⟨[], 0, [], [], [], [], []⟩

/-- The effect of a call that leaves the task. -/
def RadioState.perform (s : RadioState) (action : OperationAction) : RadioState :=
  match action with
  | .sendData page =>
    { s with awaited := s.awaited ++ [page.transmission], sent := s.sent ++ [page.block] }
  | .sendResult page => { s with reports := s.reports ++ [page] }
  | .normalBroadcast _ => s
  | .otaBroadcast _ => s

/-- The task takes a message from its queue; allocations succeed. -/
def RadioState.take (s : RadioState) (message : OperationMsg) : Except Fault RadioState := do
  let (list, actions) ← managerOperation true message s.list
  return actions.foldl RadioState.perform { s with list := list }

/-- What can be next in the queue of the task: a message for one device, the result of a
transmission, a broadcast, a broadcast of an update, or the end of one. -/
inductive RadioEvent
  | msg (data : OperationData)
  | result (transmission : Transmission) (result : ℕ)
  | radio (data : OperationData)
  | otaRadio (data : OperationData)
  | otaRadioResult
  deriving DecidableEq, Repr

/-- One round of the loop of the task. -/
def radioStep (event : RadioEvent) (s : RadioState) : Except Fault RadioState :=
  match event with
  | .msg data =>
    RadioState.take
      { s with next := s.next + 1, accepted := s.accepted ++ [⟨s.next, data.id⟩] }
      (.msg ⟨s.next, data⟩)
  | .result transmission result =>
    RadioState.take
      { s with
        awaited := s.awaited.erase transmission
        outcomes := s.outcomes ++ [(transmission.block, decide (result = ucOpSucc))] }
      (.msgResult ⟨transmission.userId, result⟩)
  | .radio data => RadioState.take { s with next := s.next + 1 } (.radio ⟨s.next, data⟩)
  | .otaRadio data => RadioState.take { s with next := s.next + 1 } (.otaRadio ⟨s.next, data⟩)
  | .otaRadioResult => s.take .otaRadioResult

/-- What the callers and the radio see to: a message for one device has an id, is not a broadcast of
an update and is new; a result is one of an awaited transmission; a broadcast of an update has the
id 0. -/
def RadioGuard (_ : List RadioEvent) (event : RadioEvent) (s : RadioState) : Prop :=
  match event with
  | .msg data =>
    data.id ≠ 0 ∧ data.cmd ≠ appCmdGetSpecificDataSponse ∧ data.state = managerSendDefault
  | .result transmission _ => transmission ∈ s.awaited
  | .radio _ => True
  | .otaRadio data => data.id = 0 ∧ data.cmd = appCmdGetSpecificDataSponse
  | .otaRadioResult => True

instance (events : List RadioEvent) (event : RadioEvent) (s : RadioState) :
    Decidable (RadioGuard events event s) :=
  match event with
  | .msg _ => inferInstanceAs (Decidable (_ ∧ _ ∧ _))
  | .result _ _ => inferInstanceAs (Decidable (_ ∈ _))
  | .radio _ => inferInstanceAs (Decidable True)
  | .otaRadio _ => inferInstanceAs (Decidable (_ ∧ _))
  | .otaRadioResult => inferInstanceAs (Decidable True)

/-! ### Conservation -/

/-- The page is a message for one device. -/
def OperationPage.isUnicast (page : OperationPage) : Bool :=
  page.data.id != 0

/-- The transmissions of the messages for one device in a list of pages. -/
def unicasts (pages : List OperationPage) : List Transmission :=
  (pages.filter OperationPage.isUnicast).map OperationPage.transmission

/-- The invariant of the task and the radio. -/
structure RadioInv (s : RadioState) : Prop where
  /-- In the list, broadcasts of an update are the pages with the id 0. -/
  kind : ∀ p ∈ s.list, p.data.id = 0 ↔ p.data.cmd = appCmdGetSpecificDataSponse
  /-- No page is reported twice, or reported and in the list. -/
  nodup : ((s.reports ++ s.list).map OperationPage.block).Nodup
  lt_next : ∀ p ∈ s.reports ++ s.list, p.block < s.next
  sent_lt : ∀ b ∈ s.sent, b < s.next
  /-- What has been accepted has been reported or is in the list. -/
  conserved : s.accepted.Perm (unicasts (s.reports ++ s.list))
  /-- The awaited transmissions are for the devices of the messages in the list. -/
  awaited : (s.awaited.map Transmission.userId).Perm
    ((unicasts s.list).map Transmission.userId)
  /-- The state of a message counts its repeated transmissions. -/
  pending : ∀ p ∈ s.list, p.isUnicast = true →
    p.data.state ≤ 2 ∧ s.sent.count p.block = p.data.state + 1
  reported : ∀ r ∈ s.reports, r.isUnicast = true →
    (r.data.state = managerSendSuccess ∨ r.data.state = managerSendFail) ∧
      1 ≤ s.sent.count r.block ∧ s.sent.count r.block ≤ 3

/-- The messages for one device in two lists of pages. -/
lemma unicasts_append (pages pages' : List OperationPage) :
    unicasts (pages ++ pages') = unicasts pages ++ unicasts pages' := by
  unfold unicasts
  rw [List.filter_append, List.map_append]

/-- A message for one device in front of other pages. -/
lemma unicasts_cons {page : OperationPage} (h : page.isUnicast = true)
    (pages : List OperationPage) :
    unicasts (page :: pages) = page.transmission :: unicasts pages := by
  unfold unicasts
  rw [List.filter_cons_of_pos h, List.map_cons]

/-- Another page in front of other pages. -/
lemma unicasts_cons_of_not {page : OperationPage} (h : page.isUnicast = false)
    (pages : List OperationPage) : unicasts (page :: pages) = unicasts pages := by
  unfold unicasts
  rw [List.filter_cons_of_neg (ne_true_of_eq_false h)]

/-- The order of the pages does not matter. -/
lemma unicasts_perm {pages pages' : List OperationPage} (h : pages.Perm pages') :
    (unicasts pages).Perm (unicasts pages') :=
  (h.filter _).map _

/-- One more transmission of another message. -/
lemma count_snoc_of_ne {sent : List ℕ} {block b : ℕ} (hb : b ≠ block) :
    (sent ++ [block]).count b = sent.count b := by
  rw [List.count_append, List.count_singleton, if_neg (by simpa using hb.symm)]
  rfl

section Steps

variable {s : RadioState}

/-- The invariant holds at the start. -/
lemma radioInv_init : RadioInv RadioState.init where
  kind := by rintro p ⟨⟩
  nodup := List.nodup_nil
  lt_next := by rintro p ⟨⟩
  sent_lt := by rintro b ⟨⟩
  conserved := List.Perm.refl _
  awaited := List.Perm.refl _
  pending := by rintro p ⟨⟩
  reported := by rintro r ⟨⟩

/-- The invariant does not depend on the order of the list. -/
lemma RadioInv.perm (h : RadioInv s) {list : List OperationPage} (hperm : s.list.Perm list) :
    RadioInv { s with list := list } where
  kind p hp := h.kind p (hperm.mem_iff.mpr hp)
  nodup := ((hperm.append_left s.reports).map _).nodup_iff.mp h.nodup
  lt_next p hp := h.lt_next p ((hperm.append_left s.reports).mem_iff.mpr hp)
  sent_lt := h.sent_lt
  conserved := h.conserved.trans (unicasts_perm (hperm.append_left s.reports))
  awaited := h.awaited.trans ((unicasts_perm hperm).map _)
  pending p hp := h.pending p (hperm.mem_iff.mpr hp)
  reported := h.reported

/-- Numbers may be left out. -/
lemma RadioInv.skip (h : RadioInv s) : RadioInv { s with next := s.next + 1 } where
  kind := h.kind
  nodup := h.nodup
  lt_next p hp := Nat.lt_succ_of_lt (h.lt_next p hp)
  sent_lt b hb := Nat.lt_succ_of_lt (h.sent_lt b hb)
  conserved := h.conserved
  awaited := h.awaited
  pending := h.pending
  reported := h.reported

/-- The next number is not that of a page. -/
lemma RadioInv.next_notMem (h : RadioInv s) :
    s.next ∉ (s.reports ++ s.list).map OperationPage.block := by
  intro hmem
  obtain ⟨p, hp, hnext⟩ := List.mem_map.mp hmem
  exact absurd (h.lt_next p hp) (by rw [hnext]; exact lt_irrefl _)

/-- The pages with a new one at the end. -/
lemma RadioInv.nodup_snoc (h : RadioInv s) (data : OperationData) :
    ((s.reports ++ (s.list ++ [(⟨s.next, data⟩ : OperationPage)])).map
      OperationPage.block).Nodup := by
  rw [← List.append_assoc, List.map_append, List.nodup_append_comm]
  exact List.nodup_cons.mpr ⟨h.next_notMem, h.nodup⟩

/-- The pages with a new one at the end have numbers below the one after it. -/
lemma RadioInv.lt_next_snoc (h : RadioInv s) (data : OperationData) :
    ∀ p ∈ s.reports ++ (s.list ++ [(⟨s.next, data⟩ : OperationPage)]), p.block < s.next + 1 := by
  intro p hp
  rw [← List.append_assoc] at hp
  rcases List.mem_append.mp hp with hp | hp
  · exact Nat.lt_succ_of_lt (h.lt_next p hp)
  · rw [List.mem_singleton.mp hp]
    exact Nat.lt_succ_self _

/-- A broadcast of an update is put into the list. -/
lemma RadioInv.acceptOta (h : RadioInv s) {data : OperationData} (hid : data.id = 0)
    (hcmd : data.cmd = appCmdGetSpecificDataSponse) :
    RadioInv { s with list := s.list ++ [⟨s.next, data⟩], next := s.next + 1 } := by
  have hnot : OperationPage.isUnicast ⟨s.next, data⟩ = false := by
    simp [OperationPage.isUnicast, hid]
  have hlist : unicasts (s.list ++ [⟨s.next, data⟩]) = unicasts s.list := by
    rw [unicasts_append, unicasts_cons_of_not hnot]
    exact List.append_nil _
  constructor
  · intro p hp
    rcases List.mem_append.mp hp with hp | hp
    · exact h.kind p hp
    · rw [List.mem_singleton.mp hp]
      exact iff_of_true hid hcmd
  · exact h.nodup_snoc data
  · exact h.lt_next_snoc data
  · exact fun b hb => Nat.lt_succ_of_lt (h.sent_lt b hb)
  · rw [unicasts_append, hlist, ← unicasts_append]
    exact h.conserved
  · rw [hlist]
    exact h.awaited
  · intro p hp huni
    rcases List.mem_append.mp hp with hp | hp
    · exact h.pending p hp huni
    · rw [List.mem_singleton.mp hp, hnot] at huni
      cases huni
  · exact h.reported

/-- A message for one device is put into the list and sent. -/
lemma RadioInv.accept (h : RadioInv s) {data : OperationData} (hid : data.id ≠ 0)
    (hcmd : data.cmd ≠ appCmdGetSpecificDataSponse) (hstate : data.state = managerSendDefault) :
    RadioInv { s with
      list := s.list ++ [⟨s.next, data⟩]
      next := s.next + 1
      accepted := s.accepted ++ [⟨s.next, data.id⟩]
      awaited := s.awaited ++ [⟨s.next, data.id⟩]
      sent := s.sent ++ [s.next] } := by
  have huni : OperationPage.isUnicast ⟨s.next, data⟩ = true := by
    simpa [OperationPage.isUnicast] using hid
  have hlist : unicasts (s.list ++ [⟨s.next, data⟩]) =
      unicasts s.list ++ [⟨s.next, data.id⟩] := by
    rw [unicasts_append, unicasts_cons huni]
    rfl
  constructor
  · intro p hp
    rcases List.mem_append.mp hp with hp | hp
    · exact h.kind p hp
    · rw [List.mem_singleton.mp hp]
      exact iff_of_false hid hcmd
  · exact h.nodup_snoc data
  · exact h.lt_next_snoc data
  · intro b hb
    rcases List.mem_append.mp hb with hb | hb
    · exact Nat.lt_succ_of_lt (h.sent_lt b hb)
    · rw [List.mem_singleton.mp hb]
      exact Nat.lt_succ_self _
  · rw [unicasts_append, hlist, ← List.append_assoc, ← unicasts_append]
    exact h.conserved.append_right _
  · rw [hlist, List.map_append, List.map_append]
    exact h.awaited.append_right _
  · intro p hp hp'
    rcases List.mem_append.mp hp with hp | hp
    · rw [count_snoc_of_ne (ne_of_lt (h.lt_next p (List.mem_append_right _ hp)))]
      exact h.pending p hp hp'
    · -- the new message has been sent once
      have hzero : s.sent.count s.next = 0 :=
        List.count_eq_zero.mpr fun hmem => absurd (h.sent_lt _ hmem) (lt_irrefl _)
      rw [List.mem_singleton.mp hp]
      simp only [hstate, managerSendDefault]
      rw [List.count_append, hzero, List.count_singleton_self]
      exact ⟨Nat.zero_le _, rfl⟩
  · intro r hr hr'
    rw [count_snoc_of_ne (ne_of_lt (h.lt_next r (List.mem_append_left _ hr)))]
    exact h.reported r hr hr'

/-- The other pages have other numbers than the one at the head of the list. -/
lemma RadioInv.block_ne (h : RadioInv s) {page : OperationPage} {rest : List OperationPage}
    (hlist : s.list = page :: rest) {p : OperationPage} (hp : p ∈ s.reports ++ rest) :
    p.block ≠ page.block := by
  have hnodup := h.nodup
  rw [hlist, (List.perm_middle.map OperationPage.block).nodup_iff] at hnodup
  intro hblock
  exact (List.nodup_cons.mp hnodup).1 (hblock ▸ List.mem_map_of_mem hp)

/-- A page at the head of the list is the same message with another state. -/
lemma unicasts_cons_congr {page page' : OperationPage}
    (hpage : page'.transmission = page.transmission) (rest : List OperationPage) :
    unicasts (page' :: rest) = unicasts (page :: rest) := by
  have hid : page'.data.id = page.data.id := congrArg Transmission.userId hpage
  by_cases huni : page.isUnicast = true
  · have huni' : page'.isUnicast = true := by
      rwa [OperationPage.isUnicast, hid]
    rw [unicasts_cons huni, unicasts_cons huni', hpage]
  · have hnot := Bool.eq_false_iff.mpr huni
    have hnot' : page'.isUnicast = false := by
      rwa [OperationPage.isUnicast, hid]
    rw [unicasts_cons_of_not hnot, unicasts_cons_of_not hnot']

/-- A page is taken from the head of the list and reported with a state. -/
lemma RadioInv.move (h : RadioInv s) {page page' : OperationPage} {rest : List OperationPage}
    (hlist : s.list = page :: rest) (hpage : page'.transmission = page.transmission) :
    s.accepted.Perm (unicasts (s.reports ++ [page'] ++ rest)) ∧
      ((s.reports ++ [page'] ++ rest).map OperationPage.block).Nodup ∧
      ∀ p ∈ s.reports ++ [page'] ++ rest, p.block < s.next := by
  have hblock : page'.block = page.block := congrArg Transmission.block hpage
  have hsame : (s.reports ++ [page'] ++ rest).map OperationPage.block =
      (s.reports ++ s.list).map OperationPage.block := by
    simp [hlist, hblock]
  refine ⟨?_, ?_, ?_⟩
  · have hconserved := h.conserved
    rw [hlist, unicasts_append, ← unicasts_cons_congr hpage, ← unicasts_append] at hconserved
    rwa [List.append_assoc]
  · rw [hsame]
    exact h.nodup
  · intro p hp
    have hmem : p.block ∈ (s.reports ++ s.list).map OperationPage.block :=
      hsame ▸ List.mem_map_of_mem hp
    obtain ⟨q, hq, hblock⟩ := List.mem_map.mp hmem
    exact hblock ▸ h.lt_next q hq

/-- A broadcast of an update is taken out of the list and reported. -/
lemma RadioInv.reportOta (h : RadioInv s) {page : OperationPage} {rest : List OperationPage}
    (hlist : s.list = page :: rest) (hcmd : page.data.cmd = appCmdGetSpecificDataSponse) :
    RadioInv { s with list := rest, reports := s.reports ++ [page] } := by
  have hmem : page ∈ s.list := hlist ▸ List.mem_cons_self
  have hrest : ∀ p ∈ rest, p ∈ s.list := fun p hp => hlist ▸ List.mem_cons_of_mem _ hp
  have hnot : page.isUnicast = false := by
    simp [OperationPage.isUnicast, (h.kind page hmem).mpr hcmd]
  obtain ⟨hconserved, hnodup, hlt⟩ := h.move hlist rfl
  refine ⟨fun p hp => h.kind p (hrest p hp), hnodup, hlt, h.sent_lt, hconserved, ?_,
    fun p hp => h.pending p (hrest p hp), ?_⟩
  · have hawaited := h.awaited
    rwa [hlist, unicasts_cons_of_not hnot] at hawaited
  · intro r hr huni
    rcases List.mem_append.mp hr with hr | hr
    · exact h.reported r hr huni
    · rw [List.mem_singleton.mp hr, hnot] at huni
      cases huni

/-- The awaited transmissions when one for the device of the first page is answered. -/
lemma RadioInv.answer (h : RadioInv s) {page : OperationPage} {rest : List OperationPage}
    (hlist : s.list = page :: rest) (huni : page.isUnicast = true) {transmission : Transmission}
    (hawaited : transmission ∈ s.awaited) (hid : page.data.id = transmission.userId) :
    ((s.awaited.erase transmission).map Transmission.userId).Perm
      ((unicasts rest).map Transmission.userId) := by
  have hperm := ((List.perm_cons_erase hawaited).map Transmission.userId).symm.trans h.awaited
  rw [hlist, unicasts_cons huni, List.map_cons, List.map_cons, OperationPage.transmission,
    hid] at hperm
  exact hperm.cons_inv

/-- A message for one device is taken out of the list and reported. -/
lemma RadioInv.report (h : RadioInv s) {page : OperationPage} {rest : List OperationPage}
    (hlist : s.list = page :: rest) (huni : page.isUnicast = true) {transmission : Transmission}
    (hawaited : transmission ∈ s.awaited) (hid : page.data.id = transmission.userId) {state : ℕ}
    (hstate : state = managerSendSuccess ∨ state = managerSendFail) (outcomes : List (ℕ × Bool)) :
    RadioInv { s with
      list := rest
      awaited := s.awaited.erase transmission
      outcomes := outcomes
      reports := s.reports ++ [page.setState state] } := by
  have hmem : page ∈ s.list := hlist ▸ List.mem_cons_self
  have hrest : ∀ p ∈ rest, p ∈ s.list := fun p hp => hlist ▸ List.mem_cons_of_mem _ hp
  have hpage : (page.setState state).transmission = page.transmission := rfl
  obtain ⟨hconserved, hnodup, hlt⟩ := h.move hlist hpage
  refine ⟨fun p hp => h.kind p (hrest p hp), hnodup, hlt, h.sent_lt, hconserved,
    h.answer hlist huni hawaited hid, fun p hp => h.pending p (hrest p hp), ?_⟩
  intro r hr hr'
  rcases List.mem_append.mp hr with hr | hr
  · exact h.reported r hr hr'
  · obtain ⟨hle, hcount⟩ := h.pending page hmem huni
    rw [List.mem_singleton.mp hr]
    refine ⟨hstate, ?_, ?_⟩
    · change 1 ≤ s.sent.count page.block
      omega
    · change s.sent.count page.block ≤ 3
      omega

/-- A message for one device is sent again. -/
lemma RadioInv.resend (h : RadioInv s) {page : OperationPage} {rest : List OperationPage}
    (hlist : s.list = page :: rest) (huni : page.isUnicast = true) {transmission : Transmission}
    (hawaited : transmission ∈ s.awaited) (hid : page.data.id = transmission.userId)
    (hstate : page.data.state < 2) (outcomes : List (ℕ × Bool)) :
    RadioInv { s with
      list := page.setState (page.data.state + 1) :: rest
      awaited := s.awaited.erase transmission ++ [page.transmission]
      sent := s.sent ++ [page.block]
      outcomes := outcomes } := by
  have hmem : page ∈ s.list := hlist ▸ List.mem_cons_self
  have hrest : ∀ p ∈ rest, p ∈ s.list := fun p hp => hlist ▸ List.mem_cons_of_mem _ hp
  have hpage : (page.setState (page.data.state + 1)).transmission = page.transmission := rfl
  obtain ⟨hconserved, hnodup, hlt⟩ := h.move hlist hpage
  rw [List.append_assoc] at hconserved hnodup hlt
  have hcount : ∀ p ∈ s.reports ++ rest,
      (s.sent ++ [page.block]).count p.block = s.sent.count p.block :=
    fun p hp => count_snoc_of_ne (h.block_ne hlist hp)
  constructor
  · intro p hp
    rcases List.mem_cons.mp hp with rfl | hp
    · exact h.kind page hmem
    · exact h.kind p (hrest p hp)
  · exact hnodup
  · exact hlt
  · intro b hb
    rcases List.mem_append.mp hb with hb | hb
    · exact h.sent_lt b hb
    · rw [List.mem_singleton.mp hb]
      exact h.lt_next page (List.mem_append_right _ hmem)
  · exact hconserved
  · have hanswer := h.answer hlist huni hawaited hid
    rw [unicasts_cons_congr hpage, unicasts_cons huni, List.map_append, List.map_cons]
    exact (hanswer.append_right _).trans (List.perm_append_singleton _ _)
  · intro p hp hp'
    rcases List.mem_cons.mp hp with rfl | hp
    · obtain ⟨-, hsent⟩ := h.pending page hmem huni
      refine ⟨hstate, ?_⟩
      change (s.sent ++ [page.block]).count page.block = page.data.state + 1 + 1
      rw [List.count_append, hsent, List.count_singleton_self]
    · rw [hcount p (List.mem_append_right _ hp)]
      exact h.pending p (hrest p hp) hp'
  · intro r hr hr'
    rw [hcount r (List.mem_append_left _ hr)]
    exact h.reported r hr hr'

/-- A page of the list can be taken to its head. -/
lemma RadioInv.toHead (h : RadioInv s) {pre post : List OperationPage} {page : OperationPage}
    (hlist : s.list = pre ++ page :: post) : RadioInv { s with list := page :: (pre ++ post) } :=
  h.perm (hlist ▸ List.perm_middle)

/-- The result of an awaited transmission finds a message of its device. -/
lemma RadioInv.result_cases (h : RadioInv s) {transmission : Transmission}
    (hawaited : transmission ∈ s.awaited) (result : ℕ) :
    ∃ pre process post, FirstFor s.list transmission.userId pre process post ∧
      process.isUnicast = true ∧
      ((result = ucOpSucc ∧ managerOperateResult true s.list ⟨transmission.userId, result⟩ =
          (pre ++ post, [.sendResult (process.setState managerSendSuccess)])) ∨
        (result ≠ ucOpSucc ∧ 2 ≤ process.data.state ∧
          managerOperateResult true s.list ⟨transmission.userId, result⟩ =
            (pre ++ post, [.sendResult (process.setState managerSendFail)])) ∨
        (result ≠ ucOpSucc ∧ process.data.state < 2 ∧
          managerOperateResult true s.list ⟨transmission.userId, result⟩ =
            (process.setState (process.data.state + 1) :: (pre ++ post),
              [.sendData process]))) := by
  have hmem : transmission.userId ∈ (unicasts s.list).map Transmission.userId :=
    h.awaited.mem_iff.mp (List.mem_map_of_mem hawaited)
  obtain ⟨t, ht, hid⟩ := List.mem_map.mp hmem
  obtain ⟨p, hp, rfl⟩ := List.mem_map.mp ht
  obtain ⟨hp, huni⟩ := List.mem_filter.mp hp
  rcases managerOperateResult_cases s.list ⟨transmission.userId, result⟩ with
    ⟨hnone, -⟩ | ⟨pre, process, post, hfirst, hcases⟩
  · exact absurd hid (hnone p hp)
  · refine ⟨pre, process, post, hfirst, ?_, hcases⟩
    rw [OperationPage.isUnicast, hfirst.id_eq, ← hid]
    exact huni

/-- Every round of the loop keeps the invariant. -/
lemma RadioInv.step (h : RadioInv s) {events : List RadioEvent} {event : RadioEvent}
    {s' : RadioState} (hguard : RadioGuard events event s) (hstep : radioStep event s = .ok s') :
    RadioInv s' := by
  cases event with
  | msg data =>
    obtain ⟨hid, hcmd, hstate⟩ := hguard
    cases hstep
    exact h.accept hid hcmd hstate
  | result transmission result =>
    obtain ⟨pre, process, post, hfirst, huni, hcases⟩ := h.result_cases hguard result
    have hhead := h.toHead hfirst.list_eq
    simp only [radioStep, RadioState.take, managerOperation, ok_bind] at hstep
    rcases hcases with ⟨-, heq⟩ | ⟨-, -, heq⟩ | ⟨-, hlt, heq⟩
    · rw [heq] at hstep
      cases hstep
      exact hhead.report rfl huni hguard hfirst.id_eq (.inl rfl) _
    · rw [heq] at hstep
      cases hstep
      exact hhead.report rfl huni hguard hfirst.id_eq (.inr rfl) _
    · rw [heq] at hstep
      cases hstep
      exact hhead.resend rfl huni hguard hfirst.id_eq hlt _
  | radio data =>
    cases hstep
    exact h.skip
  | otaRadio data =>
    cases hstep
    exact h.acceptOta hguard.1 hguard.2
  | otaRadioResult =>
    simp only [radioStep, RadioState.take, managerOperation, ok_bind] at hstep
    rcases managerOtaResultMsg_cases s.list with heq | ⟨pre, process, post, hlist, hcmd, heq⟩
    · rw [heq] at hstep
      cases hstep
      exact h
    · rw [heq] at hstep
      cases hstep
      exact (h.toHead hlist).reportOta rfl hcmd

end Steps

/-- The invariant holds after every run. -/
lemma radioInv_of_run {events : List RadioEvent} {s : RadioState}
    (hrun : GuardedRun radioStep RadioGuard RadioState.init events s) : RadioInv s := by
  refine hrun.invariant (P := fun _ s => RadioInv s) radioInv_init ?_
  intro events event s s' h hguard hstep
  exact h.step hguard hstep

/-! ### What the invariant says -/

section Consequences

variable {s : RadioState}

/-- For every device there are as many messages in the list as transmissions awaited. -/
lemma RadioInv.countP_awaited (h : RadioInv s) {id : UInt32} (hid : id ≠ 0) :
    s.awaited.countP (fun t => t.userId = id) = s.list.countP (fun p => p.data.id = id) := by
  have hcount := h.awaited.countP_eq fun userId => decide (userId = id)
  rw [List.countP_map, List.countP_map, unicasts, List.countP_map, List.countP_filter] at hcount
  refine hcount.trans (List.countP_congr fun p _ => ?_)
  simp only [Function.comp_apply, OperationPage.transmission, OperationPage.isUnicast]
  constructor
  · intro hp
    exact (Bool.and_eq_true_iff.mp hp).1
  · intro hp
    have hp' := of_decide_eq_true hp
    exact Bool.and_eq_true_iff.mpr ⟨hp, by simpa [hp'] using hid⟩

/-- An accepted message is in the list or has been reported. -/
lemma RadioInv.mem_accepted (h : RadioInv s) {m : Transmission} (hm : m ∈ s.accepted) :
    ∃ p ∈ s.reports ++ s.list, p.isUnicast = true ∧ p.transmission = m := by
  have hmem := h.conserved.mem_iff.mp hm
  obtain ⟨p, hp, htx⟩ := List.mem_map.mp hmem
  obtain ⟨hp, huni⟩ := List.mem_filter.mp hp
  exact ⟨p, hp, huni, htx⟩

/-- No message is reported twice. -/
lemma RadioInv.countP_reports_le (h : RadioInv s) (block : ℕ) :
    s.reports.countP (fun r => r.block = block) ≤ 1 := by
  have hnodup := h.nodup
  rw [List.map_append] at hnodup
  have hcount := List.nodup_iff_count_le_one.mp hnodup.of_append_left block
  rw [List.count, List.countP_map] at hcount
  refine le_trans (le_of_eq (List.countP_congr fun r _ => ?_)) hcount
  simp

/-- Two pages with one number are the same. -/
lemma RadioInv.eq_of_block (h : RadioInv s) {p q : OperationPage} (hp : p ∈ s.reports ++ s.list)
    (hq : q ∈ s.reports ++ s.list) (hblock : p.block = q.block) : p = q :=
  List.inj_on_of_nodup_map h.nodup hp hq hblock

/-- An accepted message has been sent between once and three times. -/
lemma RadioInv.sent_bounds (h : RadioInv s) {m : Transmission} (hm : m ∈ s.accepted) :
    1 ≤ s.sent.count m.block ∧ s.sent.count m.block ≤ 3 := by
  obtain ⟨p, hp, huni, rfl⟩ := h.mem_accepted hm
  rcases List.mem_append.mp hp with hp | hp
  · exact (h.reported p hp huni).2
  · obtain ⟨hle, hcount⟩ := h.pending p hp huni
    change 1 ≤ s.sent.count p.block ∧ s.sent.count p.block ≤ 3
    omega

/-- An accepted message is reported with success or failure. -/
lemma RadioInv.report_state (h : RadioInv s) {m : Transmission} (hm : m ∈ s.accepted)
    {r : OperationPage} (hr : r ∈ s.reports) (hblock : r.block = m.block) :
    r.data.state = managerSendSuccess ∨ r.data.state = managerSendFail := by
  obtain ⟨p, hp, huni, rfl⟩ := h.mem_accepted hm
  cases h.eq_of_block (List.mem_append_left _ hr) hp hblock
  exact (h.reported r hr huni).1

/-- When nothing is awaited for a device, none of its messages is in the list. -/
lemma RadioInv.list_of_answered (h : RadioInv s) {id : UInt32} (hid : id ≠ 0)
    (hnone : ∀ t ∈ s.awaited, t.userId ≠ id) : ∀ p ∈ s.list, p.data.id ≠ id := by
  have hzero : s.awaited.countP (fun t => t.userId = id) = 0 :=
    List.countP_eq_zero.mpr fun t ht => by simpa using hnone t ht
  rw [h.countP_awaited hid, List.countP_eq_zero] at hzero
  intro p hp
  simpa using hzero p hp

/-- When nothing is awaited for a device, all its messages have been reported. -/
lemma RadioInv.reported_of_answered (h : RadioInv s) {id : UInt32} (hid : id ≠ 0)
    (hnone : ∀ t ∈ s.awaited, t.userId ≠ id) {m : Transmission} (hm : m ∈ s.accepted)
    (hmid : m.userId = id) : s.reports.countP (fun r => r.block = m.block) = 1 := by
  obtain ⟨p, hp, -, rfl⟩ := h.mem_accepted hm
  refine le_antisymm (h.countP_reports_le _) (List.countP_pos_iff.mpr ?_)
  rcases List.mem_append.mp hp with hp | hp
  · exact ⟨p, hp, decide_eq_true rfl⟩
  · exact absurd hmid (h.list_of_answered hid hnone p hp)

end Consequences

/-- **The retry queue loses nothing.**  In every run, for every order of the messages and of the
results:

* for every device there are as many transmissions awaited as messages in the list,
* every accepted message has been sent once, twice or three times,
* it has been reported at most once, with success or failure,
* and when nothing is awaited for a device, its messages have been reported exactly once, and none
  is in the list. -/
theorem retryQueue_conserved {events : List RadioEvent} {s : RadioState}
    (hrun : GuardedRun radioStep RadioGuard RadioState.init events s) :
    (∀ id, id ≠ 0 →
      s.awaited.countP (fun t => t.userId = id) = s.list.countP (fun p => p.data.id = id)) ∧
    (∀ m ∈ s.accepted, 1 ≤ s.sent.count m.block ∧ s.sent.count m.block ≤ 3) ∧
    (∀ m ∈ s.accepted, s.reports.countP (fun r => r.block = m.block) ≤ 1 ∧
      ∀ r ∈ s.reports, r.block = m.block →
        r.data.state = managerSendSuccess ∨ r.data.state = managerSendFail) ∧
    ∀ id, id ≠ 0 → (∀ t ∈ s.awaited, t.userId ≠ id) →
      (∀ m ∈ s.accepted, m.userId = id → s.reports.countP (fun r => r.block = m.block) = 1) ∧
      ∀ p ∈ s.list, p.data.id ≠ id := by
  have h := radioInv_of_run hrun
  refine ⟨fun id hid => h.countP_awaited hid, fun m hm => h.sent_bounds hm, fun m hm => ?_,
    fun id hid hnone => ⟨fun m hm => h.reported_of_answered hid hnone hm,
      h.list_of_answered hid hnone⟩⟩
  exact ⟨h.countP_reports_le m.block, fun r hr => h.report_state hm hr⟩

/-- A message for the device 7 with command 40. -/
def sampleMessage : OperationData :=
  managerLogicSendToOperater 1 0xFFFFFFF1 40 7 [0xAA] none (some .managerNetworkToWiotaResult)

/-- The state after two messages for one device and the failure of one of the transmissions. -/
def twoReported : RadioState where
  list := []
  next := 2
  accepted := [⟨0, 7⟩, ⟨1, 7⟩]
  awaited := []
  sent := [0, 1, 0]
  outcomes := [(1, false), (0, true), (0, true)]
  reports := [⟨0, { sampleMessage with state := managerSendSuccess }⟩,
    ⟨1, { sampleMessage with state := managerSendSuccess }⟩]

/-- Both messages are reported once. -/
theorem retryQueue_conserved_two :
    GuardedRun radioStep RadioGuard RadioState.init
        [.msg sampleMessage, .msg sampleMessage, .result ⟨1, 7⟩ 2, .result ⟨0, 7⟩ 0,
          .result ⟨0, 7⟩ 0] twoReported ∧
      ∀ m ∈ twoReported.accepted, m.userId = 7 →
        twoReported.reports.countP (fun r => r.block = m.block) = 1 := by
  have hrun : GuardedRun radioStep RadioGuard RadioState.init
      [.msg sampleMessage, .msg sampleMessage, .result ⟨1, 7⟩ 2, .result ⟨0, 7⟩ 0,
        .result ⟨0, 7⟩ 0] twoReported :=
    guardedRun_of_exec (by decide)
  exact ⟨hrun, ((retryQueue_conserved hrun).2.2.2 7 (by decide) (by rintro t ⟨⟩)).1⟩

/-! ### Attribution of the results -/

/-- The report is right: success only after the success of a transmission of the message, failure
only after the failure of its three transmissions. -/
def RightReport (outcomes : List (ℕ × Bool)) (sent : List ℕ) (r : OperationPage) : Prop :=
  (r.data.state = managerSendSuccess → true ∈ entriesOf outcomes r.block) ∧
    (r.data.state = managerSendFail →
      entriesOf outcomes r.block = [false, false, false] ∧ sent.count r.block = 3)

/-- The reports of messages for one device are right. -/
def Attributed (s : RadioState) : Prop :=
  ∀ r ∈ s.reports, r.isUnicast = true → RightReport s.outcomes s.sent r

/-- The results under which the reports are right: the first message in the list for the device is
the one whose transmission is answered. -/
def InOrderGuard (events : List RadioEvent) (event : RadioEvent) (s : RadioState) : Prop :=
  RadioGuard events event s ∧
    match event with
    | .result transmission _ =>
      (s.list.find? (queryResultCallback transmission.userId)).map OperationPage.block =
        some transmission.block
    | _ => True

instance (events : List RadioEvent) (event : RadioEvent) (s : RadioState) :
    Decidable (InOrderGuard events event s) :=
  match event with
  | .msg data => inferInstanceAs (Decidable (RadioGuard events (.msg data) s ∧ True))
  | .result transmission result =>
    inferInstanceAs (Decidable (RadioGuard events (.result transmission result) s ∧ _ = _))
  | .radio data => inferInstanceAs (Decidable (RadioGuard events (.radio data) s ∧ True))
  | .otaRadio data => inferInstanceAs (Decidable (RadioGuard events (.otaRadio data) s ∧ True))
  | .otaRadioResult => inferInstanceAs (Decidable (RadioGuard events .otaRadioResult s ∧ True))

/-- The invariant of the attribution: a message in the list has as many results as its state says,
all of them failures. -/
structure OutcomesInv (s : RadioState) : Prop where
  radio : RadioInv s
  lt_next : ∀ o ∈ s.outcomes, o.1 < s.next
  pending : ∀ p ∈ s.list, p.isUnicast = true →
    entriesOf s.outcomes p.block = List.replicate p.data.state false
  attributed : Attributed s

/-- A report stays right while its message has no more transmissions and results. -/
lemma RightReport.of_eq {outcomes outcomes' : List (ℕ × Bool)} {sent sent' : List ℕ}
    {r : OperationPage} (h : RightReport outcomes sent r)
    (houtcomes : entriesOf outcomes' r.block = entriesOf outcomes r.block)
    (hsent : sent'.count r.block = sent.count r.block) : RightReport outcomes' sent' r := by
  unfold RightReport
  rw [houtcomes, hsent]
  exact h

section Attribution

variable {s : RadioState}

/-- The next message has no results yet. -/
lemma OutcomesInv.entriesOf_next (h : OutcomesInv s) : entriesOf s.outcomes s.next = [] :=
  entriesOf_eq_nil fun o ho => ne_of_lt (h.lt_next o ho)

/-- The attribution holds at the start. -/
lemma outcomesInv_init : OutcomesInv RadioState.init :=
  ⟨radioInv_init, by rintro o ⟨⟩, by rintro p ⟨⟩, by rintro r ⟨⟩⟩

/-- One more result of the message at the head of the list: what it leaves of the attribution of the
other messages. -/
lemma OutcomesInv.others (h : OutcomesInv s) {page : OperationPage} {rest : List OperationPage}
    (hlist : s.list = page :: rest) (ok : Bool) :
    (∀ o ∈ s.outcomes ++ [(page.block, ok)], o.1 < s.next) ∧
    (∀ p ∈ rest, p.isUnicast = true →
      entriesOf (s.outcomes ++ [(page.block, ok)]) p.block =
        List.replicate p.data.state false) ∧
    ∀ r ∈ s.reports, r.isUnicast = true →
      RightReport (s.outcomes ++ [(page.block, ok)]) s.sent r ∧
        RightReport (s.outcomes ++ [(page.block, ok)]) (s.sent ++ [page.block]) r := by
  have hmem : page ∈ s.list := hlist ▸ List.mem_cons_self
  have hrest : ∀ p ∈ rest, p ∈ s.list := fun p hp => hlist ▸ List.mem_cons_of_mem _ hp
  refine ⟨?_, ?_, ?_⟩
  · intro o ho
    rcases List.mem_append.mp ho with ho | ho
    · exact h.lt_next o ho
    · rw [List.mem_singleton.mp ho]
      exact h.radio.lt_next page (List.mem_append_right _ hmem)
  · intro p hp huni
    have hne := h.radio.block_ne hlist (List.mem_append_right _ hp)
    rw [entriesOf_snoc_of_ne _ hne]
    exact h.pending p (hrest p hp) huni
  · intro r hr huni
    have hne := h.radio.block_ne hlist (List.mem_append_left _ hr)
    have hright := h.attributed r hr huni
    have houtcomes := entriesOf_snoc_of_ne s.outcomes hne ok
    exact ⟨hright.of_eq houtcomes rfl, hright.of_eq houtcomes (count_snoc_of_ne hne)⟩

/-- The attribution does not depend on the order of the list. -/
lemma OutcomesInv.toHead (h : OutcomesInv s) {pre post : List OperationPage} {page : OperationPage}
    (hlist : s.list = pre ++ page :: post) :
    OutcomesInv { s with list := page :: (pre ++ post) } where
  radio := h.radio.toHead hlist
  lt_next := h.lt_next
  pending p hp := h.pending p (by rw [hlist]; exact List.perm_middle.mem_iff.mpr hp)
  attributed := h.attributed

/-- A result that belongs to the first message for its device keeps the attribution. -/
lemma OutcomesInv.result (h : OutcomesInv s) {events : List RadioEvent}
    {transmission : Transmission} {result : ℕ} {s' : RadioState}
    (hguard : InOrderGuard events (.result transmission result) s)
    (hstep : radioStep (.result transmission result) s = .ok s') : OutcomesInv s' := by
  have hradio := h.radio.step hguard.1 hstep
  obtain ⟨hawaited, hown⟩ := hguard
  obtain ⟨pre, process, post, hfirst, huni, hcases⟩ := h.radio.result_cases hawaited result
  have hblock : transmission.block = process.block := by
    simp only [hfirst.find?_eq, Option.map_some, Option.some.injEq] at hown
    exact hown.symm
  have hhead := h.toHead hfirst.list_eq
  have hpending := hhead.pending process List.mem_cons_self huni
  obtain ⟨hle, hcount⟩ := hhead.radio.pending process List.mem_cons_self huni
  obtain ⟨hlt, hrest, hreports⟩ := hhead.others rfl (decide (result = ucOpSucc))
  -- one more report keeps the attribution if it is right itself
  have hanswer : ∀ page,
      RightReport (s.outcomes ++ [(process.block, decide (result = ucOpSucc))]) s.sent page →
      ∀ r ∈ s.reports ++ [page], r.isUnicast = true →
        RightReport (s.outcomes ++ [(process.block, decide (result = ucOpSucc))]) s.sent r := by
    intro page hpage r hr hr'
    rcases List.mem_append.mp hr with hr | hr
    · exact (hreports r hr hr').1
    · rw [List.mem_singleton.mp hr]
      exact hpage
  simp only [radioStep, RadioState.take, managerOperation, ok_bind, hblock] at hstep
  rcases hcases with ⟨hsucc, heq⟩ | ⟨hsucc, hge, heq⟩ | ⟨hsucc, -, heq⟩
  · rw [heq] at hstep
    cases hstep
    refine ⟨hradio, hlt, hrest, hanswer _ ⟨fun _ => ?_, fun hstate => (by cases hstate)⟩⟩
    change true ∈ entriesOf (s.outcomes ++ [(process.block, _)]) process.block
    rw [entriesOf_snoc_self, decide_eq_true hsucc]
    exact List.mem_append_right _ List.mem_cons_self
  · rw [heq] at hstep
    cases hstep
    refine ⟨hradio, hlt, hrest, hanswer _ ⟨fun hstate => (by cases hstate), fun _ => ?_⟩⟩
    -- the third failure
    have htwo : process.data.state = 2 := le_antisymm hle hge
    change entriesOf (s.outcomes ++ [(process.block, _)]) process.block = _ ∧
      s.sent.count process.block = 3
    rw [htwo] at hpending hcount
    rw [entriesOf_snoc_self, hpending, decide_eq_false hsucc]
    exact ⟨rfl, hcount⟩
  · rw [heq] at hstep
    cases hstep
    refine ⟨hradio, hlt, ?_, fun r hr hr' => (hreports r hr hr').2⟩
    intro p hp hp'
    rcases List.mem_cons.mp hp with rfl | hp
    · change entriesOf (s.outcomes ++ [(process.block, _)]) process.block =
        List.replicate (process.data.state + 1) false
      rw [entriesOf_snoc_self, hpending, decide_eq_false hsucc, List.replicate_succ']
    · exact hrest p hp hp'

/-- Every round of the loop keeps the attribution, if the result belongs to the first message. -/
lemma OutcomesInv.step (h : OutcomesInv s) {events : List RadioEvent} {event : RadioEvent}
    {s' : RadioState} (hguard : InOrderGuard events event s) (hstep : radioStep event s = .ok s') :
    OutcomesInv s' := by
  have hradio := h.radio.step hguard.1 hstep
  cases event with
  | msg data =>
    cases hstep
    refine ⟨hradio, fun o ho => Nat.lt_succ_of_lt (h.lt_next o ho), ?_, ?_⟩
    · intro p hp huni
      rcases List.mem_append.mp hp with hp | hp
      · exact h.pending p hp huni
      · have hstate : data.state = 0 := hguard.1.2.2
        rw [List.mem_singleton.mp hp, hstate]
        exact h.entriesOf_next
    · intro r hr huni
      have hlt := h.radio.lt_next r (List.mem_append_left _ hr)
      exact (h.attributed r hr huni).of_eq rfl (count_snoc_of_ne (ne_of_lt hlt))
  | result transmission result => exact h.result hguard hstep
  | radio data =>
    cases hstep
    exact ⟨hradio, fun o ho => Nat.lt_succ_of_lt (h.lt_next o ho), h.pending, h.attributed⟩
  | otaRadio data =>
    cases hstep
    refine ⟨hradio, fun o ho => Nat.lt_succ_of_lt (h.lt_next o ho), ?_, h.attributed⟩
    intro p hp huni
    rcases List.mem_append.mp hp with hp | hp
    · exact h.pending p hp huni
    · rw [List.mem_singleton.mp hp, OperationPage.isUnicast, hguard.1.1] at huni
      cases huni
  | otaRadioResult =>
    simp only [radioStep, RadioState.take, managerOperation, ok_bind] at hstep
    rcases managerOtaResultMsg_cases s.list with heq | ⟨pre, process, post, hlist, hcmd, heq⟩
    · rw [heq] at hstep
      cases hstep
      exact h
    · rw [heq] at hstep
      cases hstep
      have hmem : process ∈ s.list := by
        rw [hlist]
        exact List.mem_append_right _ List.mem_cons_self
      have hhead := h.toHead hlist
      refine ⟨hradio, h.lt_next, fun p hp => hhead.pending p (List.mem_cons_of_mem _ hp), ?_⟩
      intro r hr huni
      rcases List.mem_append.mp hr with hr | hr
      · exact h.attributed r hr huni
      · rw [List.mem_singleton.mp hr, OperationPage.isUnicast,
          (h.radio.kind process hmem).mpr hcmd] at huni
        cases huni

end Attribution

/-- **Attribution.**  In every run in which each result belongs to the first message for its device,
every report is right: success only after the success of a transmission of the message itself,
failure only after the failure of all its three transmissions. -/
theorem results_attributed_of_inOrder {events : List RadioEvent} {s : RadioState}
    (hrun : GuardedRun radioStep InOrderGuard RadioState.init events s) : Attributed s := by
  have h : OutcomesInv s := by
    refine hrun.invariant (P := fun _ s => OutcomesInv s) outcomesInv_init ?_
    intro events event s s' h hguard hstep
    exact h.step hguard hstep
  exact h.attributed

/-- The state after two messages for one device whose results come in the order in which the
messages were sent. -/
def inOrderReported : RadioState where
  list := []
  next := 2
  accepted := [⟨0, 7⟩, ⟨1, 7⟩]
  awaited := []
  sent := [0, 1]
  outcomes := [(0, true), (1, true)]
  reports := [⟨0, { sampleMessage with state := managerSendSuccess }⟩,
    ⟨1, { sampleMessage with state := managerSendSuccess }⟩]

/-- Both reports are right. -/
theorem results_attributed_two :
    GuardedRun radioStep InOrderGuard RadioState.init
        [.msg sampleMessage, .msg sampleMessage, .result ⟨0, 7⟩ 0, .result ⟨1, 7⟩ 0]
        inOrderReported ∧ Attributed inOrderReported := by
  have hrun : GuardedRun radioStep InOrderGuard RadioState.init
      [.msg sampleMessage, .msg sampleMessage, .result ⟨0, 7⟩ 0, .result ⟨1, 7⟩ 0]
      inOrderReported := guardedRun_of_exec (by decide)
  exact ⟨hrun, results_attributed_of_inOrder hrun⟩

/-- The state after two messages for one device, of which the second one has been received. -/
def wrongReported : RadioState where
  list := [⟨1, sampleMessage⟩]
  next := 2
  accepted := [⟨0, 7⟩, ⟨1, 7⟩]
  awaited := [⟨0, 7⟩]
  sent := [0, 1]
  outcomes := [(1, true)]
  reports := [⟨0, { sampleMessage with state := managerSendSuccess }⟩]

/-- The success of the second message is reported as the success of the first one, none of whose
transmissions has been answered. -/
theorem results_wrong_of_later :
    GuardedRun radioStep RadioGuard RadioState.init
        [.msg sampleMessage, .msg sampleMessage, .result ⟨1, 7⟩ 0] wrongReported ∧
      ¬ Attributed wrongReported := by
  refine ⟨guardedRun_of_exec (by decide), fun h => ?_⟩
  have hright := h _ List.mem_cons_self (by decide)
  have htrue : true ∈ entriesOf wrongReported.outcomes 0 := hright.1 rfl
  revert htrue
  decide

end WiotaAp
