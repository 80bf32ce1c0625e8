import WiotaAp.AtSimplified.Commands
import WiotaAp.Foundation.Runs

/-!
# The rate of the simplified AT commands

`AT+RATE` keeps the rate mode in the record and applies it to the stack.  The readers of the rate,
`at_get_send_timeout` and `at_get_max_awaken_id`, look it up in `rate_mode_map`, the first one with
the index `rate_mode - 1` and the second one with the index `rate_mode`.

`RateAgrees s r` says that the mode `r` is in use everywhere: in the stack, in the answer to
`AT+RATE?` and for both readers.  `rate_state_iff` says which commands keep this for the mode that
was answered with OK last: a mode with the symbol length of the old one is not kept in the record,
and the wake-up ids belong to the symbol length of the next entry of the table.
-/

namespace WiotaAp

open Buffers

/-! ### The readers of the rate -/

/-- Reading an entry of a table. -/
def tableAt {α : Type} (table : List α) (i : ℕ) : Except Fault α :=
  match table[i]? with
  | none => .error .outOfBounds
  | some entry => .ok entry

/-- An entry inside the table. -/
lemma tableAt_of_lt {α : Type} {table : List α} {i : ℕ} (h : i < table.length) :
    tableAt table i = .ok (table.get ⟨i, h⟩) := by
  rw [tableAt, List.getElem?_eq_getElem h]
  rfl

/-- The tables of the readers have an entry for every symbol length. -/
lemma RateModeE.symbolLength_lt (r : RateModeE) : r.entry.symbolLength < 4 := by
  have htable : ∀ e ∈ rateModeMap, e.symbolLength < 4 := by decide
  exact htable _ (List.get_mem _ _)

/-- `g_max_awaken_id_table`. -/
def maxAwakenIdTable : List UInt16 := [1023, 4095, 16383, 65535]

/-- The symbol length of `at_get_max_awaken_id`, of the entry `rate_mode_map[rate_mode]`. -/
def awakenSymbolLength (loc : AtLocal) : Except Fault ℕ := do
  let rateMode ← tableAt rateModeMap loc.rateMode.val
  return rateMode.symbolLength

/-- `at_get_max_awaken_id`. -/
def atGetMaxAwakenId (loc : AtLocal) : Except Fault UInt16 := do
  let symbolLength ← awakenSymbolLength loc
  tableAt maxAwakenIdTable symbolLength

/-- `send_timeout`, in seconds: of unicast and of broadcast data. -/
def sendTimeout : List (List ℕ) := [[20, 40, 80, 160], [40, 80, 160, 320]]

/-- The symbol length of `at_get_send_timeout`, of the entry `rate_mode_map[rate_mode - 1]`. -/
def sendSymbolLength (loc : AtLocal) : ℕ := loc.rateMode.entry.symbolLength

/-- `at_get_send_timeout`, in milliseconds. -/
def atGetSendTimeout (type : ℕ) (loc : AtLocal) : Except Fault ℕ := do
  let row ← tableAt sendTimeout type
  let seconds ← tableAt row (sendSymbolLength loc)
  return seconds * 1000

/-- The wake-up id of a single address; the last id is the one of all. -/
def unicastAwakenId (addr : UInt32) (maxAwakenId : UInt16) : UInt16 :=
  (addr % (maxAwakenId.toUInt32 - 1)).toUInt16

/-- What `AT+SLEEP` sets of `uc_lpm_rx_cfg_t`. -/
structure LpmRxCfg where
  mode : ℕ
  spectrumIdx : ℕ
  symbolLength : ℕ
  freq : UInt8
  detectPeriod : UInt32
  periodMultiple : ℕ
  awakenId : UInt16
  awakenIdAnother : UInt16
  deriving DecidableEq, Repr

/-- What `AT+WAKEUP` sets of `uc_lpm_tx_cfg_t`. -/
structure LpmTxCfg where
  mode : ℕ
  spectrumIdx : ℕ
  symbolLength : ℕ
  freq : UInt8
  sendTime : UInt32
  awakenId : UInt16
  deriving DecidableEq, Repr

/-- `MIN_SLEEP_TIME` and `MAX_SLEEP_TIME`, in milliseconds. -/
def SleepTimeOk (time : UInt32) : Prop := 100 ≤ time ∧ time ≤ 44000

instance (time : UInt32) : Decidable (SleepTimeOk time) :=
  inferInstanceAs (Decidable (_ ∧ _))

/-- `at_wiota_sleep_setup`: the result, and the configuration that is set. -/
def atWiotaSleepSetup (time : Option UInt32) (s : AtState) :
    Except Fault (AtResult × Option LpmRxCfg) :=
  match time with
  | none => .ok (.parseFaile, none)
  | some time =>
    if SleepTimeOk time then do
      let maxAwakenId ← atGetMaxAwakenId s.loc
      return (.ok, some
        { mode := 1
          spectrumIdx := s.radio.config.spectrumIdx
          symbolLength := s.radio.config.symbolLength
          freq := s.radio.config.freqIdx
          detectPeriod := time
          periodMultiple := 1
          awakenId := unicastAwakenId s.loc.addr maxAwakenId
          awakenIdAnother := maxAwakenId })
    else .ok (.faile, none)

/-- `at_wiota_wakeup_setup`; `startOk` says whether `uc_wiota_paging_tx_start` succeeds. -/
def atWiotaWakeupSetup (args : Option (UInt32 × UInt32)) (startOk : Bool) (s : AtState) :
    Except Fault (AtResult × Option LpmTxCfg) :=
  match args with
  | none => .ok (.parseFaile, none)
  | some (addr, time) =>
    if SleepTimeOk time then do
      let maxAwakenId ← atGetMaxAwakenId s.loc
      return (if startOk then .ok else .faile, some
        { mode := 1
          spectrumIdx := s.radio.config.spectrumIdx
          symbolLength := s.radio.config.symbolLength
          freq := s.radio.config.freqIdx
          sendTime := time + 100
          awakenId := if addr = 0 then maxAwakenId else unicastAwakenId addr maxAwakenId })
    else .ok (.faile, none)

/-! ### The rate in use -/

/-- The mode `r` is in use in the stack, in the answer to `AT+RATE?` and for both readers. -/
structure RateAgrees (s : AtState) (r : RateModeE) : Prop where
  symbolLength : s.radio.config.symbolLength = r.entry.symbolLength
  unicastMcs : s.radio.unicastMcs = r.entry.mcs
  broadcastMcs : s.radio.broadcastMcs = r.entry.mcs
  query : atWiotaRateQuery s = r.val
  send : sendSymbolLength s.loc = r.entry.symbolLength
  awaken : awakenSymbolLength s.loc = .ok r.entry.symbolLength

/-- The modes for which the next entry of the table has the same symbol length. -/
def wakeableRates : List ℕ := [1, 3, 4, 5]

/-- The index without the offset finds the right symbol length for four of the modes only; for the
last mode it is beyond the end of the table. -/
lemma awakenSymbolLength_iff (loc : AtLocal) :
    awakenSymbolLength loc = .ok loc.rateMode.entry.symbolLength ↔
      loc.rateMode.val ∈ wakeableRates := by
  obtain ⟨addr, subsystemid, baseFreq, curFreq, spectrumIdx, power, ⟨r, hpos, hle⟩⟩ := loc
  have htable : ∀ i : Fin rateModeMap.length,
      (tableAt rateModeMap (i.val + 1) >>= fun m => pure m.symbolLength) =
          (.ok (rateModeMap.get i).symbolLength : Except Fault ℕ) ↔
        i.val + 1 ∈ wakeableRates := by
    decide
  have hr := htable ⟨r - 1, lt_of_lt_of_le (Nat.sub_lt hpos Nat.one_pos) hle⟩
  rwa [Nat.sub_add_cancel hpos] at hr

/-- The readers say no more than the record. -/
lemma rateAgrees_iff (s : AtState) (r : RateModeE) :
    RateAgrees s r ↔ s.loc.rateMode = r ∧ r.val ∈ wakeableRates ∧
      s.radio.config.symbolLength = r.entry.symbolLength ∧
      s.radio.unicastMcs = r.entry.mcs ∧ s.radio.broadcastMcs = r.entry.mcs := by
  constructor
  · rintro ⟨hsymbol, hunicast, hbroadcast, hquery, -, hawaken⟩
    have hmode : s.loc.rateMode = r := RateModeE.eq_of_val_eq hquery
    rw [← hmode, awakenSymbolLength_iff, hmode] at hawaken
    exact ⟨hmode, hawaken, hsymbol, hunicast, hbroadcast⟩
  · rintro ⟨rfl, hwake, hsymbol, hunicast, hbroadcast⟩
    exact ⟨hsymbol, hunicast, hbroadcast, rfl, rfl, (awakenSymbolLength_iff _).mpr hwake⟩

/-- `AT+SLEEP` and `AT+WAKEUP` use the ids up to `maxAwakenId`, with the last one for all, and the
symbol length `symbolLength`. -/
structure WakeupIds (s : AtState) (symbolLength : ℕ) (maxAwakenId : UInt16) : Prop where
  sleep : ∀ time, SleepTimeOk time → ∃ cfg, atWiotaSleepSetup (some time) s = .ok (.ok, some cfg) ∧
    cfg.symbolLength = symbolLength ∧ cfg.awakenId = unicastAwakenId s.loc.addr maxAwakenId ∧
    cfg.awakenIdAnother = maxAwakenId
  wakeup : ∀ addr time startOk, SleepTimeOk time →
    ∃ result cfg, atWiotaWakeupSetup (some (addr, time)) startOk s = .ok (result, some cfg) ∧
      cfg.symbolLength = symbolLength ∧
      cfg.awakenId = if addr = 0 then maxAwakenId else unicastAwakenId addr maxAwakenId

/-- With the mode in use the wake-up ids are those of its symbol length. -/
lemma RateAgrees.exists_wakeupIds {s : AtState} {r : RateModeE} (h : RateAgrees s r) :
    ∃ maxAwakenId, maxAwakenIdTable[r.entry.symbolLength]? = some maxAwakenId ∧
      WakeupIds s r.entry.symbolLength maxAwakenId := by
  have hlt : r.entry.symbolLength < maxAwakenIdTable.length := r.symbolLength_lt
  have hmax : atGetMaxAwakenId s.loc = .ok (maxAwakenIdTable.get ⟨_, hlt⟩) := by
    rw [atGetMaxAwakenId, h.awaken, ok_bind, tableAt_of_lt hlt]
  refine ⟨_, List.getElem?_eq_getElem hlt, ?_, ?_⟩
  · intro time htime
    rw [atWiotaSleepSetup, if_pos htime, hmax]
    exact ⟨_, rfl, h.symbolLength, rfl, rfl⟩
  · intro addr time startOk htime
    rw [atWiotaWakeupSetup, if_pos htime, hmax]
    exact ⟨_, _, rfl, h.symbolLength, rfl⟩

/-- Only the mode of the record and three values of the stack matter. -/
lemma RateAgrees.congr {s s' : AtState} {r : RateModeE} (h : RateAgrees s r)
    (hmode : s'.loc.rateMode = s.loc.rateMode)
    (hsymbol : s'.radio.config.symbolLength = s.radio.config.symbolLength)
    (hunicast : s'.radio.unicastMcs = s.radio.unicastMcs)
    (hbroadcast : s'.radio.broadcastMcs = s.radio.broadcastMcs) : RateAgrees s' r := by
  rw [rateAgrees_iff] at h ⊢
  rwa [hmode, hsymbol, hunicast, hbroadcast]

/-- A restart takes the mode of the record into use, if the wake-up ids belong to it. -/
lemma rateAgrees_run_iff (loc : AtLocal) (r : RateModeE) :
    RateAgrees (atWiotaRun loc).value r ↔ loc.rateMode = r ∧ r.val ∈ wakeableRates := by
  rw [rateAgrees_iff]
  constructor
  · rintro ⟨hmode, hwake, -⟩
    exact ⟨hmode, hwake⟩
  · rintro ⟨rfl, hwake⟩
    exact ⟨rfl, hwake, rfl, rfl, rfl⟩

/-! ### Commands -/

/-- The state, and the argument of the last `AT+RATE` that was answered with OK. -/
structure RateTrack where
  state : AtState
  last : ℕ
  deriving DecidableEq, Repr

/-- The argument of the last `AT+RATE` behind a command with this result. -/
def answeredRate (cmd : AtCommand) (result : AtResult) (last : ℕ) : ℕ :=
  match cmd, result with
  | .rate (some rate), .ok => rate.toNat
  | _, _ => last

/-- One more command. -/
def rateStep (cmd : AtCommand) (t : RateTrack) : Except Fault RateTrack :=
  .ok ⟨(cmd.exec t.state).value.2, answeredRate cmd (cmd.exec t.state).value.1 t.last⟩

/-- The mode that was answered with OK last is in use. -/
def RateTrack.Agrees (t : RateTrack) : Prop :=
  ∃ r : RateModeE, r.val = t.last ∧ RateAgrees t.state r

/-- The commands that keep the answered mode in use: `AT+RATE` with a number that is no mode, with
the mode in use, or with one of another symbol length whose wake-up ids are right; and all others.
-/
def RateGuard (_past : List AtCommand) (cmd : AtCommand) (t : RateTrack) : Prop :=
  match cmd with
  | .rate (some rate) => ∀ q : RateModeE, q.val = rate.toNat →
    q = t.state.loc.rateMode ∨
      (q.entry.symbolLength ≠ t.state.loc.rateMode.entry.symbolLength ∧ q.val ∈ wakeableRates)
  | _ => True

section Steps

variable {s : AtState} {r : RateModeE}

/-- A restart for another spectrum keeps the mode. -/
lemma RateAgrees.changeSpectrum (h : RateAgrees s r) (fa : FreqArgs) :
    RateAgrees (changeSpectrum fa s).value r := by
  rw [WiotaAp.changeSpectrum]
  split
  · obtain ⟨hmode, hwake, -⟩ := (rateAgrees_iff _ _).mp h
    exact (rateAgrees_run_iff _ _).mpr ⟨hmode, hwake⟩
  · exact h

/-- The frequency of the record has nothing to do with the mode. -/
lemma RateAgrees.withCurFreq (h : RateAgrees s r) (freq : UInt32) :
    RateAgrees { s with loc := { s.loc with curFreq := freq } } r :=
  h.congr rfl rfl rfl rfl

/-- The end of `AT+FREQ` sets the frequency of the record at most. -/
lemma RateAgrees.setFreq (h : RateAgrees s r) (freqIdx : UInt8) (setOk : Bool) :
    RateAgrees (setFreq freqIdx setOk s).value.2 r := by
  cases setOk with
  | true => exact h.withCurFreq _
  | false => exact h

/-- `AT+FREQ` keeps the mode, also with a restart. -/
lemma RateAgrees.freq (h : RateAgrees s r) (args : List UInt8) (scan : ScanData) (setOk : Bool) :
    RateAgrees (atWiotaFreqSetup args scan setOk s).value.2 r := by
  rw [atWiotaFreqSetup]
  cases atGetFreqList args with
  | error code => exact h
  | ok fa =>
    have hbase : RateAgrees { s with loc := { s.loc with baseFreq := fa.baseFreq } } r :=
      h.congr rfl rfl rfl rfl
    simp only [Traced.value_bind]
    exact (hbase.changeSpectrum fa).setFreq _ setOk

/-- Another mode is in use behind `AT+RATE` exactly if the stack is started again for it and the
wake-up ids belong to it. -/
lemma rateAgrees_setRate_iff (h : RateAgrees s r) (q : RateModeE) :
    RateAgrees (setRate q s).value q ↔
      q = s.loc.rateMode ∨
        (q.entry.symbolLength ≠ s.loc.rateMode.entry.symbolLength ∧ q.val ∈ wakeableRates) := by
  obtain ⟨hmode, hwake, -⟩ := (rateAgrees_iff _ _).mp h
  have hratio : ∀ q : RateModeE, q.entry.dlulRatio = 1 := by
    have htable : ∀ e ∈ rateModeMap, e.dlulRatio = 1 := by decide
    exact fun q => htable _ (List.get_mem _ _)
  rw [setRate, hratio, hratio]
  by_cases hsame : s.loc.rateMode = q
  · subst hsame
    rw [if_neg (not_not.mpr rfl), hmode]
    exact iff_of_true h (Or.inl rfl)
  · rw [if_pos hsame]
    by_cases hsymbol : s.loc.rateMode.entry.symbolLength = q.entry.symbolLength
    · -- only the unicast mcs is set, and the record keeps the old mode
      rw [if_neg (by simp [hsymbol])]
      refine iff_of_false (fun hq => hsame ((rateAgrees_iff _ _).mp hq).1) ?_
      rintro (heq | ⟨hne, -⟩)
      · exact hsame heq.symm
      · exact hne hsymbol.symm
    · rw [if_pos (Or.inl hsymbol), rateAgrees_run_iff]
      refine ⟨fun hq => Or.inr ⟨Ne.symm hsymbol, hq.2⟩, ?_⟩
      rintro (heq | ⟨-, hq⟩)
      · exact absurd heq.symm hsame
      · exact ⟨rfl, hq⟩

/-- `AT+RATE` with a mode. -/
lemma rate_agrees_iff {t t' : RateTrack} (ht : t.Agrees) {rate : UInt32}
    (hstep : rateStep (.rate (some rate)) t = .ok t') (past : List AtCommand) :
    t'.Agrees ↔ RateGuard past (.rate (some rate)) t := by
  obtain ⟨r, hlast, hagrees⟩ := ht
  cases hstep
  by_cases hmode : 1 ≤ rate.toNat ∧ rate.toNat ≤ rateModeMap.length
  · have hexec : (AtCommand.rate (some rate)).exec t.state = do
        let s ← setRate ⟨rate.toNat, hmode.1, hmode.2⟩ t.state
        return (.ok, s) := dif_pos hmode
    rw [hexec]
    simp only [Traced.value_bind, Traced.value_pure, RateTrack.Agrees, RateGuard, answeredRate]
    constructor
    · rintro ⟨q, hq, hagrees'⟩ q' hq'
      have heq : q = ⟨rate.toNat, hmode.1, hmode.2⟩ := RateModeE.eq_of_val_eq hq
      have heq' : q' = q := RateModeE.eq_of_val_eq (hq'.trans hq.symm)
      rw [← heq] at hagrees'
      rw [heq']
      exact (rateAgrees_setRate_iff hagrees _).mp hagrees'
    · intro hguard
      refine ⟨⟨rate.toNat, hmode.1, hmode.2⟩, rfl, ?_⟩
      exact (rateAgrees_setRate_iff hagrees _).mpr (hguard _ rfl)
  · have hexec : (AtCommand.rate (some rate)).exec t.state = pure (.faile, t.state) :=
      dif_neg hmode
    rw [hexec]
    refine iff_of_true ⟨r, hlast, hagrees⟩ fun q hq => absurd ⟨?_, ?_⟩ hmode
    · rw [← hq]
      exact q.pos
    · rw [← hq]
      exact q.le

/-- A command keeps the answered mode in use exactly if it is admitted. -/
lemma RateTrack.agrees_step_iff {t t' : RateTrack} (ht : t.Agrees) {cmd : AtCommand}
    (hstep : rateStep cmd t = .ok t') (past : List AtCommand) :
    t'.Agrees ↔ RateGuard past cmd t := by
  cases cmd with
  | rate num =>
    cases num with
    | none =>
      cases hstep
      exact iff_of_true ht trivial
    | some rate => exact rate_agrees_iff ht hstep past
  | freq args scan setOk =>
    obtain ⟨r, hlast, hagrees⟩ := ht
    cases hstep
    exact iff_of_true ⟨r, hlast, hagrees.freq args scan setOk⟩ trivial
  | sync num setOk =>
    obtain ⟨r, hlast, hagrees⟩ := ht
    obtain ⟨id, id', hsync⟩ := exists_atWiotaSyncSetup num setOk t.state
    cases hstep
    refine iff_of_true ⟨r, hlast, hagrees.congr ?_ ?_ ?_ ?_⟩ trivial <;>
      simp [AtCommand.exec, hsync]
  | power num setOk =>
    obtain ⟨r, hlast, hagrees⟩ := ht
    obtain ⟨power, hpower⟩ := exists_atWiotaPowerSetup num setOk t.state
    cases hstep
    refine iff_of_true ⟨r, hlast, hagrees.congr ?_ ?_ ?_ ?_⟩ trivial <;>
      simp [AtCommand.exec, hpower]
  | rssi kind scan =>
    cases hstep
    exact iff_of_true ht trivial

end Steps

/-- The start of the access point, with the default mode. -/
def RateTrack.init (h : AtHistory) : RateTrack := ⟨h.state, defauleRateMode.val⟩

lemma RateTrack.agrees_init {addr : UInt32} {h : AtHistory}
    (hinit : atSimplifiedInit addr = .ok h) : (RateTrack.init h).Agrees := by
  rw [atSimplifiedInit_eq] at hinit
  cases hinit
  have hwake : defauleRateMode.val ∈ wakeableRates := by decide
  exact ⟨defauleRateMode, rfl, (rateAgrees_run_iff _ _).mpr ⟨rfl, hwake⟩⟩

/-- The rate of the record.  As long as the commands are admitted, the mode that was answered with
OK last is the one of the stack, of `AT+RATE?`, of the send timeout and of the wake-up ids; and a
next command keeps this exactly if it is admitted. -/
theorem rate_state_iff {addr : UInt32} {h₀ : AtHistory} {cmds : List AtCommand} {t : RateTrack}
    (hinit : atSimplifiedInit addr = .ok h₀)
    (hrun : GuardedRun rateStep RateGuard (RateTrack.init h₀) cmds t) :
    (∃ r : RateModeE, r.val = t.last ∧ RateAgrees t.state r ∧
      ∃ maxAwakenId, maxAwakenIdTable[r.entry.symbolLength]? = some maxAwakenId ∧
        WakeupIds t.state r.entry.symbolLength maxAwakenId) ∧
      ∀ cmd t', rateStep cmd t = .ok t' → (t'.Agrees ↔ RateGuard cmds cmd t) := by
  have hagrees : t.Agrees := by
    refine hrun.invariant (P := fun _ t => t.Agrees) (RateTrack.agrees_init hinit) ?_
    intro past cmd t t' ht hguard hstep
    exact (RateTrack.agrees_step_iff ht hstep past).mpr hguard
  refine ⟨?_, fun cmd t' hstep => RateTrack.agrees_step_iff hagrees hstep cmds⟩
  obtain ⟨r, hlast, hr⟩ := hagrees
  exact ⟨r, hlast, hr, hr.exists_wakeupIds⟩

/-- From the default mode, 4, to the mode 1 and back. -/
theorem rate_state_there_and_back :
    ∃ t, GuardedRun rateStep RateGuard ⟨(atWiotaRun (defauleLocal 0)).value, 4⟩
        [.rate (some 1), .rate (some 4)] t ∧
      t.last = 4 ∧ ∃ r : RateModeE, r.val = t.last ∧ RateAgrees t.state r := by
  have hguard₁ : RateGuard [] (.rate (some 1)) ⟨(atWiotaRun (defauleLocal 0)).value, 4⟩ := by
    intro q hq
    obtain ⟨v, hpos, hle⟩ := q
    cases hq
    exact Or.inr (by decide +revert)
  have hguard₂ : RateGuard [.rate (some 1)] (.rate (some 4))
      ⟨(atWiotaRun { defauleLocal 0 with rateMode := ⟨1, by decide, by decide⟩ }).value, 1⟩ := by
    intro q hq
    obtain ⟨v, hpos, hle⟩ := q
    cases hq
    exact Or.inr (by decide +revert)
  have hrun : GuardedRun rateStep RateGuard ⟨(atWiotaRun (defauleLocal 0)).value, 4⟩
      ([] ++ [.rate (some 1)] ++ [.rate (some 4)]) ⟨(atWiotaRun (defauleLocal 0)).value, 4⟩ :=
    .snoc (.snoc .nil hguard₁ rfl) hguard₂ rfl
  obtain ⟨⟨r, hlast, hr, -⟩, -⟩ := rate_state_iff (atSimplifiedInit_eq 0) hrun
  exact ⟨_, hrun, rfl, r, hlast, hr⟩

/-- From the default mode, 4, to the mode 3: the answer is OK, and `AT+RATE?` answers 4.  To the
mode 7: the symbol length is 512, and the wake-up ids are those of 1024.  To the mode 8: the entry
for the wake-up ids is beyond the end of the table. -/
theorem rate_state_stale :
    (((AtCommand.rate (some 3)).exec (atWiotaRun (defauleLocal 0)).value).value.1 = .ok ∧
      atWiotaRateQuery
        ((AtCommand.rate (some 3)).exec (atWiotaRun (defauleLocal 0)).value).value.2 = 4) ∧
    (((AtCommand.rate (some 7)).exec (atWiotaRun (defauleLocal 0)).value).value.1 = .ok ∧
      ((AtCommand.rate (some 7)).exec
        (atWiotaRun (defauleLocal 0)).value).value.2.radio.config.symbolLength = 2 ∧
      awakenSymbolLength
        ((AtCommand.rate (some 7)).exec (atWiotaRun (defauleLocal 0)).value).value.2.loc = .ok 3) ∧
    (((AtCommand.rate (some 8)).exec (atWiotaRun (defauleLocal 0)).value).value.1 = .ok ∧
      awakenSymbolLength
        ((AtCommand.rate (some 8)).exec (atWiotaRun (defauleLocal 0)).value).value.2.loc =
          .error .outOfBounds) := by
  decide +kernel

end WiotaAp
