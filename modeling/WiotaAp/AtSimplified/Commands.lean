import WiotaAp.AtSimplified.FreqList
import WiotaAp.Foundation.Traced
import WiotaAp.Manager.WiotaFreq

/-!
# The simplified AT commands

The commands of `at_simplified.c` that set up the access point, with the record
`at_simplified_local` that they keep and what they have applied to the stack.

A command is a computation with a trace: the restarts of the stack by `at_wiota_run`, each with the
record at that moment, the frequencies that are passed to `uc_wiota_set_freq_info`, and the entries
of a scan result that are read.  What a command gets from outside is part of it: the numbers that
`parse` reads from its argument, the result of a scan, and whether a function of the stack succeeds.
-/

namespace WiotaAp

open Buffers

/-! ### The record -/

/-- An entry of `rate_mode_map`. -/
structure RateMode where
  symbolLength : ℕ
  dlulRatio : ℕ
  mcs : ℕ
  deriving DecidableEq, Repr

/-- `RATE_MODE_MAP`. -/
def rateModeMap : List RateMode :=
  [⟨0, 1, 3⟩, ⟨0, 1, 2⟩, ⟨1, 1, 3⟩, ⟨1, 1, 2⟩, ⟨1, 1, 1⟩, ⟨1, 1, 0⟩, ⟨2, 1, 0⟩, ⟨3, 1, 0⟩]

/-- A value of `rate_mode_e`, from `RATE_MODE_1` to `RATE_MODE_8`. -/
structure RateModeE where
  val : ℕ
  pos : 1 ≤ val
  le : val ≤ rateModeMap.length
  deriving DecidableEq, Repr

/-- A mode is its number. -/
lemma RateModeE.eq_of_val_eq {q r : RateModeE} (h : q.val = r.val) : q = r := by
  cases q
  cases r
  cases h
  rfl

/-- `rate_mode_map[rate_mode - 1]`: the modes count from 1, the entries from 0. -/
def RateModeE.entry (r : RateModeE) : RateMode :=
  rateModeMap.get ⟨r.val - 1, lt_of_lt_of_le (Nat.sub_lt r.pos Nat.one_pos) r.le⟩

/-- `DEFAULE_RATE_MODE`. -/
def defauleRateMode : RateModeE := ⟨4, by decide, by decide⟩

/-- `at_simplified_local`. -/
structure AtLocal where
  addr : UInt32
  subsystemid : UInt32
  baseFreq : UInt32
  curFreq : UInt32
  spectrumIdx : ℕ
  power : UInt8
  rateMode : RateModeE
  deriving DecidableEq, Repr

/-- The part of `sub_system_config_t` that the commands set. -/
structure SystemConfig where
  apTxPower : UInt8
  symbolLength : ℕ
  dlulRatio : ℕ
  groupNumber : ℕ
  spectrumIdx : ℕ
  freqIdx : UInt8
  subsystemId : UInt32
  deriving DecidableEq, Repr

/-- What has been applied to the stack last. -/
structure Radio where
  config : SystemConfig
  unicastMcs : ℕ
  broadcastMcs : ℕ
  deriving DecidableEq, Repr

/-- The record and the stack. -/
structure AtState where
  loc : AtLocal
  radio : Radio
  deriving DecidableEq, Repr

/-- What a command does besides its result. -/
inductive AtEvent
  | run (loc : AtLocal)
  | setFreqInfo (freqIdx : UInt8)
  | readScan (i : ℕ)
  deriving DecidableEq, Repr

/-- `at_result_t`. -/
inductive AtResult
  | ok
  | faile
  | parseFaile
  deriving DecidableEq, Repr

/-! ### The commands -/

/-- The configuration that `at_wiota_run` writes. -/
def AtLocal.config (loc : AtLocal) : SystemConfig where
  apTxPower := loc.power
  symbolLength := loc.rateMode.entry.symbolLength
  dlulRatio := loc.rateMode.entry.dlulRatio
  groupNumber := loc.rateMode.entry.dlulRatio
  spectrumIdx := loc.spectrumIdx
  freqIdx := (freqToIndex loc.curFreq loc.baseFreq).toUInt8
  subsystemId := loc.subsystemid

/-- `at_wiota_run`: the stack is started again with the configuration of the record. -/
def atWiotaRun (loc : AtLocal) : Traced AtEvent AtState := do
  Traced.emit (.run loc)
  return { loc := loc, radio := ⟨loc.config, loc.rateMode.entry.mcs, loc.rateMode.entry.mcs⟩ }

/-- `DEFAULE_FREQ`. -/
def defauleFreq : UInt32 := 502000000

/-- The record that `at_simplified_init` starts with; the assertion is that the default frequency is
in a spectrum. -/
def initLocal (addr : UInt32) : Except Fault AtLocal :=
  match atGetBaseFreqAndSpectrumIdx defauleFreq with
  | none => .error .assertion
  | some sp => .ok
    { addr := addr
      subsystemid := 354689
      baseFreq := sp.baseFreq
      curFreq := sp.actualFreq
      spectrumIdx := sp.spectrumIdx
      power := 20
      rateMode := defauleRateMode }

/-- A scan result: whether there is one, the number of its entries, and what lies in memory from its
address on, as entries. -/
structure ScanData where
  succ : Bool
  num : ℕ
  entry : ℕ → ScanFreq

/-- Reading `freq_scan_result[i]`. -/
def readScan (scan : ScanData) (i : ℕ) : Traced AtEvent ScanFreq := do
  Traced.emit (.readScan i)
  return scan.entry i

/-- The loop of `at_wiota_freq_setup` that looks for the least `rssi`, from the entry `i` on with
`n` entries left; `min` is `min_rssi_idx`. -/
def selectLoop (scan : ScanData) : ℕ → ℕ → UInt8 → Traced AtEvent UInt8
  | _, 0, min => pure min
  | i, n + 1, min => do
    let e ← readScan scan i
    if e.isSynced = 0 then
      if min = 0 then selectLoop scan (i + 1) n (UInt8.ofNat i)
      else do
        let low ← readScan scan min.toNat
        selectLoop scan (i + 1) n (if e.rssi < low.rssi then UInt8.ofNat i else min)
    else selectLoop scan (i + 1) n min

/-- The frequency that is taken from a scan result. -/
def selectFreqIdx (scan : ScanData) (freqList : List UInt8) : Traced AtEvent UInt8 := do
  let min ← selectLoop scan 0 scan.num 0xFF
  if min ≠ 0xFF then do
    let e ← readScan scan min.toNat
    return e.freqIdx
  else return freqList.headD 0

/-- The frequency of `at_wiota_freq_setup`: the one of the list, or one of a scan.  Without a scan
result it stays 0xFF. -/
def chooseFreqIdx (scan : ScanData) (freqList : List UInt8) : Traced AtEvent UInt8 :=
  if freqList.length = 1 then pure (freqList.headD 0)
  else if scan.succ then selectFreqIdx scan freqList
  else pure 0xFF

/-- `INDEX_TO_FREQ`. -/
def indexToFreq (index : UInt8) (baseFreq : UInt32) : UInt32 := index.toUInt32 * bwHz + baseFreq

/-- The restart of `at_wiota_freq_setup` for another spectrum. -/
def changeSpectrum (fa : FreqArgs) (s : AtState) : Traced AtEvent AtState :=
  if fa.spectrumIdx ≠ s.loc.spectrumIdx then
    atWiotaRun { s.loc with spectrumIdx := fa.spectrumIdx }
  else pure s

/-- The end of `at_wiota_freq_setup`. -/
def setFreq (freqIdx : UInt8) (setOk : Bool) (s : AtState) :
    Traced AtEvent (AtResult × AtState) := do
  Traced.emit (.setFreqInfo freqIdx)
  if setOk then
    return (.ok, { s with loc := { s.loc with curFreq := indexToFreq freqIdx s.loc.baseFreq } })
  else return (.faile, s)

/-- `at_wiota_freq_setup`. -/
def atWiotaFreqSetup (args : List UInt8) (scan : ScanData) (setOk : Bool) (s : AtState) :
    Traced AtEvent (AtResult × AtState) :=
  match atGetFreqList args with
  | .error _ => pure (.parseFaile, s)
  | .ok fa => do
    let s ← changeSpectrum fa { s with loc := { s.loc with baseFreq := fa.baseFreq } }
    let freqIdx ← chooseFreqIdx scan fa.freqList
    setFreq freqIdx setOk s

/-- `at_wiota_rate_setup` for a number that is a rate mode.  Between modes with the same symbol
length and ratio only the mcs is set. -/
def setRate (rate : RateModeE) (s : AtState) : Traced AtEvent AtState :=
  if s.loc.rateMode ≠ rate then
    if s.loc.rateMode.entry.symbolLength ≠ rate.entry.symbolLength ∨
        s.loc.rateMode.entry.dlulRatio ≠ rate.entry.dlulRatio then
      atWiotaRun { s.loc with rateMode := rate }
    else pure { s with radio := { s.radio with unicastMcs := rate.entry.mcs } }
  else pure s

/-- `at_wiota_rate_setup`. -/
def atWiotaRateSetup (rate : Option UInt32) (s : AtState) : Traced AtEvent (AtResult × AtState) :=
  match rate with
  | none => pure (.parseFaile, s)
  | some rate =>
    if h : 1 ≤ rate.toNat ∧ rate.toNat ≤ rateModeMap.length then do
      let s ← setRate ⟨rate.toNat, h.1, h.2⟩ s
      return (.ok, s)
    else pure (.faile, s)

/-- `at_wiota_rate_query`. -/
def atWiotaRateQuery (s : AtState) : ℕ := s.loc.rateMode.val

/-- `MAX_SUBSYSTEMID`. -/
def maxSubsystemid : UInt32 := 16777215

/-- `at_wiota_sync_setup`. -/
def atWiotaSyncSetup (subsystemid : Option UInt32) (setOk : Bool) (s : AtState) :
    AtResult × AtState :=
  match subsystemid with
  | none => (.parseFaile, s)
  | some id =>
    if maxSubsystemid < id then (.faile, s)
    else if s.loc.subsystemid = id then (.ok, s)
    else if setOk then
      (.ok,
        { loc := { s.loc with subsystemid := id }
          radio := { s.radio with config := { s.radio.config with subsystemId := id } } })
    else (.faile, s)

/-- `at_wiota_power_setup`. -/
def atWiotaPowerSetup (power : Option ℤ) (setOk : Bool) (s : AtState) : AtResult × AtState :=
  match power with
  | none => (.parseFaile, s)
  | some power =>
    if power < 0 ∨ 27 < power then (.faile, s)
    else if s.loc.power = UInt8.ofNat power.toNat then (.ok, s)
    else if setOk then
      (.ok, { s with loc := { s.loc with power := UInt8.ofNat power.toNat } })
    else (.faile, s)

/-- `AT+SYNC` sets the subsystem id at most, in the record and in the stack. -/
lemma exists_atWiotaSyncSetup (num : Option UInt32) (setOk : Bool) (s : AtState) :
    ∃ id id', (atWiotaSyncSetup num setOk s).2 =
      ⟨{ s.loc with subsystemid := id },
        { s.radio with config := { s.radio.config with subsystemId := id' } }⟩ := by
  have hsame : ∀ result : AtResult, ∃ id id', (result, s).2 =
      (⟨{ s.loc with subsystemid := id },
        { s.radio with config := { s.radio.config with subsystemId := id' } }⟩ : AtState) :=
    fun _ => ⟨s.loc.subsystemid, s.radio.config.subsystemId, rfl⟩
  cases num with
  | none => exact hsame .parseFaile
  | some id =>
    simp only [atWiotaSyncSetup]
    split
    · exact hsame .faile
    · split
      · exact hsame .ok
      · split
        · exact ⟨id, id, rfl⟩
        · exact hsame .faile

/-- `AT+POWER` sets the power of the record at most. -/
lemma exists_atWiotaPowerSetup (num : Option ℤ) (setOk : Bool) (s : AtState) :
    ∃ power, (atWiotaPowerSetup num setOk s).2 =
      ⟨{ s.loc with power := power }, s.radio⟩ := by
  have hsame : ∀ result : AtResult, ∃ power, (result, s).2 =
      (⟨{ s.loc with power := power }, s.radio⟩ : AtState) :=
    fun _ => ⟨s.loc.power, rfl⟩
  cases num with
  | none => exact hsame .parseFaile
  | some power =>
    simp only [atWiotaPowerSetup]
    split
    · exact hsame .faile
    · split
      · exact hsame .ok
      · split
        · exact ⟨UInt8.ofNat power.toNat, rfl⟩
        · exact hsame .faile

/-- The commands `AT+RSSI`, `AT+RSSI?` and `AT+RSSI=<freq>`. -/
inductive RssiKind
  | exec
  | query
  | setup (args : List UInt8)
  deriving DecidableEq, Repr

/-- The entries of a scan are printed. -/
def printScan (scan : ScanData) : ℕ → ℕ → Traced AtEvent Unit
  | _, 0 => pure ()
  | i, n + 1 => do
    let _ ← readScan scan i
    printScan scan (i + 1) n

/-- `at_wiota_scan_freq`. -/
def atWiotaScanFreq (scan : ScanData) : Traced AtEvent AtResult :=
  if scan.succ then do
    printScan scan 0 scan.num
    return .ok
  else return .faile

/-- `at_wiota_rssi_exec`, `at_wiota_rssi_query` and `at_wiota_rssi_setup`; the list of the last one
is read into variables of its own. -/
def atWiotaRssi (kind : RssiKind) (scan : ScanData) : Traced AtEvent AtResult :=
  match kind with
  | .exec => atWiotaScanFreq scan
  | .query => atWiotaScanFreq scan
  | .setup args =>
    match atGetFreqList args with
    | .error _ => pure .parseFaile
    | .ok _ => atWiotaScanFreq scan

/-- The commands, with what they get from outside. -/
inductive AtCommand
  | freq (args : List UInt8) (scan : ScanData) (setOk : Bool)
  | rate (rate : Option UInt32)
  | sync (subsystemid : Option UInt32) (setOk : Bool)
  | power (power : Option ℤ) (setOk : Bool)
  | rssi (kind : RssiKind) (scan : ScanData)

/-- A command. -/
def AtCommand.exec (s : AtState) : AtCommand → Traced AtEvent (AtResult × AtState)
  | .freq args scan setOk => atWiotaFreqSetup args scan setOk s
  | .rate num => atWiotaRateSetup num s
  | .sync id setOk => pure (atWiotaSyncSetup id setOk s)
  | .power num setOk => pure (atWiotaPowerSetup num setOk s)
  | .rssi kind scan => do
    let result ← atWiotaRssi kind scan
    return (result, s)

/-! ### Histories -/

/-- The state behind some commands, and all that they have done. -/
structure AtHistory where
  state : AtState
  events : List AtEvent
  deriving DecidableEq, Repr

/-- `at_simplified_init`. -/
def atSimplifiedInit (addr : UInt32) : Except Fault AtHistory := do
  let loc ← initLocal addr
  return ⟨(atWiotaRun loc).value, (atWiotaRun loc).events⟩

/-- The record with the default configuration. -/
def defauleLocal (addr : UInt32) : AtLocal :=
  ⟨addr, 354689, 470000000, defauleFreq, 3, 20, defauleRateMode⟩

/-- `at_simplified_init` starts the stack with the default configuration. -/
lemma atSimplifiedInit_eq (addr : UInt32) :
    atSimplifiedInit addr =
      .ok ⟨(atWiotaRun (defauleLocal addr)).value, [.run (defauleLocal addr)]⟩ := by
  have hfound : atGetBaseFreqAndSpectrumIdx defauleFreq = some ⟨470000000, 3, defauleFreq⟩ := by
    decide +kernel
  rw [atSimplifiedInit, initLocal, hfound]
  rfl

/-- One more command. -/
def atStep (cmd : AtCommand) (h : AtHistory) : Except Fault AtHistory :=
  .ok ⟨(cmd.exec h.state).value.2, h.events ++ (cmd.exec h.state).events⟩

end WiotaAp
