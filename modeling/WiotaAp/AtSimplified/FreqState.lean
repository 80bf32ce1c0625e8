import WiotaAp.AtSimplified.Commands
import WiotaAp.Foundation.Runs

/-!
# The frequency of the simplified AT commands

What `AT+FREQ` does to the frequency of the access point.

### Outline

* the choice from a scan result: the loop starts with the index 0xFF and compares with the entry at
  this index, so that it reads behind the result as soon as an entry is free
  (`freq_setup_quietest_iff`); `ScanData.Takes` says which entry it takes in the end;
* the record: `AtLocal.FreqOk` says that base frequency, frequency and spectrum belong together,
  and `freq_state_iff` says which commands keep them so.
-/

namespace WiotaAp

open Buffers

/-! ### The choice from a scan -/

section Select

variable {scan : ScanData} (freqList : List UInt8)

@[simp] lemma readScan_value (scan : ScanData) (i : ℕ) :
    (readScan scan i).value = scan.entry i := rfl

@[simp] lemma readScan_events (scan : ScanData) (i : ℕ) :
    (readScan scan i).events = [.readScan i] := rfl

/-- Without a free entry the loop reads each entry once and finds nothing. -/
lemma selectLoop_of_synced {i n : ℕ} (min : UInt8)
    (h : ∀ j, i ≤ j → j < i + n → (scan.entry j).isSynced ≠ 0) :
    (selectLoop scan i n min).value = min ∧
      ∀ e ∈ (selectLoop scan i n min).events, ∃ j < i + n, e = .readScan j := by
  induction n generalizing i with
  | zero => exact ⟨rfl, fun e he => (List.not_mem_nil he).elim⟩
  | succ n ih =>
    obtain ⟨hvalue, hevents⟩ := ih (i := i + 1) fun j hj hlt => h j (by omega) (by omega)
    have hne := h i le_rfl (by omega)
    simp only [selectLoop, Traced.value_bind, Traced.events_bind, readScan_value, readScan_events,
      hne, ↓reduceIte, List.mem_append, List.mem_singleton]
    refine ⟨hvalue, fun e he => ?_⟩
    rcases he with rfl | he
    · exact ⟨i, by omega, rfl⟩
    · obtain ⟨j, hj, rfl⟩ := hevents e he
      exact ⟨j, by omega, rfl⟩

/-- At the first free entry the loop reads the entry at the index that it starts with. -/
lemma readScan_mem_selectLoop {i n j : ℕ} (hi : i ≤ j) (hj : j < i + n)
    (hfree : (scan.entry j).isSynced = 0) :
    AtEvent.readScan 0xFF ∈ (selectLoop scan i n 0xFF).events := by
  induction n generalizing i with
  | zero => omega
  | succ n ih =>
    by_cases hsynced : (scan.entry i).isSynced = 0
    · have hsentinel : (0xFF : UInt8) ≠ 0 := by decide
      simp only [selectLoop, Traced.events_bind, readScan_value, readScan_events, hsynced,
        hsentinel, ↓reduceIte, List.mem_append, List.mem_singleton]
      exact Or.inr (Or.inl rfl)
    · have hne : i ≠ j := by
        rintro rfl
        exact hsynced hfree
      simp only [selectLoop, Traced.events_bind, readScan_value, readScan_events, hsynced,
        ↓reduceIte, List.mem_append]
      exact Or.inr (ih (by omega) (by omega))

/-- The choice from a scan result without a free entry. -/
lemma selectFreqIdx_of_synced (h : ∀ i < scan.num, (scan.entry i).isSynced ≠ 0) :
    (selectFreqIdx scan freqList).value = freqList.headD 0 ∧
      ∀ e ∈ (selectFreqIdx scan freqList).events, ∃ i < scan.num, e = .readScan i := by
  obtain ⟨hvalue, hevents⟩ := selectLoop_of_synced (i := 0) (n := scan.num) 0xFF
    fun j _ hj => h j (by omega)
  simp only [Nat.zero_add] at hevents
  simp only [selectFreqIdx, Traced.value_bind, Traced.events_bind, hvalue, ne_eq,
    not_true_eq_false, ↓reduceIte, Traced.value_pure, Traced.events_pure, List.append_nil]
  exact ⟨trivial, hevents⟩

/-- The choice from a scan result with a free entry reads behind the result. -/
lemma readScan_mem_selectFreqIdx {i : ℕ} (hi : i < scan.num)
    (hfree : (scan.entry i).isSynced = 0) :
    AtEvent.readScan 0xFF ∈ (selectFreqIdx scan freqList).events := by
  rw [selectFreqIdx, Traced.events_bind]
  exact List.mem_append_left _
    (readScan_mem_selectLoop (Nat.zero_le i) (by rwa [Nat.zero_add]) hfree)

end Select

section Takes

variable {scan : ScanData}

/-- A free entry among the first `n` of a scan result. -/
def ScanData.Free (scan : ScanData) (n i : ℕ) : Prop :=
  i < n ∧ (scan.entry i).isSynced = 0

/-- The entry that is taken from the first `n` of a scan result.  None is, unless a free one is
lower than the memory behind the result.  The first entry is taken only if no other one is free,
since the index 0 stands for none; otherwise it is the lowest of the other free ones, and the first
of these among equals. -/
structure ScanData.Takes (scan : ScanData) (n i : ℕ) : Prop where
  free : scan.Free n i
  below : ∃ j, scan.Free n j ∧ (scan.entry j).rssi < (scan.entry 0xFF).rssi
  first : i = 0 → ∀ j, scan.Free n j → j = 0
  least : i ≠ 0 → ∀ j, scan.Free n j → j ≠ 0 →
    (scan.entry i).rssi ≤ (scan.entry j).rssi ∧
      ((scan.entry j).rssi ≤ (scan.entry i).rssi → i ≤ j)

/-- At most one entry is taken. -/
lemma ScanData.Takes.unique {n i j : ℕ} (hi : scan.Takes n i) (hj : scan.Takes n j) : i = j := by
  by_cases hzero : i = 0
  · rw [hzero, hi.first hzero j hj.free]
  · have hother : j ≠ 0 := fun heq => hzero (hj.first heq i hi.free)
    obtain ⟨hle, hfirst⟩ := hi.least hzero j hj.free hother
    obtain ⟨hle', hfirst'⟩ := hj.least hother i hi.free hzero
    exact Nat.le_antisymm (hfirst hle') (hfirst' hle)

/-- One more entry that is not free. -/
lemma ScanData.free_succ_of_synced {n : ℕ} (h : (scan.entry n).isSynced ≠ 0) (i : ℕ) :
    scan.Free (n + 1) i ↔ scan.Free n i := by
  refine and_congr_left fun hfree => ?_
  have hne : i ≠ n := by
    rintro rfl
    exact h hfree
  omega

/-- A free entry among one more is the new one or one of those before. -/
lemma ScanData.Free.cases {n i : ℕ} (h : scan.Free (n + 1) i) : i = n ∨ scan.Free n i := by
  rcases Nat.lt_succ_iff_lt_or_eq.mp h.1 with hlt | heq
  · exact .inr ⟨hlt, h.2⟩
  · exact .inl heq

/-- What the loop has found in the first `n` entries: the entry that is taken from them, or the
index 0xFF if no free one is lower than the memory behind the result. -/
def ScanData.Found (scan : ScanData) (n : ℕ) (min : UInt8) : Prop :=
  scan.Takes n min.toNat ∨
    (min = 0xFF ∧ ∀ j, scan.Free n j → (scan.entry 0xFF).rssi ≤ (scan.entry j).rssi)

/-- A round at an entry that is not free. -/
lemma ScanData.Found.synced {n : ℕ} {min : UInt8} (h : scan.Found n min)
    (hsynced : (scan.entry n).isSynced ≠ 0) : scan.Found (n + 1) min := by
  have hfree := ScanData.free_succ_of_synced hsynced
  rcases h with ⟨htaken, ⟨j, hj, hbelow⟩, hfirst, hleast⟩ | ⟨hnone, hbehind⟩
  · refine .inl ⟨(hfree _).mpr htaken, ⟨j, (hfree j).mpr hj, hbelow⟩, ?_, ?_⟩
    · exact fun hzero k hk => hfirst hzero k ((hfree k).mp hk)
    · exact fun hne k hk => hleast hne k ((hfree k).mp hk)
  · exact .inr ⟨hnone, fun j hj => hbehind j ((hfree j).mp hj)⟩

/-- A free entry that is lower than all free ones before it but the first is taken. -/
lemma ScanData.Takes.new {n : ℕ} (hfree : (scan.entry n).isSynced = 0)
    (hbelow : ∃ j, scan.Free (n + 1) j ∧ (scan.entry j).rssi < (scan.entry 0xFF).rssi)
    (hlow : ∀ j, scan.Free n j → j ≠ 0 → (scan.entry n).rssi < (scan.entry j).rssi) :
    scan.Takes (n + 1) n := by
  refine ⟨⟨Nat.lt_succ_self n, hfree⟩, hbelow, ?_, ?_⟩
  · rintro rfl j hj
    exact Nat.lt_one_iff.mp hj.1
  · intro _ j hj hother
    rcases hj.cases with rfl | hold
    · exact ⟨Int8.le_refl _, fun _ => le_rfl⟩
    · have hlt := hlow j hold hother
      refine ⟨Int8.le_of_lt hlt, fun hle => ?_⟩
      exact (Int8.lt_irrefl (Int8.lt_of_lt_of_le hlt hle)).elim

/-- A round at a free entry. -/
lemma ScanData.Found.free {n : ℕ} {min : UInt8} (h : scan.Found n min) (hn : n < 255)
    (hfree : (scan.entry n).isSynced = 0) :
    scan.Found (n + 1) (if min = 0 then UInt8.ofNat n
      else if (scan.entry n).rssi < (scan.entry min.toNat).rssi then UInt8.ofNat n else min) := by
  have hindex : (UInt8.ofNat n).toNat = n := by
    rw [UInt8.toNat_ofNat']
    omega
  have hnew : scan.Free (n + 1) n := ⟨Nat.lt_succ_self n, hfree⟩
  rcases h with ⟨⟨hlt, htaken⟩, ⟨j, hj, hbelow⟩, hfirst, hleast⟩ | ⟨rfl, hbehind⟩
  · have hbelow' : ∃ j, scan.Free (n + 1) j ∧ (scan.entry j).rssi < (scan.entry 0xFF).rssi :=
      ⟨j, ⟨Nat.lt_succ_of_lt hj.1, hj.2⟩, hbelow⟩
    by_cases hzero : min = 0
    · -- the first entry gives way to the next free one
      rw [if_pos hzero]
      refine .inl (hindex.symm ▸ .new hfree hbelow' fun k hk hother => ?_)
      exact absurd (hfirst (congrArg UInt8.toNat hzero) k hk) hother
    · have hne : min.toNat ≠ 0 := fun heq => hzero (UInt8.toNat_inj.mp heq)
      rw [if_neg hzero]
      split
      · rename_i hlower
        refine .inl (hindex.symm ▸ .new hfree hbelow' fun k hk hother => ?_)
        exact Int8.lt_of_lt_of_le hlower (hleast hne k hk hother).1
      · rename_i hlower
        refine .inl ⟨⟨Nat.lt_succ_of_lt hlt, htaken⟩, hbelow', fun heq => absurd heq hne, ?_⟩
        intro _ k hk hother
        rcases hk.cases with rfl | hold
        · exact ⟨Int8.not_lt.mp hlower, fun _ => Nat.le_of_lt hlt⟩
        · exact hleast hne k hold hother
  · rw [if_neg (by decide)]
    split
    · rename_i hlower
      refine .inl (hindex.symm ▸ .new hfree ⟨n, hnew, hlower⟩ fun k hk _ => ?_)
      exact Int8.lt_of_lt_of_le hlower (hbehind k hk)
    · rename_i hlower
      refine .inr ⟨rfl, fun k hk => ?_⟩
      rcases hk.cases with rfl | hold
      · exact Int8.not_lt.mp hlower
      · exact hbehind k hold

/-- The index after a round of the loop. -/
lemma selectLoop_value_succ (i n : ℕ) (min : UInt8) :
    (selectLoop scan i (n + 1) min).value = (selectLoop scan (i + 1) n
      (if (scan.entry i).isSynced = 0 then
        if min = 0 then UInt8.ofNat i
        else if (scan.entry i).rssi < (scan.entry min.toNat).rssi then UInt8.ofNat i else min
      else min)).value := by
  rw [selectLoop, Traced.value_bind, readScan_value]
  by_cases hfree : (scan.entry i).isSynced = 0
  · rw [if_pos hfree, if_pos hfree]
    by_cases hzero : min = 0
    · rw [if_pos hzero, if_pos hzero]
    · rw [if_neg hzero, if_neg hzero, Traced.value_bind, readScan_value]
  · rw [if_neg hfree, if_neg hfree]

/-- The loop over the rest of a scan result finds what is taken from the whole of it. -/
lemma ScanData.Found.loop {i n : ℕ} {min : UInt8} (h : scan.Found i min)
    (hnum : i + n ≤ 255) : scan.Found (i + n) (selectLoop scan i n min).value := by
  induction n generalizing i min with
  | zero => exact h
  | succ n ih =>
    rw [selectLoop_value_succ, Nat.add_comm n 1, ← Nat.add_assoc]
    refine ih ?_ (by omega)
    by_cases hfree : (scan.entry i).isSynced = 0
    · rw [if_pos hfree]
      exact h.free (by omega) hfree
    · rw [if_neg hfree]
      exact h.synced hfree

/-- The frequency that is taken from a scan result: that of the entry that is taken, or the first
one of the list. -/
lemma selectFreqIdx_value (hnum : scan.num ≤ 255) (freqList : List UInt8) :
    (∃ i, scan.Takes scan.num i ∧
      (selectFreqIdx scan freqList).value = (scan.entry i).freqIdx) ∨
    ((∀ i, ¬ scan.Takes scan.num i) ∧ (selectFreqIdx scan freqList).value = freqList.headD 0) := by
  have hstart : scan.Found 0 0xFF :=
    .inr ⟨rfl, fun j hj => absurd hj.1 (Nat.not_lt_zero j)⟩
  have hfound := hstart.loop ((Nat.zero_add _).trans_le hnum)
  rw [Nat.zero_add] at hfound
  rw [selectFreqIdx, Traced.value_bind]
  rcases hfound with htaken | ⟨hnone, hbehind⟩
  · have hne : (selectLoop scan 0 scan.num 0xFF).value ≠ 0xFF := by
      intro heq
      have hlt := htaken.free.1
      rw [heq] at hlt
      exact absurd (hlt.trans_le hnum) (by decide)
    rw [if_pos hne]
    exact .inl ⟨_, htaken, rfl⟩
  · rw [if_neg (not_not.mpr hnone)]
    refine .inr ⟨fun i htaken => ?_, rfl⟩
    obtain ⟨j, hj, hbelow⟩ := htaken.below
    exact Int8.lt_irrefl (Int8.lt_of_lt_of_le hbelow (hbehind j hj))

end Takes

/-! ### The command -/

section Setup

variable {s : AtState} {args : List UInt8} {fa : FreqArgs} {scan : ScanData} {setOk : Bool}

/-- The record with the base frequency of the list. -/
def AtState.withBase (s : AtState) (fa : FreqArgs) : AtState :=
  { s with loc := { s.loc with baseFreq := fa.baseFreq } }

/-- What a command with an accepted list does. -/
lemma freqSetup_events (hargs : atGetFreqList args = .ok fa) :
    (atWiotaFreqSetup args scan setOk s).events =
      (changeSpectrum fa (s.withBase fa)).events ++ ((chooseFreqIdx scan fa.freqList).events ++
        [.setFreqInfo (chooseFreqIdx scan fa.freqList).value]) := by
  rw [atWiotaFreqSetup, hargs]
  cases setOk <;> rfl

/-- The record behind a command with an accepted list. -/
lemma freqSetup_state (hargs : atGetFreqList args = .ok fa) :
    (atWiotaFreqSetup args scan setOk s).value.2.loc =
      if setOk = true then
        { (changeSpectrum fa (s.withBase fa)).value.loc with
          curFreq := indexToFreq (chooseFreqIdx scan fa.freqList).value
            (changeSpectrum fa (s.withBase fa)).value.loc.baseFreq }
      else (changeSpectrum fa (s.withBase fa)).value.loc := by
  rw [atWiotaFreqSetup, hargs]
  cases setOk <;> rfl

end Setup

/-- The frequency that a command passes to `uc_wiota_set_freq_info`. -/
def AtEvent.freq? : AtEvent → Option UInt8
  | .setFreqInfo freqIdx => some freqIdx
  | _ => none

/-- The change of the spectrum is a restart: no choice, and no read of the scan result. -/
lemma eq_run_of_mem_changeSpectrum {fa : FreqArgs} {s : AtState} {e : AtEvent}
    (he : e ∈ (changeSpectrum fa s).events) : ∃ loc, e = .run loc := by
  rw [changeSpectrum] at he
  split at he
  · exact ⟨_, List.mem_singleton.mp he⟩
  · exact (List.not_mem_nil he).elim

/-- The quietest free frequency of a scan, or the first of the list if there is none. -/
def IsQuietest (scan : ScanData) (freqList : List UInt8) (freqIdx : UInt8) : Prop :=
  (∃ i < scan.num, (scan.entry i).isSynced = 0 ∧ freqIdx = (scan.entry i).freqIdx ∧
    ∀ j < scan.num, (scan.entry j).isSynced = 0 → (scan.entry i).rssi ≤ (scan.entry j).rssi) ∨
  (∀ i < scan.num, (scan.entry i).isSynced ≠ 0) ∧ freqList.head? = some freqIdx

/-- `AT+FREQ` with several frequencies passes on the quietest free one and reads only entries of the
scan result exactly if no entry is free; then it is the first one of its list. -/
theorem freq_setup_quietest_iff (s : AtState) {args : List UInt8} {fa : FreqArgs}
    (hargs : atGetFreqList args = .ok fa) (hlist : 2 ≤ fa.freqList.length) {scan : ScanData}
    (hsucc : scan.succ = true) (hnum : 1 ≤ scan.num ∧ scan.num ≤ 16) (setOk : Bool) :
    ((∃ freqIdx, (atWiotaFreqSetup args scan setOk s).events.filterMap AtEvent.freq? = [freqIdx] ∧
        IsQuietest scan fa.freqList freqIdx) ∧
      ∀ i, .readScan i ∈ (atWiotaFreqSetup args scan setOk s).events → i < scan.num) ↔
    ∀ i < scan.num, (scan.entry i).isSynced ≠ 0 := by
  have hchoose : chooseFreqIdx scan fa.freqList = selectFreqIdx scan fa.freqList := by
    rw [chooseFreqIdx, if_neg (by omega), if_pos hsucc]
  rw [freqSetup_events hargs, hchoose]
  constructor
  · rintro ⟨-, hreads⟩ i hi hfree
    have hmem := readScan_mem_selectFreqIdx fa.freqList hi hfree
    have hlt := hreads 0xFF (List.mem_append_right _ (List.mem_append_left _ hmem))
    omega
  · intro hsynced
    obtain ⟨hvalue, hevents⟩ := selectFreqIdx_of_synced fa.freqList hsynced
    have hnone : (selectFreqIdx scan fa.freqList).events.filterMap AtEvent.freq? = [] := by
      refine List.filterMap_eq_nil_iff.mpr fun e he => ?_
      obtain ⟨i, -, rfl⟩ := hevents e he
      rfl
    have hspectrum : (changeSpectrum fa (s.withBase fa)).events.filterMap AtEvent.freq? = [] := by
      refine List.filterMap_eq_nil_iff.mpr fun e he => ?_
      obtain ⟨loc, rfl⟩ := eq_run_of_mem_changeSpectrum he
      rfl
    refine ⟨⟨fa.freqList.headD 0, ?_, Or.inr ⟨hsynced, ?_⟩⟩, fun i hi => ?_⟩
    · rw [List.filterMap_append, List.filterMap_append, hspectrum, hnone, hvalue]
      rfl
    · cases hfreqs : fa.freqList with
      | nil =>
        rw [hfreqs] at hlist
        exact absurd hlist (by decide)
      | cons f fs => rfl
    · rcases List.mem_append.mp hi with hi | hi
      · obtain ⟨loc, heq⟩ := eq_run_of_mem_changeSpectrum hi
        cases heq
      · rcases List.mem_append.mp hi with hi | hi
        · obtain ⟨j, hj, heq⟩ := hevents _ hi
          cases heq
          exact hj
        · cases List.mem_singleton.mp hi

/-- The record that the access point starts with. -/
def defauleState : AtState := (atWiotaRun (defauleLocal 0)).value

/-- `470000000,470200000`. -/
def twoFreqs : List UInt8 :=
  [0x34, 0x37, 0x30, 0x30, 0x30, 0x30, 0x30, 0x30, 0x30, comma,
    0x34, 0x37, 0x30, 0x32, 0x30, 0x30, 0x30, 0x30, 0x30]

/-- A scan result with two entries, and the `rssi` of what lies behind it. -/
def scanOfTwo (first second : ScanFreq) (behind : Int8) : ScanData where
  succ := true
  num := 2
  entry
    | 0 => first
    | 1 => second
    | _ => ⟨0, 0, behind, 0⟩

/-- With both frequencies in use the first one of the list is taken. -/
theorem freq_setup_quietest_both_used :
    ∃ freqIdx, (atWiotaFreqSetup twoFreqs (scanOfTwo ⟨0, 0, -80, 1⟩ ⟨1, 0, -90, 1⟩ 0) true
        defauleState).events.filterMap AtEvent.freq? = [freqIdx] ∧
      IsQuietest (scanOfTwo ⟨0, 0, -80, 1⟩ ⟨1, 0, -90, 1⟩ 0) [0, 1] freqIdx := by
  have hargs : atGetFreqList twoFreqs = .ok ⟨[0, 1], 3, 470000000⟩ := by decide +kernel
  refine ((freq_setup_quietest_iff defauleState hargs (by decide) rfl (by decide) true).mpr ?_).1
  intro i hi
  have hcases : i = 0 ∨ i = 1 := by
    change i < 2 at hi
    omega
  rcases hcases with rfl | rfl
  · decide
  · decide

/-- Two free frequencies, with a strong signal or a weak one in the memory behind the result.  In
the first case the louder second entry is taken, since the index 0 is replaced by the next free
entry; in the second case none is, and the louder first frequency of the list is used. -/
theorem freq_setup_louder :
    (atWiotaFreqSetup twoFreqs (scanOfTwo ⟨0, 0, -90, 0⟩ ⟨1, 0, -80, 0⟩ 0) true
        defauleState).events =
      [.readScan 0, .readScan 255, .readScan 1, .readScan 1, .setFreqInfo 1] ∧
    (atWiotaFreqSetup twoFreqs (scanOfTwo ⟨0, 0, -80, 0⟩ ⟨1, 0, -90, 0⟩ (-128)) true
        defauleState).events =
      [.readScan 0, .readScan 255, .readScan 1, .readScan 255, .setFreqInfo 0] := by
  decide +kernel

/-! ### The record -/

/-- Base frequency, frequency and spectrum of the record belong together. -/
structure AtLocal.FreqOk (loc : AtLocal) : Prop where
  spectrum : loc.spectrumIdx < freqRanges.length
  base : loc.baseFreq = rangeStart loc.spectrumIdx
  start_le : (rangeStart loc.spectrumIdx).toNat ≤ loc.curFreq.toNat
  le_end : loc.curFreq.toNat ≤ (rangeEnd loc.spectrumIdx).toNat
  aligned : (loc.curFreq.toNat - loc.baseFreq.toNat) % bwHz.toNat = 0

/-- The configuration of such a record has the index of the frequency in the spectrum. -/
lemma AtLocal.FreqOk.freqIdx {loc : AtLocal} (h : loc.FreqOk) :
    loc.config.freqIdx.toNat = (loc.curFreq.toNat - loc.baseFreq.toNat) / bwHz.toNat ∧
      loc.config.freqIdx ≤ atGetMaxFreqNum loc.spectrumIdx := by
  have hle : loc.baseFreq ≤ loc.curFreq := by
    rw [UInt32.le_iff_toNat_le, h.base]
    exact h.start_le
  have hmax : (loc.curFreq.toNat - loc.baseFreq.toNat) / bwHz.toNat ≤
      (atGetMaxFreqNum loc.spectrumIdx).toNat := by
    rw [h.base, ← (spectrum_table _ h.spectrum).2.2.2]
    exact Nat.div_le_div_right (Nat.sub_le_sub_right h.le_end _)
  have hidx : loc.config.freqIdx.toNat =
      (loc.curFreq.toNat - loc.baseFreq.toNat) / bwHz.toNat := by
    rw [AtLocal.config, UInt32.toNat_toUInt8, freqToIndex, UInt32.toNat_div,
      UInt32.toNat_sub_of_le _ _ hle]
    exact Nat.mod_eq_of_lt (lt_of_le_of_lt hmax (atGetMaxFreqNum loc.spectrumIdx).toNat_lt)
  refine ⟨hidx, ?_⟩
  rw [UInt8.le_iff_toNat_le, hidx]
  exact hmax

/-- No spectrum has the index 0xFF. -/
lemma atGetMaxFreqNum_lt (i : ℕ) : atGetMaxFreqNum i < 0xFF := by
  rcases Nat.lt_or_ge i freqRanges.length with hlt | hle
  · have hall : ∀ i < freqRanges.length, atGetMaxFreqNum i < 0xFF := by decide
    exact hall i hlt
  · have htable : maxFreqNumTable.length ≤ i := hle
    rw [atGetMaxFreqNum, List.getD_eq_getElem?_getD, List.getElem?_eq_none htable]
    decide

/-- The bounds of the spectra, and that two of them are apart or do not share a frequency. -/
lemma spectra_apart : ∀ i < freqRanges.length, (rangeStart i).toNat < 2 ^ 30 ∧
    (rangeStart i).toNat ≤ (rangeEnd i).toNat ∧ ∀ j < freqRanges.length, i ≠ j →
      (rangeEnd i).toNat < (rangeStart j).toNat ∨ (rangeEnd j).toNat < (rangeStart i).toNat ∨
        (rangeStart i).toNat % bwHz.toNat ≠ (rangeStart j).toNat % bwHz.toNat := by
  decide +kernel

/-- The frequency of an index. -/
lemma toNat_indexToFreq {i : ℕ} (hi : i < freqRanges.length) (index : UInt8) :
    (indexToFreq index (rangeStart i)).toNat =
      index.toNat * bwHz.toNat + (rangeStart i).toNat := by
  have hstart := (spectra_apart i hi).1
  have hindex := index.toNat_lt
  have hbw : bwHz.toNat = 200000 := rfl
  rw [indexToFreq, UInt32.toNat_add, UInt32.toNat_mul, UInt8.toNat_toUInt32, hbw,
    Nat.mod_eq_of_lt (a := index.toNat * 200000) (by omega)]
  exact Nat.mod_eq_of_lt (by omega)

section Record

variable {loc : AtLocal} {fa : FreqArgs}

/-- A frequency that is set by its index is in the spectrum exactly if the index is. -/
lemma freqOk_index_iff (h : loc.FreqOk) (index : UInt8) :
    ({ loc with curFreq := indexToFreq index loc.baseFreq } : AtLocal).FreqOk ↔
      index ≤ atGetMaxFreqNum loc.spectrumIdx := by
  have hfreq := toNat_indexToFreq h.spectrum index
  rw [← h.base] at hfreq
  rw [UInt8.le_iff_toNat_le, ← (spectrum_table _ h.spectrum).2.2.2,
    Nat.le_div_iff_mul_le (by decide)]
  have hle := (spectra_apart _ h.spectrum).2.1
  constructor
  · intro hok
    have hend := hok.le_end
    dsimp only at hend
    rw [hfreq, h.base] at hend
    omega
  · intro hindex
    refine ⟨h.spectrum, h.base, ?_, ?_, ?_⟩
    · dsimp only
      rw [hfreq, h.base]
      omega
    · dsimp only
      rw [hfreq, h.base]
      omega
    · dsimp only
      rw [hfreq, Nat.add_sub_cancel, Nat.mul_mod_left]

/-- A frequency of one spectrum is none of another one. -/
lemma not_freqOk_of_spectrum_ne (h : loc.FreqOk) (hfa : fa.baseFreq = rangeStart fa.spectrumIdx)
    (hne : fa.spectrumIdx ≠ loc.spectrumIdx) :
    ¬ ({ loc with baseFreq := fa.baseFreq, spectrumIdx := fa.spectrumIdx } : AtLocal).FreqOk := by
  intro hok
  have hapart := (spectra_apart _ hok.spectrum).2.2 _ h.spectrum hne
  have hstart := hok.start_le
  have hend := hok.le_end
  have haligned := hok.aligned
  have hstart' := h.start_le
  have hend' := h.le_end
  have haligned' := h.aligned
  dsimp only at hapart hstart hend haligned
  rw [hfa] at haligned
  rw [h.base] at haligned'
  have hbw : bwHz.toNat = 200000 := rfl
  rw [hbw] at hapart haligned haligned'
  omega

/-- The base frequency of an empty list belongs to no spectrum. -/
lemma not_freqOk_of_nil (hbase : loc.baseFreq = 0) : ¬ loc.FreqOk := by
  intro hok
  obtain ⟨hpos, -⟩ := spectrum_table _ hok.spectrum
  rw [← hok.base, hbase] at hpos
  exact absurd hpos (by decide)

end Record

/-! ### Histories -/

/-- The property holds of the record, and held of it at every restart of the stack. -/
def AtHistory.FreqOk (h : AtHistory) : Prop :=
  h.state.loc.FreqOk ∧ ∀ loc, .run loc ∈ h.events → loc.FreqOk

/-- What several frequencies ask of the scan: that it succeeds, and that the entry that is taken
from it, if there is one, has an index of the spectrum. -/
def ScanData.InSpectrum (scan : ScanData) (spectrumIdx : ℕ) : Prop :=
  scan.succ = true ∧
    ∀ i, scan.Takes scan.num i → (scan.entry i).freqIdx ≤ atGetMaxFreqNum spectrumIdx

/-- The commands that keep the frequency of the record in order: `AT+FREQ` with a list that is
rejected; with one or more frequencies of the present spectrum, if there is only one, or the scan is
as above, or setting the frequency fails; and all others. -/
def FreqEvent (loc : AtLocal) : AtCommand → Prop
  | .freq args scan setOk => ∀ fa, atGetFreqList args = .ok fa →
    fa.freqList ≠ [] ∧ fa.spectrumIdx = loc.spectrumIdx ∧
      (setOk = true → fa.freqList.length = 1 ∨ scan.InSpectrum fa.spectrumIdx)
  | _ => True

/-- The result of a scan has no more entries than frequencies can be asked for: `freq_num` of
`uc_wiota_scan_freq` has 8 bits, as has `min_rssi_idx`. -/
def AtCommand.ScanFits : AtCommand → Prop
  | .freq _ scan _ => scan.num ≤ 255
  | _ => True

/-- The condition for a step of a run. -/
def FreqGuard (_past : List AtCommand) (cmd : AtCommand) (h : AtHistory) : Prop :=
  cmd.ScanFits ∧ FreqEvent h.state.loc cmd

/-- What a single command makes of the record. -/
def AtCommand.FreqOk (cmd : AtCommand) (s : AtState) : Prop :=
  (cmd.exec s).value.2.loc.FreqOk ∧ ∀ loc, .run loc ∈ (cmd.exec s).events → loc.FreqOk

/-- The property is about three fields of the record. -/
lemma AtLocal.FreqOk.congr {loc loc' : AtLocal} (h : loc.FreqOk)
    (hsame : loc'.baseFreq = loc.baseFreq ∧ loc'.curFreq = loc.curFreq ∧
      loc'.spectrumIdx = loc.spectrumIdx) : loc'.FreqOk := by
  obtain ⟨hbase, hcur, hspectrum⟩ := hsame
  obtain ⟨h₁, h₂, h₃, h₄, h₅⟩ := h
  constructor
  · rwa [hspectrum]
  · rwa [hbase, hspectrum]
  · rwa [hcur, hspectrum]
  · rwa [hcur, hspectrum]
  · rwa [hcur, hbase]

section Histories

variable {s : AtState} {fa : FreqArgs} {args : List UInt8} {scan : ScanData} {setOk : Bool}

/-- Reads of a scan result. -/
def AtEvent.IsRead (e : AtEvent) : Prop := ∃ i, e = .readScan i

lemma readScan_all (i : ℕ) : (readScan scan i).All AtEvent.IsRead := by
  intro e he
  exact ⟨i, List.mem_singleton.mp he⟩

/-- The loop over a scan result only reads. -/
lemma selectLoop_all (i n : ℕ) (min : UInt8) : (selectLoop scan i n min).All AtEvent.IsRead := by
  induction n generalizing i min with
  | zero => exact Traced.all_pure _ _
  | succ n ih =>
    rw [selectLoop, Traced.all_bind]
    refine ⟨readScan_all i, ?_⟩
    split
    · split
      · exact ih _ _
      · rw [Traced.all_bind]
        exact ⟨readScan_all _, ih _ _⟩
    · exact ih _ _

/-- The choice of a frequency only reads. -/
lemma chooseFreqIdx_all (freqList : List UInt8) :
    (chooseFreqIdx scan freqList).All AtEvent.IsRead := by
  rw [chooseFreqIdx]
  split
  · exact Traced.all_pure _ _
  · split
    · rw [selectFreqIdx, Traced.all_bind]
      refine ⟨selectLoop_all _ _ _, ?_⟩
      split
      · rw [Traced.all_bind]
        exact ⟨readScan_all _, Traced.all_pure _ _⟩
      · exact Traced.all_pure _ _
    · exact Traced.all_pure _ _

/-- The loop that prints a scan result only reads. -/
lemma printScan_all (i n : ℕ) : (printScan scan i n).All AtEvent.IsRead := by
  induction n generalizing i with
  | zero => exact Traced.all_pure _ _
  | succ n ih =>
    rw [printScan, Traced.all_bind]
    exact ⟨readScan_all i, ih (i + 1)⟩

/-- `AT+RSSI` only reads. -/
lemma atWiotaRssi_all (kind : RssiKind) : (atWiotaRssi kind scan).All AtEvent.IsRead := by
  have hscan : (atWiotaScanFreq scan).All AtEvent.IsRead := by
    rw [atWiotaScanFreq]
    split
    · rw [Traced.all_bind]
      exact ⟨printScan_all _ _, Traced.all_pure _ _⟩
    · exact Traced.all_pure _ _
  cases kind with
  | exec => exact hscan
  | query => exact hscan
  | setup args =>
    rw [atWiotaRssi]
    split
    · exact Traced.all_pure _ _
    · exact hscan

/-- The restarts of `AT+FREQ` are those for another spectrum. -/
lemma run_mem_freq_iff (hargs : atGetFreqList args = .ok fa) (loc : AtLocal) :
    .run loc ∈ ((AtCommand.freq args scan setOk).exec s).events ↔
      .run loc ∈ (changeSpectrum fa (s.withBase fa)).events := by
  rw [AtCommand.exec, freqSetup_events hargs, List.mem_append, List.mem_append,
    List.mem_singleton]
  refine ⟨fun h => ?_, Or.inl⟩
  rcases h with h | h | h
  · exact h
  · obtain ⟨i, heq⟩ := chooseFreqIdx_all _ _ h
    cases heq
  · cases h

/-- The frequency of an accepted list is in the spectrum exactly if there is only one, or the scan
is as above. -/
lemma chooseFreqIdx_le_iff (hargs : atGetFreqList args = .ok fa) (hne : fa.freqList ≠ [])
    (hnum : scan.num ≤ 255) :
    (chooseFreqIdx scan fa.freqList).value ≤ atGetMaxFreqNum fa.spectrumIdx ↔
      fa.freqList.length = 1 ∨ scan.InSpectrum fa.spectrumIdx := by
  have hhead : fa.freqList.headD 0 ≤ atGetMaxFreqNum fa.spectrumIdx := by
    rcases atGetFreqList_cases hargs with rfl | ⟨-, -, -, hall⟩
    · exact absurd rfl hne
    · obtain ⟨f, fs, hlist⟩ := List.exists_cons_of_ne_nil hne
      rw [hlist] at hall ⊢
      exact hall f List.mem_cons_self
  rw [chooseFreqIdx, ScanData.InSpectrum]
  by_cases hone : fa.freqList.length = 1
  · rw [if_pos hone]
    exact iff_of_true hhead (.inl hone)
  · rw [if_neg hone, or_iff_right hone]
    by_cases hsucc : scan.succ = true
    · rw [if_pos hsucc, and_iff_right hsucc]
      rcases selectFreqIdx_value hnum fa.freqList with ⟨i, htaken, hvalue⟩ | ⟨hnone, hvalue⟩
      · rw [hvalue]
        exact ⟨fun hle j hj => htaken.unique hj ▸ hle, fun hall => hall i htaken⟩
      · rw [hvalue]
        exact iff_of_true hhead fun i htaken => absurd htaken (hnone i)
    · -- the index stays 0xFF, which is none of any spectrum
      rw [if_neg hsucc, Traced.value_pure]
      refine iff_of_false ?_ fun hand => hsucc hand.1
      exact UInt8.not_le.mpr (atGetMaxFreqNum_lt fa.spectrumIdx)

/-- `AT+FREQ` keeps the record in order exactly if it is admitted. -/
lemma freq_freqOk_iff (hs : s.loc.FreqOk) (hargs : atGetFreqList args = .ok fa)
    (hnum : scan.num ≤ 255) :
    (AtCommand.freq args scan setOk).FreqOk s ↔
      fa.freqList ≠ [] ∧ fa.spectrumIdx = s.loc.spectrumIdx ∧
        (setOk = true → fa.freqList.length = 1 ∨ scan.InSpectrum fa.spectrumIdx) := by
  rw [AtCommand.FreqOk]
  simp only [run_mem_freq_iff hargs]
  rw [AtCommand.exec, freqSetup_state hargs]
  by_cases hspectrum : fa.spectrumIdx = s.loc.spectrumIdx
  · have hchange : changeSpectrum fa (s.withBase fa) = pure (s.withBase fa) :=
      if_neg (not_not.mpr hspectrum)
    rw [hchange, Traced.value_pure, Traced.events_pure]
    rcases atGetFreqList_cases hargs with rfl | ⟨hne, -, hbase, -⟩
    · -- the empty list takes the base frequency away
      refine iff_of_false (fun hok => ?_) fun hguard => hguard.1 rfl
      refine not_freqOk_of_nil ?_ hok.1
      split <;> rfl
    · have hsame : (s.withBase fa).loc = s.loc := by
        rw [AtState.withBase, hbase, hspectrum, ← hs.base]
      rw [hsame, hspectrum]
      cases setOk with
      | false =>
        refine iff_of_true ⟨hs, fun loc hloc => (List.not_mem_nil hloc).elim⟩ ⟨hne, rfl, ?_⟩
        exact fun hset => absurd hset Bool.false_ne_true
      | true =>
        have hindex := chooseFreqIdx_le_iff hargs hne hnum
        rw [hspectrum] at hindex
        rw [if_pos rfl, freqOk_index_iff hs, hindex]
        refine ⟨fun hok => ⟨hne, rfl, fun _ => hok.1⟩, fun hguard => ⟨hguard.2.2 rfl, ?_⟩⟩
        exact fun loc hloc => (List.not_mem_nil hloc).elim
  · -- the stack is started again with the old frequency
    refine iff_of_false (fun hok => ?_) fun hguard => hspectrum hguard.2.1
    have hchange : changeSpectrum fa (s.withBase fa) =
        atWiotaRun { (s.withBase fa).loc with spectrumIdx := fa.spectrumIdx } := if_pos hspectrum
    have hrun := hok.2 { (s.withBase fa).loc with spectrumIdx := fa.spectrumIdx }
      (by rw [hchange]; exact List.mem_singleton_self _)
    rcases atGetFreqList_cases hargs with rfl | ⟨-, -, hbase, -⟩
    · exact not_freqOk_of_nil rfl hrun
    · exact not_freqOk_of_spectrum_ne hs hbase hspectrum hrun

/-- `AT+RATE` leaves the frequency alone, and restarts the stack with it. -/
lemma rate_freqOk (hs : s.loc.FreqOk) (num : Option UInt32) : (AtCommand.rate num).FreqOk s := by
  have hnone : ∀ loc, AtEvent.run loc ∈ ([] : List AtEvent) → loc.FreqOk := fun loc hloc =>
    (List.not_mem_nil hloc).elim
  rw [AtCommand.FreqOk, AtCommand.exec]
  cases num with
  | none => exact ⟨hs, hnone⟩
  | some num =>
    rw [atWiotaRateSetup]
    split
    · rw [setRate]
      split
      · split
        · have hrun : ∀ rate, ({ s.loc with rateMode := rate } : AtLocal).FreqOk := fun rate =>
            hs.congr ⟨rfl, rfl, rfl⟩
          refine ⟨hrun _, fun loc hloc => ?_⟩
          rcases List.mem_cons.mp hloc with heq | hmem
          · cases heq
            exact hrun _
          · exact hnone loc hmem
        · exact ⟨hs, hnone⟩
      · exact ⟨hs, hnone⟩
    · exact ⟨hs, hnone⟩

/-- The commands that keep the record in order are those that are admitted. -/
lemma AtCommand.freqOk_iff (hs : s.loc.FreqOk) {cmd : AtCommand} (hfits : cmd.ScanFits) :
    cmd.FreqOk s ↔ FreqEvent s.loc cmd := by
  have hnone : ∀ loc, AtEvent.run loc ∈ ([] : List AtEvent) → loc.FreqOk := fun loc hloc =>
    (List.not_mem_nil hloc).elim
  cases cmd with
  | freq args scan setOk =>
    cases hargs : atGetFreqList args with
    | error code =>
      refine iff_of_true ?_ fun fa hfa => ?_
      · rw [AtCommand.FreqOk, AtCommand.exec, atWiotaFreqSetup, hargs]
        exact ⟨hs, hnone⟩
      · rw [hargs] at hfa
        cases hfa
    | ok fa =>
      rw [freq_freqOk_iff hs hargs hfits]
      refine ⟨fun hok fa' hfa' => ?_, fun hguard => hguard fa hargs⟩
      rw [hargs] at hfa'
      cases hfa'
      exact hok
  | rate num => exact iff_of_true (rate_freqOk hs num) trivial
  | sync num setOk =>
    obtain ⟨id, id', hsync⟩ := exists_atWiotaSyncSetup num setOk s
    exact iff_of_true ⟨hs.congr (by simp [AtCommand.exec, hsync]), hnone⟩ trivial
  | power num setOk =>
    obtain ⟨power, hpower⟩ := exists_atWiotaPowerSetup num setOk s
    exact iff_of_true ⟨hs.congr (by simp [AtCommand.exec, hpower]), hnone⟩ trivial
  | rssi kind scan =>
    refine iff_of_true ⟨hs, fun loc hloc => ?_⟩ trivial
    rw [AtCommand.exec, Traced.events_bind, Traced.events_pure, List.append_nil] at hloc
    obtain ⟨i, heq⟩ := atWiotaRssi_all kind _ hloc
    cases heq

/-- A history stays in order with a command that keeps the record in order. -/
lemma AtHistory.freqOk_step_iff {h h' : AtHistory} (hh : h.FreqOk) {cmd : AtCommand}
    (hstep : atStep cmd h = .ok h') : h'.FreqOk ↔ cmd.FreqOk h.state := by
  cases hstep
  refine and_congr_right fun _ => ⟨fun hall loc hloc => ?_, fun hall loc hloc => ?_⟩
  · exact hall loc (List.mem_append_right _ hloc)
  · rcases List.mem_append.mp hloc with hloc | hloc
    · exact hh.2 loc hloc
    · exact hall loc hloc

/-- The access point starts in order. -/
lemma freqOk_init {addr : UInt32} {h : AtHistory} (hinit : atSimplifiedInit addr = .ok h) :
    h.FreqOk := by
  rw [atSimplifiedInit_eq] at hinit
  cases hinit
  have hlow : (rangeStart 3).toNat ≤ defauleFreq.toNat := by decide +kernel
  have hhigh : defauleFreq.toNat ≤ (rangeEnd 3).toNat := by decide +kernel
  have haligned : (defauleFreq.toNat - (470000000 : UInt32).toNat) % bwHz.toNat = 0 := by
    decide +kernel
  have hspectrum : 3 < freqRanges.length := by decide
  have hok : (defauleLocal addr).FreqOk := ⟨hspectrum, rfl, hlow, hhigh, haligned⟩
  refine ⟨hok, fun loc hloc => ?_⟩
  cases List.mem_singleton.mp hloc
  exact hok

end Histories

/-- The frequency of the record.  As long as the commands are admitted, base frequency, frequency
and spectrum belong together behind every command and at every restart of the stack, which is then
configured with the index of the frequency in its spectrum; and a next command, with a scan result
of at most 255 entries, keeps this exactly if it is admitted. -/
theorem freq_state_iff {addr : UInt32} {h₀ h : AtHistory} {cmds : List AtCommand}
    (hinit : atSimplifiedInit addr = .ok h₀) (hrun : GuardedRun atStep FreqGuard h₀ cmds h) :
    h.FreqOk ∧
      (∀ loc, .run loc ∈ h.events →
        loc.config.freqIdx.toNat = (loc.curFreq.toNat - loc.baseFreq.toNat) / bwHz.toNat ∧
          loc.config.freqIdx ≤ atGetMaxFreqNum loc.spectrumIdx) ∧
      ∀ cmd h', cmd.ScanFits → atStep cmd h = .ok h' →
        (h'.FreqOk ↔ FreqEvent h.state.loc cmd) := by
  have hok : h.FreqOk := by
    refine hrun.invariant (P := fun _ h => h.FreqOk) (freqOk_init hinit) ?_
    intro past cmd h h' hh hguard hstep
    obtain ⟨hfits, hevent⟩ := hguard
    exact (AtHistory.freqOk_step_iff hh hstep).mpr ((AtCommand.freqOk_iff hh.1 hfits).mpr hevent)
  refine ⟨hok, fun loc hloc => (hok.2 loc hloc).freqIdx, fun cmd h' hfits hstep => ?_⟩
  rw [AtHistory.freqOk_step_iff hok hstep, AtCommand.freqOk_iff hok.1 hfits]

/-- `502200000`, a frequency of the spectrum that the access point starts with. -/
def sameSpectrum : List UInt8 := [0x35, 0x30, 0x32, 0x32, 0x30, 0x30, 0x30, 0x30, 0x30]

/-- `229000000`, a frequency of the first spectrum. -/
def otherSpectrum : List UInt8 := [0x32, 0x32, 0x39, 0x30, 0x30, 0x30, 0x30, 0x30, 0x30]

/-- The start of the access point. -/
def defauleHistory : AtHistory := ⟨defauleState, [.run (defauleLocal 0)]⟩

/-- A frequency of the present spectrum is set, and then one of two others after a scan that finds
both of them free. -/
theorem freq_state_same_spectrum :
    ∃ h, GuardedRun atStep FreqGuard defauleHistory
        [.freq sameSpectrum ⟨false, 0, fun _ => ⟨0, 0, 0, 0⟩⟩ true,
          .freq twoFreqs (scanOfTwo ⟨0, 0, -80, 0⟩ ⟨1, 0, -90, 0⟩ 0) true] h ∧
      h.state.loc.curFreq = 470200000 ∧ h.FreqOk := by
  have hone : atGetFreqList sameSpectrum = .ok ⟨[161], 3, 470000000⟩ := by decide +kernel
  have htwo : atGetFreqList twoFreqs = .ok ⟨[0, 1], 3, 470000000⟩ := by decide +kernel
  have hscan : (scanOfTwo ⟨0, 0, -80, 0⟩ ⟨1, 0, -90, 0⟩ 0).InSpectrum 3 := by
    refine ⟨rfl, fun i htaken => ?_⟩
    have hlt : i < 2 := htaken.free.1
    obtain rfl | rfl : i = 0 ∨ i = 1 := by omega
    · decide
    · decide
  have hguard : FreqGuard [] (.freq sameSpectrum ⟨false, 0, fun _ => ⟨0, 0, 0, 0⟩⟩ true)
      defauleHistory := by
    refine ⟨Nat.zero_le 255, fun fa hfa => ?_⟩
    rw [hone] at hfa
    cases hfa
    exact ⟨by decide, rfl, fun _ => .inl rfl⟩
  have hguard' : ∀ h : AtHistory, h.state.loc.spectrumIdx = 3 → ∀ past,
      FreqGuard past (.freq twoFreqs (scanOfTwo ⟨0, 0, -80, 0⟩ ⟨1, 0, -90, 0⟩ 0) true) h := by
    intro h hspectrum past
    refine ⟨show 2 ≤ 255 by decide, fun fa hfa => ?_⟩
    rw [htwo] at hfa
    cases hfa
    exact ⟨by decide, hspectrum.symm, fun _ => .inr hscan⟩
  have hrun : GuardedRun atStep FreqGuard defauleHistory
      ([] ++ [.freq sameSpectrum ⟨false, 0, fun _ => ⟨0, 0, 0, 0⟩⟩ true] ++
        [.freq twoFreqs (scanOfTwo ⟨0, 0, -80, 0⟩ ⟨1, 0, -90, 0⟩ 0) true]) _ :=
    .snoc (.snoc .nil hguard rfl) (hguard' _ (by decide +kernel) _) rfl
  refine ⟨_, hrun, ?_, (freq_state_iff (atSimplifiedInit_eq 0) hrun).1⟩
  decide +kernel

/-- With a frequency of another spectrum the stack is started with the old frequency, 502 MHz, above
the new base frequency, 223 MHz, which gives the index 1395 in 8 bits; with a single comma the base
frequency is lost. -/
theorem freq_state_stale :
    ((AtCommand.freq otherSpectrum ⟨false, 0, fun _ => ⟨0, 0, 0, 0⟩⟩ true).exec
        defauleState).events =
      [.run { defauleLocal 0 with baseFreq := 223000000, spectrumIdx := 0 }, .setFreqInfo 30] ∧
    ({ defauleLocal 0 with baseFreq := 223000000, spectrumIdx := 0 } : AtLocal).config.freqIdx =
      115 ∧
    ((AtCommand.freq [comma] ⟨false, 0, fun _ => ⟨0, 0, 0, 0⟩⟩ true).exec
        defauleState).value.2.loc.baseFreq = 0 := by
  decide +kernel

end WiotaAp
