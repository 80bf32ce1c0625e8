import WiotaAp.Foundation.Loop
import WiotaAp.Foundation.StableSort
import Mathlib.Data.UInt

/-!
# The choice of the operating frequency

`manager_wiota_freq.c`: the process of the manager scans the frequencies, keeps a list of those that
no other access point uses, ordered by their `rssi`, and takes its operating frequency and its
hopping frequency from the front of the list.

The list is an `rt_list`, here the sequence of its nodes; `current_freq_node` is a position in it.
The cursor stays at the same node between two choices, since every scan starts with a clean list and
without a cursor.  The static frequencies, the results of the scans and the allocations are those of
a `FreqEnv`, given for each scan by its number.  The lines that the process prints are left out.

### Outline

* `addFreqList`, `removeFreqList` and the loop `freqManagerLoop` over a scan result; for a result
  with different frequencies it sorts the free ones stably (`freqManagerLoop_sorted`);
* `chooseFreq`, the states of the process and their round `managerWiotaRound`;
* `scan_pass` and `empty_pass`: one pass with and without a free frequency.
-/

namespace WiotaAp

open Buffers

/-! ### The list of the frequencies -/

/-- An entry of a scan result. -/
structure ScanFreq where
  freqIdx : UInt8
  snr : Int8
  rssi : Int8
  isSynced : UInt8
  deriving DecidableEq, Repr

/-- A node of the list, `t_freq_node_manager`. -/
structure FreqNode where
  freq : UInt8
  snr : Int8
  rssi : Int8
  isSynced : UInt8
  sendCucessRate : UInt8
  deriving DecidableEq, Repr

/-- The node for an entry. -/
def ScanFreq.toNode (node : ScanFreq) : FreqNode where
  freq := node.freqIdx
  snr := node.snr
  rssi := node.rssi
  isSynced := node.isSynced
  sendCucessRate := 0

/-- `manager_wiota_find_node`: the position of the first node with a frequency. -/
def findNode (list : List FreqNode) (freq : UInt8) : Option ℕ :=
  list.findIdx? fun node => node.freq == freq

/-- The key of the order of the list. -/
def FreqNode.key (node : FreqNode) : ℤ := node.rssi.toInt

/-- `manager_wiota_add_freq_list`: a node with the frequency is overwritten where it is, a new one
is put in front of the first node with a greater `rssi`. -/
def addFreqList (malloc : Bool) (node : ScanFreq) (list : List FreqNode) : List FreqNode :=
  match findNode list node.freqIdx with
  | some i =>
    list.modify i fun temp =>
      { temp with snr := node.snr, rssi := node.rssi, isSynced := node.isSynced
                  sendCucessRate := 0 }
  | none => if malloc then insertStable FreqNode.key node.toNode list else list

/-- `manager_wiota_remove_freq_list`. -/
def removeFreqList (node : ScanFreq) (list : List FreqNode) : List FreqNode :=
  match findNode list node.freqIdx with
  | some i => list.eraseIdx i
  | none => list

/-- What a scan has found, `uc_scan_recv_t`; `data_len` is that of the entries. -/
structure ScanRecv where
  result : UInt16
  data : List ScanFreq
  deriving DecidableEq, Repr

/-- `UC_OP_SUCC`. -/
def scanOpSucc : UInt16 := 0

/-- The loop of `manager_wiota_freq_manager` from the entry `i` on. -/
def freqManagerLoop (malloc : ℕ → Bool) : ℕ → List ScanFreq → List FreqNode → List FreqNode
  | _, [], list => list
  | i, node :: data, list =>
    freqManagerLoop malloc (i + 1) data
      (if node.isSynced = 0 then addFreqList (malloc i) node list else removeFreqList node list)

/-- `manager_wiota_freq_manager`: 0 if the scan has had a result with an entry, else 1. -/
def freqManager (malloc : ℕ → Bool) (result : ScanRecv) (list : List FreqNode) :
    ℕ × List FreqNode :=
  if result.result = scanOpSucc then
    (if result.data = [] then 1 else 0, freqManagerLoop malloc 0 result.data list)
  else (1, list)

/-- `manager_wiota_only_freq`. -/
def onlyFreq (malloc : Bool) (freq : UInt8) (list : List FreqNode) : ℕ × List FreqNode :=
  (0, addFreqList malloc ⟨freq, 0, 0, 0⟩ list)

/-! ### The process -/

/-- The states of the process. -/
inductive WiotaProcess
  | default
  | scan
  | init
  | run
  | strategy
  | exit
  deriving DecidableEq, Repr

/-- The calls of the stack. -/
inductive FreqCall
  | init
  | run
  | exit
  | scanFreq (freq : List UInt8) (timeout : ℤ)
  | setFreqInfo (freqIdx : UInt8)
  | setHoppingFreq (freqIdx : UInt8)
  | setHoppingMode (ori hopping : ℕ)
  | mdelay (ms : ℕ)
  deriving DecidableEq, Repr

/-- What the process gets from outside, for each scan by its number: the 16 bytes of the static
list, the result, and whether the node of an entry can be allocated. -/
structure FreqEnv where
  staticList : ℕ → List UInt8
  scanResult : ℕ → ScanRecv
  malloc : ℕ → ℕ → Bool

/-- `g_wiota_manager_freq`, with the number of the scans and the calls of the stack. -/
structure FreqManager where
  freqList : List FreqNode
  currentFreqNode : Option ℕ
  continueScanFail : ℕ
  managerState : WiotaProcess
  scans : ℕ
  calls : List FreqCall
  deriving DecidableEq, Repr

/-- A call of the stack. -/
def FreqManager.call (s : FreqManager) (calls : List FreqCall) : FreqManager :=
  { s with calls := s.calls ++ calls }

/-- `manager_wiota_freq_list_init` clears the whole record. -/
def freqListInit (s : FreqManager) : FreqManager :=
  { s with
    freqList := []
    currentFreqNode := none
    continueScanFail := 0
    managerState := .default }

/-- `manager_wiota_get_static_freq`: the number of the entries in front of the terminator. -/
def getStaticFreq (list : List UInt8) : ℕ :=
  (list.take 16).findIdx fun freq => freq == 0xFF

/-- `WIOTA_SCAN_TIMEOUT`. -/
def wiotaScanTimeout : ℤ := 40000

/-- `manager_wiota_scan_freq` between the start of the stack and its exit: the arguments of the scan
if there is one, the code and the list. -/
def scanStatic (env : FreqEnv) (n : ℕ) (list : List FreqNode) :
    List FreqCall × ℕ × List FreqNode :=
  match getStaticFreq (env.staticList n) with
  | 0 => ([.scanFreq [] (-1)], freqManager (env.malloc n) (env.scanResult n) list)
  | 1 => ([], onlyFreq (env.malloc n 0) ((env.staticList n).headD 0) list)
  | len + 2 =>
    ([.scanFreq ((env.staticList n).take (len + 2)) wiotaScanTimeout],
      freqManager (env.malloc n) (env.scanResult n) list)

/-- `manager_wiota_scan_freq`. -/
def scanFreq (env : FreqEnv) (s : FreqManager) : ℕ × FreqManager :=
  let s := freqListInit (s.call [.init, .run])
  let (calls, res, list) := scanStatic env s.scans s.freqList
  (res, { s.call (calls ++ [.exit]) with freqList := list, scans := s.scans + 1 })

/-- `manager_wiota_choose_freq`: 1 for an empty list, 2 at its end, where the cursor is taken back,
else 0 with the cursor at the next node. -/
def chooseFreq (s : FreqManager) : ℕ × FreqManager :=
  if s.freqList = [] then (1, s)
  else
    match s.currentFreqNode with
    | none => (0, { s with currentFreqNode := some 0 })
    | some i =>
      if s.freqList.length ≤ i + 1 then (2, { s with currentFreqNode := none })
      else (0, { s with currentFreqNode := some (i + 1) })

/-- The frequency at the cursor. -/
def currentFreq (s : FreqManager) : Except Fault UInt8 :=
  match s.currentFreqNode.bind fun i => s.freqList[i]? with
  | none => .error .outOfBounds
  | some node => .ok node.freq

/-- The state `WIOTA_MANAGER_PROCESS_SCAN`. -/
def scanRound (env : FreqEnv) (s : FreqManager) : FreqManager :=
  let (res, s) := scanFreq env s
  if res ≠ 0 then
    let s := { s with continueScanFail := s.continueScanFail + 1 }
    { s.call [.mdelay (1000 * s.continueScanFail)] with managerState := .scan }
  else { s with managerState := .init }

/-- The hopping frequency of the state `WIOTA_MANAGER_PROCESS_INIT`. -/
def hoppingRound (s : FreqManager) : Except Fault FreqManager :=
  let (res, s) := chooseFreq s
  if res = 0 then do
    let freq ← currentFreq s
    return s.call [.setHoppingFreq freq, .setHoppingMode 2 2]
  else .ok s

/-- The state `WIOTA_MANAGER_PROCESS_INIT`. -/
def initRound (s : FreqManager) : Except Fault FreqManager :=
  let (res, s) := chooseFreq s
  if res ≠ 0 then .ok { s with managerState := .scan }
  else do
    let freq ← currentFreq s
    let s ← hoppingRound (s.call [.init, .setFreqInfo freq])
    return { s with managerState := .run }

/-- One round of the loop of `manager_wiota`.  The loop leaves before the state
`WIOTA_MANAGER_PROCESS_STRATEGY` is handled, and the state 0 has no case. -/
def managerWiotaRound (env : FreqEnv) (s : FreqManager) : Except Fault FreqManager :=
  match s.managerState with
  | .scan => .ok (scanRound env s)
  | .init => initRound s
  | .run => .ok { s.call [.run] with continueScanFail := 0, managerState := .strategy }
  | .exit => .ok { s.call [.exit] with managerState := .init }
  | .strategy => .ok s
  | .default => .ok s

/-- The loop of `manager_wiota`. -/
def managerWiotaBody (env : FreqEnv) (s : FreqManager) :
    Except Fault (FreqManager ⊕ FreqManager) :=
  if s.managerState = .strategy then .ok (.inr s)
  else (managerWiotaRound env s).map .inl

/-- `manager_wiota`. -/
def managerWiota (env : FreqEnv) (fuel : ℕ) (s : FreqManager) : Run FreqManager :=
  loop (managerWiotaBody env) fuel { freqListInit s with managerState := .scan }

/-! ### The list of a scan -/

/-- The entries of a scan that no other access point uses. -/
def freeNodes (data : List ScanFreq) : List FreqNode :=
  (data.filter fun node => node.isSynced = 0).map ScanFreq.toNode

/-- A frequency that is not in a list is not found. -/
lemma findNode_eq_none {list : List FreqNode} {freq : UInt8} (h : ∀ n ∈ list, n.freq ≠ freq) :
    findNode list freq = none := by
  refine List.findIdx?_eq_none_iff.mpr fun n hn => ?_
  simpa using h n hn

/-- The nodes of a sorted list come from entries. -/
lemma freq_of_mem {data : List ScanFreq} {list : List FreqNode}
    (h : StableSort FreqNode.key (freeNodes data) list) {n : FreqNode} (hn : n ∈ list) :
    ∃ node ∈ data, node.isSynced = 0 ∧ node.toNode = n := by
  obtain ⟨node, hnode, rfl⟩ := List.mem_map.mp (h.perm.mem_iff.mp hn)
  obtain ⟨hmem, hsynced⟩ := List.mem_filter.mp hnode
  exact ⟨node, hmem, by simpa using hsynced, rfl⟩

/-- The loop over the entries of a scan with different frequencies sorts the free ones: no entry
meets a node of an earlier one. -/
lemma freqManagerLoop_sorted {malloc : ℕ → Bool} (hmalloc : ∀ i, malloc i = true)
    {done data : List ScanFreq} {list : List FreqNode} (i : ℕ)
    (hdiff : ((done ++ data).map ScanFreq.freqIdx).Nodup)
    (h : StableSort FreqNode.key (freeNodes done) list) :
    StableSort FreqNode.key (freeNodes (done ++ data)) (freqManagerLoop malloc i data list) := by
  induction data generalizing done list i with
  | nil => rwa [List.append_nil]
  | cons node data ih =>
    have hfind : findNode list node.freqIdx = none := by
      refine findNode_eq_none fun n hn heq => ?_
      obtain ⟨e, he, -, rfl⟩ := freq_of_mem h hn
      rw [List.map_append, List.nodup_append] at hdiff
      exact hdiff.2.2 _ (List.mem_map_of_mem he) _ (List.mem_map_of_mem List.mem_cons_self) heq
    rw [freqManagerLoop]
    have hsplit : done ++ node :: data = (done ++ [node]) ++ data := by
      rw [List.append_assoc, List.singleton_append]
    rw [hsplit] at hdiff ⊢
    refine ih (i + 1) hdiff ?_
    by_cases hsynced : node.isSynced = 0
    · rw [if_pos hsynced, addFreqList, hfind, hmalloc i]
      have hfree : freeNodes (done ++ [node]) = freeNodes done ++ [node.toNode] := by
        simp [freeNodes, List.filter_append, hsynced]
      rw [hfree]
      exact h.insert node.toNode
    · rw [if_neg hsynced, removeFreqList, hfind]
      have hfree : freeNodes (done ++ [node]) = freeNodes done := by
        simp [freeNodes, List.filter_append, hsynced]
      rwa [hfree]

/-- A scan that finds no free frequency leaves an empty list. -/
lemma freqManagerLoop_of_synced (malloc : ℕ → Bool) {data : List ScanFreq} (i : ℕ)
    (h : ∀ node ∈ data, node.isSynced ≠ 0) : freqManagerLoop malloc i data [] = [] := by
  induction data generalizing i with
  | nil => rfl
  | cons node data ih =>
    rw [freqManagerLoop, if_neg (h node List.mem_cons_self)]
    exact ih (i + 1) fun n hn => h n (List.mem_cons_of_mem _ hn)

/-! ### A pass of the process -/

section Pass

variable {env : FreqEnv} {s : FreqManager}

/-- A scan with the frequencies of the static list, or of all if there are none. -/
lemma scanFreq_spec (hstatic : getStaticFreq (env.staticList s.scans) ≠ 1) :
    ∃ freq timeout, scanFreq env s =
      ((freqManager (env.malloc s.scans) (env.scanResult s.scans) []).1,
        { freqList := (freqManager (env.malloc s.scans) (env.scanResult s.scans) []).2
          currentFreqNode := none
          continueScanFail := 0
          managerState := .default
          scans := s.scans + 1
          calls := s.calls ++ [.init, .run, .scanFreq freq timeout, .exit] }) := by
  have happend : ∀ call : FreqCall, s.calls ++ [.init, .run] ++ ([call] ++ [.exit]) =
      s.calls ++ [.init, .run, call, .exit] := by
    intro call
    simp
  cases hlen : getStaticFreq (env.staticList s.scans) with
  | zero =>
    refine ⟨[], -1, ?_⟩
    rw [← happend]
    simp only [scanFreq, scanStatic, freqListInit, FreqManager.call, hlen]
  | succ len =>
    cases len with
    | zero => exact absurd hlen hstatic
    | succ len =>
      refine ⟨(env.staticList s.scans).take (len + 2), wiotaScanTimeout, ?_⟩
      rw [← happend]
      simp only [scanFreq, scanStatic, freqListInit, FreqManager.call, hlen]

/-- A scan that fails is repeated.  The count of the failures is cleared with the list, so that the
delay is always the same. -/
lemma scanRound_of_fail (hstatic : getStaticFreq (env.staticList s.scans) ≠ 1)
    (hres : (freqManager (env.malloc s.scans) (env.scanResult s.scans) []).1 ≠ 0) :
    ∃ freq timeout, scanRound env s =
      { freqList := (freqManager (env.malloc s.scans) (env.scanResult s.scans) []).2
        currentFreqNode := none
        continueScanFail := 1
        managerState := .scan
        scans := s.scans + 1
        calls := s.calls ++ [.init, .run, .scanFreq freq timeout, .exit, .mdelay 1000] } := by
  obtain ⟨freq, timeout, hspec⟩ := scanFreq_spec hstatic
  refine ⟨freq, timeout, ?_⟩
  simp only [scanRound, hspec, if_pos hres, FreqManager.call, List.append_assoc]
  rfl

/-- A scan with a result is followed by the choice. -/
lemma scanRound_of_succ (hstatic : getStaticFreq (env.staticList s.scans) ≠ 1)
    (hres : (freqManager (env.malloc s.scans) (env.scanResult s.scans) []).1 = 0) :
    ∃ freq timeout, scanRound env s =
      { freqList := (freqManager (env.malloc s.scans) (env.scanResult s.scans) []).2
        currentFreqNode := none
        continueScanFail := 0
        managerState := .init
        scans := s.scans + 1
        calls := s.calls ++ [.init, .run, .scanFreq freq timeout, .exit] } := by
  obtain ⟨freq, timeout, hspec⟩ := scanFreq_spec hstatic
  refine ⟨freq, timeout, ?_⟩
  simp only [scanRound, hspec, if_neg (not_not.mpr hres)]

/-- A round of the loop. -/
lemma loop_round {fuel : ℕ} {s' : FreqManager} (hstate : s.managerState ≠ .strategy)
    (hround : managerWiotaRound env s = .ok s') :
    loop (managerWiotaBody env) (fuel + 1) s = loop (managerWiotaBody env) fuel s' := by
  refine loop_of_next ?_ fuel
  rw [managerWiotaBody, if_neg hstate, hround]
  rfl

/-- The loop leaves in the state `WIOTA_MANAGER_PROCESS_STRATEGY`. -/
lemma loop_strategy {fuel : ℕ} (hstate : s.managerState = .strategy) :
    loop (managerWiotaBody env) (fuel + 1) s = .done s := by
  refine loop_of_exit ?_ fuel
  rw [managerWiotaBody, if_pos hstate]

/-- A round of the loop in the state `WIOTA_MANAGER_PROCESS_SCAN`. -/
lemma loop_scanRound {fuel : ℕ} (hscan : s.managerState = .scan) :
    loop (managerWiotaBody env) (fuel + 1) s =
      loop (managerWiotaBody env) fuel (scanRound env s) := by
  refine loop_round ?_ ?_
  · rw [hscan]
    decide
  · rw [managerWiotaRound, hscan]

/-- The calls that choose a frequency. -/
def FreqCall.isChoice : FreqCall → Bool
  | .setFreqInfo _ => true
  | .setHoppingFreq _ => true
  | .setHoppingMode _ _ => true
  | _ => false

/-- The frequencies that have been chosen. -/
def FreqManager.choices (s : FreqManager) : List FreqCall :=
  s.calls.filter FreqCall.isChoice

/-- A scan without a free frequency. -/
def ScanRecv.Useless (result : ScanRecv) : Prop :=
  result.result ≠ scanOpSucc ∨ ∀ node ∈ result.data, node.isSynced ≠ 0

/-- Nothing is kept of a scan without a free frequency. -/
lemma freqManager_of_useless (malloc : ℕ → Bool) {result : ScanRecv} (h : result.Useless) :
    (freqManager malloc result []).2 = [] := by
  rw [freqManager]
  split
  · rename_i hsucc
    rcases h with hfail | hsynced
    · exact absurd hsucc hfail
    · exact freqManagerLoop_of_synced malloc 0 hsynced
  · rfl

/-- A pass without a free frequency: the process is back at the next scan, and nothing has been
chosen. -/
lemma useless_pass (hscan : s.managerState = .scan)
    (hstatic : getStaticFreq (env.staticList s.scans) ≠ 1)
    (huseless : (env.scanResult s.scans).Useless) :
    ∃ n s', (∀ fuel, loop (managerWiotaBody env) (fuel + n) s =
        loop (managerWiotaBody env) fuel s') ∧
      s'.managerState = .scan ∧ s'.scans = s.scans + 1 ∧ s'.choices = s.choices := by
  have hempty := freqManager_of_useless (env.malloc s.scans) huseless
  by_cases hres : (freqManager (env.malloc s.scans) (env.scanResult s.scans) []).1 = 0
  · -- there are entries, all synchronised: the choice finds an empty list and goes back
    obtain ⟨freq, timeout, hround⟩ := scanRound_of_succ hstatic hres
    rw [hempty] at hround
    refine ⟨2, { scanRound env s with managerState := .scan }, fun fuel => ?_, rfl, ?_, ?_⟩
    · rw [loop_scanRound hscan, hround]
      exact loop_round (show WiotaProcess.init ≠ .strategy by decide) rfl
    · rw [hround]
    · simp [hround, FreqManager.choices, FreqCall.isChoice]
  · obtain ⟨freq, timeout, hround⟩ := scanRound_of_fail hstatic hres
    refine ⟨1, scanRound env s, fun fuel => loop_scanRound hscan, ?_, ?_, ?_⟩
    · rw [hround]
    · rw [hround]
    · simp [hround, FreqManager.choices, FreqCall.isChoice]

/-- The calls for the hopping frequency, from the second node of the list. -/
def hoppingCalls : List FreqNode → List FreqCall
  | [] => []
  | second :: _ => [.setHoppingFreq second.freq, .setHoppingMode 2 2]

/-- The choice of the operating frequency and of the hopping frequency walks over the first two
nodes. -/
lemma initRound_spec {first : FreqNode} {rest : List FreqNode} (hlist : s.freqList = first :: rest)
    (hcursor : s.currentFreqNode = none) :
    ∃ cursor, initRound s = .ok
      { s with
        currentFreqNode := cursor
        managerState := .run
        calls := s.calls ++ [.init, .setFreqInfo first.freq] ++ hoppingCalls rest } := by
  obtain ⟨list, current, fails, state, scans, calls⟩ := s
  obtain rfl : list = first :: rest := hlist
  obtain rfl : current = none := hcursor
  cases rest with
  | nil =>
    refine ⟨none, ?_⟩
    simp [initRound, chooseFreq, currentFreq, hoppingRound, FreqManager.call, hoppingCalls, ok_bind]
  | cons second rest =>
    refine ⟨some 1, ?_⟩
    simp [initRound, chooseFreq, currentFreq, hoppingRound, FreqManager.call, hoppingCalls, ok_bind]

/-- From the choice on the process runs to the end of the loop. -/
lemma choice_pass (env : FreqEnv) {first : FreqNode} {rest : List FreqNode}
    (hinit : s.managerState = .init) (hlist : s.freqList = first :: rest)
    (hcursor : s.currentFreqNode = none) :
    ∃ s', (∀ fuel, loop (managerWiotaBody env) (fuel + 3) s = .done s') ∧
      s'.managerState = .strategy ∧ s'.freqList = first :: rest ∧
      s'.choices = s.choices ++ .setFreqInfo first.freq :: hoppingCalls rest := by
  obtain ⟨cursor, hround⟩ := initRound_spec hlist hcursor
  have hchoices : (hoppingCalls rest).filter FreqCall.isChoice = hoppingCalls rest := by
    cases rest <;> rfl
  refine ⟨{ s with
      currentFreqNode := cursor
      continueScanFail := 0
      managerState := .strategy
      calls := s.calls ++ [.init, .setFreqInfo first.freq] ++ hoppingCalls rest ++ [.run] },
    fun fuel => ?_, rfl, hlist, ?_⟩
  · have hne : s.managerState ≠ .strategy := by
      rw [hinit]
      decide
    rw [loop_round hne (by rw [managerWiotaRound, hinit]; exact hround),
      loop_round (show WiotaProcess.run ≠ .strategy by decide) rfl]
    exact loop_strategy rfl
  · simp only [FreqManager.choices, List.filter_append, hchoices, List.append_assoc]
    exact congrArg (_ ++ _ :: ·) (List.append_nil _)

/-- A pass with a free frequency: the process has left the loop with the sorted list, and the
frequencies are those of its first two nodes. -/
lemma scan_pass (hscan : s.managerState = .scan)
    (hstatic : getStaticFreq (env.staticList s.scans) ≠ 1)
    (hmalloc : ∀ i, env.malloc s.scans i = true)
    (hsucc : (env.scanResult s.scans).result = scanOpSucc)
    (hdiff : ((env.scanResult s.scans).data.map ScanFreq.freqIdx).Nodup)
    (hfree : ∃ node ∈ (env.scanResult s.scans).data, node.isSynced = 0) :
    ∃ s' first rest, (∀ fuel, loop (managerWiotaBody env) (fuel + 4) s = .done s') ∧
      s'.managerState = .strategy ∧ s'.freqList = first :: rest ∧
      StableSort FreqNode.key (freeNodes (env.scanResult s.scans).data) (first :: rest) ∧
      s'.choices = s.choices ++ .setFreqInfo first.freq :: hoppingCalls rest := by
  have hne : (env.scanResult s.scans).data ≠ [] := by
    obtain ⟨node, hnode, -⟩ := hfree
    exact List.ne_nil_of_mem hnode
  have hsorted : StableSort FreqNode.key (freeNodes ([] ++ (env.scanResult s.scans).data))
      (freqManagerLoop (env.malloc s.scans) 0 (env.scanResult s.scans).data []) :=
    freqManagerLoop_sorted hmalloc 0 hdiff stableSort_nil
  rw [List.nil_append] at hsorted
  have hres : freqManager (env.malloc s.scans) (env.scanResult s.scans) [] =
      (0, freqManagerLoop (env.malloc s.scans) 0 (env.scanResult s.scans).data []) := by
    rw [freqManager, if_pos hsucc, if_neg hne]
  obtain ⟨freq, timeout, hround⟩ := scanRound_of_succ hstatic (congrArg Prod.fst hres)
  rw [hres] at hround
  cases hlist : freqManagerLoop (env.malloc s.scans) 0 (env.scanResult s.scans).data [] with
  | nil =>
    obtain ⟨node, hnode, hsynced⟩ := hfree
    rw [hlist] at hsorted
    have hmem : node.toNode ∈ freeNodes (env.scanResult s.scans).data :=
      List.mem_map_of_mem (List.mem_filter.mpr ⟨hnode, by simpa using hsynced⟩)
    exact absurd (hsorted.perm.mem_iff.mpr hmem) List.not_mem_nil
  | cons first rest =>
    rw [hlist] at hsorted hround
    obtain ⟨s', hloop, hstate, hfreq, hchoices⟩ := choice_pass env
      (congrArg FreqManager.managerState hround) (congrArg FreqManager.freqList hround)
      (congrArg FreqManager.currentFreqNode hround)
    refine ⟨s', first, rest, fun fuel => ?_, hstate, hfreq, hsorted, ?_⟩
    · rw [loop_scanRound hscan]
      exact hloop fuel
    · rw [hchoices, hround]
      simp [FreqManager.choices, FreqCall.isChoice]

/-- Passes without a free frequency in front of the one that finds some. -/
lemma passes {k : ℕ} (hscan : s.managerState = .scan)
    (hstatic : ∀ i < k, getStaticFreq (env.staticList (s.scans + i)) ≠ 1)
    (huseless : ∀ i < k, (env.scanResult (s.scans + i)).Useless) :
    ∃ n s', (∀ fuel, loop (managerWiotaBody env) (fuel + n) s =
        loop (managerWiotaBody env) fuel s') ∧
      s'.managerState = .scan ∧ s'.scans = s.scans + k ∧ s'.choices = s.choices := by
  apply loop_passes (P := fun i _ (s' : FreqManager) => s'.managerState = .scan ∧
    s'.scans = s.scans + i ∧ s'.choices = s.choices) _ ⟨hscan, rfl, rfl⟩
  rintro i hi n s₁ ⟨hscan₁, hscans₁, hchoices₁⟩
  obtain ⟨m, s₂, hloop, hscan₂, hscans₂, hchoices₂⟩ := useless_pass hscan₁
    (hscans₁ ▸ hstatic i hi) (hscans₁ ▸ huseless i hi)
  refine ⟨m, s₂, hloop, hscan₂, ?_, hchoices₂.trans hchoices₁⟩
  rw [hscans₂, hscans₁, Nat.add_assoc]

end Pass

/-- The choice of the frequencies.  Whatever scans without a free frequency come first, the process
takes from the first scan with free ones, all different, the list of them in stable ascending order;
it operates on the first, which is the one listed first among those with the least `rssi`, and hops
to the second if there is one, and it never takes a frequency that is synchronised. -/
theorem operating_frequency_choice (env : FreqEnv) (s : FreqManager) (k : ℕ)
    (hstatic : ∀ i ≤ k, getStaticFreq (env.staticList (s.scans + i)) ≠ 1)
    (hmalloc : ∀ i, env.malloc (s.scans + k) i = true)
    (huseless : ∀ i < k, (env.scanResult (s.scans + i)).Useless)
    (hsucc : (env.scanResult (s.scans + k)).result = scanOpSucc)
    (hdiff : ((env.scanResult (s.scans + k)).data.map ScanFreq.freqIdx).Nodup)
    (hfree : ∃ node ∈ (env.scanResult (s.scans + k)).data, node.isSynced = 0) :
    ∃ s' first rest, Terminates (fun fuel => managerWiota env fuel s) s' ∧
      s'.managerState = .strategy ∧ s'.freqList = first :: rest ∧
      StableSort FreqNode.key (freeNodes (env.scanResult (s.scans + k)).data) (first :: rest) ∧
      s'.choices = s.choices ++ .setFreqInfo first.freq :: hoppingCalls rest ∧
      (∀ node ∈ freeNodes (env.scanResult (s.scans + k)).data,
        first.rssi.toInt ≤ node.rssi.toInt) ∧
      (∃ pre post, freeNodes (env.scanResult (s.scans + k)).data = pre ++ first :: post ∧
        ∀ node ∈ pre, first.rssi.toInt < node.rssi.toInt) ∧
      (rest ≠ [] ↔ 2 ≤ (freeNodes (env.scanResult (s.scans + k)).data).length) ∧
      ∀ node ∈ (env.scanResult (s.scans + k)).data, node.isSynced ≠ 0 →
        ∀ kept ∈ first :: rest, kept.freq ≠ node.freqIdx := by
  obtain ⟨n, s₁, hloop₁, hscan₁, hscans₁, hchoices₁⟩ := passes
    (s := { freqListInit s with managerState := .scan }) rfl
    (fun i hi => hstatic i hi.le) huseless
  rw [show FreqManager.scans { freqListInit s with managerState := .scan } = s.scans from rfl]
    at hscans₁
  rw [← hscans₁] at hmalloc hsucc hdiff hfree ⊢
  obtain ⟨s', first, rest, hloop, hstate, hlist, hsorted, hchoices⟩ := scan_pass hscan₁
    (hscans₁ ▸ hstatic k le_rfl) hmalloc hsucc hdiff hfree
  refine ⟨s', first, rest, ⟨4 + n, fun fuel hfuel => ?_⟩, hstate, hlist, hsorted, ?_,
    hsorted.head.1, hsorted.head.2, ?_, fun node hnode hsynced kept hkept heq => ?_⟩
  · obtain ⟨m, rfl⟩ := Nat.exists_eq_add_of_le' hfuel
    change managerWiota env (m + (4 + n)) s = .done s'
    rw [managerWiota, ← Nat.add_assoc, hloop₁, hloop]
  · rw [hchoices, hchoices₁]
    rfl
  · rw [← hsorted.perm.length_eq, List.length_cons]
    cases rest with
    | nil => simp
    | cons second rest => simp
  · obtain ⟨e, he, hfreeE, rfl⟩ := freq_of_mem hsorted hkept
    have hsame := List.inj_on_of_nodup_map hdiff he hnode heq
    exact hsynced (hsame ▸ hfreeE)

/-- A first scan that fails, and then one with three free frequencies, two of them equally quiet,
and a quieter one that is synchronised. -/
def sampleFreqEnv : FreqEnv where
  staticList _ := List.replicate 16 0xFF
  scanResult
    | 0 => ⟨1, []⟩
    | _ => ⟨scanOpSucc, [⟨5, 3, -70, 0⟩, ⟨7, 9, -99, 1⟩, ⟨9, 3, -90, 0⟩, ⟨3, 5, -90, 0⟩]⟩
  malloc _ _ := true

theorem operating_frequency_choice_sample :
    ∃ s' first rest, Terminates (fun fuel => managerWiota sampleFreqEnv fuel
        ⟨[], none, 0, .default, 0, []⟩) s' ∧ s'.freqList = first :: rest ∧
      s'.choices = .setFreqInfo first.freq :: hoppingCalls rest ∧ rest ≠ [] := by
  obtain ⟨s', first, rest, hend, -, hlist, -, hchoices, -, -, hhopping, -⟩ :=
    operating_frequency_choice sampleFreqEnv ⟨[], none, 0, .default, 0, []⟩ 1
      (fun _ _ => show getStaticFreq (List.replicate 16 0xFF) ≠ 1 by decide) (fun _ => rfl)
      (fun i hi => by
        obtain rfl : i = 0 := Nat.lt_one_iff.mp hi
        exact Or.inl (by decide))
      rfl (by decide) ⟨⟨5, 3, -70, 0⟩, List.mem_cons_self, rfl⟩
  exact ⟨s', first, rest, hend, hlist, hchoices, hhopping.mpr (by decide)⟩

/-! ### The delays between failed scans -/

/-- The delay of a call. -/
def FreqCall.delay : FreqCall → Option ℕ
  | .mdelay ms => some ms
  | _ => none

/-- The delays so far. -/
def FreqManager.delays (s : FreqManager) : List ℕ :=
  s.calls.filterMap FreqCall.delay

/-- The scan with a number fails. -/
def ScanFails (env : FreqEnv) (n : ℕ) : Prop :=
  (scanStatic env n []).2.1 ≠ 0

instance (env : FreqEnv) (n : ℕ) : Decidable (ScanFails env n) :=
  inferInstanceAs (Decidable (_ ≠ _))

/-- A static list of one frequency is taken as it is, so that a scan that fails has been made. -/
lemma ScanFails.result {env : FreqEnv} {n : ℕ} (h : ScanFails env n) :
    getStaticFreq (env.staticList n) ≠ 1 ∧
      (freqManager (env.malloc n) (env.scanResult n) []).1 ≠ 0 := by
  unfold ScanFails scanStatic at h
  split at h
  · rename_i hlen
    rw [hlen]
    exact ⟨by decide, h⟩
  · exact absurd rfl h
  · rename_i len hlen
    rw [hlen]
    exact ⟨by omega, h⟩

section Delays

variable {env : FreqEnv} {s : FreqManager}

/-- The round of a scan that fails. -/
lemma fail_pass (hscan : s.managerState = .scan) (hfail : ScanFails env s.scans) :
    ∃ s', (∀ fuel, loop (managerWiotaBody env) (fuel + 1) s =
        loop (managerWiotaBody env) fuel s') ∧
      s'.managerState = .scan ∧ s'.scans = s.scans + 1 ∧ s'.delays = s.delays ++ [1000] := by
  obtain ⟨hstatic, hres⟩ := hfail.result
  obtain ⟨freq, timeout, hround⟩ := scanRound_of_fail hstatic hres
  refine ⟨scanRound env s, fun fuel => loop_scanRound hscan, ?_, ?_, ?_⟩
  · rw [hround]
  · rw [hround]
  · rw [hround, FreqManager.delays, List.filterMap_append]
    rfl

/-- The rounds of scans that fail one after the other: the delay does not grow. -/
lemma fail_passes {n : ℕ} (hscan : s.managerState = .scan)
    (hfail : ∀ i < n, ScanFails env (s.scans + i)) :
    ∃ s', (∀ fuel, loop (managerWiotaBody env) (fuel + n) s =
        loop (managerWiotaBody env) fuel s') ∧
      s'.managerState = .scan ∧ s'.scans = s.scans + n ∧
      s'.delays = s.delays ++ List.replicate n 1000 := by
  have hpasses : ∃ m s', (∀ fuel, loop (managerWiotaBody env) (fuel + m) s =
        loop (managerWiotaBody env) fuel s') ∧
      m = n ∧ s'.managerState = .scan ∧ s'.scans = s.scans + n ∧
      s'.delays = s.delays ++ List.replicate n 1000 := by
    apply loop_passes (P := fun i m (s' : FreqManager) => m = i ∧ s'.managerState = .scan ∧
      s'.scans = s.scans + i ∧ s'.delays = s.delays ++ List.replicate i 1000) _
      ⟨rfl, hscan, rfl, (List.append_nil _).symm⟩
    rintro i hi m s₁ ⟨rfl, hscan₁, hscans₁, hdelays₁⟩
    obtain ⟨s₂, hloop, hscan₂, hscans₂, hdelays₂⟩ := fail_pass hscan₁ (hscans₁ ▸ hfail m hi)
    refine ⟨1, s₂, hloop, rfl, hscan₂, ?_, ?_⟩
    · rw [hscans₂, hscans₁, Nat.add_assoc]
    · rw [hdelays₂, hdelays₁, List.append_assoc, List.replicate_succ']
  obtain ⟨m, s', hloop, rfl, hrest⟩ := hpasses
  exact ⟨s', hloop, hrest⟩

/-- The process is not done, or the count of the failures is zero. -/
def FreqManager.Cleared (s : FreqManager) : Prop :=
  s.managerState = .strategy → s.continueScanFail = 0

/-- A scan is followed by another one or by a choice. -/
lemma managerState_scanRound (env : FreqEnv) (s : FreqManager) :
    (scanRound env s).managerState = .scan ∨ (scanRound env s).managerState = .init := by
  unfold scanRound
  dsimp only
  split
  · exact .inl rfl
  · exact .inr rfl

/-- A choice goes back to the scan or on to the start of the stack. -/
lemma managerState_of_initRound {s' : FreqManager} (h : initRound s = .ok s') :
    s'.managerState = .scan ∨ s'.managerState = .run := by
  unfold initRound at h
  dsimp only at h
  split at h
  · cases h
    exact .inl rfl
  · obtain ⟨freq, -, h⟩ := exists_of_bind_eq_ok h
    obtain ⟨s₁, -, h⟩ := exists_of_bind_eq_ok h
    cases h
    exact .inr rfl

/-- Only the start of the stack leads to the end of the loop, and it clears the count. -/
lemma cleared_of_round {s' : FreqManager} (hstate : s.managerState ≠ .strategy)
    (h : managerWiotaRound env s = .ok s') : s'.Cleared := by
  intro hend
  unfold managerWiotaRound at h
  split at h
  · cases h
    rcases managerState_scanRound env s with hscan | hinit
    · cases hscan.symm.trans hend
    · cases hinit.symm.trans hend
  · rcases managerState_of_initRound h with hscan | hrun
    · cases hscan.symm.trans hend
    · cases hrun.symm.trans hend
  · cases h
    rfl
  · cases h
    cases hend
  · rename_i hstrategy
    exact absurd hstrategy hstate
  · rename_i hdefault
    cases h
    cases hdefault.symm.trans hend

/-- A round of the loop leaves in the state `WIOTA_MANAGER_PROCESS_STRATEGY` and goes on in any
other. -/
lemma managerWiotaBody_cases {r : FreqManager ⊕ FreqManager} (h : managerWiotaBody env s = .ok r) :
    (s.managerState = .strategy ∧ r = .inr s) ∨
      (s.managerState ≠ .strategy ∧ ∃ s', managerWiotaRound env s = .ok s' ∧ r = .inl s') := by
  unfold managerWiotaBody at h
  split at h
  · rename_i hend
    cases h
    exact .inl ⟨hend, rfl⟩
  · rename_i hstate
    cases hround : managerWiotaRound env s with
    | error f =>
      rw [hround] at h
      cases h
    | ok s' =>
      rw [hround] at h
      cases h
      exact .inr ⟨hstate, s', rfl, rfl⟩

/-- The count of the failures is zero when the process is done. -/
lemma continueScanFail_of_done {fuel : ℕ} {s' : FreqManager} (hcleared : s.Cleared)
    (h : loop (managerWiotaBody env) fuel s = .done s') : s'.continueScanFail = 0 := by
  have hrun : s.Cleared → s'.continueScanFail = 0 := by
    refine loop_rec (P := fun s b => s.Cleared → b.continueScanFail = 0) ?_ ?_ h
    · intro s b hbody hs
      rcases managerWiotaBody_cases hbody with ⟨hend, hb⟩ | ⟨-, s₁, -, hb⟩
      · cases hb
        exact hs hend
      · cases hb
    · intro s s₁ b hbody hrest _
      rcases managerWiotaBody_cases hbody with ⟨-, hb⟩ | ⟨hstate, s₂, hround, hb⟩
      · cases hb
      · cases hb
        exact hrest (cleared_of_round hstate hround)
  exact hrun hcleared

end Delays

/-- The delays behind failed scans.  When the first `n` scans fail, the process waits a second after
each of them: the list of the frequencies is cleaned with the whole record, the count of the
failures with it.  The delay after the last is `n` seconds only for the first failure.  A pass that
runs leaves with the count at zero. -/
theorem scan_backoff_iff (env : FreqEnv) (s : FreqManager) {n : ℕ} (hn : 1 ≤ n)
    (hfail : ∀ i < n, ScanFails env (s.scans + i)) :
    (∃ s', (∀ fuel, managerWiota env (fuel + n) s = loop (managerWiotaBody env) fuel s') ∧
      s'.managerState = .scan ∧ s'.scans = s.scans + n ∧
      s'.delays = s.delays ++ List.replicate n 1000 ∧
      (s'.delays.getLast? = some (n * 1000) ↔ n = 1)) ∧
    ∀ fuel s', managerWiota env fuel s = .done s' → s'.continueScanFail = 0 := by
  constructor
  · obtain ⟨s', hloop, hscan, hscans, hdelays⟩ := fail_passes
      (show FreqManager.managerState { freqListInit s with managerState := .scan } = .scan from rfl)
      hfail
    have hlast : s'.delays.getLast? = some 1000 := by
      obtain ⟨m, rfl⟩ := Nat.exists_eq_add_of_le' hn
      rw [hdelays, List.replicate_succ', ← List.append_assoc, List.getLast?_concat]
    refine ⟨s', hloop, hscan, hscans, hdelays, ?_⟩
    rw [hlast, Option.some_inj]
    omega
  · intro fuel s' hdone
    apply continueScanFail_of_done _ hdone
    intro hstate
    cases hstate

/-- The first scan of `sampleFreqEnv` fails. -/
theorem scan_backoff_firstFailure :
    ∃ s', (∀ fuel, managerWiota sampleFreqEnv (fuel + 1) ⟨[], none, 0, .default, 0, []⟩ =
        loop (managerWiotaBody sampleFreqEnv) fuel s') ∧
      s'.delays.getLast? = some (1 * 1000) := by
  obtain ⟨⟨s', hloop, -, -, -, hlast⟩, -⟩ := scan_backoff_iff sampleFreqEnv
    ⟨[], none, 0, .default, 0, []⟩ (le_refl 1) (by decide)
  exact ⟨s', hloop, hlast.mpr rfl⟩

/-- Scans that always fail. -/
def failingFreqEnv : FreqEnv where
  staticList _ := List.replicate 16 0xFF
  scanResult _ := ⟨1, []⟩
  malloc _ _ := true

/-- After the second failure the process waits for one second, not for two. -/
theorem scan_backoff_constant :
    (∀ i < 2, ScanFails failingFreqEnv i) ∧
      ∃ s' : FreqManager, (∀ fuel, managerWiota failingFreqEnv (fuel + 2)
          ⟨[], none, 0, .default, 0, []⟩ = loop (managerWiotaBody failingFreqEnv) fuel s') ∧
        s'.delays = [1000, 1000] := by
  refine ⟨by decide, scanRound failingFreqEnv (scanRound failingFreqEnv
    ⟨[], none, 0, .scan, 0, []⟩), fun _ => rfl, by decide⟩

end WiotaAp
