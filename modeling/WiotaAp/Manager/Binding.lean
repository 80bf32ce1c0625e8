import WiotaAp.Manager.UserId

/-!
# The bindings of the devices

A device keeps the wiota id that `manager_reallocated_wiotaid` has given to it: the function finds
the node of the device before it looks for a reserved one, and so does `manager_query_wiotaid`.

`binding_stable` says this of every sequence of calls.  `allocation_progress_iff` says when a device
without an id is given one: the list at `id_reallocated_index` must hold a reserved id, since the
loop over the lists never leaves this list.
-/

namespace WiotaAp

open Buffers

/-! ### The allocations of a table -/

/-- The device of a node and its id, if the node is allocated. -/
def ManagerAddress.allocation? (data : ManagerAddress) : Option (UInt32 × UInt32) :=
  if data.allocateFlag = .addressPreallocated then some (data.devMac, data.address) else none

/-- The devices with their ids, in the order of the nodes. -/
def allocations (nodes : List ManagerAddress) : List (UInt32 × UInt32) :=
  nodes.filterMap ManagerAddress.allocation?

/-- What a node says about its id: all but the counter of the communication. -/
def ManagerAddress.binding (data : ManagerAddress) : UInt32 × UInt32 × AllocateFlag :=
  (data.address, data.devMac, data.allocateFlag)

/-- A node is the allocation of a device and an id. -/
lemma ManagerAddress.allocation?_eq_some {data : ManagerAddress} {dev id : UInt32} :
    data.allocation? = some (dev, id) ↔
      data.allocateFlag = .addressPreallocated ∧ data.devMac = dev ∧ data.address = id := by
  unfold ManagerAddress.allocation?
  split
  · rename_i hflag
    rw [Option.some.injEq, Prod.mk.injEq]
    exact (and_iff_right hflag).symm
  · rename_i hflag
    simp only [reduceCtorEq, hflag, false_and]

/-- The allocations are the ids that the devices have. -/
lemma mem_allocations {nodes : List ManagerAddress} {dev id : UInt32} :
    (dev, id) ∈ allocations nodes ↔ HasAddress nodes dev id := by
  unfold allocations HasAddress
  rw [List.mem_filterMap]
  simp only [ManagerAddress.allocation?_eq_some]

/-- The allocations at a cut of the nodes. -/
lemma allocations_cut (pre post : List ManagerAddress) (data : ManagerAddress) :
    allocations (pre ++ data :: post) =
      allocations pre ++ (data.allocation?.toList ++ allocations post) := by
  unfold allocations
  rw [List.filterMap_append, List.filterMap_cons]
  cases data.allocation? with
  | none => rfl
  | some entry => rfl

/-- Nodes that agree but for their counters have the same allocations. -/
lemma allocations_congr {nodes nodes' : List ManagerAddress}
    (h : nodes'.map ManagerAddress.binding = nodes.map ManagerAddress.binding) :
    allocations nodes' = allocations nodes := by
  have hfilter : ∀ nodes, allocations nodes = (nodes.map ManagerAddress.binding).filterMap
      fun entry => if entry.2.2 = .addressPreallocated then some (entry.2.1, entry.1)
        else none := by
    intro nodes
    rw [List.filterMap_map]
    rfl
  rw [hfilter, hfilter, h]

/-- The number of nodes that are allocated for a device. -/
lemma countP_queryElementAllocate (nodes : List ManagerAddress) (dev : UInt32) :
    nodes.countP (queryElementAllocate dev) = ((allocations nodes).map Prod.fst).count dev := by
  induction nodes with
  | nil => rfl
  | cons data nodes ih =>
    have hcut : allocations (data :: nodes) = data.allocation?.toList ++ allocations nodes :=
      allocations_cut [] nodes data
    rw [hcut, List.map_append, List.count_append, List.countP_cons, ih, Nat.add_comm]
    congr 1
    unfold queryElementAllocate ManagerAddress.allocation?
    by_cases hflag : data.allocateFlag = .addressPreallocated
    · by_cases hmac : dev = data.devMac
      · simp [hflag, hmac]
      · simp [hflag, hmac, Ne.symm hmac]
    · simp [hflag]

/-- The node is not allocated for the device exactly if it is no allocation of it. -/
lemma queryElementAllocate_eq_false {data : ManagerAddress} {dev : UInt32} :
    queryElementAllocate dev data = false ↔ ∀ id, data.allocation? ≠ some (dev, id) := by
  simp only [ne_eq, ManagerAddress.allocation?_eq_some, queryElementAllocate,
    Bool.and_eq_false_iff, beq_eq_false_iff_ne]
  constructor
  · rintro (hflag | hmac) id ⟨hflag', hmac', -⟩
    · exact hflag hflag'
    · exact hmac hmac'.symm
  · intro h
    by_cases hflag : data.allocateFlag = .addressPreallocated
    · exact .inr fun hmac => h data.address ⟨hflag, hmac.symm, rfl⟩
    · exact .inl hflag

/-! ### The search for a device -/

/-- `manager_query_wiotaid`. -/
def managerQueryWiotaid (config : SubSystemConfig) (mac : UInt32) (table : UserIdTable) :
    Except Fault UInt32 := do
  match ← queryAllocated mac table.reserveAddrHash config.allIndex 0 with
  | some (_, _, data) => return data.address
  | none => return mac

/-- The search over the lists from `i` on finds a node, or there is none for the device. -/
lemma queryAllocated_cases (mac : UInt32) (hash : List (List ManagerAddress)) {fuel i : ℕ}
    (hfuel : i + fuel = hash.length) :
    (queryAllocated mac hash fuel i = .ok none ∧
      ∀ data ∈ (hash.drop i).flatten, queryElementAllocate mac data = false) ∨
    ∃ j node data, queryAllocated mac hash fuel i = .ok (some (j, node, data)) := by
  induction fuel generalizing i with
  | zero =>
    have hdrop : hash.drop i = [] := List.drop_eq_nil_of_le (Nat.le_of_eq hfuel.symm)
    refine .inl ⟨rfl, ?_⟩
    rw [hdrop]
    intro data hdata
    cases hdata
  | succ fuel ih =>
    have hlt : i < hash.length := by omega
    rw [queryAllocated, List.getElem?_eq_getElem hlt]
    cases hquery : queryHeadList hash[i] (queryElementAllocate mac) with
    | some node =>
      obtain ⟨pre, data, post, hlist, rfl, -, -⟩ := exists_of_queryHeadList hquery
      refine .inr ⟨i, pre.length, data, ?_⟩
      simp only [hquery]
      rw [hlist, getElem?_cut]
    | none =>
      have hnone := queryHeadList_eq_none.mp hquery
      simp only [hquery]
      rcases ih (i := i + 1) (by omega) with ⟨hsearch, hrest⟩ | hfound
      · refine .inl ⟨hsearch, fun data hdata => ?_⟩
        rw [List.drop_eq_getElem_cons hlt, List.flatten_cons] at hdata
        rcases List.mem_append.mp hdata with hdata | hdata
        · exact hnone data hdata
        · exact hrest data hdata
      · exact .inr hfound

/-- The table has all its lists, its index is one of them, and no device has two nodes. -/
structure TableInv (config : SubSystemConfig) (table : UserIdTable) : Prop where
  length : table.reserveAddrHash.length = config.allIndex
  index : table.idReallocatedIndex.toNat < config.allIndex
  nodup : ((allocations table.nodes).map Prod.fst).Nodup

/-- The search in a whole table: the device has no id, or the search finds the node of its id. -/
lemma TableInv.search {config : SubSystemConfig} {table : UserIdTable}
    (hinv : TableInv config table) (mac : UInt32) :
    (queryAllocated mac table.reserveAddrHash config.allIndex 0 = .ok none ∧
      ∀ id, (mac, id) ∉ allocations table.nodes) ∨
    ∃ j pre data post,
      queryAllocated mac table.reserveAddrHash config.allIndex 0 = .ok (some (j, pre, data)) ∧
      data.allocation? = some (mac, data.address) ∧
      (mac, data.address) ∈ allocations table.nodes ∧
      ∃ pre', table.nodes = pre' ++ data :: post ∧
        ∀ data', (setNode table.reserveAddrHash j pre data').flatten = pre' ++ data' :: post := by
  rcases queryAllocated_cases mac table.reserveAddrHash
      ((Nat.zero_add _).trans hinv.length.symm) with ⟨hsearch, hnone⟩ | ⟨j, node, data, hsearch⟩
  · refine .inl ⟨hsearch, fun id hmem => ?_⟩
    obtain ⟨data, hdata, hallocation⟩ := List.mem_filterMap.mp hmem
    exact queryElementAllocate_eq_false.mp (hnone data hdata) id hallocation
  · obtain ⟨hflag, hmac, pre, post, hnodes, hset⟩ := exists_of_queryAllocated hsearch
    have hallocation : data.allocation? = some (mac, data.address) :=
      ManagerAddress.allocation?_eq_some.mpr ⟨hflag, hmac, rfl⟩
    refine .inr ⟨j, node, data, post, hsearch, hallocation, ?_, pre, hnodes, hset⟩
    refine List.mem_filterMap.mpr ⟨data, ?_, hallocation⟩
    rw [UserIdTable.nodes, hnodes]
    exact List.mem_append_right _ List.mem_cons_self

/-! ### What a device is given -/

/-- The reply to a device. -/
def replaceMessage (wiotaAddress id : UInt32) : ReplaceMessage :=
  ⟨apDefaultAddress, wiotaAddress, id⟩

/-- The device that has the id `id` is told it again: only the counter of its node changes. -/
def RepeatsId (config : SubSystemConfig) (devAddress wiotaAddress : UInt32) (table : UserIdTable)
    (id : UInt32) : Prop :=
  ∃ table', managerReallocatedWiotaid config devAddress wiotaAddress table =
      .ok (table', some (replaceMessage wiotaAddress id)) ∧
    table'.nodes.map ManagerAddress.binding = table.nodes.map ManagerAddress.binding ∧
    table'.idReallocatedIndex = table.idReallocatedIndex

/-- The node is allocated for a device. -/
def ManagerAddress.allocatedFor (data : ManagerAddress) (dev : UInt32) : ManagerAddress :=
  { data with
    allocateFlag := .addressPreallocated
    currentComCount := data.currentComCount + 1
    devMac := dev }

/-- The device is given a reserved id: the node `data` is allocated for it, the reply names its id,
and nothing else is changed in the lists. -/
def GivesReserved (config : SubSystemConfig) (devAddress wiotaAddress : UInt32)
    (table : UserIdTable) : Prop :=
  ∃ (pre : List ManagerAddress) (data : ManagerAddress) (post : List ManagerAddress)
    (table' : UserIdTable), table.nodes = pre ++ data :: post ∧
    data.allocateFlag = .addressReserved ∧
    managerReallocatedWiotaid config devAddress wiotaAddress table =
      .ok (table', some (replaceMessage wiotaAddress data.address)) ∧
    table'.nodes = pre ++ data.allocatedFor devAddress :: post

/-- The list at the index holds a reserved id. -/
def ReservedAtIndex (table : UserIdTable) : Prop :=
  ∃ list, table.reserveAddrHash[table.idReallocatedIndex.toNat]? = some list ∧
    ∃ data ∈ list, data.allocateFlag = .addressReserved

/-- A device that has an id is told it again. -/
lemma TableInv.repeats {config : SubSystemConfig} {table : UserIdTable}
    (hinv : TableInv config table) {devAddress id : UInt32}
    (hid : (devAddress, id) ∈ allocations table.nodes) (wiotaAddress : UInt32) :
    RepeatsId config devAddress wiotaAddress table id := by
  rcases hinv.search devAddress with ⟨-, hnone⟩ | ⟨j, node, data, post, hsearch, -, hmem, pre,
      hnodes, hset⟩
  · exact absurd hid (hnone id)
  · -- the node that is found is the only one of the device
    have heq : data.address = id :=
      congrArg Prod.snd (List.inj_on_of_nodup_map hinv.nodup hmem hid rfl)
    refine ⟨⟨setNode table.reserveAddrHash j node
      { data with currentComCount := data.currentComCount + 1 }, table.idReallocatedIndex⟩,
      ?_, ?_, rfl⟩
    · unfold managerReallocatedWiotaid
      rw [hsearch, ok_bind, ← heq]
      rfl
    · rw [hnodes, UserIdTable.nodes, hset]
      simp only [List.map_append, List.map_cons, ManagerAddress.binding]

/-- The loop leaves the table as it is if the list at the index holds no reserved id. -/
lemma allocateLoop_of_not_reserved {config : SubSystemConfig} {table : UserIdTable}
    (hindex : table.idReallocatedIndex.toNat < table.reserveAddrHash.length)
    (hnot : ¬ ReservedAtIndex table) (devAddress wiotaAddress : UInt32) (fuel : ℕ) :
    allocateLoop config devAddress wiotaAddress table fuel = .ok (table, none) := by
  induction fuel with
  | zero => rfl
  | succ fuel ih =>
    have hlist := List.getElem?_eq_getElem hindex
    have hcount : countTheManagerList table.reserveAddrHash[table.idReallocatedIndex.toNat]
        counterElementReserved = 0 := by
      refine List.countP_eq_zero.mpr fun data hdata hreserved => hnot ?_
      exact ⟨_, hlist, data, hdata, beq_iff_eq.mp hreserved⟩
    rw [allocateLoop, hlist]
    simp only [hcount, ne_eq, not_true_eq_false, if_false]
    exact ih

/-- The loop allocates a reserved id of the list at the index. -/
lemma exists_allocateLoop {config : SubSystemConfig} {table : UserIdTable}
    (hreserved : ReservedAtIndex table) (devAddress wiotaAddress : UInt32) (fuel : ℕ) :
    ∃ (pre : List ManagerAddress) (data : ManagerAddress) (post : List ManagerAddress)
      (table' : UserIdTable), table.nodes = pre ++ data :: post ∧
      data.allocateFlag = .addressReserved ∧
      allocateLoop config devAddress wiotaAddress table (fuel + 1) =
        .ok (table', some (replaceMessage wiotaAddress data.address)) ∧
      table'.nodes = pre ++ data.allocatedFor devAddress :: post := by
  obtain ⟨list, hlist, found, hfound, hflag⟩ := hreserved
  have hcb : counterElementReserved found = true := beq_iff_eq.mpr hflag
  have hcount : countTheManagerList list counterElementReserved ≠ 0 :=
    Nat.pos_iff_ne_zero.mp (List.countP_pos_iff.mpr ⟨found, hfound, hcb⟩)
  cases hquery : queryHeadList list counterElementReserved with
  | none => exact absurd hcb (Bool.eq_false_iff.mp (queryHeadList_eq_none.mp hquery found hfound))
  | some node =>
    obtain ⟨pre, data, post, rfl, rfl, hdata, -⟩ := exists_of_queryHeadList hquery
    obtain ⟨pre', post', hnodes, hset⟩ := exists_setNode hlist
    refine ⟨pre', data, post', ⟨setNode table.reserveAddrHash table.idReallocatedIndex.toNat
      pre.length (data.allocatedFor devAddress), nextReallocatedIndex config
      table.idReallocatedIndex⟩, hnodes, beq_iff_eq.mp hdata, ?_, hset _⟩
    rw [allocateLoop, hlist]
    simp only [if_pos hcount, hquery, getElem?_cut]
    rfl

/-- A device without an id is given a reserved one exactly if the list at the index has one;
otherwise it gets no reply, and the table stays as it is. -/
lemma TableInv.gives {config : SubSystemConfig} {table : UserIdTable}
    (hinv : TableInv config table) {devAddress : UInt32}
    (hnone : ∀ id, (devAddress, id) ∉ allocations table.nodes) (wiotaAddress : UInt32) :
    (ReservedAtIndex table ∧ GivesReserved config devAddress wiotaAddress table) ∨
    (¬ ReservedAtIndex table ∧
      managerReallocatedWiotaid config devAddress wiotaAddress table = .ok (table, none)) := by
  have hloop : managerReallocatedWiotaid config devAddress wiotaAddress table =
      allocateLoop config devAddress wiotaAddress table config.allIndex := by
    rcases hinv.search devAddress with ⟨hsearch, -⟩ | ⟨j, node, data, post, -, -, hmem, -⟩
    · unfold managerReallocatedWiotaid
      rw [hsearch, ok_bind]
    · exact absurd hmem (hnone data.address)
  by_cases hreserved : ReservedAtIndex table
  · obtain ⟨fuel, hfuel⟩ : ∃ fuel, config.allIndex = fuel + 1 :=
      Nat.exists_eq_succ_of_ne_zero (Nat.ne_zero_of_lt hinv.index)
    refine .inl ⟨hreserved, ?_⟩
    unfold GivesReserved
    rw [hloop, hfuel]
    exact exists_allocateLoop hreserved devAddress wiotaAddress fuel
  · refine .inr ⟨hreserved, ?_⟩
    rw [hloop]
    exact allocateLoop_of_not_reserved (hinv.length ▸ hinv.index) hreserved _ _ _

/-! ### The invariant -/

/-- The table is in good order, and the ids that were given to devices are its allocations. -/
structure BindingInv (config : SubSystemConfig) (s : AddressState) : Prop where
  table : TableInv config s.table
  given : ∀ dev id, (dev, id) ∈ s.given ↔ (dev, id) ∈ allocations s.table.nodes

/-- The number of lists is positive. -/
lemma SubSystemConfig.allIndex_pos (config : SubSystemConfig) : 0 < config.allIndex := by
  unfold SubSystemConfig.allIndex
  simp only [Nat.one_shiftLeft]
  positivity

/-- The invariant holds before the first reservation. -/
lemma bindingInv_init (config : SubSystemConfig) :
    BindingInv config (AddressState.init config) := by
  have hnodes : allocations (managerAddressInit config).nodes = [] := by
    unfold UserIdTable.nodes managerAddressInit
    rw [List.flatten_replicate_nil]
    rfl
  constructor
  · constructor
    · exact List.length_replicate
    · exact config.allIndex_pos
    · rw [AddressState.init, hnodes]
      exact List.nodup_nil
  · intro dev id
    rw [AddressState.init, hnodes]

/-- Reserved ids are put into the table beside the allocations. -/
lemma insertReserved_allocations {queryDevPos : UInt32 → UcDevPos} {allocs : ReserveAllocs} {i : ℕ}
    {ids : List UInt32} {hash hash' : List (List ManagerAddress)}
    (h : insertReserved queryDevPos allocs i ids hash = .ok hash') :
    hash'.length = hash.length ∧
      (allocations hash'.flatten).Perm (allocations hash.flatten) := by
  induction ids generalizing i hash with
  | nil =>
    cases h
    exact ⟨rfl, List.Perm.refl _⟩
  | cons id ids ih =>
    rw [insertReserved] at h
    split at h
    · cases h
    · cases hlist : hash[(queryDevPos id).index]? with
      | none =>
        rw [hlist] at h
        cases h
      | some list =>
        simp only [hlist] at h
        obtain ⟨hlength, hperm⟩ := ih h
        have hinsert := (flatten_insertHead_perm hlist (allocs.node i) (reservedNode id)).filterMap
          ManagerAddress.allocation?
        have hsame : allocations (insertHeadManagerList (allocs.node i) hash.flatten
            (reservedNode id)) = allocations hash.flatten := by
          cases allocs.node i with
          | false => rfl
          | true => rfl
        refine ⟨hlength.trans List.length_set, hperm.trans ?_⟩
        rw [← hsame]
        exact hinsert

/-- The invariant is kept by a reservation. -/
lemma BindingInv.reserve {config : SubSystemConfig} {s : AddressState} (hinv : BindingInv config s)
    {queryDevPos : UInt32 → UcDevPos} {allocs : ReserveAllocs} {startAddress endAddress : UInt32}
    {table : UserIdTable}
    (h : managerGetReservedAddress queryDevPos allocs startAddress endAddress s.table =
      .ok table) : BindingInv config { s with table := table } := by
  unfold managerGetReservedAddress at h
  split at h
  · cases h
  split at h
  · cases h
  split at h
  · cases h
    exact hinv
  · obtain ⟨hash, hinsert, h⟩ := exists_of_bind_eq_ok h
    cases h
    obtain ⟨hlength, hperm⟩ := insertReserved_allocations hinsert
    refine ⟨⟨hlength.trans hinv.table.length, hinv.table.index, ?_⟩, fun dev id => ?_⟩
    · exact (hperm.map Prod.fst).nodup_iff.mpr hinv.table.nodup
    · exact (hinv.given dev id).trans hperm.mem_iff.symm

/-- The index stays one of the lists. -/
lemma nextReallocatedIndex_lt (config : SubSystemConfig) (index : UInt8) :
    (nextReallocatedIndex config index).toNat < config.allIndex := by
  unfold nextReallocatedIndex
  split
  · exact config.allIndex_pos
  · have hpos := config.allIndex_pos
    omega

/-- A device without an id that is given one is the only new allocation. -/
lemma allocations_give (pre post : List ManagerAddress) {data : ManagerAddress}
    (hflag : data.allocateFlag = .addressReserved) (dev : UInt32) :
    (allocations (pre ++ data.allocatedFor dev :: post)).Perm
      ((dev, data.address) :: allocations (pre ++ data :: post)) := by
  have hold : data.allocation? = none := by
    unfold ManagerAddress.allocation?
    rw [hflag]
    rfl
  rw [allocations_cut, allocations_cut, hold]
  exact List.perm_middle

/-- A device that asks leaves the number of lists as it is, and the index one of them. -/
lemma TableInv.shape {config : SubSystemConfig} {table table' : UserIdTable}
    (hinv : TableInv config table) {devAddress wiotaAddress : UInt32}
    {reply : Option ReplaceMessage}
    (h : managerReallocatedWiotaid config devAddress wiotaAddress table = .ok (table', reply)) :
    table'.reserveAddrHash.length = config.allIndex ∧
      table'.idReallocatedIndex.toNat < config.allIndex := by
  obtain ⟨found, -, h⟩ := exists_of_bind_eq_ok h
  cases found with
  | some entry =>
    cases h
    exact ⟨(List.length_modify _ _ _).trans hinv.length, hinv.index⟩
  | none =>
    have hloop : ∀ fuel, allocateLoop config devAddress wiotaAddress table fuel =
        .ok (table', reply) → table'.reserveAddrHash.length = config.allIndex ∧
          table'.idReallocatedIndex.toNat < config.allIndex := by
      intro fuel
      induction fuel with
      | zero =>
        rintro ⟨⟩
        exact ⟨hinv.length, hinv.index⟩
      | succ fuel ih =>
        intro h
        rw [allocateLoop] at h
        split at h
        · cases h
        split at h
        · split at h
          · exact ih h
          · split at h
            · cases h
            · cases h
              exact ⟨(List.length_modify _ _ _).trans hinv.length, nextReallocatedIndex_lt _ _⟩
        · exact ih h
    exact hloop _ h

/-- The invariant is kept when a device asks for an id. -/
lemma BindingInv.reallocate {config : SubSystemConfig} {s : AddressState}
    (hinv : BindingInv config s) {devAddress wiotaAddress : UInt32} {table : UserIdTable}
    {reply : Option ReplaceMessage}
    (h : managerReallocatedWiotaid config devAddress wiotaAddress s.table = .ok (table, reply)) :
    BindingInv config ⟨table,
      s.given ++ reply.toList.map fun message => (devAddress, message.newAddress)⟩ := by
  obtain ⟨hlength, hindex⟩ := hinv.table.shape h
  by_cases hnone : ∀ id, (devAddress, id) ∉ allocations s.table.nodes
  · rcases hinv.table.gives hnone wiotaAddress with
      ⟨-, pre, data, post, table', hnodes, hflag, hcall, hnodes'⟩ | ⟨-, hcall⟩
    · cases hcall.symm.trans h
      have hperm := allocations_give pre post hflag devAddress
      rw [← hnodes', ← hnodes] at hperm
      refine ⟨⟨hlength, hindex, ?_⟩, fun dev id => ?_⟩
      · refine (hperm.map Prod.fst).nodup_iff.mpr (List.nodup_cons.mpr ⟨?_, hinv.table.nodup⟩)
        rintro hmem
        obtain ⟨⟨dev, id⟩, hid, rfl⟩ := List.mem_map.mp hmem
        exact hnone id hid
      · rw [hperm.mem_iff, List.mem_append, hinv.given, List.mem_cons]
        exact (or_congr_right (by simp [replaceMessage])).trans or_comm
    · cases hcall.symm.trans h
      refine ⟨hinv.table, fun dev id => ?_⟩
      simpa using hinv.given dev id
  · obtain ⟨id, hid⟩ : ∃ id, (devAddress, id) ∈ allocations s.table.nodes := by
      simpa using hnone
    obtain ⟨table', hcall, hbinding, -⟩ := hinv.table.repeats hid wiotaAddress
    cases hcall.symm.trans h
    have hsame : allocations table.nodes = allocations s.table.nodes :=
      allocations_congr hbinding
    refine ⟨⟨hlength, hindex, hsame ▸ hinv.table.nodup⟩, fun dev id' => ?_⟩
    rw [hsame, List.mem_append, hinv.given]
    constructor
    · rintro (hold | hnew)
      · exact hold
      · cases List.mem_singleton.mp hnew
        exact hid
    · exact .inl

/-- The invariant is kept by every step. -/
lemma BindingInv.step {config : SubSystemConfig} {queryDevPos : UInt32 → UcDevPos}
    {event : AddressEvent} {s s' : AddressState} (hinv : BindingInv config s)
    (hstep : addressStep config queryDevPos event s = .ok s') : BindingInv config s' := by
  cases event with
  | reserve allocs startAddress endAddress =>
    obtain ⟨table, hcall, hstep⟩ := exists_of_bind_eq_ok hstep
    cases hstep
    exact hinv.reserve hcall
  | reallocate devAddress wiotaAddress =>
    obtain ⟨⟨table, reply⟩, hcall, hstep⟩ := exists_of_bind_eq_ok hstep
    cases hstep
    exact hinv.reallocate hcall

/-! ### Progress -/

/-- A device without an id is given one of the reserved ids, if there are any. -/
def AllocationProgress (config : SubSystemConfig) (devAddress wiotaAddress : UInt32)
    (table : UserIdTable) : Prop :=
  (∃ data ∈ table.nodes, data.allocateFlag = .addressReserved) →
    (∀ id, ¬ HasAddress table.nodes devAddress id) →
    GivesReserved config devAddress wiotaAddress table

/-- In every state that reservations and allocations lead to, a device without an id is given a
reserved one exactly if the list at `id_reallocated_index` holds one. -/
theorem allocation_progress_iff (config : SubSystemConfig) (queryDevPos : UInt32 → UcDevPos)
    {events : List AddressEvent} {s : AddressState}
    (hrun : runInputs (addressStep config queryDevPos) events (AddressState.init config) = .ok s)
    (devAddress wiotaAddress : UInt32) :
    AllocationProgress config devAddress wiotaAddress s.table ↔
      ((∃ data ∈ s.table.nodes, data.allocateFlag = .addressReserved) →
        (∀ id, ¬ HasAddress s.table.nodes devAddress id) → ReservedAtIndex s.table) := by
  have hinv : BindingInv config s :=
    runInputs_invariant (fun _ _ _ hinv hstep => hinv.step hstep) (bindingInv_init config) hrun
  unfold AllocationProgress
  refine imp_congr_right fun _ => imp_congr_right fun hnone => ?_
  have hnone' : ∀ id, (devAddress, id) ∉ allocations s.table.nodes :=
    fun id hid => hnone id (mem_allocations.mp hid)
  rcases hinv.table.gives hnone' wiotaAddress with ⟨hreserved, hgives⟩ | ⟨hnot, hcall⟩
  · exact iff_of_true hgives hreserved
  · refine iff_of_false ?_ hnot
    rintro ⟨pre, data, post, table', -, -, hcall', -⟩
    cases hcall.symm.trans hcall'

/-- The table of the sample system after the reservation of its first eight ids. -/
def eightReserved : UserIdTable :=
  ⟨[0x80000000, 0x80000001, 0x80000002, 0x80000003, 0x80000004, 0x80000005, 0x80000006,
    0x80000007].map fun id => [reservedNode id], 0⟩

/-- With an id in every list, the first device is given one. -/
theorem allocation_progress_first :
    runInputs (addressStep sampleConfig sampleDevPos) [reserveEight]
        (AddressState.init sampleConfig) = .ok ⟨eightReserved, []⟩ ∧
      GivesReserved sampleConfig 5 5 eightReserved := by
  have hrun : runInputs (addressStep sampleConfig sampleDevPos) [reserveEight]
      (AddressState.init sampleConfig) = .ok ⟨eightReserved, []⟩ := by
    decide +kernel
  have hreserved : ReservedAtIndex eightReserved :=
    ⟨[reservedNode 0x80000000], rfl, reservedNode 0x80000000, List.mem_singleton_self _, rfl⟩
  refine ⟨hrun, ?_⟩
  apply (allocation_progress_iff sampleConfig sampleDevPos hrun 5 5).mpr fun _ _ => hreserved
  · exact ⟨reservedNode 0x80000000, List.mem_cons_self, rfl⟩
  · rintro id ⟨data, hdata, hflag, -⟩
    have hall : ∀ data ∈ eightReserved.nodes, data.allocateFlag = .addressReserved := by
      decide
    cases (hall data hdata).symm.trans hflag

/-- The reservation of one id, for the second list of the table. -/
def reserveSecond : AddressEvent :=
  .reserve sampleAllocs 0x80000001 0x80000001

/-- When the only reserved id is in the second list and the index is at the first one, a device that
asks for an id gets no reply. -/
theorem allocation_stuck :
    (∀ id, (sampleDevPos id).index < sampleConfig.allIndex) ∧
    ∃ s, runInputs (addressStep sampleConfig sampleDevPos) [reserveSecond]
        (AddressState.init sampleConfig) = .ok s ∧
      s.table.nodes = [reservedNode 0x80000001] ∧
      managerReallocatedWiotaid sampleConfig 5 5 s.table = .ok (s.table, none) ∧
      ¬ AllocationProgress sampleConfig 5 5 s.table := by
  refine ⟨sampleDevPos_index_lt,
    ⟨⟨[[], [reservedNode 0x80000001], [], [], [], [], [], []], 0⟩, []⟩, ?_, ?_, ?_, ?_⟩
  · decide +kernel
  · decide +kernel
  · decide +kernel
  · intro hprogress
    have hnone : ∀ id, ¬ HasAddress [reservedNode 0x80000001] 5 id := by
      rintro id ⟨data, hdata, hflag, -⟩
      cases List.mem_singleton.mp hdata
      cases hflag
    obtain ⟨pre, data, post, table', -, -, hcall, -⟩ :=
      hprogress ⟨reservedNode 0x80000001, List.mem_singleton_self _, rfl⟩ hnone
    cases hcall

/-! ### Sequences of calls -/

/-- The calls: those that change the table, and the query for the id of a device. -/
inductive AddressCall
  | change (event : AddressEvent)
  | query (mac : UInt32)

/-- A call; a query only reads the table. -/
def addressCall (config : SubSystemConfig) (queryDevPos : UInt32 → UcDevPos) (call : AddressCall)
    (s : AddressState) : Except Fault AddressState :=
  match call with
  | .change event => addressStep config queryDevPos event s
  | .query mac => do
    let _ ← managerQueryWiotaid config mac s.table
    return s

/-- What has been given to devices stays in the log. -/
lemma addressStep_given {config : SubSystemConfig} {queryDevPos : UInt32 → UcDevPos}
    {event : AddressEvent} {s s' : AddressState}
    (hstep : addressStep config queryDevPos event s = .ok s') : s.given ⊆ s'.given := by
  cases event with
  | reserve allocs startAddress endAddress =>
    obtain ⟨table, -, hstep⟩ := exists_of_bind_eq_ok hstep
    cases hstep
    exact List.Subset.refl _
  | reallocate devAddress wiotaAddress =>
    obtain ⟨⟨table, reply⟩, -, hstep⟩ := exists_of_bind_eq_ok hstep
    cases hstep
    exact List.subset_append_left _ _

/-- A call keeps the invariant and the log. -/
lemma BindingInv.call {config : SubSystemConfig} {queryDevPos : UInt32 → UcDevPos}
    {call : AddressCall} {s s' : AddressState} (hinv : BindingInv config s)
    (hcall : addressCall config queryDevPos call s = .ok s') :
    BindingInv config s' ∧ s.given ⊆ s'.given := by
  cases call with
  | change event => exact ⟨hinv.step hcall, addressStep_given hcall⟩
  | query mac =>
    obtain ⟨id, -, hcall⟩ := exists_of_bind_eq_ok hcall
    cases hcall
    exact ⟨hinv, List.Subset.refl _⟩

/-- A query answers with the id of the device. -/
lemma TableInv.query {config : SubSystemConfig} {table : UserIdTable}
    (hinv : TableInv config table) {dev id : UInt32} (hid : (dev, id) ∈ allocations table.nodes) :
    managerQueryWiotaid config dev table = .ok id := by
  rcases hinv.search dev with ⟨-, hnone⟩ | ⟨j, node, data, post, hsearch, -, hmem, -⟩
  · exact absurd hid (hnone id)
  · have heq : data.address = id :=
      congrArg Prod.snd (List.inj_on_of_nodup_map hinv.nodup hmem hid rfl)
    unfold managerQueryWiotaid
    rw [hsearch, ok_bind, ← heq]
    rfl

/-- A query answers with its argument if the device has no id. -/
lemma TableInv.query_unknown {config : SubSystemConfig} {table : UserIdTable}
    (hinv : TableInv config table) {dev : UInt32}
    (hnone : ∀ id, (dev, id) ∉ allocations table.nodes) :
    managerQueryWiotaid config dev table = .ok dev := by
  rcases hinv.search dev with ⟨hsearch, -⟩ | ⟨j, node, data, post, -, -, hmem, -⟩
  · unfold managerQueryWiotaid
    rw [hsearch, ok_bind]
    rfl
  · exact absurd hmem (hnone data.address)

/-- In every sequence of calls no two nodes are allocated for one device; a device that was given an
id is told the same id whenever it asks later, without a change of the allocations, and every later
query answers with it; and the query for a device that was never given an id answers with its
argument. -/
theorem binding_stable (config : SubSystemConfig) (queryDevPos : UInt32 → UcDevPos)
    {calls later : List AddressCall} {s s' : AddressState}
    (hcalls : runInputs (addressCall config queryDevPos) calls (AddressState.init config) = .ok s)
    (hlater : runInputs (addressCall config queryDevPos) later s = .ok s') :
    (∀ dev, s'.table.nodes.countP (queryElementAllocate dev) ≤ 1) ∧
    (∀ dev id, (dev, id) ∈ s.given →
      (∀ wiotaAddress, RepeatsId config dev wiotaAddress s'.table id) ∧
      managerQueryWiotaid config dev s'.table = .ok id) ∧
    ∀ dev, (∀ id, (dev, id) ∉ s'.given) → managerQueryWiotaid config dev s'.table = .ok dev := by
  have hinv : BindingInv config s :=
    runInputs_invariant (fun _ _ _ hinv hcall => (hinv.call hcall).1) (bindingInv_init config)
      hcalls
  obtain ⟨hinv', hsubset⟩ : BindingInv config s' ∧ s.given ⊆ s'.given := by
    refine runInputs_invariant (P := fun t => BindingInv config t ∧ s.given ⊆ t.given) ?_
      ⟨hinv, List.Subset.refl _⟩ hlater
    rintro call t t' ⟨ht, hst⟩ hcall
    obtain ⟨ht', htt'⟩ := ht.call hcall
    exact ⟨ht', List.Subset.trans hst htt'⟩
  refine ⟨fun dev => ?_, fun dev id hgiven => ?_, fun dev hnone => ?_⟩
  · rw [countP_queryElementAllocate]
    exact List.nodup_iff_count_le_one.mp hinv'.table.nodup dev
  · have hid := (hinv'.given dev id).mp (hsubset hgiven)
    exact ⟨hinv'.table.repeats hid, hinv'.table.query hid⟩
  · exact hinv'.table.query_unknown fun id hid => hnone id ((hinv'.given dev id).mpr hid)

/-- A device is given an id, the range is reserved once more, and the device is still told the same
id; the query for another device answers with its argument. -/
theorem binding_stable_sample :
    ∃ s s', runInputs (addressCall sampleConfig sampleDevPos)
        [.change reserveEight, .change (.reallocate 5 5)] (AddressState.init sampleConfig) = .ok s ∧
      runInputs (addressCall sampleConfig sampleDevPos)
        [.change reserveEight, .query 5, .change (.reallocate 7 7)] s = .ok s' ∧
      s.given = [(5, 0x80000000)] ∧ s'.given = [(5, 0x80000000), (7, 0x80000001)] ∧
      managerQueryWiotaid sampleConfig 5 s'.table = .ok 0x80000000 ∧
      managerQueryWiotaid sampleConfig 6 s'.table = .ok 6 := by
  have hexec : (runInputs (addressCall sampleConfig sampleDevPos)
      [.change reserveEight, .change (.reallocate 5 5)] (AddressState.init sampleConfig) >>=
        fun s => (runInputs (addressCall sampleConfig sampleDevPos)
          [.change reserveEight, .query 5, .change (.reallocate 7 7)] s).map
            fun s' => (s.given, s'.given)) =
      .ok ([(5, 0x80000000)], [(5, 0x80000000), (7, 0x80000001)]) := by
    decide +kernel
  obtain ⟨s, hcalls, hexec⟩ := exists_of_bind_eq_ok hexec
  obtain ⟨s', hlater, hlogs⟩ := exists_of_map_eq_ok hexec
  obtain ⟨hgiven, hgiven'⟩ := Prod.mk.inj hlogs
  obtain ⟨-, hbound, hunknown⟩ := binding_stable sampleConfig sampleDevPos hcalls hlater
  refine ⟨s, s', hcalls, hlater, hgiven, hgiven', ?_, ?_⟩
  · exact (hbound 5 0x80000000 (hgiven ▸ List.mem_singleton_self _)).2
  · refine hunknown 6 fun id hid => ?_
    rw [hgiven'] at hid
    simp at hid

end WiotaAp
