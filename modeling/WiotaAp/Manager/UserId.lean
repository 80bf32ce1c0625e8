import WiotaAp.Foundation.Runs
import WiotaAp.Manager.RecvMsg
import WiotaAp.Platform.ManagerList

/-!
# The addresses of the devices

`manager_userid.c` keeps the wiota ids that the server has reserved in a table of lists, by their
positions.  `manager_get_reserved_address` puts a range of ids into the table, and
`manager_reallocated_wiotaid` gives one of them to a device that has none.

The ids are put into the table without looking whether they are there.  `ids_unique_of_fresh` says
that two devices never have the same id as long as the server reserves new ids only, and
`ids_shared_of_repeated` that a range reserved twice gives one id to two devices.
-/

namespace WiotaAp

open Buffers

/-! ### The table -/

/-- `e_allocate_flag`. -/
inductive AllocateFlag
  | addressReserved
  | addressPreallocated
  | addressUsing
  deriving DecidableEq, Repr

/-- `t_manager_address`. -/
structure ManagerAddress where
  address : UInt32
  devMac : UInt32
  allocateFlag : AllocateFlag
  currentComCount : UInt8
  deriving DecidableEq, Repr

/-- The part of `sub_system_config_t` that is used here. -/
structure SubSystemConfig where
  dlulRatio : UInt8
  groupNumber : UInt8
  deriving DecidableEq, Repr

/-- `all_index`, the number of lists in the table. -/
def SubSystemConfig.allIndex (config : SubSystemConfig) : ℕ :=
  (1 <<< config.groupNumber.toNat) * (1 <<< config.dlulRatio.toNat) * 8

/-- The part of `uc_dev_pos_t` that is used here. -/
structure UcDevPos where
  groupIdx : UInt8
  burstIdx : UInt8
  deriving DecidableEq, Repr

/-- The list of the table for a position. -/
def UcDevPos.index (pos : UcDevPos) : ℕ :=
  pos.burstIdx.toNat + pos.groupIdx.toNat * 8

/-- `manager_reserve_addr_hash` and `id_reallocated_index`. -/
structure UserIdTable where
  reserveAddrHash : List (List ManagerAddress)
  idReallocatedIndex : UInt8
  deriving DecidableEq, Repr

/-- The table of `manager_address_init`. -/
def managerAddressInit (config : SubSystemConfig) : UserIdTable :=
  ⟨List.replicate config.allIndex [], 0⟩

/-- The nodes of all lists. -/
def UserIdTable.nodes (table : UserIdTable) : List ManagerAddress :=
  table.reserveAddrHash.flatten

/-! ### Reserving addresses -/

/-- Which allocations of `manager_get_reserved_address` succeed: the array of ids, the array of
positions, and in each round the address and the node of the list. -/
structure ReserveAllocs where
  idArray : Bool
  devPosArray : Bool
  address : ℕ → Bool
  node : ℕ → Bool

/-- The number of rounds of the loops: `count` is an `int`. -/
def reservedCount (startAddress endAddress : UInt32) : ℕ :=
  (endAddress - startAddress + 1).toInt32.toInt.toNat

/-- The ids in `id_array`. -/
def reservedIds (startAddress endAddress : UInt32) : List UInt32 :=
  (List.range (reservedCount startAddress endAddress)).map fun i => startAddress + UInt32.ofNat i

/-- A new node for an id. -/
def reservedNode (id : UInt32) : ManagerAddress :=
  ⟨id, 0, .addressReserved, 0⟩

/-- The loop that puts the ids into the table, from the round `i` on. -/
def insertReserved (queryDevPos : UInt32 → UcDevPos) (allocs : ReserveAllocs) :
    ℕ → List UInt32 → List (List ManagerAddress) → Except Fault (List (List ManagerAddress))
  | _, [], hash => .ok hash
  | i, id :: ids, hash =>
    if allocs.address i = false then .error .assertion
    else
      match hash[(queryDevPos id).index]? with
      | none => .error .outOfBounds
      | some list =>
        insertReserved queryDevPos allocs (i + 1) ids (hash.set (queryDevPos id).index
          (insertHeadManagerList (allocs.node i) list (reservedNode id)))

/-- `manager_get_reserved_address`.  The size of the array of ids is computed in 32 bits. -/
def managerGetReservedAddress (queryDevPos : UInt32 → UcDevPos) (allocs : ReserveAllocs)
    (startAddress endAddress : UInt32) (table : UserIdTable) : Except Fault UserIdTable :=
  if allocs.idArray = false then .error .assertion
  else if ((endAddress - startAddress + 1) * 4).toNat <
      reservedCount startAddress endAddress * 4 then .error .outOfBounds
  else if allocs.devPosArray = false then .ok table
  else do
    let hash ← insertReserved queryDevPos allocs 0 (reservedIds startAddress endAddress)
      table.reserveAddrHash
    return { table with reserveAddrHash := hash }

/-! ### Giving an address to a device -/

/-- `query_element_allocate`. -/
def queryElementAllocate (mac : UInt32) (data : ManagerAddress) : Bool :=
  data.allocateFlag == .addressPreallocated && mac == data.devMac

/-- `counter_element_reserved`. -/
def counterElementReserved (data : ManagerAddress) : Bool :=
  data.allocateFlag == .addressReserved

/-- The call of the function for the reply: `function(src_address, dest_address, new_address)`. -/
structure ReplaceMessage where
  srcAddress : UInt32
  destAddress : UInt32
  newAddress : UInt32
  deriving DecidableEq, Repr

/-- The loop that looks for the address of a device: `fuel` rounds from the list `i` on.  It returns
the list, the node and its data. -/
def queryAllocated (mac : UInt32) (hash : List (List ManagerAddress)) :
    ℕ → ℕ → Except Fault (Option (ℕ × ℕ × ManagerAddress))
  | 0, _ => .ok none
  | fuel + 1, i =>
    match hash[i]? with
    | none => .error .outOfBounds
    | some list =>
      match queryHeadList list (queryElementAllocate mac) with
      | some node =>
        match list[node]? with
        | none => .error .outOfBounds
        | some data => .ok (some (i, node, data))
      | none => queryAllocated mac hash fuel (i + 1)

/-- The data of a node is changed. -/
def setNode (hash : List (List ManagerAddress)) (i node : ℕ) (data : ManagerAddress) :
    List (List ManagerAddress) :=
  hash.modify i fun list => list.set node data

/-- `id_reallocated_index++`, within the table. -/
def nextReallocatedIndex (config : SubSystemConfig) (index : UInt8) : UInt8 :=
  if (index + 1).toNat > config.allIndex - 1 then 0 else index + 1

/-- The loop that gives an address to a device.  A round that finds nothing changes nothing, not
even the index. -/
def allocateLoop (config : SubSystemConfig) (devAddress wiotaAddress : UInt32)
    (table : UserIdTable) : ℕ → Except Fault (UserIdTable × Option ReplaceMessage)
  | 0 => .ok (table, none)
  | fuel + 1 =>
    match table.reserveAddrHash[table.idReallocatedIndex.toNat]? with
    | none => .error .outOfBounds
    | some list =>
      if countTheManagerList list counterElementReserved ≠ 0 then
        match queryHeadList list counterElementReserved with
        | none => allocateLoop config devAddress wiotaAddress table fuel
        | some node =>
          match list[node]? with
          | none => .error .outOfBounds
          | some addr =>
            .ok (⟨setNode table.reserveAddrHash table.idReallocatedIndex.toNat node
                { addr with
                  allocateFlag := .addressPreallocated
                  currentComCount := addr.currentComCount + 1
                  devMac := devAddress },
              nextReallocatedIndex config table.idReallocatedIndex⟩,
              some ⟨apDefaultAddress, wiotaAddress, addr.address⟩)
      else allocateLoop config devAddress wiotaAddress table fuel

/-- `manager_reallocated_wiotaid`: the table, and the reply if there is one. -/
def managerReallocatedWiotaid (config : SubSystemConfig) (devAddress wiotaAddress : UInt32)
    (table : UserIdTable) : Except Fault (UserIdTable × Option ReplaceMessage) := do
  match ← queryAllocated devAddress table.reserveAddrHash config.allIndex 0 with
  | some (i, node, data) =>
    .ok ({ table with
        reserveAddrHash := setNode table.reserveAddrHash i node
          { data with currentComCount := data.currentComCount + 1 } },
      some ⟨apDefaultAddress, wiotaAddress, data.address⟩)
  | none => allocateLoop config devAddress wiotaAddress table config.allIndex

/-! ### What the functions do to the nodes -/

/-- A node at a cut of its list cuts the nodes of the table, and setting its data changes nothing
else. -/
lemma exists_setNode {hash : List (List ManagerAddress)} {i : ℕ} {pre post : List ManagerAddress}
    {data : ManagerAddress} (h : hash[i]? = some (pre ++ data :: post)) :
    ∃ pre' post', hash.flatten = pre' ++ data :: post' ∧
      ∀ data', (setNode hash i pre.length data').flatten = pre' ++ data' :: post' := by
  obtain ⟨before, behind, hflatten, hset⟩ := exists_flatten_set h
  refine ⟨before ++ pre, post ++ behind, ?_, fun data' => ?_⟩
  · rw [hflatten]
    simp only [List.append_assoc, List.cons_append]
  · have hmodify : setNode hash i pre.length data' = hash.set i (pre ++ data' :: post) := by
      rw [setNode, List.modify_eq_set_getElem?, h]
      exact congrArg (hash.set i) (set_cut pre post data data')
    rw [hmodify, hset]
    simp only [List.append_assoc, List.cons_append]

/-- What the search for the address of a device finds. -/
lemma exists_of_queryAllocated {mac : UInt32} {hash : List (List ManagerAddress)} {fuel i j : ℕ}
    {node : ℕ} {data : ManagerAddress}
    (h : queryAllocated mac hash fuel i = .ok (some (j, node, data))) :
    data.allocateFlag = .addressPreallocated ∧ data.devMac = mac ∧
      ∃ pre post, hash.flatten = pre ++ data :: post ∧
        ∀ data', (setNode hash j node data').flatten = pre ++ data' :: post := by
  induction fuel generalizing i with
  | zero => cases h
  | succ fuel ih =>
    rw [queryAllocated] at h
    cases hlist : hash[i]? with
    | none =>
      rw [hlist] at h
      cases h
    | some list =>
      simp only [hlist] at h
      cases hquery : queryHeadList list (queryElementAllocate mac) with
      | none =>
        rw [hquery] at h
        exact ih h
      | some node' =>
        obtain ⟨pre, data', post, rfl, rfl, hdata, -⟩ := exists_of_queryHeadList hquery
        simp only [hquery, getElem?_cut] at h
        cases h
        obtain ⟨hflag, hmac⟩ := Bool.and_eq_true_iff.mp hdata
        exact ⟨beq_iff_eq.mp hflag, (beq_iff_eq.mp hmac).symm, exists_setNode hlist⟩

/-- What the loop that gives an address does: nothing, or it takes one that is reserved. -/
lemma allocateLoop_cases {config : SubSystemConfig} {devAddress wiotaAddress : UInt32}
    {table table' : UserIdTable} {reply : Option ReplaceMessage} {fuel : ℕ}
    (h : allocateLoop config devAddress wiotaAddress table fuel = .ok (table', reply)) :
    (table' = table ∧ reply = none) ∨
    ∃ (pre : List ManagerAddress) (data : ManagerAddress) (post : List ManagerAddress),
      table.nodes = pre ++ data :: post ∧
      data.allocateFlag = .addressReserved ∧
      table'.nodes = pre ++
        { data with
          allocateFlag := .addressPreallocated
          currentComCount := data.currentComCount + 1
          devMac := devAddress } :: post ∧
      reply = some ⟨apDefaultAddress, wiotaAddress, data.address⟩ := by
  induction fuel with
  | zero =>
    cases h
    exact .inl ⟨rfl, rfl⟩
  | succ fuel ih =>
    rw [allocateLoop] at h
    cases hlist : table.reserveAddrHash[table.idReallocatedIndex.toNat]? with
    | none =>
      rw [hlist] at h
      cases h
    | some list =>
      simp only [hlist] at h
      split at h
      · cases hquery : queryHeadList list counterElementReserved with
        | none =>
          rw [hquery] at h
          exact ih h
        | some node =>
          obtain ⟨pre, data, post, rfl, rfl, hdata, -⟩ := exists_of_queryHeadList hquery
          obtain ⟨pre', post', hnodes, hset⟩ := exists_setNode hlist
          simp only [hquery, getElem?_cut] at h
          cases h
          exact .inr ⟨pre', data, post', hnodes, beq_iff_eq.mp hdata, hset _, rfl⟩
      · exact ih h

/-- The device `dev` has the id `id`. -/
def HasAddress (nodes : List ManagerAddress) (dev id : UInt32) : Prop :=
  ∃ data ∈ nodes, data.allocateFlag = .addressPreallocated ∧ data.devMac = dev ∧ data.address = id

/-- When the data of a node is replaced, every device keeps its id, if the device of the node
does. -/
lemma HasAddress.replace {pre post : List ManagerAddress} {data data' : ManagerAddress}
    {dev id : UInt32} (h : HasAddress (pre ++ data :: post) dev id)
    (hdata : data.allocateFlag = .addressPreallocated →
      HasAddress [data'] data.devMac data.address) :
    HasAddress (pre ++ data' :: post) dev id := by
  obtain ⟨node, hnode, hflag, rfl, rfl⟩ := h
  rcases List.mem_append.mp hnode with hmem | hmem
  · exact ⟨node, List.mem_append_left _ hmem, hflag, rfl, rfl⟩
  rcases List.mem_cons.mp hmem with rfl | hmem
  · obtain ⟨node', hnode', hhas⟩ := hdata hflag
    rw [List.mem_singleton.mp hnode'] at hhas
    exact ⟨data', List.mem_append_right _ List.mem_cons_self, hhas⟩
  · exact ⟨node, List.mem_append_right _ (List.mem_cons_of_mem _ hmem), hflag, rfl, rfl⟩

/-- What `manager_reallocated_wiotaid` does: nothing, or it replies with the id that the device then
has.  The ids of the table stay as they are, and every device keeps its id. -/
lemma managerReallocatedWiotaid_cases {config : SubSystemConfig} {devAddress wiotaAddress : UInt32}
    {table table' : UserIdTable} {reply : Option ReplaceMessage}
    (h : managerReallocatedWiotaid config devAddress wiotaAddress table = .ok (table', reply)) :
    table'.nodes.map ManagerAddress.address = table.nodes.map ManagerAddress.address ∧
    (∀ dev id, HasAddress table.nodes dev id → HasAddress table'.nodes dev id) ∧
    ∀ message, reply = some message → HasAddress table'.nodes devAddress message.newAddress := by
  obtain ⟨found, hquery, h⟩ := exists_of_bind_eq_ok h
  cases found with
  | some entry =>
    obtain ⟨i, node, data⟩ := entry
    obtain ⟨hflag, hmac, pre, post, hnodes, hset⟩ := exists_of_queryAllocated hquery
    cases h
    unfold UserIdTable.nodes
    rw [hnodes, hset]
    refine ⟨by simp, fun dev id hhas => ?_, ?_⟩
    · exact hhas.replace fun hflag => ⟨_, List.mem_singleton_self _, hflag, rfl, rfl⟩
    · rintro message ⟨⟩
      exact ⟨_, List.mem_append_right _ List.mem_cons_self, hflag, hmac, rfl⟩
  | none =>
    rcases allocateLoop_cases h with ⟨rfl, rfl⟩ | ⟨pre, data, post, hnodes, hflag, hnodes', rfl⟩
    · exact ⟨rfl, fun _ _ hhas => hhas, fun _ hreply => by cases hreply⟩
    · rw [hnodes, hnodes']
      refine ⟨by simp, fun dev id hhas => ?_, ?_⟩
      · -- an id that is reserved belongs to no device
        exact hhas.replace fun hflag' => by cases hflag.symm.trans hflag'
      · rintro message ⟨⟩
        exact ⟨_, List.mem_append_right _ List.mem_cons_self, rfl, rfl, rfl⟩

/-- The ids of a range are different: there are at most `2 ^ 31` of them. -/
lemma nodup_reservedIds (startAddress endAddress : UInt32) :
    (reservedIds startAddress endAddress).Nodup := by
  have hcount : reservedCount startAddress endAddress < UInt32.size := by
    have hlt := Int32.toInt_lt (endAddress - startAddress + 1).toInt32
    unfold reservedCount
    rw [show UInt32.size = 2 ^ 32 from rfl]
    omega
  refine List.nodup_range.map_on ?_
  intro i hi j hj hij
  have hofNat : UInt32.ofNat i = UInt32.ofNat j := add_left_cancel hij
  have htoNat := congrArg UInt32.toNat hofNat
  rwa [UInt32.toNat_ofNat_of_lt' (lt_trans (List.mem_range.mp hi) hcount),
    UInt32.toNat_ofNat_of_lt' (lt_trans (List.mem_range.mp hj) hcount)] at htoNat

/-- The ids for which there is a node, from the round `i` on. -/
def ReserveAllocs.nodeIds (allocs : ReserveAllocs) : ℕ → List UInt32 → List UInt32
  | _, [] => []
  | i, id :: ids =>
    if allocs.node i then id :: allocs.nodeIds (i + 1) ids else allocs.nodeIds (i + 1) ids

/-- The ids that `manager_get_reserved_address` puts into the table. -/
def ReserveAllocs.insertedIds (allocs : ReserveAllocs) (startAddress endAddress : UInt32) :
    List UInt32 :=
  if allocs.devPosArray then allocs.nodeIds 0 (reservedIds startAddress endAddress) else []

lemma ReserveAllocs.nodeIds_sublist (allocs : ReserveAllocs) (i : ℕ) (ids : List UInt32) :
    (allocs.nodeIds i ids).Sublist ids := by
  induction ids generalizing i with
  | nil => exact .slnil
  | cons id ids ih =>
    rw [nodeIds]
    split
    · exact (ih (i + 1)).cons_cons id
    · exact (ih (i + 1)).cons id

/-- New ids are put into the table beside what is there, and the ids of the table stay different. -/
lemma insertReserved_keeps {queryDevPos : UInt32 → UcDevPos} {allocs : ReserveAllocs} {i : ℕ}
    {ids : List UInt32} {hash hash' : List (List ManagerAddress)}
    (h : insertReserved queryDevPos allocs i ids hash = .ok hash')
    (hnodup : (allocs.nodeIds i ids ++ hash.flatten.map ManagerAddress.address).Nodup) :
    (hash'.flatten.map ManagerAddress.address).Nodup ∧
      ∀ data ∈ hash.flatten, data ∈ hash'.flatten := by
  induction ids generalizing i hash with
  | nil =>
    cases h
    exact ⟨hnodup, fun _ hdata => hdata⟩
  | cons id ids ih =>
    rw [insertReserved] at h
    split at h
    · cases h
    · cases hlist : hash[(queryDevPos id).index]? with
      | none =>
        rw [hlist] at h
        cases h
      | some list =>
        simp only [hlist] at h
        have hperm := flatten_insertHead_perm hlist (allocs.node i) (reservedNode id)
        have hids := (hperm.map ManagerAddress.address).append_left (allocs.nodeIds (i + 1) ids)
        rw [ReserveAllocs.nodeIds] at hnodup
        -- the id moves from the ids to come into the table, or is lost
        cases hnode : allocs.node i with
        | false =>
          rw [hnode] at h hperm hids hnodup
          obtain ⟨hnodup', hkeep⟩ := ih h (hids.nodup_iff.mpr hnodup)
          exact ⟨hnodup', fun data hdata => hkeep data (hperm.mem_iff.mpr hdata)⟩
        | true =>
          rw [hnode] at h hperm hids hnodup
          obtain ⟨hnodup', hkeep⟩ :=
            ih h (hids.nodup_iff.mpr (List.perm_middle.nodup_iff.mpr hnodup))
          refine ⟨hnodup', fun data hdata => hkeep data (hperm.mem_iff.mpr ?_)⟩
          exact List.mem_cons_of_mem _ hdata

/-! ### Reservations and allocations -/

/-- The table, and the ids that were given to devices, in order. -/
structure AddressState where
  table : UserIdTable
  given : List (UInt32 × UInt32)
  deriving DecidableEq, Repr

/-- The state before the first reservation. -/
def AddressState.init (config : SubSystemConfig) : AddressState :=
  ⟨managerAddressInit config, []⟩

/-- What can happen: the server reserves a range, or a device asks for an id. -/
inductive AddressEvent
  | reserve (allocs : ReserveAllocs) (startAddress endAddress : UInt32)
  | reallocate (devAddress wiotaAddress : UInt32)

/-- A call of `manager_get_reserved_address` or of `manager_reallocated_wiotaid`. -/
def addressStep (config : SubSystemConfig) (queryDevPos : UInt32 → UcDevPos) (event : AddressEvent)
    (s : AddressState) : Except Fault AddressState :=
  match event with
  | .reserve allocs startAddress endAddress => do
    let table ← managerGetReservedAddress queryDevPos allocs startAddress endAddress s.table
    return { s with table := table }
  | .reallocate devAddress wiotaAddress => do
    let (table, reply) ← managerReallocatedWiotaid config devAddress wiotaAddress s.table
    return ⟨table, s.given ++ reply.toList.map fun message => (devAddress, message.newAddress)⟩

/-- The ids that are put into the table are not there already. -/
def FreshGuard (_ : List AddressEvent) (event : AddressEvent) (s : AddressState) : Prop :=
  match event with
  | .reserve allocs startAddress endAddress => ∀ id ∈ allocs.insertedIds startAddress endAddress,
      id ∉ s.table.nodes.map ManagerAddress.address
  | .reallocate _ _ => True

instance (events : List AddressEvent) (event : AddressEvent) (s : AddressState) :
    Decidable (FreshGuard events event s) :=
  match event with
  -- the ids are enumerated by the range, not by their type
  | .reserve allocs startAddress endAddress =>
    List.decidableBAll (fun id => id ∉ s.table.nodes.map ManagerAddress.address)
      (allocs.insertedIds startAddress endAddress)
  | .reallocate _ _ => inferInstanceAs (Decidable True)

/-- The ids of the table are different, and a device that was given an id has it. -/
structure AddressInv (s : AddressState) : Prop where
  nodup : (s.table.nodes.map ManagerAddress.address).Nodup
  given : ∀ dev id, (dev, id) ∈ s.given → HasAddress s.table.nodes dev id

/-- The invariant holds before the first reservation. -/
lemma addressInv_init (config : SubSystemConfig) : AddressInv (AddressState.init config) := by
  have hnodes : (managerAddressInit config).nodes = [] := by
    unfold UserIdTable.nodes managerAddressInit
    rw [List.flatten_replicate_nil]
  refine ⟨?_, fun dev id hgiven => by cases hgiven⟩
  rw [AddressState.init, hnodes]
  exact List.nodup_nil

/-- The invariant is kept by the reservation of new ids. -/
lemma AddressInv.reserve {s : AddressState} (hinv : AddressInv s)
    {queryDevPos : UInt32 → UcDevPos} {allocs : ReserveAllocs} {startAddress endAddress : UInt32}
    {table : UserIdTable}
    (hfresh : ∀ id ∈ allocs.insertedIds startAddress endAddress,
      id ∉ s.table.nodes.map ManagerAddress.address)
    (h : managerGetReservedAddress queryDevPos allocs startAddress endAddress s.table =
      .ok table) : AddressInv { s with table := table } := by
  unfold managerGetReservedAddress at h
  split at h
  · cases h
  split at h
  · cases h
  split at h
  · cases h
    exact hinv
  · rename_i hdevPos
    obtain ⟨hash, hinsert, h⟩ := exists_of_bind_eq_ok h
    cases h
    rw [ReserveAllocs.insertedIds, if_pos (eq_true_of_ne_false hdevPos)] at hfresh
    have hnew := (nodup_reservedIds startAddress endAddress).sublist (allocs.nodeIds_sublist 0 _)
    have hids := hnew.append hinv.nodup fun id hid hmem => hfresh id hid hmem
    obtain ⟨hnodup, hkeep⟩ := insertReserved_keeps hinsert hids
    refine ⟨hnodup, fun dev id hgiven => ?_⟩
    obtain ⟨data, hdata, hhas⟩ := hinv.given dev id hgiven
    exact ⟨data, hkeep data hdata, hhas⟩

/-- The invariant is kept when a device asks for an id. -/
lemma AddressInv.reallocate {s : AddressState} (hinv : AddressInv s) {config : SubSystemConfig}
    {devAddress wiotaAddress : UInt32} {table : UserIdTable} {reply : Option ReplaceMessage}
    (h : managerReallocatedWiotaid config devAddress wiotaAddress s.table = .ok (table, reply)) :
    AddressInv ⟨table,
      s.given ++ reply.toList.map fun message => (devAddress, message.newAddress)⟩ := by
  obtain ⟨haddress, hkeep, hreply⟩ := managerReallocatedWiotaid_cases h
  refine ⟨haddress ▸ hinv.nodup, fun dev id hgiven => ?_⟩
  rcases List.mem_append.mp hgiven with hold | hnew
  · exact hkeep dev id (hinv.given dev id hold)
  · obtain ⟨message, hmessage, heq⟩ := List.mem_map.mp hnew
    cases heq
    exact hreply message (Option.mem_toList.mp hmessage)

/-- The invariant is kept by every step that is admitted. -/
lemma AddressInv.step {config : SubSystemConfig} {queryDevPos : UInt32 → UcDevPos}
    {events : List AddressEvent} {event : AddressEvent} {s s' : AddressState} (hinv : AddressInv s)
    (hguard : FreshGuard events event s)
    (hstep : addressStep config queryDevPos event s = .ok s') : AddressInv s' := by
  cases event with
  | reserve allocs startAddress endAddress =>
    obtain ⟨table, hcall, hstep⟩ := exists_of_bind_eq_ok hstep
    cases hstep
    exact hinv.reserve hguard hcall
  | reallocate devAddress wiotaAddress =>
    obtain ⟨⟨table, reply⟩, hcall, hstep⟩ := exists_of_bind_eq_ok hstep
    cases hstep
    exact hinv.reallocate hcall

/-- In a table with different ids no id belongs to two devices. -/
lemma HasAddress.dev_eq {nodes : List ManagerAddress} {dev dev' id : UInt32}
    (hnodup : (nodes.map ManagerAddress.address).Nodup) (h : HasAddress nodes dev id)
    (h' : HasAddress nodes dev' id) : dev = dev' := by
  obtain ⟨data, hdata, -, rfl, hid⟩ := h
  obtain ⟨data', hdata', -, rfl, hid'⟩ := h'
  rw [List.inj_on_of_nodup_map hnodup hdata hdata' (hid.trans hid'.symm)]

/-- Two different devices were never given the same id. -/
def UniqueIds (given : List (UInt32 × UInt32)) : Prop :=
  ∀ dev dev' id, (dev, id) ∈ given → (dev', id) ∈ given → dev = dev'

/-- In every run in which the ids that are put into the table are not there already, two different
devices are never given the same id. -/
theorem ids_unique_of_fresh (config : SubSystemConfig) (queryDevPos : UInt32 → UcDevPos)
    {events : List AddressEvent} {s : AddressState}
    (hrun : GuardedRun (addressStep config queryDevPos) FreshGuard (AddressState.init config)
      events s) : UniqueIds s.given := by
  have hinv : AddressInv s := by
    refine hrun.invariant (P := fun _ s => AddressInv s) (addressInv_init config) ?_
    intro events event s s' hinv hguard hstep
    exact hinv.step hguard hstep
  intro dev dev' id hgiven hgiven'
  exact (hinv.given dev id hgiven).dev_eq hinv.nodup (hinv.given dev' id hgiven')

/-- A system with one group and eight bursts. -/
def sampleConfig : SubSystemConfig :=
  ⟨0, 0⟩

/-- A position for every id in the table of the sample system. -/
def sampleDevPos (id : UInt32) : UcDevPos :=
  ⟨0, id.toUInt8 % 8⟩

/-- Every position of the sample system is in its table. -/
lemma sampleDevPos_index_lt (id : UInt32) : (sampleDevPos id).index < sampleConfig.allIndex := by
  have hmod : (id.toUInt8 % 8).toNat < 8 := by
    rw [UInt8.toNat_mod]
    exact Nat.mod_lt _ (by decide)
  exact hmod

/-- All allocations succeed. -/
def sampleAllocs : ReserveAllocs :=
  ⟨true, true, fun _ => true, fun _ => true⟩

/-- The reservation of the first eight ids that the server can reserve. -/
def reserveEight : AddressEvent :=
  .reserve sampleAllocs 0x80000000 0x80000007

/-- With one reservation two devices are given two ids. -/
theorem ids_unique_two :
    ∃ s, GuardedRun (addressStep sampleConfig sampleDevPos) FreshGuard
        (AddressState.init sampleConfig) [reserveEight, .reallocate 1 1, .reallocate 2 2] s ∧
      s.given = [(1, 0x80000000), (2, 0x80000001)] ∧ UniqueIds s.given := by
  have hexec : (execGuarded (addressStep sampleConfig sampleDevPos) FreshGuard []
      [reserveEight, .reallocate 1 1, .reallocate 2 2] (AddressState.init sampleConfig)).map
        AddressState.given = some [(1, 0x80000000), (2, 0x80000001)] := by
    decide +kernel
  obtain ⟨s, hs, hgiven⟩ := Option.map_eq_some_iff.mp hexec
  have hrun := guardedRun_of_exec hs
  exact ⟨s, hrun, hgiven, ids_unique_of_fresh sampleConfig sampleDevPos hrun⟩

/-- A range is reserved twice, and nine devices ask for ids. -/
def repeatedEvents : List AddressEvent :=
  [reserveEight, reserveEight] ++ [1, 2, 3, 4, 5, 6, 7, 8, 9].map fun dev => .reallocate dev dev

/-- When a range is reserved twice, the ninth device is given the id of the first one. -/
theorem ids_shared_of_repeated :
    (∀ id, (sampleDevPos id).index < sampleConfig.allIndex) ∧
    ∃ s, runInputs (addressStep sampleConfig sampleDevPos) repeatedEvents
        (AddressState.init sampleConfig) = .ok s ∧
      (1, 0x80000000) ∈ s.given ∧ (9, 0x80000000) ∈ s.given ∧ ¬ UniqueIds s.given := by
  have hgiven : (runInputs (addressStep sampleConfig sampleDevPos) repeatedEvents
      (AddressState.init sampleConfig)).map AddressState.given =
        .ok [(1, 0x80000000), (2, 0x80000001), (3, 0x80000002), (4, 0x80000003), (5, 0x80000004),
          (6, 0x80000005), (7, 0x80000006), (8, 0x80000007), (9, 0x80000000)] := by
    decide +kernel
  obtain ⟨s, hrun, hlog⟩ := exists_of_map_eq_ok hgiven
  have hfirst : (1, 0x80000000) ∈ s.given := by
    rw [hlog]
    decide
  have hninth : (9, 0x80000000) ∈ s.given := by
    rw [hlog]
    decide
  refine ⟨sampleDevPos_index_lt, s, hrun, hfirst, hninth, fun hunique => ?_⟩
  exact absurd (hunique 1 9 0x80000000 hfirst hninth) (by decide)

end WiotaAp
