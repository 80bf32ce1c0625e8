import WiotaAp.Foundation.Runs

/-!
# The custom data

`custom_data.c` keeps a server address, a port, a client id and a login in a record of byte arrays.
A string is stored with zeros behind it, and its length is counted again when it is read.

`Settings` is what the record is for: the strings that were set last.  `custom_data_atomic_iff` says
that the record holds them in every run, and that a setter that fails changes nothing, as long as no
login is given with an account that is stored and a password that is rejected: the account is stored
before the length of the password is looked at.
-/

namespace WiotaAp

open Buffers

/-! ### Strings and fields -/

/-- A string that can be passed: without a zero byte, and with a length of 8 bits. -/
structure NulFree where
  bytes : List UInt8
  ne_zero : ∀ b ∈ bytes, b ≠ 0
  length_lt : bytes.length < 2 ^ 8
  deriving DecidableEq

/-- The length that is passed with a string. -/
def NulFree.len (s : NulFree) : UInt8 :=
  UInt8.ofNat s.bytes.length

/-- An array of `n` bytes in the record. -/
structure ByteField (n : ℕ) where
  bytes : List UInt8
  length_eq : bytes.length = n
  deriving DecidableEq

/-- `rt_memset` of the field and `rt_memcpy` of `len` bytes into it. -/
def ByteField.store (n : ℕ) (src : List UInt8) (len : ℕ) : Except Fault (ByteField n) :=
  if h : len ≤ src.length ∧ len ≤ n then
    .ok ⟨src.take len ++ List.replicate (n - len) 0, by
      rw [List.length_append, List.length_take, List.length_replicate, Nat.min_eq_left h.1]
      exact Nat.add_sub_cancel' h.2⟩
  else .error .outOfBounds

/-- The loop that counts the bytes in front of the first zero. -/
def countToNul : List UInt8 → ℕ
  | [] => 0
  | b :: bs => if b = 0 then 0 else countToNul bs + 1

/-- A string with zeros behind it, as a field holds it. -/
def ByteField.Holds {n : ℕ} (field : ByteField n) (s : NulFree) : Prop :=
  s.bytes.length ≤ n ∧ field.bytes = s.bytes ++ List.replicate (n - s.bytes.length) 0

instance {n : ℕ} (field : ByteField n) (s : NulFree) : Decidable (field.Holds s) :=
  inferInstanceAs (Decidable (_ ∧ _))

/-! ### The record -/

/-- `custom_data_t`. -/
structure CustomData where
  ip : ByteField 16
  port : UInt32
  clientId : ByteField 16
  account : ByteField 32
  password : ByteField 32
  deriving DecidableEq

/-- The results of the setters. -/
inductive SetResult
  | ucOpSucc
  | ucOpFail
  deriving DecidableEq, Repr

/-- `custom_set_server_info`. -/
def customSetServerInfo (data : CustomData) (ip : List UInt8) (len : UInt8) (port : UInt32) :
    Except Fault (SetResult × CustomData) :=
  if len = 0 ∨ len > 16 then .ok (.ucOpFail, data)
  else do
    let ip ← ByteField.store 16 ip len.toNat
    return (.ucOpSucc, { data with ip := ip, port := port })

/-- `custom_get_server_info`: the buffer, the length and the port. -/
def customGetServerInfo (data : CustomData) : List UInt8 × ℕ × UInt32 :=
  (data.ip.bytes, countToNul data.ip.bytes, data.port)

/-- `custom_set_client_id`. -/
def customSetClientId (data : CustomData) (id : List UInt8) (len : UInt8) :
    Except Fault (SetResult × CustomData) :=
  if len = 0 ∨ len > 16 then .ok (.ucOpFail, data)
  else do
    let id ← ByteField.store 16 id len.toNat
    return (.ucOpSucc, { data with clientId := id })

/-- `custom_get_client_id`: the buffer and the length. -/
def customGetClientId (data : CustomData) : List UInt8 × ℕ :=
  (data.clientId.bytes, countToNul data.clientId.bytes)

/-- The part of `custom_set_login_info` for the password. -/
def setPassword (data : CustomData) (password : Option (List UInt8)) (pwdLen : UInt8) :
    Except Fault (SetResult × CustomData) :=
  match password with
  | none => .ok (.ucOpSucc, data)
  | some password =>
    if pwdLen = 0 ∨ pwdLen > 32 then .ok (.ucOpFail, data)
    else do
      let password ← ByteField.store 32 password pwdLen.toNat
      return (.ucOpSucc, { data with password := password })

/-- `custom_set_login_info`; a pointer that is `NULL` is `none`.  The account is stored before the
length of the password is looked at. -/
def customSetLoginInfo (data : CustomData) (account : Option (List UInt8)) (accLen : UInt8)
    (password : Option (List UInt8)) (pwdLen : UInt8) : Except Fault (SetResult × CustomData) :=
  match account with
  | none => setPassword data password pwdLen
  | some account =>
    if accLen = 0 ∨ accLen > 32 then .ok (.ucOpFail, data)
    else do
      let account ← ByteField.store 32 account accLen.toNat
      setPassword { data with account := account } password pwdLen

/-- `custom_get_login_info`: the buffer and the length of the account, and those of the
password. -/
def customGetLoginInfo (data : CustomData) : (List UInt8 × ℕ) × List UInt8 × ℕ :=
  ((data.account.bytes, countToNul data.account.bytes),
    data.password.bytes, countToNul data.password.bytes)

/-! ### Calls -/

/-- A call of a setter. -/
inductive SetCall
  | serverInfo (ip : NulFree) (port : UInt32)
  | clientId (id : NulFree)
  | loginInfo (account password : Option NulFree)
  deriving DecidableEq

/-- The length that is passed with a string that may be absent. -/
def optLength (s : Option NulFree) : UInt8 :=
  (s.map NulFree.len).getD 0

/-- The call on the record. -/
def SetCall.run (data : CustomData) : SetCall → Except Fault (SetResult × CustomData)
  | .serverInfo ip port => customSetServerInfo data ip.bytes ip.len port
  | .clientId id => customSetClientId data id.bytes id.len
  | .loginInfo account password =>
    customSetLoginInfo data (account.map NulFree.bytes) (optLength account)
      (password.map NulFree.bytes) (optLength password)

/-- The strings that were set last, by calls that succeeded. -/
structure Settings where
  server : Option (NulFree × UInt32)
  clientId : Option NulFree
  account : Option NulFree
  password : Option NulFree
  deriving DecidableEq

/-- What a call that succeeds sets. -/
def SetCall.record (settings : Settings) : SetCall → Settings
  | .serverInfo ip port => { settings with server := some (ip, port) }
  | .clientId id => { settings with clientId := some id }
  | .loginInfo account password =>
    { settings with account := account.or settings.account,
                    password := password.or settings.password }

/-- The record and the strings that were set last. -/
structure CustomStore where
  data : CustomData
  settings : Settings
  deriving DecidableEq

/-- The store before any call, whatever the record holds. -/
def CustomStore.init (data : CustomData) : CustomStore :=
  ⟨data, ⟨none, none, none, none⟩⟩

/-- A call on the store. -/
def setStep (call : SetCall) (s : CustomStore) : Except Fault CustomStore := do
  let (result, data) ← call.run s.data
  return ⟨data, if result = .ucOpSucc then call.record s.settings else s.settings⟩

/-- The getters return the strings that were set last: the buffer begins with the string, and the
length is its length. -/
structure CustomStore.Readable (s : CustomStore) : Prop where
  server : ∀ ip port, s.settings.server = some (ip, port) →
    ∃ buf, customGetServerInfo s.data = (buf, ip.bytes.length, port) ∧
      buf.take ip.bytes.length = ip.bytes
  clientId : ∀ id, s.settings.clientId = some id →
    ∃ buf, customGetClientId s.data = (buf, id.bytes.length) ∧ buf.take id.bytes.length = id.bytes
  account : ∀ account, s.settings.account = some account →
    ∃ buf, (customGetLoginInfo s.data).1 = (buf, account.bytes.length) ∧
      buf.take account.bytes.length = account.bytes
  password : ∀ password, s.settings.password = some password →
    ∃ buf, (customGetLoginInfo s.data).2 = (buf, password.bytes.length) ∧
      buf.take password.bytes.length = password.bytes

/-- A call that fails leaves the record. -/
def SetCall.Atomic (call : SetCall) (data : CustomData) : Prop :=
  ∃ result data', call.run data = .ok (result, data') ∧ (result = .ucOpFail → data' = data)

/-- The fields that a call is not given stay. -/
structure SetCall.Frames (call : SetCall) (data data' : CustomData) : Prop where
  server : (∀ ip port, call ≠ .serverInfo ip port) → data'.ip = data.ip ∧ data'.port = data.port
  clientId : (∀ id, call ≠ .clientId id) → data'.clientId = data.clientId
  account : (∀ account password, call ≠ .loginInfo (some account) password) →
    data'.account = data.account
  password : (∀ account password, call ≠ .loginInfo account (some password)) →
    data'.password = data.password

/-- A string with a length that a field of `n` bytes takes. -/
def NulFree.Fits (s : NulFree) (n : ℕ) : Prop :=
  s.bytes.length ≠ 0 ∧ s.bytes.length ≤ n

instance (s : NulFree) (n : ℕ) : Decidable (s.Fits n) :=
  inferInstanceAs (Decidable (_ ∧ _))

/-- The condition: an account that is stored does not come with a password that is rejected, unless
the same account is stored already. -/
def LoginGuard (_ : List SetCall) (call : SetCall) (s : CustomStore) : Prop :=
  match call with
  | .loginInfo (some account) (some password) =>
    account.Fits 32 → ¬ password.Fits 32 → s.data.account.Holds account
  | _ => True

instance (calls : List SetCall) (call : SetCall) (s : CustomStore) :
    Decidable (LoginGuard calls call s) := by
  unfold LoginGuard
  split <;> infer_instance

/-! ### Storing a string -/

/-- The length that is passed is the length of the string. -/
lemma NulFree.toNat_len (s : NulFree) : s.len.toNat = s.bytes.length :=
  UInt8.toNat_ofNat_of_lt s.length_lt

/-- The check of a length. -/
lemma NulFree.rejected {s : NulFree} {n : UInt8} (h : ¬ s.Fits n.toNat) :
    s.len = 0 ∨ s.len > n := by
  rcases Nat.eq_zero_or_pos s.bytes.length with hzero | hpos
  · exact .inl (UInt8.toNat_inj.mp (s.toNat_len.trans hzero))
  · refine .inr (UInt8.lt_iff_toNat_lt.mpr ?_)
    rw [s.toNat_len]
    exact Nat.lt_of_not_le fun hle => h ⟨Nat.ne_of_gt hpos, hle⟩

/-- A string that fits passes the check. -/
lemma NulFree.not_rejected {s : NulFree} {n : UInt8} (h : s.Fits n.toNat) :
    ¬ (s.len = 0 ∨ s.len > n) := by
  rintro (hzero | hgt)
  · exact h.1 (s.toNat_len.symm.trans (congrArg UInt8.toNat hzero))
  · have hlt := UInt8.lt_iff_toNat_lt.mp hgt
    rw [s.toNat_len] at hlt
    exact absurd h.2 (Nat.not_le.mpr hlt)

/-- A string that fits is stored with zeros behind it. -/
lemma exists_store {n : ℕ} (s : NulFree) (hfits : s.Fits n) :
    ∃ field : ByteField n, ByteField.store n s.bytes s.len.toNat = .ok field ∧ field.Holds s := by
  unfold ByteField.store
  rw [s.toNat_len]
  refine ⟨_, dif_pos ⟨le_rfl, hfits.2⟩, hfits.2, ?_⟩
  exact congrArg (· ++ _) List.take_length

/-- The count stops behind a string without a zero. -/
lemma countToNul_append {bytes : List UInt8} (h : ∀ b ∈ bytes, b ≠ 0) (k : ℕ) :
    countToNul (bytes ++ List.replicate k 0) = bytes.length := by
  induction bytes with
  | nil =>
    cases k with
    | zero => rfl
    | succ k => exact if_pos rfl
  | cons b bs ih =>
    rw [List.cons_append, countToNul, if_neg (h b List.mem_cons_self),
      ih fun c hc => h c (List.mem_cons_of_mem _ hc), List.length_cons]

/-- What is read from a field that holds a string. -/
lemma ByteField.Holds.read {n : ℕ} {field : ByteField n} {s : NulFree} (h : field.Holds s) :
    countToNul field.bytes = s.bytes.length ∧ field.bytes.take s.bytes.length = s.bytes := by
  rw [h.2]
  exact ⟨countToNul_append s.ne_zero _, List.take_left⟩

/-- A field holds one content for a string. -/
lemma ByteField.Holds.eq {n : ℕ} {field field' : ByteField n} {s : NulFree} (h : field.Holds s)
    (h' : field'.Holds s) : field = field' := by
  obtain ⟨bytes, hlength⟩ := field
  obtain ⟨bytes', hlength'⟩ := field'
  obtain rfl : bytes = bytes' := h.2.trans h'.2.symm
  rfl

/-! ### What the setters do -/

/-- A part of a login that may be absent: the field holds what was given, or it is as before. -/
def ByteField.Takes {n : ℕ} (old : ByteField n) (given : Option NulFree) (field : ByteField n) :
    Prop :=
  match given with
  | none => field = old
  | some s => field.Holds s

/-- What a call that succeeds stores. -/
def SetCall.Stores (data data' : CustomData) : SetCall → Prop
  | .serverInfo ip port =>
    ∃ field : ByteField 16, field.Holds ip ∧ data' = { data with ip := field, port := port }
  | .clientId id => ∃ field : ByteField 16, field.Holds id ∧ data' = { data with clientId := field }
  | .loginInfo account password =>
    ∃ field field', data.account.Takes account field ∧ data.password.Takes password field' ∧
      data' = { data with account := field, password := field' }

/-- `custom_set_server_info` rejects a length, or it stores the string and the port. -/
lemma customSetServerInfo_cases (data : CustomData) (ip : NulFree) (port : UInt32) :
    customSetServerInfo data ip.bytes ip.len port = .ok (.ucOpFail, data) ∨
    ∃ field : ByteField 16, field.Holds ip ∧ customSetServerInfo data ip.bytes ip.len port =
      .ok (.ucOpSucc, { data with ip := field, port := port }) := by
  unfold customSetServerInfo
  by_cases hfits : ip.Fits 16
  · obtain ⟨field, hstore, hholds⟩ := exists_store ip hfits
    refine .inr ⟨field, hholds, ?_⟩
    rw [if_neg (NulFree.not_rejected hfits), hstore]
    rfl
  · exact .inl (if_pos (NulFree.rejected hfits))

/-- `custom_set_client_id` rejects a length, or it stores the string. -/
lemma customSetClientId_cases (data : CustomData) (id : NulFree) :
    customSetClientId data id.bytes id.len = .ok (.ucOpFail, data) ∨
    ∃ field : ByteField 16, field.Holds id ∧ customSetClientId data id.bytes id.len =
      .ok (.ucOpSucc, { data with clientId := field }) := by
  unfold customSetClientId
  by_cases hfits : id.Fits 16
  · obtain ⟨field, hstore, hholds⟩ := exists_store id hfits
    refine .inr ⟨field, hholds, ?_⟩
    rw [if_neg (NulFree.not_rejected hfits), hstore]
    rfl
  · exact .inl (if_pos (NulFree.rejected hfits))

/-- A password that is rejected. -/
lemma setPassword_of_not_fits (data : CustomData) {password : NulFree}
    (hfits : ¬ password.Fits 32) :
    setPassword data (some password.bytes) password.len = .ok (.ucOpFail, data) :=
  if_pos (NulFree.rejected hfits)

/-- A password that is absent or stored. -/
lemma exists_setPassword (data : CustomData) {password : Option NulFree}
    (hfits : ∀ s ∈ password, s.Fits 32) :
    ∃ field, data.password.Takes password field ∧
      setPassword data (password.map NulFree.bytes) (optLength password) =
        .ok (.ucOpSucc, { data with password := field }) := by
  cases password with
  | none => exact ⟨data.password, rfl, rfl⟩
  | some s =>
    obtain ⟨field, hstore, hholds⟩ := exists_store s (hfits s rfl)
    refine ⟨field, hholds, ?_⟩
    refine (if_neg (NulFree.not_rejected (hfits s rfl))).trans ?_
    exact congrArg (· >>= _) hstore

/-- An account that is stored. -/
lemma exists_setAccount (data : CustomData) {account : NulFree} (hfits : account.Fits 32) :
    ∃ field : ByteField 32, field.Holds account ∧ ∀ password pwdLen,
      customSetLoginInfo data (some account.bytes) account.len password pwdLen =
        setPassword { data with account := field } password pwdLen := by
  obtain ⟨field, hstore, hholds⟩ := exists_store account hfits
  refine ⟨field, hholds, fun password pwdLen => ?_⟩
  refine (if_neg (NulFree.not_rejected hfits)).trans ?_
  exact congrArg (· >>= _) hstore

/-- A login with an account that is stored and a password that is rejected. -/
def SetCall.Half (call : SetCall) (account : NulFree) : Prop :=
  ∃ password : NulFree, call = .loginInfo (some account) (some password) ∧ account.Fits 32 ∧
    ¬ password.Fits 32

/-- Such a login fails, and the account is stored. -/
lemma SetCall.Half.run {call : SetCall} {account : NulFree} (h : call.Half account)
    (data : CustomData) :
    ∃ field : ByteField 32, field.Holds account ∧
      call.run data = .ok (.ucOpFail, { data with account := field }) := by
  obtain ⟨password, rfl, haccount, hpassword⟩ := h
  obtain ⟨field, hholds, hcall⟩ := exists_setAccount data haccount
  exact ⟨field, hholds, (hcall _ _).trans (setPassword_of_not_fits _ hpassword)⟩

/-- All other calls fail without a change, or they store what they are given. -/
lemma SetCall.run_of_not_half {call : SetCall} (h : ∀ account, ¬ call.Half account)
    (data : CustomData) :
    call.run data = .ok (.ucOpFail, data) ∨
      ∃ data', call.Stores data data' ∧ call.run data = .ok (.ucOpSucc, data') := by
  cases call with
  | serverInfo ip port =>
    rcases customSetServerInfo_cases data ip port with hfail | ⟨field, hholds, hrun⟩
    · exact .inl hfail
    · exact .inr ⟨_, ⟨field, hholds, rfl⟩, hrun⟩
  | clientId id =>
    rcases customSetClientId_cases data id with hfail | ⟨field, hholds, hrun⟩
    · exact .inl hfail
    · exact .inr ⟨_, ⟨field, hholds, rfl⟩, hrun⟩
  | loginInfo account password =>
    cases account with
    | none =>
      by_cases hfits : ∀ s ∈ password, s.Fits 32
      · obtain ⟨field, htakes, hrun⟩ := exists_setPassword data hfits
        exact .inr ⟨_, ⟨data.account, field, rfl, htakes, rfl⟩, hrun⟩
      · push Not at hfits
        obtain ⟨s, rfl, hs⟩ := hfits
        exact .inl (setPassword_of_not_fits data hs)
    | some account =>
      by_cases haccount : account.Fits 32
      · have hfits : ∀ s ∈ password, s.Fits 32 := by
          rintro s rfl
          by_contra hs
          exact h account ⟨s, rfl, haccount, hs⟩
        obtain ⟨field, hholds, hcall⟩ := exists_setAccount data haccount
        obtain ⟨field', htakes, hrun⟩ := exists_setPassword { data with account := field } hfits
        exact .inr ⟨_, ⟨field, field', hholds, htakes, rfl⟩, (hcall _ _).trans hrun⟩
      · exact .inl (if_pos (NulFree.rejected haccount))

/-- A call stores half of a login, fails without a change, or stores what it is given. -/
lemma SetCall.run_cases (call : SetCall) (data : CustomData) :
    (∃ account, call.Half account ∧ ∃ field : ByteField 32, field.Holds account ∧
      call.run data = .ok (.ucOpFail, { data with account := field })) ∨
    call.run data = .ok (.ucOpFail, data) ∨
    ∃ data', call.Stores data data' ∧ call.run data = .ok (.ucOpSucc, data') := by
  by_cases h : ∃ account, call.Half account
  · obtain ⟨account, hhalf⟩ := h
    exact .inl ⟨account, hhalf, hhalf.run data⟩
  · exact .inr (SetCall.run_of_not_half (not_exists.mp h) data)

/-! ### Runs -/

/-- The fields hold the strings that were set last. -/
structure CustomStore.Inv (s : CustomStore) : Prop where
  server : ∀ ip port, s.settings.server = some (ip, port) → s.data.ip.Holds ip ∧ s.data.port = port
  clientId : ∀ id, s.settings.clientId = some id → s.data.clientId.Holds id
  account : ∀ account, s.settings.account = some account → s.data.account.Holds account
  password : ∀ password, s.settings.password = some password → s.data.password.Holds password

/-- Nothing is set at first. -/
lemma CustomStore.inv_init (data : CustomData) : (CustomStore.init data).Inv := by
  constructor
  · intro ip port h
    cases h
  · intro id h
    cases h
  · intro account h
    cases h
  · intro password h
    cases h

/-- The getters read what the fields hold. -/
lemma CustomStore.Inv.readable {s : CustomStore} (h : s.Inv) : s.Readable := by
  constructor
  · intro ip port hset
    obtain ⟨hholds, hport⟩ := h.server ip port hset
    obtain ⟨hcount, htake⟩ := hholds.read
    exact ⟨s.data.ip.bytes, by rw [customGetServerInfo, hcount, hport], htake⟩
  · intro id hset
    obtain ⟨hcount, htake⟩ := (h.clientId id hset).read
    exact ⟨s.data.clientId.bytes, by rw [customGetClientId, hcount], htake⟩
  · intro account hset
    obtain ⟨hcount, htake⟩ := (h.account account hset).read
    exact ⟨s.data.account.bytes, by rw [customGetLoginInfo, hcount], htake⟩
  · intro password hset
    obtain ⟨hcount, htake⟩ := (h.password password hset).read
    exact ⟨s.data.password.bytes, by rw [customGetLoginInfo, hcount], htake⟩

/-- A part of a login, together with the string that was set last. -/
lemma ByteField.Takes.holds {n : ℕ} {old field : ByteField n} {given last : Option NulFree}
    (htakes : old.Takes given field) (hold : ∀ s, last = some s → old.Holds s) (s : NulFree)
    (hs : given.or last = some s) : field.Holds s := by
  cases given with
  | none =>
    cases htakes
    exact hold s hs
  | some s' =>
    cases hs
    exact htakes

/-- What a call stores is what was set last. -/
lemma CustomStore.Inv.stores {s : CustomStore} (h : s.Inv) {call : SetCall} {data : CustomData}
    (hstores : call.Stores s.data data) : CustomStore.Inv ⟨data, call.record s.settings⟩ := by
  cases call with
  | serverInfo ip port =>
    obtain ⟨field, hholds, rfl⟩ := hstores
    refine ⟨fun ip' port' hset => ?_, h.clientId, h.account, h.password⟩
    cases hset
    exact ⟨hholds, rfl⟩
  | clientId id =>
    obtain ⟨field, hholds, rfl⟩ := hstores
    refine ⟨h.server, fun id' hset => ?_, h.account, h.password⟩
    cases hset
    exact hholds
  | loginInfo account password =>
    obtain ⟨field, field', haccount, hpassword, rfl⟩ := hstores
    exact ⟨h.server, h.clientId, haccount.holds h.account, hpassword.holds h.password⟩

/-- Only the fields that are given are stored. -/
lemma SetCall.Stores.frames {call : SetCall} {data data' : CustomData}
    (hstores : call.Stores data data') : call.Frames data data' := by
  cases call with
  | serverInfo ip port =>
    obtain ⟨field, -, rfl⟩ := hstores
    exact ⟨fun h => absurd rfl (h ip port), fun _ => rfl, fun _ => rfl, fun _ => rfl⟩
  | clientId id =>
    obtain ⟨field, -, rfl⟩ := hstores
    exact ⟨fun _ => ⟨rfl, rfl⟩, fun h => absurd rfl (h id), fun _ => rfl, fun _ => rfl⟩
  | loginInfo account password =>
    obtain ⟨field, field', haccount, hpassword, rfl⟩ := hstores
    refine ⟨fun _ => ⟨rfl, rfl⟩, fun _ => rfl, fun h => ?_, fun h => ?_⟩
    · cases account with
      | none => exact haccount
      | some s => exact absurd rfl (h s password)
    · cases password with
      | none => exact hpassword
      | some s => exact absurd rfl (h account s)

/-- The condition is about the logins that are stored in half. -/
lemma loginGuard_iff {calls : List SetCall} {call : SetCall} {s : CustomStore} :
    LoginGuard calls call s ↔ ∀ account, call.Half account → s.data.account.Holds account := by
  constructor
  · rintro hguard account ⟨password, rfl, haccount, hpassword⟩
    exact hguard haccount hpassword
  · intro hhalf
    match call with
    | .loginInfo (some account) (some password) =>
      exact fun haccount hpassword => hhalf account ⟨password, rfl, haccount, hpassword⟩
    | .loginInfo none _ => trivial
    | .loginInfo (some _) none => trivial
    | .serverInfo _ _ => trivial
    | .clientId _ => trivial

/-- A call leaves the record when it fails, exactly under the condition. -/
lemma SetCall.atomic_iff {calls : List SetCall} {call : SetCall} {s : CustomStore} :
    call.Atomic s.data ↔ LoginGuard calls call s := by
  rw [loginGuard_iff]
  constructor
  · rintro ⟨result, data, hrun, hkeep⟩ account hhalf
    obtain ⟨field, hholds, hrun'⟩ := hhalf.run s.data
    cases hrun'.symm.trans hrun
    have hfield : field = s.data.account := congrArg CustomData.account (hkeep rfl)
    exact hfield ▸ hholds
  · intro hhalf
    rcases call.run_cases s.data with ⟨account, h, field, hholds, hrun⟩ | hrun | ⟨data, -, hrun⟩
    · -- the same account is stored already
      obtain rfl : field = s.data.account := hholds.eq (hhalf account h)
      exact ⟨.ucOpFail, _, hrun, fun _ => rfl⟩
    · exact ⟨.ucOpFail, s.data, hrun, fun _ => rfl⟩
    · exact ⟨.ucOpSucc, data, hrun, fun hfail => absurd hfail (by decide)⟩

/-- A call changes only fields that it is given. -/
lemma SetCall.frames_of_run {call : SetCall} {data data' : CustomData} {result : SetResult}
    (hrun : call.run data = .ok (result, data')) : call.Frames data data' := by
  rcases call.run_cases data with ⟨account, hhalf, field, -, hrun'⟩ | hrun' | ⟨_, hstores, hrun'⟩
  · cases hrun'.symm.trans hrun
    obtain ⟨password, rfl, -, -⟩ := hhalf
    exact ⟨fun _ => ⟨rfl, rfl⟩, fun _ => rfl, fun h => absurd rfl (h account (some password)),
      fun _ => rfl⟩
  · cases hrun'.symm.trans hrun
    exact ⟨fun _ => ⟨rfl, rfl⟩, fun _ => rfl, fun _ => rfl, fun _ => rfl⟩
  · cases hrun'.symm.trans hrun
    exact hstores.frames

/-- A call under the condition keeps what was set last. -/
lemma CustomStore.Inv.step {calls : List SetCall} {call : SetCall} {s s' : CustomStore} (h : s.Inv)
    (hguard : LoginGuard calls call s) (hstep : setStep call s = .ok s') : s'.Inv := by
  obtain ⟨⟨result, data⟩, hrun, hstep⟩ := exists_of_bind_eq_ok hstep
  obtain ⟨result', data', hrun', hkeep⟩ := SetCall.atomic_iff.mpr hguard
  cases hrun'.symm.trans hrun
  cases result with
  | ucOpFail =>
    cases hstep
    rw [hkeep rfl]
    exact h
  | ucOpSucc =>
    cases hstep
    rcases call.run_cases s.data with ⟨_, -, _, -, hfail⟩ | hfail | ⟨data', hstores, hsucc⟩
    · cases hfail.symm.trans hrun
    · cases hfail.symm.trans hrun
    · cases hsucc.symm.trans hrun
      exact h.stores hstores

/-- In every run of the setters in which no account is stored with a password that is rejected, the
getters return the strings that were set last.  A next call that fails leaves the record exactly
under the condition, and no call changes a field that it is not given. -/
theorem custom_data_atomic_iff (data : CustomData) {calls : List SetCall} {s : CustomStore}
    (hrun : GuardedRun setStep LoginGuard (CustomStore.init data) calls s) :
    s.Readable ∧ ∀ call : SetCall, (call.Atomic s.data ↔ LoginGuard calls call s) ∧
      ∀ result data', call.run s.data = .ok (result, data') → call.Frames s.data data' := by
  have hinv : s.Inv := by
    refine hrun.invariant (P := fun _ s => s.Inv) (CustomStore.inv_init data) ?_
    intro calls call s s' hs hguard hstep
    exact hs.step hguard hstep
  refine ⟨hinv.readable, fun call => ⟨SetCall.atomic_iff, fun result data' hcall => ?_⟩⟩
  exact SetCall.frames_of_run hcall

/-- A record with nothing but zeros. -/
def blankData : CustomData where
  ip := ⟨List.replicate 16 0, rfl⟩
  port := 0
  clientId := ⟨List.replicate 16 0, rfl⟩
  account := ⟨List.replicate 32 0, rfl⟩
  password := ⟨List.replicate 32 0, rfl⟩

/-- The client id `ap`. -/
def sampleId : NulFree := ⟨[97, 112], by simp, by simp⟩

/-- The empty string. -/
def emptyString : NulFree := ⟨[], by simp, by simp⟩

/-- The password `key`. -/
def samplePassword : NulFree := ⟨[107, 101, 121], by simp, by simp⟩

/-- A login, and another one with the same account and an empty password, which fails: the account
and the password of the first one are read. -/
theorem custom_data_atomic_login :
    ∃ s, GuardedRun setStep LoginGuard (CustomStore.init blankData)
        [.clientId sampleId, .loginInfo (some sampleId) (some samplePassword),
          .loginInfo (some sampleId) (some emptyString)] s ∧
      (∃ buf, (customGetLoginInfo s.data).1 = (buf, 2) ∧ buf.take 2 = [97, 112]) ∧
      ∃ buf, (customGetLoginInfo s.data).2 = (buf, 3) ∧ buf.take 3 = [107, 101, 121] := by
  have hexec : (execGuarded setStep LoginGuard []
      [.clientId sampleId, .loginInfo (some sampleId) (some samplePassword),
        .loginInfo (some sampleId) (some emptyString)] (CustomStore.init blankData)).map
        (fun s => (s.settings.account, s.settings.password)) =
      some (some sampleId, some samplePassword) := by decide
  obtain ⟨s, hs, hset⟩ := Option.map_eq_some_iff.mp hexec
  obtain ⟨haccount, hpassword⟩ := Prod.mk.inj hset
  have hrun := guardedRun_of_exec hs
  have hread := (custom_data_atomic_iff blankData hrun).1
  exact ⟨s, hrun, hread.account sampleId haccount, hread.password samplePassword hpassword⟩

/-- A login with an account and an empty password: it fails, and the account is stored. -/
theorem custom_login_half :
    ∃ data, SetCall.run blankData (.loginInfo (some sampleId) (some emptyString)) =
        .ok (.ucOpFail, data) ∧
      data ≠ blankData ∧ (customGetLoginInfo data).1.2 = 2 ∧
      (customGetLoginInfo data).1.1.take 2 = [97, 112] ∧
      (customGetLoginInfo blankData).1.2 = 0 := by
  refine ⟨{ blankData with account := ⟨[97, 112] ++ List.replicate 30 0, rfl⟩ }, ?_⟩
  decide

end WiotaAp
