import WiotaAp.Manager.NetMessager
import WiotaAp.Codec.CJsonPrint

/-!
# Requests from the network

`parse_mqtt_payload` takes the destinations of a request out of a JSON array, and
`manager_send_msg_to_wiota` sends the data of the request to them.  Only the numbers of the array
are destinations, but the array of the addresses is as long as the JSON array, and what is not
filled stays zero.

`fillAddresses_spec` says what the array of the addresses is, `sendMessage_iff` when a message is
sent to given addresses, and `requests_reach_listed_iff` for which requests this is one send to each
address that is listed.
-/

namespace WiotaAp

open Buffers

/-! ### The functions -/

/-- What the functions use from outside: the conversion `(unsigned int)valuedouble`, and
`cJSON_Print` with the text up to its terminator. -/
structure CJsonEnv (D : Type) where
  toUnsigned : D → UInt32
  print : JsonItem D → Option (List UInt8)

/-- `t_from_network_message` as it is filled: `dest_len` counts bytes, and `json_data` is `none`
when it is `RT_NULL`. -/
structure MqttMessage where
  destLen : UInt32
  destAddress : List UInt32
  cmd : UInt32
  requestNumber : UInt32
  jsonData : Option (List UInt8)
  deriving DecidableEq, Repr

section Parse

variable {D : Type} (json : CJsonEnv D)

/-- The loop over the elements of the array: `i` addresses have been stored. -/
def fillAddresses (destLen : ℕ) : List (JsonItem D) → ℕ → List UInt32 →
    Except Fault (List UInt32)
  | [], _, destAddress => .ok destAddress
  | .number valuedouble _ :: items, i, destAddress => do
    let destAddress ← writeAt destAddress i [json.toUnsigned valuedouble]
    if i + 1 ≥ destLen then return destAddress
    else fillAddresses destLen items (i + 1) destAddress
  | _ :: items, i, destAddress => fillAddresses destLen items i destAddress

/-- `dest_len` and `dest_address` for the element `dest_address`.  Allocations succeed. -/
def destAddresses (destAddrArr : Option (JsonItem D)) : Except Fault (UInt32 × List UInt32) :=
  match destAddrArr with
  | some (.array child) =>
    let destLen := UInt32.ofNat child.items.length
    if destLen ≠ 0 then do
      let destAddress ←
        fillAddresses json destLen.toNat child.items 0 (List.replicate destLen.toNat 0)
      return (destLen, destAddress)
    else .ok (0, [])
  | some (.number valuedouble _) => .ok (1, [json.toUnsigned valuedouble])
  | _ => .ok (0, [])

/-- `cmd`, which is zero without a number. -/
def cmdOf (param : JsonItem D) : UInt32 :=
  match param.getObjectItem "cmd" with
  | some (.number _ valueint) => valueint.toUInt32
  | _ => 0

/-- `json_data`. -/
def jsonDataOf (param : JsonItem D) : Option (List UInt8) :=
  (param.getObjectItem "data").bind json.print

/-- `parse_mqtt_payload`. -/
def parseMqttPayload (payload : Option (JsonItem D)) (requestNumber : UInt32) :
    Except Fault (Option MqttMessage) :=
  match payload.bind fun payload => payload.getObjectItem "params" with
  | none => .ok none
  | some param => do
    let (destLen, destAddress) ← destAddresses json (param.getObjectItem "dest_address")
    return some
      { destLen := destLen * 4
        destAddress := destAddress
        cmd := cmdOf param
        requestNumber := requestNumber
        jsonData := jsonDataOf json param }

end Parse

/-- `manager_send_msg_to_wiota` for the message; the length of a text that is `RT_NULL` is read at
the first destination. -/
def sendMessage (env : NetEnv) (msg : MqttMessage) (heap : SegmentHeap) :
    Except Fault (SegmentHeap × List (List NetAction)) :=
  let destNum := (msg.destLen >>> 2).toNat
  match msg.jsonData with
  | none => if destNum = 0 then .ok (heap, []) else .error .outOfBounds
  | some text =>
    managerSendMsgToWiota env
      ⟨msg.destAddress.take destNum, msg.cmd, msg.requestNumber, text⟩ heap

/-! ### The addresses -/

section Addresses

variable {D : Type} (json : CJsonEnv D)

/-- The addresses of the numbers of a list. -/
def numbersOf (items : List (JsonItem D)) : List UInt32 :=
  items.filterMap fun
    | .number valuedouble _ => some (json.toUnsigned valuedouble)
    | _ => none

/-- The addresses that an element `dest_address` lists. -/
def CJsonEnv.listed : JsonItem D → List UInt32
  | .array child => numbersOf json child.items
  | dest => numbersOf json [dest]

/-- The number of the elements in an element `dest_address`. -/
def JsonItem.elements : JsonItem D → ℕ
  | .array child => child.items.length
  | _ => 1

/-- An array, or a single number. -/
def JsonItem.IsDest : JsonItem D → Prop
  | .array _ => True
  | .number _ _ => True
  | _ => False

/-- What the loop leaves: the addresses so far, then those of the numbers as far as there is room,
and zeros where there is no number. -/
lemma fillAddresses_spec (items : List (JsonItem D)) {destLen i k : ℕ} {stored : List UInt32}
    (hi : i = stored.length) (hk : destLen = i + (k + 1)) :
    fillAddresses json destLen items i (stored ++ List.replicate (k + 1) 0) =
      .ok (stored ++ ((numbersOf json items).take (k + 1) ++
        List.replicate (k + 1 - (numbersOf json items).length) 0)) := by
  induction items generalizing i k stored with
  | nil => simp [fillAddresses, numbersOf]
  | cons item items ih =>
    cases item with
    | number valuedouble valueint =>
      have hnumbers : numbersOf json (.number valuedouble valueint :: items) =
          json.toUnsigned valuedouble :: numbersOf json items := rfl
      have hwrite : writeAt (stored ++ List.replicate (k + 1) 0) i [json.toUnsigned valuedouble] =
          .ok (stored ++ json.toUnsigned valuedouble :: List.replicate k 0) :=
        writeAt_cell (congrArg (stored ++ ·) List.replicate_succ) hi
      rw [fillAddresses, hwrite, ok_bind, hnumbers, List.take_succ_cons, List.length_cons,
        Nat.add_sub_add_right, List.cons_append]
      cases k with
      | zero =>
        rw [if_pos (by omega)]
        simp
      | succ k =>
        have hi' : i + 1 = (stored ++ [json.toUnsigned valuedouble]).length := by simp [hi]
        have hrest := ih hi' (show destLen = i + 1 + (k + 1) by omega)
        rw [List.append_assoc, List.append_assoc, List.singleton_append, List.singleton_append]
          at hrest
        rw [if_neg (by omega), hrest]
    | invalid => exact ih hi hk
    | null => exact ih hi hk
    | bool value => exact ih hi hk
    | string valuestring => exact ih hi hk
    | raw valuestring => exact ih hi hk
    | array child => exact ih hi hk
    | object child => exact ih hi hk

/-- The number of the destinations is that of the elements, as far as a byte count of 32 bits can
say. -/
lemma toNat_destNum (n : ℕ) : ((UInt32.ofNat n * 4) >>> 2).toNat = n % 2 ^ 30 := by
  rw [UInt32.toNat_shiftRight, UInt32.toNat_mul, UInt32.toNat_ofNat', Nat.shiftRight_eq_div_pow]
  change n % 2 ^ 32 * 4 % 2 ^ 32 / 2 ^ 2 = n % 2 ^ 30
  omega

/-- The array of the addresses for a JSON array. -/
lemma destAddresses_array (child : JsonChain D) :
    destAddresses json (some (.array child)) =
      .ok (UInt32.ofNat child.items.length,
        (numbersOf json child.items).take (child.items.length % 2 ^ 32) ++
        List.replicate (child.items.length % 2 ^ 32 - (numbersOf json child.items).length) 0) := by
  have hlen : (UInt32.ofNat child.items.length).toNat = child.items.length % 2 ^ 32 :=
    UInt32.toNat_ofNat'
  rw [destAddresses]
  by_cases hzero : UInt32.ofNat child.items.length = 0
  · rw [hzero, UInt32.toNat_zero] at hlen
    rw [if_neg (not_not.mpr hzero), hzero, ← hlen, Nat.zero_sub]
    rfl
  · have hpos : 0 < (UInt32.ofNat child.items.length).toNat :=
      Nat.pos_of_ne_zero fun h => hzero (UInt32.toNat_inj.mp (h.trans UInt32.toNat_zero.symm))
    obtain ⟨k, hk⟩ := Nat.exists_eq_add_of_le' hpos
    have hfill := fillAddresses_spec json child.items (show 0 = ([] : List UInt32).length from rfl)
      (show (UInt32.ofNat child.items.length).toNat = 0 + (k + 1) by omega)
    rw [List.nil_append, List.nil_append, ← hk] at hfill
    rw [if_pos hzero, hfill, hlen]
    rfl

/-- The destinations of an element `dest_address`: as many as there are elements, and those that are
listed if there are as many of them. -/
lemma destAddresses_spec {dest : JsonItem D} (hdest : dest.IsDest) :
    ∃ destLen destAddress, destAddresses json (some dest) = .ok (destLen, destAddress) ∧
      ((destLen * 4) >>> 2).toNat = dest.elements % 2 ^ 30 ∧
      (destAddress.take (dest.elements % 2 ^ 30)).length = dest.elements % 2 ^ 30 ∧
      ((json.listed dest).length = dest.elements % 2 ^ 30 →
        destAddress.take (dest.elements % 2 ^ 30) = json.listed dest) := by
  cases dest with
  | array child =>
    have hmod : child.items.length % 2 ^ 30 ≤ child.items.length % 2 ^ 32 := by omega
    refine ⟨_, _, destAddresses_array json child, toNat_destNum child.items.length, ?_, ?_⟩
    · simp only [JsonItem.elements, List.length_take, List.length_append, List.length_replicate]
      omega
    · intro hcount
      rw [JsonItem.elements, CJsonEnv.listed] at hcount
      have htake : (numbersOf json child.items).take (child.items.length % 2 ^ 32) =
          numbersOf json child.items :=
        List.take_of_length_le (by omega)
      rw [JsonItem.elements, CJsonEnv.listed, htake, ← hcount, List.take_left]
  | number valuedouble valueint =>
    exact ⟨1, [json.toUnsigned valuedouble], rfl, rfl, rfl, fun _ => rfl⟩
  | invalid => exact hdest.elim
  | null => exact hdest.elim
  | bool value => exact hdest.elim
  | string valuestring => exact hdest.elim
  | raw valuestring => exact hdest.elim
  | object child => exact hdest.elim

end Addresses

/-! ### The sends -/

/-- There are calls for each destination. -/
lemma length_sendToDests {env : NetEnv} {page : FromNetworkMessage} {heap heap' : SegmentHeap}
    {dests : List UInt32} {calls : List (List NetAction)}
    (h : sendToDests env page heap dests = .ok (heap', calls)) : calls.length = dests.length := by
  induction dests generalizing heap calls with
  | nil =>
    cases h
    rfl
  | cons dest dests ih =>
    rw [sendToDests] at h
    obtain ⟨⟨heap₁, actions⟩, -, h⟩ := exists_of_bind_eq_ok h
    obtain ⟨⟨heap₂, rest⟩, hrest, h⟩ := exists_of_bind_eq_ok h
    cases h
    rw [List.length_cons, ih hrest, List.length_cons]

/-- The calls are one send of the text of a message to each of the addresses, in order. -/
def SendsTo (env : NetEnv) (msg : MqttMessage) (dests : List UInt32)
    (calls : List (List NetAction)) : Prop :=
  calls.length = dests.length ∧
    ∀ (num : ℕ) dest, dests[num]? = some dest → ∃ text segment, msg.jsonData = some text ∧
      calls[num]? =
        some (destActions env ⟨dests, msg.cmd, msg.requestNumber, text⟩ segment dest)

section Sends

variable {env : NetEnv} {msg : MqttMessage} {dests : List UInt32} {heap : SegmentHeap}

/-- Without a text a message is sent to nobody, or not at all. -/
lemma sendMessage_of_none (hdata : msg.jsonData = none) :
    (∃ heap' calls, sendMessage env msg heap = .ok (heap', calls) ∧
        SendsTo env msg dests calls) ↔
      (msg.destLen >>> 2).toNat = 0 ∧ dests = [] := by
  unfold sendMessage
  rw [hdata]
  dsimp only
  constructor
  · rintro ⟨heap', calls, hsend, hlength, -⟩
    split at hsend
    · rename_i hzero
      cases hsend
      exact ⟨hzero, List.length_eq_zero_iff.mp hlength.symm⟩
    · cases hsend
  · rintro ⟨hzero, rfl⟩
    refine ⟨heap, [], if_pos hzero, rfl, ?_⟩
    intro num dest hget
    cases hget

/-- With a text there is a send to each of the addresses in front of the array. -/
lemma sendMessage_of_some (hmalloc : ∀ n, env.malloc n = true) {text : List UInt8}
    (hdata : msg.jsonData = some text)
    (hlen : (msg.destAddress.take (msg.destLen >>> 2).toNat).length = (msg.destLen >>> 2).toNat)
    (hdests : dests.length = (msg.destLen >>> 2).toNat →
      msg.destAddress.take (msg.destLen >>> 2).toNat = dests) :
    (∃ heap' calls, sendMessage env msg heap = .ok (heap', calls) ∧
        SendsTo env msg dests calls) ↔
      dests.length = (msg.destLen >>> 2).toNat := by
  obtain ⟨heap', calls, hrun, hcalls⟩ := sendToDests_eq hmalloc
    ⟨msg.destAddress.take (msg.destLen >>> 2).toNat, msg.cmd, msg.requestNumber, text⟩ heap
    (msg.destAddress.take (msg.destLen >>> 2).toNat)
  have hsend : sendMessage env msg heap = .ok (heap', calls) := by
    unfold sendMessage
    rw [hdata]
    exact hrun
  have hcount := (length_sendToDests hrun).trans hlen
  rw [hsend]
  constructor
  · rintro ⟨heap'', calls', heq, hlength, -⟩
    cases heq
    exact hlength.symm.trans hcount
  · intro hall
    rw [hdests hall] at hcalls
    refine ⟨heap', calls, rfl, hcount.trans hall.symm, ?_⟩
    intro num dest hget
    obtain ⟨segment, hcall⟩ := hcalls num dest hget
    exact ⟨text, segment, hdata, hcall⟩

/-- A message is sent to the destinations exactly if there are as many of them as in the message,
and there is a text to send unless there are none. -/
lemma sendMessage_iff (hmalloc : ∀ n, env.malloc n = true)
    (hlen : (msg.destAddress.take (msg.destLen >>> 2).toNat).length = (msg.destLen >>> 2).toNat)
    (hdests : dests.length = (msg.destLen >>> 2).toNat →
      msg.destAddress.take (msg.destLen >>> 2).toNat = dests) :
    (∃ heap' calls, sendMessage env msg heap = .ok (heap', calls) ∧
        SendsTo env msg dests calls) ↔
      dests.length = (msg.destLen >>> 2).toNat ∧ (msg.jsonData ≠ none ∨ dests = []) := by
  cases hdata : msg.jsonData with
  | none =>
    rw [sendMessage_of_none hdata]
    constructor
    · rintro ⟨hzero, rfl⟩
      exact ⟨hzero.symm, Or.inr rfl⟩
    · rintro ⟨hcount, hnil⟩
      obtain rfl := hnil.resolve_left (not_not.mpr rfl)
      exact ⟨hcount.symm, rfl⟩
  | some text =>
    rw [sendMessage_of_some hmalloc hdata hlen hdests]
    exact (and_iff_left (Or.inl (Option.some_ne_none _))).symm

end Sends

/-- Requests to the listed devices.  For every request whose element `dest_address` is an array or a
number, there is one send to each number that is listed, in order, and no other one, exactly if all
elements are numbers, counted modulo `2 ^ 30`, and there is a text to send unless nothing is
listed. -/
theorem requests_reach_listed_iff {D : Type} (json : CJsonEnv D) {env : NetEnv}
    (hmalloc : ∀ n, env.malloc n = true) {payload param dest : JsonItem D}
    (hparam : payload.getObjectItem "params" = some param)
    (harray : param.getObjectItem "dest_address" = some dest) (hdest : dest.IsDest)
    (requestNumber : UInt32) (heap : SegmentHeap) :
    (∃ msg heap' calls, parseMqttPayload json (some payload) requestNumber = .ok (some msg) ∧
        sendMessage env msg heap = .ok (heap', calls) ∧
        SendsTo env msg (json.listed dest) calls) ↔
      (json.listed dest).length = dest.elements % 2 ^ 30 ∧
        (jsonDataOf json param ≠ none ∨ json.listed dest = []) := by
  obtain ⟨destLen, destAddress, haddr, hnum, hlen, hlisted⟩ := destAddresses_spec json hdest
  obtain ⟨msg, hmsg⟩ : ∃ msg : MqttMessage, msg =
      ⟨destLen * 4, destAddress, cmdOf param, requestNumber, jsonDataOf json param⟩ := ⟨_, rfl⟩
  have hparse : parseMqttPayload json (some payload) requestNumber = .ok (some msg) := by
    rw [parseMqttPayload, Option.bind_some, hparam, hmsg]
    simp only [harray, haddr, ok_bind]
    rfl
  have hdestNum : (msg.destLen >>> 2).toNat = dest.elements % 2 ^ 30 := by
    rw [hmsg]
    exact hnum
  have haddress : msg.destAddress = destAddress := by
    rw [hmsg]
  have htext : msg.jsonData = jsonDataOf json param := by
    rw [hmsg]
  rw [← haddress, ← hdestNum] at hlen hlisted
  rw [← hdestNum, ← htext, ← sendMessage_iff hmalloc hlen hlisted, hparse]
  constructor
  · rintro ⟨msg', heap', calls, heq, hsend⟩
    cases heq
    exact ⟨heap', calls, hsend⟩
  · rintro ⟨heap', calls, hsend⟩
    exact ⟨msg, heap', calls, rfl, hsend⟩

/-- The numbers are those of `Doubles.ints`, and there is memory for every text. -/
def plainJson : CJsonEnv Int32 where
  toUnsigned value := value.toUInt32
  print item := jsonText .ints true 0 item

/-- Allocations succeed, and the address of a device is its id. -/
def plainNet : NetEnv where
  compress _ := none
  malloc _ := true
  queryWiotaid id := id

/-- An array of items. -/
def arrayOf (items : List (JsonItem Int32)) : JsonItem Int32 :=
  .array (.ofList (items.map fun item => (none, item)))

/-- The parameters of a request to the destinations. -/
def paramsTo (dest : JsonItem Int32) : JsonItem Int32 :=
  .object (.ofList [namedItem "dest_address" dest, namedItem "data" (.object .nil)])

/-- A request to the destinations. -/
def requestTo (dest : JsonItem Int32) : JsonItem Int32 :=
  .object (.ofList [namedItem "params" (paramsTo dest)])

theorem requests_reach_listed_numbers :
    ∃ msg heap' calls, parseMqttPayload plainJson
        (some (requestTo (arrayOf [.number 5 5, .number 9 9]))) 1 = .ok (some msg) ∧
      sendMessage plainNet msg [] = .ok (heap', calls) ∧ SendsTo plainNet msg [5, 9] calls := by
  have hparam : (requestTo (arrayOf [.number 5 5, .number 9 9])).getObjectItem "params" =
      some (paramsTo (arrayOf [.number 5 5, .number 9 9])) := by decide +kernel
  have hdest : (paramsTo (arrayOf [.number 5 5, .number 9 9])).getObjectItem "dest_address" =
      some (arrayOf [.number 5 5, .number 9 9]) := by decide +kernel
  have htext : jsonDataOf plainJson (paramsTo (arrayOf [.number 5 5, .number 9 9])) ≠ none := by
    decide +kernel
  exact (requests_reach_listed_iff plainJson (fun _ => rfl) hparam hdest trivial 1 []).mpr
    ⟨rfl, Or.inl htext⟩

/-- An array with a number and a text: the data is sent to the address zero, too. -/
theorem request_reaches_address_zero :
    let dest := arrayOf [.number 5 5, .string (some (CText.ofBlock (textBytes "9")))]
    ∃ msg heap' calls,
      parseMqttPayload plainJson (some (requestTo dest)) 1 = .ok (some msg) ∧
      sendMessage plainNet msg [] = .ok (heap', calls) ∧ SendsTo plainNet msg [5, 0] calls ∧
      plainJson.listed dest = [5] := by
  intro dest
  have hparse : parseMqttPayload plainJson (some (requestTo dest)) 1 =
      .ok (some ⟨8, [5, 0], 0, 1, some (textBytes "\x7b\n\x7d")⟩) := by decide +kernel
  refine ⟨_, _, _, hparse, rfl, ⟨rfl, ?_⟩, rfl⟩
  intro num dest hget
  match num with
  | 0 =>
    cases hget
    exact ⟨_, 0, rfl, rfl⟩
  | 1 =>
    cases hget
    exact ⟨_, 0, rfl, rfl⟩
  | n + 2 => cases hget

end WiotaAp
