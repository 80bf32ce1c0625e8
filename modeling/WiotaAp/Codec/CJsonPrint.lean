import WiotaAp.Codec.CJson
import WiotaAp.Foundation.Appending

/-!
# cJSON: the printer

`print_value` writes an item to a block that `ensure` makes larger when it is allowed to.  Every
part of the output asks for its room first, mostly for more than it needs, and what a value has
written is found again by its terminator (`update_offset`).

`jsonText` is the text of an item, and `printValue_writes` says that the printer appends it: it
writes nothing outside its block, and gives up only when memory is refused or the text with two more
bytes has no room.  `cjson_print_text` and `cjson_print_preallocated` are this for whole outputs.
-/

namespace WiotaAp

open Buffers

/-! ### The output -/

/-- `printbuffer`. -/
structure PrintBuffer where
  buffer : List UInt8
  length : ℕ
  offset : ℕ
  depth : ℕ
  noalloc : Bool
  format : Bool
  /-- The number of allocations so far, which is no field of the source. -/
  calls : ℕ

/-- The functions of `global_hooks`: the block of a size that each call of `allocate` or
`reallocate` gives, with what is in it behind the bytes that are kept, and whether there is a
`reallocate`. -/
structure PrintHooks where
  fresh : (call size : ℕ) → Option (List UInt8)
  reallocate : Bool
  length_fresh : ∀ {call size b}, fresh call size = some b → b.length = size

/-- `INT_MAX`. -/
def intMax : ℕ := 2 ^ 31 - 1

section Printer

variable (hooks : PrintHooks)

/-- `ensure`, from where the new size is known on. -/
def grow (p : PrintBuffer) (newsize : ℕ) : Except Fault (Option PrintBuffer) :=
  match hooks.fresh p.calls newsize with
  | none => .ok none
  | some block =>
    if hooks.reallocate then
      let buffer := p.buffer.take newsize ++ block.drop p.buffer.length
      .ok (some { p with buffer := buffer, length := newsize, calls := p.calls + 1 })
    else do
      let kept ← readAt p.buffer 0 (p.offset + 1)
      let buffer ← writeAt block 0 kept
      return some { p with buffer := buffer, length := newsize, calls := p.calls + 1 }

/-- `ensure`: the buffer in which there is room, unless the pointer is `NULL`. -/
def ensure (needed : ℕ) (p : PrintBuffer) : Except Fault (Option PrintBuffer) :=
  if 0 < p.length ∧ p.length ≤ p.offset then .ok none
  else if intMax < needed then .ok none
  else if needed + p.offset + 1 ≤ p.length then .ok (some p)
  else if p.noalloc then .ok none
  else if intMax / 2 < needed + p.offset + 1 then
    if needed + p.offset + 1 ≤ intMax then grow hooks p intMax else .ok none
  else grow hooks p ((needed + p.offset + 1) * 2)

/-- `ensure`, a write of some bytes at the pointer, and `offset += advance`. -/
def put (needed : ℕ) (bytes : List UInt8) (advance : ℕ) : Writer PrintBuffer :=
  Writer.seq (ensure hooks needed) fun p => do
    let buffer ← writeAt p.buffer p.offset bytes
    return some { p with buffer := buffer, offset := p.offset + advance }

/-- `update_offset`. -/
def updateOffset : Writer PrintBuffer := fun p => do
  let n ← strlen (p.buffer.drop p.offset)
  return some { p with offset := p.offset + n }

/-- `depth++`. -/
def depthUp : Writer PrintBuffer := fun p => .ok (some { p with depth := p.depth + 1 })

/-- `depth--`. -/
def depthDown : Writer PrintBuffer := fun p => .ok (some { p with depth := p.depth - 1 })

/-! ### Strings -/

/-- The characters that `print_string_ptr` escapes by one character. -/
def printEscapes : List (UInt8 × UInt8) :=
  [(92, 92), (34, 34), (8, 98), (12, 102), (10, 110), (13, 114), (9, 116)]

/-- What a character adds to `escape_characters`. -/
def escapeCost (c : UInt8) : ℕ :=
  if (printEscapes.lookup c).isSome then 1
  else if c < 32 then 5
  else 0

/-- A digit of `%04x`. -/
def hexChar (d : ℕ) : UInt8 :=
  UInt8.ofNat (if d < 10 then 48 + d else 87 + d)

/-- `u%04x`. -/
def unicodeEscape (c : UInt8) : List UInt8 :=
  [117, 48, 48, hexChar (c.toNat / 16), hexChar (c.toNat % 16)]

/-- The loop of `print_string_ptr` that copies the string. -/
def escapeLoop : List UInt8 → (outputPointer : ℕ) → List UInt8 → Except Fault (List UInt8)
  | [], _, buffer => .ok buffer
  | c :: input, outputPointer, buffer =>
    if 31 < c ∧ c ≠ 34 ∧ c ≠ 92 then do
      let buffer ← writeAt buffer outputPointer [c]
      escapeLoop input (outputPointer + 1) buffer
    else do
      let buffer ← writeAt buffer outputPointer [92]
      match printEscapes.lookup c with
      | some e => do
        let buffer ← writeAt buffer (outputPointer + 1) [e]
        escapeLoop input (outputPointer + 2) buffer
      | none => do
        -- `sprintf` writes a terminator, too
        let buffer ← writeAt buffer (outputPointer + 1) (unicodeEscape c ++ [0])
        escapeLoop input (outputPointer + 6) buffer

/-- The string between the quotes, which is copied as a whole if no character is escaped. -/
def copyString (input : List UInt8) (escapeCharacters outputPointer : ℕ) (buffer : List UInt8) :
    Except Fault (List UInt8) :=
  if escapeCharacters = 0 then writeAt buffer outputPointer input
  else escapeLoop input outputPointer buffer

/-- What `print_string_ptr` writes behind `ensure`. -/
def writeString (input : List UInt8) (escapeCharacters : ℕ) (p : PrintBuffer) :
    Except Fault (Option PrintBuffer) := do
  let outputLength := input.length + escapeCharacters
  let buffer ← writeAt p.buffer p.offset [34]
  let buffer ← copyString input escapeCharacters (p.offset + 1) buffer
  let buffer ← writeAt buffer (p.offset + (outputLength + 1)) [34]
  let buffer ← writeAt buffer (p.offset + (outputLength + 2)) [0]
  return some { p with buffer := buffer }

/-- `print_string_ptr`. -/
def printStringPtr (input : Option CText) : Writer PrintBuffer :=
  match input with
  | none => put hooks 3 [34, 34, 0] 0
  | some input =>
    let escapeCharacters := (input.1.map escapeCost).sum
    Writer.seq (ensure hooks (input.1.length + escapeCharacters + 3))
      (writeString input.1 escapeCharacters)

/-! ### Numbers -/

/-- `sprintf` to `number_buffer`. -/
def sprintfNumber (text : List UInt8) : Except Fault (List UInt8) := do
  let _ ← writeAt (List.replicate 26 0) 0 (text ++ [0])
  return text

variable {D : Type} (dbl : Doubles D)

/-- Whether `sscanf` gives the number back. -/
def recovers (d : D) (text : List UInt8) : Bool :=
  match dbl.sscanf text with
  | some test => dbl.compareDouble test d
  | none => false

/-- What `print_number` has in `number_buffer`. -/
def numberBuffer (d : D) (valueint : Int32) : Except Fault (List UInt8) :=
  if dbl.notFinite d then sprintfNumber (textBytes "null")
  else if dbl.eq d (dbl.ofInt valueint) then sprintfNumber (decimalInt valueint.toInt)
  else do
    let text ← sprintfNumber (dbl.sprintf 15 d)
    if recovers dbl d text then return text else sprintfNumber (dbl.sprintf 17 d)

/-- `print_number`. -/
def printNumber (d : D) (valueint : Int32) : Writer PrintBuffer := fun p => do
  let text ← numberBuffer dbl d valueint
  if 26 - 1 < text.length then return none
  else put hooks (text.length + 1) (text ++ [0]) text.length p

/-! ### Values -/

/-- The comma between two elements of an array. -/
def putComma : Writer PrintBuffer := fun p =>
  if p.format then put hooks 3 [44, 32, 0] 2 p else put hooks 2 [44, 0] 1 p

/-- The first bracket of an object. -/
def putOpen : Writer PrintBuffer := fun p =>
  if p.format then put hooks 3 [123, 10] 2 p else put hooks 2 [123] 1 p

/-- The tabs in front of a member. -/
def putTabs : Writer PrintBuffer := fun p =>
  if p.format then put hooks p.depth (List.replicate p.depth 9) p.depth p else .ok (some p)

/-- The colon between a name and its value. -/
def putColon : Writer PrintBuffer := fun p =>
  if p.format then put hooks 2 [58, 9] 2 p else put hooks 1 [58] 1 p

/-- The end of a member; `more` says whether there is another one. -/
def putEnd (more : Bool) : Writer PrintBuffer := fun p =>
  let bytes := (if more then [44] else []) ++ if p.format then [10] else []
  put hooks (bytes.length + 1) (bytes ++ [0]) bytes.length p

/-- The last bracket of an object. -/
def putClose : Writer PrintBuffer := fun p =>
  if p.format then put hooks (p.depth + 1) (List.replicate (p.depth - 1) 9 ++ [125, 0]) 0 p
  else put hooks 2 [125, 0] 0 p

/-- Whether `next` is not `NULL`. -/
def JsonChain.isCons : JsonChain D → Bool
  | .nil => false
  | .cons _ _ _ => true

mutual

/-- `print_value`, with `print_array` and `print_object`. -/
def printValue : JsonItem D → Writer PrintBuffer
  | .invalid => fun _ => .ok none
  | .null => put hooks 5 (textBytes "null" ++ [0]) 0
  | .bool false => put hooks 6 (textBytes "false" ++ [0]) 0
  | .bool true => put hooks 5 (textBytes "true" ++ [0]) 0
  | .number valuedouble valueint => printNumber hooks dbl valuedouble valueint
  | .raw none => fun _ => .ok none
  | .raw (some valuestring) =>
    put hooks (valuestring.1.length + 1) (valuestring.1 ++ [0]) 0
  | .string valuestring => printStringPtr hooks valuestring
  | .array child =>
    (put hooks 1 [91] 1).seq <| depthUp.seq <| (printArrayItems child).seq <|
      (put hooks 2 [93, 0] 0).seq depthDown
  | .object child =>
    (putOpen hooks).seq <| depthUp.seq <| (printObjectItems child).seq <|
      (putClose hooks).seq depthDown

/-- The loop of `print_array`. -/
def printArrayItems : JsonChain D → Writer PrintBuffer
  | .nil => .skip
  | .cons _ item next =>
    ((printValue item).seq updateOffset).seq <|
      (if next.isCons then putComma hooks else .skip).seq (printArrayItems next)

/-- The loop of `print_object`. -/
def printObjectItems : JsonChain D → Writer PrintBuffer
  | .nil => .skip
  | .cons string item next =>
    (putTabs hooks).seq <| ((printStringPtr hooks string).seq updateOffset).seq <|
      (putColon hooks).seq <| ((printValue item).seq updateOffset).seq <|
        (putEnd hooks next.isCons).seq (printObjectItems next)

end

/-! ### Printing -/

/-- The end of `print`: the text in a block of its own. -/
def endPrint (p : PrintBuffer) : Except Fault (Option (List UInt8)) :=
  match hooks.fresh p.calls (p.offset + 1) with
  | none => .ok none
  | some printed =>
    if hooks.reallocate then
      .ok (some (p.buffer.take (p.offset + 1) ++ printed.drop p.buffer.length))
    else do
      let text ← readAt p.buffer 0 (min p.length (p.offset + 1))
      let printed ← writeAt printed 0 text
      let printed ← writeAt printed p.offset [0]
      return some printed

/-- `print`. -/
def cjsonPrint (format : Bool) (item : JsonItem D) : Except Fault (Option (List UInt8)) :=
  match hooks.fresh 0 256 with
  | none => .ok none
  | some buffer => do
    let r ← (printValue hooks dbl item).seq updateOffset ⟨buffer, 256, 0, 0, false, format, 1⟩
    match r with
    | none => return none
    | some p => endPrint hooks p

/-- `cJSON_PrintPreallocated`: the buffer, unless the result is `false`. -/
def cjsonPrintPreallocated (item : JsonItem D) (buffer : List UInt8) (length : ℕ) (format : Bool) :
    Except Fault (Option (List UInt8)) := do
  let r ← printValue hooks dbl item ⟨buffer, length, 0, 0, true, format, 0⟩
  return r.map PrintBuffer.buffer

end Printer

/-! ### The text of an item -/

/-- The bytes for a character of a string. -/
def escapeByte (c : UInt8) : List UInt8 :=
  if 31 < c ∧ c ≠ 34 ∧ c ≠ 92 then [c]
  else
    match printEscapes.lookup c with
    | some e => [92, e]
    | none => 92 :: unicodeEscape c

/-- A string in quotes; the one that is `NULL` is empty. -/
def quoted : Option CText → List UInt8
  | none => [34, 34]
  | some text => 34 :: (text.1.flatMap escapeByte ++ [34])

section Text

variable {D : Type} (dbl : Doubles D)

/-- The text of a number. -/
def numberText (d : D) (valueint : Int32) : List UInt8 :=
  if dbl.notFinite d then textBytes "null"
  else if dbl.eq d (dbl.ofInt valueint) then decimalInt valueint.toInt
  else if recovers dbl d (dbl.sprintf 15 d) then dbl.sprintf 15 d
  else dbl.sprintf 17 d

/-- What stands only in a formatted text. -/
def onlyIf (format : Bool) (text : List UInt8) : List UInt8 :=
  if format then text else []

mutual

/-- The text of an item at a depth, if it can be printed. -/
def jsonText (format : Bool) (depth : ℕ) : JsonItem D → Option (List UInt8)
  | .invalid => none
  | .null => some (textBytes "null")
  | .bool false => some (textBytes "false")
  | .bool true => some (textBytes "true")
  | .number valuedouble valueint => some (numberText dbl valuedouble valueint)
  | .raw valuestring => valuestring.map Subtype.val
  | .string valuestring => some (quoted valuestring)
  | .array child =>
    (elementsText format (depth + 1) child).map fun text => 91 :: (text ++ [93])
  | .object child =>
    (membersText format (depth + 1) child).map fun text =>
      123 :: (onlyIf format [10] ++ text ++ onlyIf format (List.replicate depth 9) ++ [125])

/-- The text between the brackets of an array. -/
def elementsText (format : Bool) (depth : ℕ) : JsonChain D → Option (List UInt8)
  | .nil => some []
  | .cons _ item next =>
    Option.map₂ (fun text rest =>
        text ++ ((if next.isCons then 44 :: onlyIf format [32] else []) ++ rest))
      (jsonText format depth item) (elementsText format depth next)

/-- The text between the brackets of an object. -/
def membersText (format : Bool) (depth : ℕ) : JsonChain D → Option (List UInt8)
  | .nil => some []
  | .cons string item next =>
    Option.map₂ (fun text rest =>
        onlyIf format (List.replicate depth 9) ++ (quoted string ++
          (58 :: onlyIf format [9] ++ (text ++
            ((if next.isCons then [44] else []) ++ onlyIf format [10] ++ rest)))))
      (jsonText format depth item) (membersText format depth next)

end

end Text

/-! ### Room -/

/-- A buffer in which the printer can go on. -/
structure PrintBuffer.Good (p : PrintBuffer) : Prop where
  offset_lt : p.offset < p.length
  length_le : p.length ≤ p.buffer.length
  length_le_max : p.length ≤ intMax

/-- How much the output can hold. -/
def PrintBuffer.capacity (p : PrintBuffer) : ℕ :=
  if p.noalloc then p.length else intMax

/-- No allocation fails. -/
def PrintHooks.Total (hooks : PrintHooks) : Prop :=
  ∀ call size, (hooks.fresh call size).isSome

lemma PrintHooks.Total.fresh_ne_none {hooks : PrintHooks} (h : hooks.Total) (call size : ℕ) :
    hooks.fresh call size ≠ none :=
  Option.isSome_iff_ne_none.mp (h call size)

/-- What `ensure` leaves of a buffer. -/
structure Ensured (p : PrintBuffer) (needed : ℕ) (p' : PrintBuffer) : Prop where
  good : p'.Good
  offset_eq : p'.offset = p.offset
  depth_eq : p'.depth = p.depth
  format_eq : p'.format = p.format
  noalloc_eq : p'.noalloc = p.noalloc
  capacity_eq : p'.capacity = p.capacity
  kept : p'.buffer.take p.offset = p.buffer.take p.offset
  room : p.offset + needed + 1 ≤ p'.length

section Room

variable (hooks : PrintHooks) {p : PrintBuffer}

/-- A larger buffer begins like the old one. -/
lemma grow_ok (hp : p.Good) {needed newsize : ℕ} (halloc : p.noalloc = false)
    (hroom : p.offset + needed + 1 ≤ newsize) (hmax : newsize ≤ intMax) :
    ∃ r, grow hooks p newsize = .ok r ∧ (∀ p', r = some p' → Ensured p needed p') ∧
      (hooks.Total → r ≠ none) := by
  have hlt := hp.offset_lt
  have hle := hp.length_le
  cases hfresh : hooks.fresh p.calls newsize with
  | none =>
    exact ⟨none, by rw [grow, hfresh], nofun,
      fun htotal => absurd hfresh (htotal.fresh_ne_none _ _)⟩
  | some block =>
    have hblock := hooks.length_fresh hfresh
    have hcapacity {buffer : List UInt8} {length calls : ℕ} :
        ({ p with buffer := buffer, length := length, calls := calls } : PrintBuffer).capacity =
          p.capacity := by
      simp [PrintBuffer.capacity, halloc]
    by_cases hrealloc : hooks.reallocate = true
    · refine ⟨some { p with
          buffer := p.buffer.take newsize ++ block.drop p.buffer.length
          length := newsize
          calls := p.calls + 1 },
        by simp only [grow, hfresh, if_pos hrealloc], ?_, fun _ => Option.some_ne_none _⟩
      rintro p' ⟨⟩
      have hinside : p.offset < newsize := by omega
      refine ⟨⟨hinside, ?_, hmax⟩, rfl, rfl, rfl, rfl, hcapacity, ?_, hroom⟩
      · change newsize ≤ (p.buffer.take newsize ++ block.drop p.buffer.length).length
        rw [List.length_append, List.length_take, List.length_drop]
        omega
      · change (p.buffer.take newsize ++ block.drop p.buffer.length).take p.offset = _
        rw [List.take_append_of_le_length (by rw [List.length_take]; omega), List.take_take,
          Nat.min_eq_left (by omega)]
    · have hread : readAt p.buffer 0 (p.offset + 1) = .ok (p.buffer.take (p.offset + 1)) := by
        rw [readAt_of_le (by omega), slice, List.drop_zero]
      have hkept : (p.buffer.take (p.offset + 1)).length = p.offset + 1 :=
        List.length_take_of_le (by omega)
      have hwrite : writeAt block 0 (p.buffer.take (p.offset + 1)) =
          .ok (splice block 0 (p.buffer.take (p.offset + 1))) := writeAt_of_le (by omega)
      refine ⟨some { p with
          buffer := splice block 0 (p.buffer.take (p.offset + 1))
          length := newsize
          calls := p.calls + 1 },
        by simp only [grow, hfresh, if_neg hrealloc, hread, hwrite, ok_bind]; rfl, ?_,
        fun _ => Option.some_ne_none _⟩
      rintro p' ⟨⟩
      have hinside : p.offset < newsize := by omega
      refine ⟨⟨hinside, ?_, hmax⟩, rfl, rfl, rfl, rfl, hcapacity, ?_, hroom⟩
      · change newsize ≤ (splice block 0 (p.buffer.take (p.offset + 1))).length
        rw [length_splice (by omega), hblock]
      · change (splice block 0 (p.buffer.take (p.offset + 1))).take p.offset = _
        rw [splice, List.take_zero, List.nil_append, List.take_append_of_le_length (by omega),
          List.take_take, Nat.min_eq_left (by omega)]

/-- `ensure` makes room, unless there is too little memory. -/
lemma ensure_ok (hp : p.Good) (needed : ℕ) :
    ∃ r, ensure hooks needed p = .ok r ∧ (∀ p', r = some p' → Ensured p needed p') ∧
      (p.noalloc = true ∨ hooks.Total → r = none → p.capacity < p.offset + needed + 1) := by
  have hlt := hp.offset_lt
  have hmax := hp.length_le_max
  have hinside : ¬ (0 < p.length ∧ p.length ≤ p.offset) := by omega
  rw [ensure, if_neg hinside]
  by_cases hhuge : intMax < needed
  · refine ⟨none, if_pos hhuge, nofun, fun _ _ => ?_⟩
    rw [PrintBuffer.capacity]
    split_ifs <;> omega
  rw [if_neg hhuge]
  by_cases hfits : needed + p.offset + 1 ≤ p.length
  · refine ⟨some p, if_pos hfits, ?_, fun _ hnone => nomatch hnone⟩
    rintro p' ⟨⟩
    exact ⟨hp, rfl, rfl, rfl, rfl, rfl, rfl, by omega⟩
  rw [if_neg hfits]
  by_cases halloc : p.noalloc = true
  · refine ⟨none, if_pos halloc, nofun, fun _ _ => ?_⟩
    rw [PrintBuffer.capacity, if_pos halloc]
    omega
  rw [if_neg halloc]
  have hcapacity : p.capacity = intMax := if_neg halloc
  rw [Bool.not_eq_true] at halloc
  by_cases hhalf : intMax / 2 < needed + p.offset + 1
  · rw [if_pos hhalf]
    by_cases hall : needed + p.offset + 1 ≤ intMax
    · obtain ⟨r, hr, hsome, htotal⟩ :=
        grow_ok hooks hp halloc (show p.offset + needed + 1 ≤ intMax by omega) le_rfl
      refine ⟨r, by rw [if_pos hall, hr], hsome, ?_⟩
      rintro (hno | hsure) hnone
      · rw [halloc] at hno
        cases hno
      · exact absurd hnone (htotal hsure)
    · exact ⟨none, if_neg hall, nofun, fun _ _ => by omega⟩
  · rw [if_neg hhalf]
    obtain ⟨r, hr, hsome, htotal⟩ := grow_ok hooks hp halloc
      (show p.offset + needed + 1 ≤ (needed + p.offset + 1) * 2 by omega) (by omega)
    refine ⟨r, hr, hsome, ?_⟩
    rintro (hno | hsure) hnone
    · rw [halloc] at hno
      cases hno
    · exact absurd hnone (htotal hsure)

end Room

/-! ### Pieces of text -/

/-- The printer stands somewhere in the output. -/
structure PrintBuffer.At (noalloc format : Bool) (depth : ℕ) (p : PrintBuffer) : Prop where
  good : p.Good
  noalloc_eq : p.noalloc = noalloc
  format_eq : p.format = format
  depth_eq : p.depth = depth

/-- The printer stands behind a value, at its terminator. -/
structure PrintBuffer.AtEnd (noalloc format : Bool) (depth : ℕ) (p : PrintBuffer) : Prop
    extends p.At noalloc format depth where
  terminated : p.buffer[p.offset]? = some 0
  room : p.offset + 2 ≤ p.length

/-- The output of the printer: a piece of text asks for at most one byte more than it needs with a
terminator. -/
def printOutput : Output PrintBuffer UInt8 where
  written p := p.buffer.take p.offset
  capacity := PrintBuffer.capacity
  margin := 2

section Pieces

variable {hooks : PrintHooks} {noalloc format : Bool} {depth depth' : ℕ}

/-- The writer appends a piece of text to what is there. -/
abbrev Appends (hooks : PrintHooks) (noalloc format : Bool) (depth depth' : ℕ)
    (w : Writer PrintBuffer) (text : Option (List UInt8)) : Prop :=
  Writes printOutput (noalloc = true ∨ hooks.Total) (PrintBuffer.At noalloc format depth)
    (PrintBuffer.At noalloc format depth') w text

/-- The writer appends the text of a value. -/
abbrev AppendsValue (hooks : PrintHooks) (noalloc format : Bool) (depth depth' : ℕ)
    (w : Writer PrintBuffer) (text : Option (List UInt8)) : Prop :=
  Writes printOutput (noalloc = true ∨ hooks.Total) (PrintBuffer.At noalloc format depth)
    (PrintBuffer.AtEnd noalloc format depth') (w.seq updateOffset) text

/-- The numbers of a piece of text: nothing is written outside the room that is asked for, which is
not much more than is needed. -/
structure FitsPut (needed : ℕ) (bytes : List UInt8) (advance : ℕ) : Prop where
  advance_le : advance ≤ bytes.length
  length_le : bytes.length ≤ needed + 1
  needed_le : needed ≤ advance + 1
  advance_le_needed : advance ≤ needed

instance (needed : ℕ) (bytes : List UInt8) (advance : ℕ) :
    Decidable (FitsPut needed bytes advance) :=
  decidable_of_iff (advance ≤ bytes.length ∧ bytes.length ≤ needed + 1 ∧ needed ≤ advance + 1 ∧
      advance ≤ needed)
    ⟨fun h => ⟨h.1, h.2.1, h.2.2.1, h.2.2.2⟩, fun h => ⟨h.1, h.2, h.3, h.4⟩⟩

lemma PrintBuffer.Good.length_written {p : PrintBuffer} (hp : p.Good) :
    (printOutput.written p).length = p.offset :=
  List.length_take_of_le (Nat.le_of_lt (Nat.lt_of_lt_of_le hp.offset_lt hp.length_le))

/-- Some bytes at the pointer. -/
lemma write_at_offset {p p' : PrintBuffer} {needed : ℕ} (h : Ensured p needed p')
    {bytes : List UInt8} (hlen : bytes.length ≤ needed + 1) :
    ∃ buffer rest, writeAt p'.buffer p'.offset bytes = .ok buffer ∧
      buffer = p.buffer.take p.offset ++ (bytes ++ rest) ∧
      buffer.length = p'.buffer.length := by
  have hle : p'.offset + bytes.length ≤ p'.buffer.length := by
    have := h.room
    have := h.good.length_le
    have := h.offset_eq
    omega
  refine ⟨_, p'.buffer.drop (p.offset + bytes.length), writeAt_of_le hle, ?_, length_splice hle⟩
  rw [splice, h.offset_eq, h.kept, List.append_assoc]

/-- A piece that is written with its length known. -/
lemma put_writes {needed advance : ℕ} {bytes : List UInt8} (h : FitsPut needed bytes advance) :
    Appends hooks noalloc format depth depth (put hooks needed bytes advance)
      (some (bytes.take advance)) := by
  obtain ⟨hadvance, hbytes, hneeded, hle⟩ := h
  intro p hp
  obtain ⟨r, hr, hsome, hnone⟩ := ensure_ok hooks hp.good needed
  have hwritten := hp.good.length_written
  cases r with
  | none =>
    refine ⟨none, Writer.seq_of_none hr _, nofun, ?_⟩
    rintro hsure - t ⟨⟩
    have := hnone (hp.noalloc_eq ▸ hsure) rfl
    change p.capacity < _ + _ + 2
    rw [hwritten, List.length_take_of_le hadvance]
    omega
  | some p₁ =>
    have hensured := hsome p₁ rfl
    obtain ⟨buffer, rest, hwrite, hbuffer, hlength⟩ := write_at_offset hensured hbytes
    refine ⟨some { p₁ with buffer := buffer, offset := p₁.offset + advance }, ?_, ?_,
      fun _ hnone => nomatch hnone⟩
    · rw [put, Writer.seq_of_some hr]
      simp only [hwrite, ok_bind]
      rfl
    · rintro p' ⟨⟩
      have hroom := hensured.room
      have hoffset := hensured.offset_eq
      refine ⟨⟨⟨show p₁.offset + advance < p₁.length by omega, ?_, hensured.good.length_le_max⟩,
        hensured.noalloc_eq.trans hp.noalloc_eq, hensured.format_eq.trans hp.format_eq,
        hensured.depth_eq.trans hp.depth_eq⟩, hensured.capacity_eq, bytes.take advance, rfl, ?_⟩
      · change p₁.length ≤ buffer.length
        rw [hlength]
        exact hensured.good.length_le
      · change buffer.take (p₁.offset + advance) = p.buffer.take p.offset ++ bytes.take advance
        have hfront : (p.buffer.take p.offset).length = p.offset := hwritten
        rw [hbuffer, hoffset, List.take_append, hfront, Nat.add_sub_cancel_left,
          List.take_of_length_le (by omega), List.take_append_of_le_length hadvance]

/-- What a value may leave for `update_offset`: its text with a terminator, with the offset in front
of it or behind it. -/
structure Left (p : PrintBuffer) (text : List UInt8) (p' : PrintBuffer) : Prop where
  buffer_eq : ∃ rest, p'.buffer = p.buffer.take p.offset ++ (text ++ 0 :: rest)
  offset_eq : p'.offset = p.offset ∨ p'.offset = p.offset + text.length
  length_le : p'.length ≤ p'.buffer.length
  length_le_max : p'.length ≤ intMax
  room : p.offset + text.length + 2 ≤ p'.length
  capacity_eq : p'.capacity = p.capacity

/-- The text that a value has left is found by its terminator. -/
lemma updateOffset_of_left {p p' : PrintBuffer} {text : List UInt8} (hp : p.Good)
    (h : Left p text p') (htext : NoNul text) :
    updateOffset p' = .ok (some { p' with offset := p.offset + text.length }) := by
  obtain ⟨rest, hbuffer⟩ := h.buffer_eq
  have hfront : (p.buffer.take p.offset).length = p.offset := hp.length_written
  rw [updateOffset]
  rcases h.offset_eq with hoffset | hoffset
  · have hdrop : p'.buffer.drop p'.offset = text ++ 0 :: rest := by
      rw [hbuffer, hoffset, List.drop_append, hfront, Nat.sub_self, List.drop_zero,
        List.drop_of_length_le hfront.le, List.nil_append]
    rw [hdrop, strlen_text htext, ok_bind, hoffset]
    rfl
  · have hdrop : p'.buffer.drop p'.offset = [] ++ 0 :: rest := by
      rw [hbuffer, hoffset, ← List.append_assoc, List.drop_append, List.length_append, hfront,
        Nat.sub_self, List.drop_zero,
        List.drop_of_length_le (by rw [List.length_append, hfront])]
    rw [hdrop, strlen_text (fun c hc => absurd hc List.not_mem_nil), ok_bind, hoffset]
    rfl

/-- A value with `update_offset`. -/
lemma writes_of_left {w : Writer PrintBuffer} {text : List UInt8} (htext : NoNul text)
    (h : ∀ p : PrintBuffer, p.At noalloc format depth → ∃ r, w p = .ok r ∧
      (∀ p', r = some p' → Left p text p' ∧ p'.noalloc = noalloc ∧ p'.format = format ∧
        p'.depth = depth') ∧
      (noalloc = true ∨ hooks.Total → r = none → p.capacity < p.offset + text.length + 2)) :
    AppendsValue hooks noalloc format depth depth' w (some text) := by
  intro p hp
  obtain ⟨r, hr, hsome, hnone⟩ := h p hp
  have hwritten := hp.good.length_written
  cases r with
  | none =>
    refine ⟨none, Writer.seq_of_none hr _, nofun, ?_⟩
    rintro hsure - t ⟨⟩
    change p.capacity < _ + _ + 2
    rw [hwritten]
    exact hnone hsure rfl
  | some p₁ =>
    obtain ⟨hleft, hnoalloc, hformat, hdepth⟩ := hsome p₁ rfl
    refine ⟨_, (Writer.seq_of_some hr _).trans (updateOffset_of_left hp.good hleft htext), ?_,
      fun _ hnone => nomatch hnone⟩
    rintro p' ⟨⟩
    obtain ⟨rest, hbuffer⟩ := hleft.buffer_eq
    have hroom := hleft.room
    have hfront : (p.buffer.take p.offset).length = p.offset := hwritten
    have hsplit : p₁.buffer = (p.buffer.take p.offset ++ text) ++ 0 :: rest := by
      rw [hbuffer, List.append_assoc]
    have hlength : (p.buffer.take p.offset ++ text).length = p.offset + text.length := by
      rw [List.length_append, hfront]
    refine ⟨⟨⟨⟨show p.offset + text.length < p₁.length by omega, hleft.length_le,
      hleft.length_le_max⟩, hnoalloc, hformat, hdepth⟩, ?_, hroom⟩, hleft.capacity_eq, text, rfl,
      ?_⟩
    · change p₁.buffer[p.offset + text.length]? = some 0
      rw [hsplit, ← hlength, List.getElem?_append_right le_rfl, Nat.sub_self]
      rfl
    · change p₁.buffer.take (p.offset + text.length) = p.buffer.take p.offset ++ text
      rw [hsplit, ← hlength, List.take_left]

/-- A text with its terminator. -/
lemma put_left {text : List UInt8} {advance : ℕ} (hadvance : advance = 0 ∨ advance = text.length)
    {p : PrintBuffer} (hp : p.At noalloc format depth) :
    ∃ r, put hooks (text.length + 1) (text ++ [0]) advance p = .ok r ∧
      (∀ p', r = some p' → Left p text p' ∧ p'.noalloc = noalloc ∧ p'.format = format ∧
        p'.depth = depth) ∧
      (noalloc = true ∨ hooks.Total → r = none → p.capacity < p.offset + text.length + 2) := by
  obtain ⟨r, hr, hsome, hnone⟩ := ensure_ok hooks hp.good (text.length + 1)
  cases r with
  | none => exact ⟨none, Writer.seq_of_none hr _, nofun, fun hsure => hnone (hp.noalloc_eq ▸ hsure)⟩
  | some p₁ =>
    have hensured := hsome p₁ rfl
    have hroom := hensured.room
    have hoffset := hensured.offset_eq
    obtain ⟨buffer, rest, hwrite, hbuffer, hlength⟩ :=
      write_at_offset hensured (show (text ++ [0]).length ≤ text.length + 1 + 1 by simp)
    refine ⟨some { p₁ with buffer := buffer, offset := p₁.offset + advance }, ?_, ?_,
      fun _ hnone => nomatch hnone⟩
    · rw [put, Writer.seq_of_some hr]
      simp only [hwrite, ok_bind]
      rfl
    · rintro p' ⟨⟩
      refine ⟨⟨⟨rest, ?_⟩, ?_, ?_, hensured.good.length_le_max, ?_, hensured.capacity_eq⟩,
        hensured.noalloc_eq.trans hp.noalloc_eq, hensured.format_eq.trans hp.format_eq,
        hensured.depth_eq.trans hp.depth_eq⟩
      · change buffer = _
        rw [hbuffer, List.append_assoc]
        rfl
      · change p₁.offset + advance = p.offset ∨ p₁.offset + advance = p.offset + text.length
        omega
      · change p₁.length ≤ buffer.length
        rw [hlength]
        exact hensured.good.length_le
      · change p.offset + text.length + 2 ≤ p₁.length
        omega

/-- A text with its terminator is a value. -/
lemma put_text_writes {text : List UInt8} {advance : ℕ} (htext : NoNul text)
    (hadvance : advance = 0 ∨ advance = text.length) :
    AppendsValue hooks noalloc format depth depth
      (put hooks (text.length + 1) (text ++ [0]) advance) (some text) :=
  writes_of_left htext fun _ hp => put_left hadvance hp

end Pieces

/-! ### Strings -/

lemma length_escapeByte : ∀ c : UInt8, (escapeByte c).length = 1 + escapeCost c := by
  decide +kernel

lemma escapeByte_of_cost : ∀ c : UInt8, escapeCost c = 0 → escapeByte c = [c] := by
  decide +kernel

lemma noNul_escapeByte : ∀ c : UInt8, c ≠ 0 → NoNul (escapeByte c) := by
  decide +kernel

/-- The number of the bytes for a string. -/
lemma length_flatMap_escapeByte (input : List UInt8) :
    (input.flatMap escapeByte).length = input.length + (input.map escapeCost).sum := by
  induction input with
  | nil => rfl
  | cons c input ih =>
    rw [List.flatMap_cons, List.length_append, ih, length_escapeByte, List.map_cons, List.sum_cons,
      List.length_cons]
    omega

/-- A string without escapes. -/
lemma flatMap_escapeByte_of_cost {input : List UInt8} (h : (input.map escapeCost).sum = 0) :
    input.flatMap escapeByte = input := by
  induction input with
  | nil => rfl
  | cons c input ih =>
    rw [List.map_cons, List.sum_cons] at h
    rw [List.flatMap_cons, escapeByte_of_cost c (by omega), ih (by omega)]
    rfl

lemma noNul_quoted (input : Option CText) : NoNul (quoted input) := by
  cases input with
  | none => decide
  | some text =>
    have hescaped : NoNul (text.1.flatMap escapeByte) := by
      intro c hc
      obtain ⟨d, hd, hcd⟩ := List.mem_flatMap.mp hc
      exact noNul_escapeByte d (text.2 d hd) c hcd
    exact NoNul.append (show NoNul [34] by decide) (hescaped.append (show NoNul [34] by decide))

/-- The bytes for a character are written; the terminator of `sprintf` falls on the next one. -/
lemma escapeLoop_cons (c : UInt8) (input pre rest : List UInt8)
    (h : (escapeByte c).length < rest.length) :
    ∃ rest', escapeLoop (c :: input) pre.length (pre ++ rest) =
        escapeLoop input (pre ++ escapeByte c).length (pre ++ escapeByte c ++ rest') ∧
      rest'.length + (escapeByte c).length = rest.length ∧
      rest'.drop 1 = rest.drop ((escapeByte c).length + 1) := by
  rw [escapeLoop]
  by_cases hplain : 31 < c ∧ c ≠ 34 ∧ c ≠ 92
  · have hbyte : escapeByte c = [c] := if_pos hplain
    rw [hbyte] at h ⊢
    obtain ⟨a, rest, rfl⟩ := List.exists_cons_of_length_pos (Nat.lt_of_succ_lt h)
    have hwrite : writeAt (pre ++ a :: rest) pre.length [c] = .ok (pre ++ [c] ++ rest) := by
      rw [writeAt_cell rfl rfl, List.append_assoc]
      rfl
    refine ⟨rest, ?_, rfl, rfl⟩
    rw [if_pos hplain, hwrite, ok_bind, List.length_append]
    rfl
  rw [if_neg hplain]
  obtain ⟨a, rest, rfl⟩ := List.exists_cons_of_length_pos (Nat.zero_lt_of_lt h)
  have hslash : writeAt (pre ++ a :: rest) pre.length [92] = .ok (pre ++ [92] ++ rest) := by
    rw [writeAt_cell rfl rfl, List.append_assoc]
    rfl
  have hnext : (pre ++ [92]).length = pre.length + 1 := List.length_append
  rw [hslash, ok_bind]
  cases hlookup : printEscapes.lookup c with
  | some e =>
    have hbyte : escapeByte c = [92, e] := by rw [escapeByte, if_neg hplain, hlookup]
    rw [hbyte] at h ⊢
    obtain ⟨b, rest, rfl⟩ :=
      List.exists_cons_of_length_pos (Nat.lt_of_succ_lt (Nat.lt_of_succ_lt_succ h))
    have hwrite : writeAt (pre ++ [92] ++ b :: rest) (pre.length + 1) [e] =
        .ok (pre ++ [92, e] ++ rest) := by
      rw [writeAt_cell rfl hnext.symm, List.append_assoc, List.append_assoc]
      rfl
    refine ⟨rest, ?_, rfl, rfl⟩
    simp only [hwrite, ok_bind, List.length_append]
    rfl
  | none =>
    have hbyte : escapeByte c = 92 :: unicodeEscape c := by rw [escapeByte, if_neg hplain, hlookup]
    rw [hbyte] at h ⊢
    have hlen : 6 ≤ rest.length := Nat.le_of_lt_succ h
    have hpart : rest = rest.take 6 ++ rest.drop 6 := (List.take_append_drop 6 rest).symm
    have hwrite : writeAt (pre ++ [92] ++ rest) (pre.length + 1) (unicodeEscape c ++ [0]) =
        .ok (pre ++ 92 :: unicodeEscape c ++ 0 :: rest.drop 6) := by
      rw [writeAt_part (congrArg (pre ++ [92] ++ ·) hpart) hnext.symm
        ((List.length_take_of_le hlen).trans rfl)]
      simp
    refine ⟨0 :: rest.drop 6, ?_, ?_, ?_⟩
    · simp only [hwrite, ok_bind, List.length_append]
      rfl
    · rw [List.length_cons, List.length_drop]
      change rest.length - 6 + 1 + 6 = rest.length + 1
      omega
    · rfl

/-- The string is written, and at most one byte behind it is touched. -/
lemma escapeLoop_ok (input pre rest : List UInt8)
    (h : (input.flatMap escapeByte).length < rest.length) :
    ∃ rest', escapeLoop input pre.length (pre ++ rest) =
        .ok (pre ++ input.flatMap escapeByte ++ rest') ∧
      rest'.length + (input.flatMap escapeByte).length = rest.length ∧
      rest'.drop 1 = rest.drop ((input.flatMap escapeByte).length + 1) := by
  induction input generalizing pre rest with
  | nil => exact ⟨rest, by simp [escapeLoop], by simp, by simp⟩
  | cons c input ih =>
    rw [List.flatMap_cons, List.length_append] at h ⊢
    obtain ⟨rest₁, hstep, hlen, hdrop⟩ := escapeLoop_cons c input pre rest (by omega)
    obtain ⟨rest₂, hloop, hlen', hdrop'⟩ := ih (pre ++ escapeByte c) rest₁ (by omega)
    refine ⟨rest₂, ?_, by omega, ?_⟩
    · rw [hstep, hloop, List.append_assoc pre]
    · rw [hdrop', Nat.add_comm _ 1, ← List.drop_drop, hdrop, List.drop_drop]
      congr 1
      omega

/-- The string is copied, with escapes or without. -/
lemma copyString_ok (input pre rest : List UInt8)
    (h : (input.flatMap escapeByte).length < rest.length) :
    ∃ rest', copyString input (input.map escapeCost).sum pre.length (pre ++ rest) =
        .ok (pre ++ input.flatMap escapeByte ++ rest') ∧
      rest'.length + (input.flatMap escapeByte).length = rest.length := by
  rw [copyString]
  by_cases hcost : (input.map escapeCost).sum = 0
  · rw [flatMap_escapeByte_of_cost hcost] at h ⊢
    have hle := Nat.le_of_lt h
    refine ⟨rest.drop input.length, ?_, by rw [List.length_drop]; omega⟩
    have hsplit := (List.take_append_drop input.length rest).symm
    rw [if_pos hcost, writeAt_part (congrArg (pre ++ ·) hsplit)
      rfl (List.length_take_of_le hle), List.append_assoc]
  · obtain ⟨rest', hloop, hlen, -⟩ := escapeLoop_ok input pre rest h
    exact ⟨rest', by rw [if_neg hcost, hloop], hlen⟩

/-- A string is written in quotes. -/
lemma writeString_ok {p p₁ : PrintBuffer} (hp : p.Good) (input : CText)
    (h : Ensured p (input.1.length + (input.1.map escapeCost).sum + 3) p₁) :
    ∃ p', writeString input.1 (input.1.map escapeCost).sum p₁ = .ok (some p') ∧
      Left p (quoted (some input)) p' ∧ p'.noalloc = p.noalloc ∧ p'.format = p.format ∧
      p'.depth = p.depth := by
  have hlen := length_flatMap_escapeByte input.1
  have hroom := h.room
  have hfront : (p.buffer.take p.offset).length = p.offset := hp.length_written
  have hsplit : p₁.buffer = p.buffer.take p.offset ++ p₁.buffer.drop p.offset := by
    rw [← h.kept, List.take_append_drop]
  have htail : (p₁.buffer.drop p.offset).length + p.offset = p₁.buffer.length := by
    have := h.good.length_le
    rw [List.length_drop]
    omega
  have hbuffer := h.good.length_le
  generalize hkept : p.buffer.take p.offset = front at *
  generalize p₁.buffer.drop p.offset = tail at *
  generalize hescaped : input.1.flatMap escapeByte = escaped at *
  obtain ⟨a, tail, rfl⟩ := List.exists_cons_of_length_pos (show 0 < tail.length by omega)
  rw [List.length_cons] at htail
  obtain ⟨rest, hcopy, hrest⟩ := copyString_ok input.1 (front ++ [34]) tail
    (by rw [hescaped]; omega)
  rw [hescaped] at hcopy hrest
  obtain ⟨b, rest, rfl⟩ := List.exists_cons_of_length_pos (show 0 < rest.length by omega)
  rw [List.length_cons] at hrest
  obtain ⟨c, rest, rfl⟩ := List.exists_cons_of_length_pos (show 0 < rest.length by omega)
  have hpre : (front ++ [34]).length = p₁.offset + 1 := by
    rw [List.length_append, hfront, h.offset_eq]
    rfl
  have hopen : writeAt p₁.buffer p₁.offset [34] = .ok (front ++ [34] ++ tail) := by
    rw [writeAt_cell hsplit (h.offset_eq.trans hfront.symm), List.append_assoc]
    rfl
  rw [hpre] at hcopy
  have hclose : writeAt (front ++ [34] ++ escaped ++ b :: c :: rest)
      (p₁.offset + (input.1.length + (input.1.map escapeCost).sum + 1)) [34] =
      .ok (front ++ [34] ++ escaped ++ 34 :: c :: rest) :=
    writeAt_cell rfl (by rw [List.length_append, hpre]; omega)
  have hend : writeAt (front ++ [34] ++ escaped ++ 34 :: c :: rest)
      (p₁.offset + (input.1.length + (input.1.map escapeCost).sum + 2)) [0] =
      .ok (front ++ [34] ++ escaped ++ [34] ++ 0 :: rest) := by
    refine writeAt_cell (c := c) (by simp) ?_
    rw [List.length_append, List.length_append, hpre, List.length_singleton]
    omega
  refine ⟨{ p₁ with buffer := front ++ [34] ++ escaped ++ [34] ++ 0 :: rest }, ?_, ?_, h.noalloc_eq,
    h.format_eq, h.depth_eq⟩
  · simp only [writeString, hopen, ok_bind, hcopy, hclose, hend]
    rfl
  · have hquoted : quoted (some input) = 34 :: (escaped ++ [34]) := by rw [quoted, hescaped]
    refine ⟨⟨rest, ?_⟩, .inl h.offset_eq, ?_, h.good.length_le_max, ?_, h.capacity_eq⟩
    · rw [hquoted, hkept]
      simp
    · change p₁.length ≤ (front ++ [34] ++ escaped ++ [34] ++ 0 :: rest).length
      simp only [List.length_append, List.length_cons, List.length_nil] at hrest ⊢
      omega
    · rw [hquoted]
      change p.offset + (34 :: (escaped ++ [34])).length + 2 ≤ p₁.length
      simp only [List.length_append, List.length_cons, List.length_nil]
      omega

section Values

variable {hooks : PrintHooks} {noalloc format : Bool} {depth : ℕ}

/-- `print_string_ptr` appends the string in quotes. -/
lemma printStringPtr_writes (input : Option CText) :
    AppendsValue hooks noalloc format depth depth (printStringPtr hooks input)
      (some (quoted input)) := by
  cases input with
  | none => exact put_text_writes (show NoNul [34, 34] by decide) (.inl rfl)
  | some input =>
    refine writes_of_left (noNul_quoted _) ?_
    intro p hp
    have hlen : (quoted (some input)).length =
        input.1.length + (input.1.map escapeCost).sum + 2 := by
      rw [← length_flatMap_escapeByte, quoted, List.length_cons, List.length_append]
      rfl
    obtain ⟨r, hr, hsome, hnone⟩ :=
      ensure_ok hooks hp.good (input.1.length + (input.1.map escapeCost).sum + 3)
    cases r with
    | none =>
      refine ⟨none, Writer.seq_of_none hr _, nofun, ?_⟩
      intro hsure _
      have := hnone (hp.noalloc_eq ▸ hsure) rfl
      omega
    | some p₁ =>
      obtain ⟨p', hp', hleft, hnoalloc, hformat, hdepth⟩ :=
        writeString_ok hp.good input (hsome p₁ rfl)
      refine ⟨some p', (Writer.seq_of_some hr _).trans hp', ?_, fun _ hnone => nomatch hnone⟩
      rintro _ ⟨⟩
      exact ⟨hleft, hnoalloc.trans hp.noalloc_eq, hformat.trans hp.format_eq,
        hdepth.trans hp.depth_eq⟩

/-! ### Numbers -/

lemma IsNumberText.noNul {text : List UInt8} (h : IsNumberText text) : NoNul text := by
  rintro c hc rfl
  exact absurd (h.chars 0 hc) (by decide)

variable {D : Type} {dbl : Doubles D}

/-- A number that is finite has the text of a number. -/
lemma isNumberText_numberText {d : D} (hd : dbl.notFinite d = false) (n : Int32) :
    IsNumberText (numberText dbl d n) := by
  rw [numberText, hd, if_neg (by decide)]
  split_ifs
  · exact isNumberText_decimalInt n
  · exact dbl.sprintf_number 15 d (by decide) hd
  · exact dbl.sprintf_number 17 d (by decide) hd

lemma sprintfNumber_ok {text : List UInt8} (h : text.length ≤ 25) :
    sprintfNumber text = .ok text := by
  rw [sprintfNumber, writeAt_of_le (by simp; omega)]
  rfl

/-- The text of a number has room in `number_buffer`. -/
lemma numberBuffer_ok (d : D) (n : Int32) :
    numberBuffer dbl d n = .ok (numberText dbl d n) ∧ (numberText dbl d n).length ≤ 25 ∧
      NoNul (numberText dbl d n) := by
  by_cases hd : dbl.notFinite d = true
  · rw [numberBuffer, numberText, if_pos hd, if_pos hd]
    exact ⟨rfl, by decide, by decide⟩
  rw [Bool.not_eq_true] at hd
  have hnumber := isNumberText_numberText hd n
  have h15 := dbl.sprintf_number 15 d (by decide) hd
  have h17 := dbl.sprintf_number 17 d (by decide) hd
  refine ⟨?_, hnumber.length_le, hnumber.noNul⟩
  simp only [numberBuffer, numberText, hd, Bool.false_eq_true, if_false]
  split_ifs with heq hrecovers
  · exact sprintfNumber_ok (isNumberText_decimalInt n).length_le
  · rw [sprintfNumber_ok h15.length_le, ok_bind, if_pos hrecovers]
    rfl
  · rw [sprintfNumber_ok h15.length_le, ok_bind, if_neg hrecovers, sprintfNumber_ok h17.length_le]

/-- `print_number` appends the text of the number. -/
lemma printNumber_writes (d : D) (n : Int32) :
    AppendsValue hooks noalloc format depth depth (printNumber hooks dbl d n)
      (some (numberText dbl d n)) := by
  obtain ⟨hbuffer, hlen, htext⟩ : numberBuffer dbl d n = _ ∧ _ := numberBuffer_ok d n
  have heq : printNumber hooks dbl d n = put hooks ((numberText dbl d n).length + 1)
      (numberText dbl d n ++ [0]) (numberText dbl d n).length := by
    funext p
    simp only [printNumber, hbuffer, ok_bind]
    exact if_neg (by omega)
  rw [heq]
  exact put_text_writes htext (.inr rfl)

/-! ### Values -/

lemma depthUp_writes : Appends hooks noalloc format depth (depth + 1) depthUp (some []) := by
  intro p hp
  refine ⟨some { p with depth := p.depth + 1 }, rfl, ?_, fun _ hnone => nomatch hnone⟩
  rintro p' ⟨⟩
  refine ⟨⟨⟨hp.good.offset_lt, hp.good.length_le, hp.good.length_le_max⟩, hp.noalloc_eq,
    hp.format_eq, congrArg (· + 1) hp.depth_eq⟩, rfl, [], rfl, (List.append_nil _).symm⟩

/-- A piece that depends on the format. -/
lemma putIf_writes {w : Writer PrintBuffer} {n n' a a' : ℕ} {bytes bytes' : List UInt8}
    (hput : FitsPut n bytes a) (hput' : FitsPut n' bytes' a')
    (hw : ∀ p : PrintBuffer, p.depth = depth →
      w p = if p.format then put hooks n bytes a p else put hooks n' bytes' a' p) :
    Appends hooks noalloc format depth depth w
      (some (if format then bytes.take a else bytes'.take a')) := by
  cases format with
  | false =>
    refine (put_writes hput').congr (fun p hp => ?_) rfl
    rw [hw p hp.depth_eq, hp.format_eq]
    rfl
  | true =>
    refine (put_writes hput).congr (fun p hp => ?_) rfl
    rw [hw p hp.depth_eq, hp.format_eq]
    rfl

lemma putComma_writes :
    Appends hooks noalloc format depth depth (putComma hooks) (some (44 :: onlyIf format [32])) :=
  (putIf_writes (by decide) (by decide) fun _ _ => rfl).congr (fun _ _ => rfl)
    (by cases format <;> rfl)

lemma putOpen_writes :
    Appends hooks noalloc format depth depth (putOpen hooks) (some (123 :: onlyIf format [10])) :=
  (putIf_writes (by decide) (by decide) fun _ _ => rfl).congr (fun _ _ => rfl)
    (by cases format <;> rfl)

lemma putColon_writes :
    Appends hooks noalloc format depth depth (putColon hooks) (some (58 :: onlyIf format [9])) :=
  (putIf_writes (by decide) (by decide) fun _ _ => rfl).congr (fun _ _ => rfl)
    (by cases format <;> rfl)

lemma putTabs_writes :
    Appends hooks noalloc format depth depth (putTabs hooks)
      (some (onlyIf format (List.replicate depth 9))) := by
  cases format with
  | false => exact Writes.skip.congr (fun p hp => by rw [putTabs, hp.format_eq]; rfl) rfl
  | true =>
    have hlen : (List.replicate depth (9 : UInt8)).length = depth := List.length_replicate
    refine (put_writes ⟨hlen.ge, by omega, Nat.le_succ depth, le_rfl⟩).congr
      (fun p hp => by rw [putTabs, hp.format_eq, hp.depth_eq]; rfl) ?_
    rw [List.take_of_length_le hlen.le]
    rfl

lemma putEnd_writes (more : Bool) :
    Appends hooks noalloc format depth depth (putEnd hooks more)
      (some ((if more then [44] else []) ++ onlyIf format [10])) := by
  generalize hbytes : (if more then [44] else []) ++ onlyIf format [10] = bytes
  have hlen : (bytes ++ [0]).length = bytes.length + 1 := List.length_append
  have hput : FitsPut (bytes.length + 1) (bytes ++ [0]) bytes.length :=
    ⟨by omega, by omega, le_rfl, Nat.le_succ _⟩
  refine (put_writes hput).congr (fun p hp => ?_) (by rw [List.take_left])
  rw [putEnd, hp.format_eq, ← hbytes]
  rfl

/-- The last bracket, and the depth behind it. -/
lemma close_writes {text : List UInt8} {w : Writer PrintBuffer} (htext : NoNul text)
    (hw : ∀ p : PrintBuffer, p.At noalloc format (depth + 1) →
      w p = put hooks (text.length + 1) (text ++ [0]) 0 p) :
    AppendsValue hooks noalloc format (depth + 1) depth (w.seq depthDown) (some text) := by
  refine writes_of_left htext ?_
  intro p hp
  have hleft := @put_left hooks noalloc format (depth + 1) text 0 (.inl rfl) p hp
  rw [← hw p hp] at hleft
  obtain ⟨r, hr, hsome, hnone⟩ := hleft
  cases r with
  | none => exact ⟨none, Writer.seq_of_none hr _, nofun, hnone⟩
  | some p₁ =>
    obtain ⟨hleft, hnoalloc, hformat, hdepth⟩ := hsome p₁ rfl
    refine ⟨some { p₁ with depth := p₁.depth - 1 }, Writer.seq_of_some hr _, ?_,
      fun _ hnone => nomatch hnone⟩
    rintro p' ⟨⟩
    refine ⟨⟨hleft.buffer_eq, hleft.offset_eq, hleft.length_le, hleft.length_le_max, hleft.room,
      hleft.capacity_eq⟩, hnoalloc, hformat, ?_⟩
    change p₁.depth - 1 = depth
    omega

lemma putClose_writes :
    AppendsValue hooks noalloc format (depth + 1) depth ((putClose hooks).seq depthDown)
      (some (onlyIf format (List.replicate depth 9) ++ [125])) := by
  refine close_writes ?_ ?_
  · refine NoNul.append ?_ (show NoNul [125] by decide)
    intro c hc
    cases format with
    | false => cases hc
    | true =>
      rw [List.eq_of_mem_replicate hc]
      decide
  · intro p hp
    rw [putClose, hp.format_eq, hp.depth_eq]
    cases format with
    | false => rfl
    | true => simp [onlyIf]

variable (hooks noalloc format)

mutual

/-- `print_value` with `update_offset` appends the text of the item. -/
theorem printValue_writes (depth : ℕ) : ∀ item : JsonItem D,
    AppendsValue hooks noalloc format depth depth (printValue hooks dbl item)
      (jsonText dbl format depth item)
  | .invalid => .fail fun _ _ => rfl
  | .null => put_text_writes (show NoNul (textBytes "null") by decide) (.inl rfl)
  | .bool false => put_text_writes (show NoNul (textBytes "false") by decide) (.inl rfl)
  | .bool true => put_text_writes (show NoNul (textBytes "true") by decide) (.inl rfl)
  | .number d n => printNumber_writes d n
  | .raw none => .fail fun _ _ => rfl
  | .raw (some valuestring) => put_text_writes valuestring.2 (.inl rfl)
  | .string valuestring => printStringPtr_writes valuestring
  | .array child => by
    have hopen : Appends hooks noalloc format depth depth (put hooks 1 [91] 1) (some [91]) :=
      put_writes (by decide)
    have hclose : AppendsValue hooks noalloc format (depth + 1) depth
        ((put hooks 2 [93, 0] 0).seq depthDown) (some [93]) :=
      close_writes (by decide) fun _ _ => rfl
    have hall := hopen.seq (depthUp_writes.seq
      ((printArrayItems_writes (depth + 1) child).seq hclose))
    rw [AppendsValue, printValue, Writer.seq_assoc, Writer.seq_assoc, Writer.seq_assoc]
    refine hall.congr (fun _ _ => rfl) ?_
    rw [jsonText]
    cases elementsText dbl format (depth + 1) child <;> rfl
  | .object child => by
    have hopen : Appends hooks noalloc format depth depth (putOpen hooks) _ := putOpen_writes
    have hall := hopen.seq (depthUp_writes.seq
      ((printObjectItems_writes (depth + 1) child).seq putClose_writes))
    rw [AppendsValue, printValue, Writer.seq_assoc, Writer.seq_assoc, Writer.seq_assoc]
    refine hall.congr (fun _ _ => rfl) ?_
    rw [jsonText]
    cases membersText dbl format (depth + 1) child with
    | none => rfl
    | some text => simp

/-- The loop of `print_array` appends the elements. -/
theorem printArrayItems_writes (depth : ℕ) : ∀ child : JsonChain D,
    Appends hooks noalloc format depth depth (printArrayItems hooks dbl child)
      (elementsText dbl format depth child)
  | .nil => .skip
  | .cons _ item next => by
    have hvalue := (printValue_writes depth item).mono (fun _ h => h) (fun _ h => h.toAt)
    have hnext := printArrayItems_writes depth next
    have hcomma : Appends hooks noalloc format depth depth
        (if next.isCons then putComma hooks else .skip)
        (some (if next.isCons then 44 :: onlyIf format [32] else [])) := by
      split_ifs
      · exact putComma_writes
      · exact .skip
    rw [printArrayItems]
    refine (hvalue.seq (hcomma.seq hnext)).congr (fun _ _ => rfl) ?_
    rw [elementsText]
    cases jsonText dbl format depth item <;> cases elementsText dbl format depth next <;> rfl

/-- The loop of `print_object` appends the members. -/
theorem printObjectItems_writes (depth : ℕ) : ∀ child : JsonChain D,
    Appends hooks noalloc format depth depth (printObjectItems hooks dbl child)
      (membersText dbl format depth child)
  | .nil => .skip
  | .cons string item next => by
    have hname : Appends hooks noalloc format depth depth
        ((printStringPtr hooks string).seq updateOffset) _ :=
      (printStringPtr_writes string).mono (fun _ h => h) (fun _ h => h.toAt)
    have hvalue := (printValue_writes depth item).mono (fun _ h => h) (fun _ h => h.toAt)
    have hnext := printObjectItems_writes depth next
    rw [printObjectItems]
    refine (putTabs_writes.seq (hname.seq (putColon_writes.seq (hvalue.seq
      ((putEnd_writes next.isCons).seq hnext))))).congr (fun _ _ => rfl) ?_
    rw [membersText]
    cases jsonText dbl format depth item <;> cases membersText dbl format depth next <;> rfl

end

/-! ### Whole outputs -/

variable (dbl)

/-- The terminator stands behind what has been written. -/
lemma PrintBuffer.AtEnd.take_succ {p : PrintBuffer} (hp : p.AtEnd noalloc format depth) :
    p.buffer.take (p.offset + 1) = p.buffer.take p.offset ++ [0] := by
  rw [List.take_add_one, hp.terminated]
  rfl

/-- The end of `print` takes the text out of its buffer. -/
lemma endPrint_ok {p : PrintBuffer} (hp : p.AtEnd noalloc format depth) :
    ∃ r, endPrint hooks p = .ok r ∧
      (∀ block, r = some block → block = p.buffer.take p.offset ++ [0]) ∧
      (hooks.Total → r ≠ none) := by
  have hroom := hp.room
  have hle := hp.good.length_le
  have htake := hp.take_succ
  have hlen : (p.buffer.take (p.offset + 1)).length = p.offset + 1 :=
    List.length_take_of_le (by omega)
  cases hfresh : hooks.fresh p.calls (p.offset + 1) with
  | none =>
    exact ⟨none, by rw [endPrint, hfresh], nofun,
      fun htotal => absurd hfresh (htotal.fresh_ne_none _ _)⟩
  | some printed =>
    have hprinted := hooks.length_fresh hfresh
    by_cases hrealloc : hooks.reallocate = true
    · refine ⟨some (p.buffer.take (p.offset + 1) ++ printed.drop p.buffer.length),
        by simp only [endPrint, hfresh, if_pos hrealloc], ?_, fun _ => Option.some_ne_none _⟩
      rintro block ⟨⟩
      rw [htake, List.drop_of_length_le (by omega), List.append_nil]
    · have hmin : min p.length (p.offset + 1) = p.offset + 1 := by omega
      have hread : readAt p.buffer 0 (p.offset + 1) = .ok (p.buffer.take (p.offset + 1)) := by
        rw [readAt_of_le (by omega), slice, List.drop_zero]
      have hcopy : writeAt printed 0 (p.buffer.take (p.offset + 1)) =
          .ok (p.buffer.take p.offset ++ [0]) := by
        rw [writeAt_of_le (by omega), splice_full (by omega), htake]
      have hend : writeAt (p.buffer.take p.offset ++ [0]) p.offset [0] =
          .ok (p.buffer.take p.offset ++ [0]) :=
        writeAt_cell rfl hp.good.length_written.symm
      refine ⟨some (p.buffer.take p.offset ++ [0]), ?_, ?_, fun _ => Option.some_ne_none _⟩
      · simp only [endPrint, hfresh, if_neg hrealloc, hmin, hread, hcopy, hend, ok_bind]
        rfl
      · rintro block ⟨⟩
        rfl

/-- `cJSON_Print` and `cJSON_PrintUnformatted` give the text of the item with its terminator, unless
it cannot be printed, memory is refused or it is too long for an `int`. -/
theorem cjson_print_text (item : JsonItem D) :
    ∃ r, cjsonPrint hooks dbl format item = .ok r ∧
      (∀ block, r = some block →
        ∃ text, jsonText dbl format 0 item = some text ∧ block = text ++ [0]) ∧
      (hooks.Total → ∀ text, jsonText dbl format 0 item = some text → text.length + 2 ≤ intMax →
        r ≠ none) := by
  cases hfresh : hooks.fresh 0 256 with
  | none =>
    exact ⟨none, by rw [cjsonPrint, hfresh], nofun,
      fun htotal => absurd hfresh (htotal.fresh_ne_none _ _)⟩
  | some buffer =>
    have hlen := hooks.length_fresh hfresh
    have hstart : PrintBuffer.At false format 0 ⟨buffer, 256, 0, 0, false, format, 1⟩ :=
      ⟨⟨show 0 < 256 by decide, hlen.ge, show 256 ≤ intMax by decide⟩, rfl, rfl, rfl⟩
    have hwrites : AppendsValue hooks false format 0 0 (printValue hooks dbl item)
        (jsonText dbl format 0 item) := printValue_writes hooks false format 0 item
    obtain ⟨r, hr, hsome, hnone⟩ := hwrites _ hstart
    cases r with
    | none =>
      refine ⟨none, by simp only [cjsonPrint, hfresh, hr, ok_bind]; rfl, nofun, ?_⟩
      intro htotal text htext hmax
      have hlt : intMax < 0 + text.length + 2 := hnone (.inr htotal) rfl text htext
      omega
    | some p =>
      obtain ⟨hp, -, text, htext, hwritten⟩ := hsome p rfl
      obtain ⟨r', hr', hblock, htotal⟩ := endPrint_ok hooks false format hp
      refine ⟨r', by simp only [cjsonPrint, hfresh, hr, ok_bind]; exact hr', ?_,
        fun hsure _ _ _ => htotal hsure⟩
      intro block hres
      refine ⟨text, htext, ?_⟩
      rw [hblock block hres]
      exact congrArg (· ++ [0]) hwritten

/-- Memory is there for every call, and what is in it does not matter. -/
def fullHooks : PrintHooks where
  fresh _ size := some (List.replicate size 0)
  reallocate := true
  length_fresh h := by
    cases h
    exact List.length_replicate

/-- The text of an object with a number, when there is memory. -/
theorem cjson_print_text_number :
    let item : JsonItem Int32 := .object (.ofList [namedItem "len" (.number (-512) (-512))])
    cjsonPrint fullHooks Doubles.ints true item =
      .ok (some (textBytes "\x7b\n\t\"len\":\t-512\n\x7d" ++ [0])) := by
  intro item
  have htext : jsonText Doubles.ints true 0 item =
      some (textBytes "\x7b\n\t\"len\":\t-512\n\x7d") := by decide +kernel
  obtain ⟨r, hr, hblock, htotal⟩ := cjson_print_text fullHooks true Doubles.ints item
  obtain ⟨block, rfl⟩ :=
    Option.ne_none_iff_exists'.mp (htotal (fun _ _ => rfl) _ htext (by decide +kernel))
  obtain ⟨text, htext', rfl⟩ := hblock block rfl
  cases htext.symm.trans htext'
  exact hr

/-- `update_offset` only moves the offset. -/
lemma updateOffset_some {p : PrintBuffer} {r : Option PrintBuffer} (h : updateOffset p = .ok r) :
    ∃ n, r = some { p with offset := p.offset + n } := by
  rw [updateOffset] at h
  cases hn : strlen (p.buffer.drop p.offset) with
  | error e =>
    rw [hn] at h
    cases h
  | ok n =>
    rw [hn] at h
    cases h
    exact ⟨n, rfl⟩

/-- There is no room in a buffer of length 0. -/
lemma printValue_zero (item : JsonItem D) (buffer : List UInt8) :
    printValue hooks dbl item ⟨buffer, 0, 0, 0, true, format, 0⟩ = .ok none := by
  have hensure (needed : ℕ) :
      ensure hooks needed ⟨buffer, 0, 0, 0, true, format, 0⟩ = .ok none := by
    simp [ensure]
  have hput (needed : ℕ) (bytes : List UInt8) (advance : ℕ) :
      put hooks needed bytes advance ⟨buffer, 0, 0, 0, true, format, 0⟩ = .ok none :=
    Writer.seq_of_none (hensure needed) _
  cases item with
  | invalid => rfl
  | null => exact hput _ _ _
  | bool value => cases value <;> exact hput _ _ _
  | number d n =>
    simp only [printValue, printNumber, numberBuffer_ok, ok_bind]
    split_ifs
    · rfl
    · exact hput _ _ _
  | raw valuestring =>
    cases valuestring with
    | none => rfl
    | some valuestring => exact hput _ _ _
  | string valuestring =>
    cases valuestring with
    | none => exact hput _ _ _
    | some valuestring => exact Writer.seq_of_none (hensure _) _
  | array child => exact Writer.seq_of_none (hput _ _ _) _
  | object child =>
    refine Writer.seq_of_none ?_ _
    cases format <;> exact hput _ _ _

/-- `cJSON_PrintPreallocated` writes nothing outside the buffer, and succeeds exactly if the item
can be printed and its text has room with two more bytes. -/
theorem cjson_print_preallocated (item : JsonItem D) {buffer : List UInt8} {length : ℕ}
    (hlen : length ≤ buffer.length) (hmax : length ≤ intMax) :
    ∃ r, cjsonPrintPreallocated hooks dbl item buffer length format = .ok r ∧
      (r.isSome ↔ ∃ text, jsonText dbl format 0 item = some text ∧ text.length + 2 ≤ length) ∧
      ∀ out, r = some out →
        ∃ text, jsonText dbl format 0 item = some text ∧ text ++ [0] <+: out := by
  rcases Nat.eq_zero_or_pos length with rfl | hpos
  · refine ⟨none, by rw [cjsonPrintPreallocated, printValue_zero]; rfl, by simp, ?_⟩
    intro out hout
    cases hout
  have hstart : PrintBuffer.At true format 0 ⟨buffer, length, 0, 0, true, format, 0⟩ :=
    ⟨⟨hpos, hlen, hmax⟩, rfl, rfl, rfl⟩
  have hwrites : AppendsValue hooks true format 0 0 (printValue hooks dbl item)
      (jsonText dbl format 0 item) := printValue_writes hooks true format 0 item
  obtain ⟨r, hr, hsome, hnone⟩ := hwrites _ hstart
  cases hvalue : printValue hooks dbl item ⟨buffer, length, 0, 0, true, format, 0⟩ with
  | error e =>
    rw [Writer.seq, hvalue] at hr
    cases hr
  | ok left =>
    refine ⟨left.map PrintBuffer.buffer, by rw [cjsonPrintPreallocated, hvalue]; rfl, ?_⟩
    cases left with
    | none =>
      rw [Writer.seq_of_none hvalue] at hr
      cases hr
      refine ⟨⟨fun h => absurd h Bool.false_ne_true, ?_⟩, ?_⟩
      · rintro ⟨text, htext, hroom⟩
        have hlt : length < 0 + text.length + 2 := hnone (.inl rfl) rfl text htext
        omega
      · intro out hout
        cases hout
    | some p =>
      rw [Writer.seq_of_some hvalue] at hr
      obtain ⟨n, rfl⟩ := updateOffset_some hr
      obtain ⟨hend, hcapacity, text, htext, hwritten⟩ := hsome _ rfl
      have htaken : p.buffer.take (p.offset + n) = text := hwritten
      have hlength : text.length = p.offset + n := by
        rw [← htaken]
        exact hend.good.length_written
      have hroom : p.offset + n + 2 ≤ p.length := hend.room
      have hsize : p.length = length := by
        have hnoalloc : p.noalloc = true := hend.noalloc_eq
        simpa [printOutput, PrintBuffer.capacity, hnoalloc] using hcapacity
      refine ⟨⟨fun _ => ⟨text, htext, by omega⟩, fun _ => rfl⟩, ?_⟩
      rintro out ⟨⟩
      refine ⟨text, htext, ?_⟩
      rw [← htaken]
      exact hend.take_succ ▸ List.take_prefix _ _

end Values

/-- The text `[true]` has room in eight bytes, also when no memory can be had. -/
theorem cjson_print_preallocated_true :
    let item : JsonItem Int32 := .array (.cons none (.bool true) .nil)
    ∃ r, cjsonPrintPreallocated ⟨fun _ _ => none, false, nofun⟩ Doubles.ints item
        (List.replicate 8 0) 8 false = .ok r ∧ r.isSome ∧
      ∀ out, r = some out → textBytes "[true]" ++ [0] <+: out := by
  intro item
  have htext : jsonText Doubles.ints false 0 item = some (textBytes "[true]") := by decide
  obtain ⟨r, hr, hiff, hout⟩ := cjson_print_preallocated ⟨fun _ _ => none, false, nofun⟩ false
    Doubles.ints item (show 8 ≤ (List.replicate 8 (0 : UInt8)).length by decide) (by decide)
  refine ⟨r, hr, hiff.mpr ⟨_, htext, by decide⟩, ?_⟩
  intro out hres
  obtain ⟨text, htext', hprefix⟩ := hout out hres
  rw [htext] at htext'
  cases htext'
  exact hprefix

end WiotaAp
