import WiotaAp.Foundation.CString
import WiotaAp.Foundation.Decimal
import WiotaAp.Foundation.Loop

/-!
# cJSON: items and the parser

The JSON library of the gateway (`cJSON.c`).  A `cJSON` item is a `JsonItem`, and the list of
children that hangs on it by `child` and `next` is a `JsonChain`.  The parser reads a block of
memory with every access checked: the block may be longer than the `length` that the parser is told,
so that a read behind the text can be told from one outside the memory.

The functions of the C library that know floating point numbers are those of a `Doubles`, with what
is assumed of them.  Allocations give what the `JsonHeap` says.
-/

namespace WiotaAp

open Buffers

/-! ### Items -/

/-- The text of a string in C. -/
abbrev CText : Type := { text : List UInt8 // NoNul text }

/-- The text of the string at the front of a block. -/
def CText.ofBlock (block : List UInt8) : CText :=
  ⟨block.takeWhile (· ≠ 0), fun _ hc => by simpa using List.mem_takeWhile_imp hc⟩

mutual

/-- `cJSON`: the type with what it uses of the other fields.  A pointer that is `NULL` is `none`. -/
inductive JsonItem (D : Type)
  | invalid
  | null
  | bool (value : Bool)
  | number (valuedouble : D) (valueint : Int32)
  | string (valuestring : Option CText)
  | raw (valuestring : Option CText)
  | array (child : JsonChain D)
  | object (child : JsonChain D)
  deriving DecidableEq

/-- The items from `child` on, each with its `string`, linked by `next`. -/
inductive JsonChain (D : Type)
  | nil
  | cons (string : Option CText) (item : JsonItem D) (next : JsonChain D)
  deriving DecidableEq

end

/-- The items of a list with their names, linked in its order. -/
def JsonChain.ofList {D : Type} : List (Option CText × JsonItem D) → JsonChain D
  | [] => .nil
  | (string, item) :: rest => .cons string item (.ofList rest)

/-- An item under a name in an object. -/
def namedItem {D : Type} (name : String) (item : JsonItem D) : Option CText × JsonItem D :=
  (some (CText.ofBlock (textBytes name)), item)

/-- `cJSON_AddStringToObject`: a text that is `NULL` is not added. -/
def namedText {D : Type} (name : String) (text : Option (List UInt8)) :
    List (Option CText × JsonItem D) :=
  (text.map fun text => namedItem name (.string (some (CText.ofBlock text)))).toList

/-- `child`. -/
def JsonItem.child {D : Type} : JsonItem D → JsonChain D
  | .array child => child
  | .object child => child
  | _ => .nil

/-- The items of a chain, as `cJSON_ArrayForEach` takes them. -/
def JsonChain.items {D : Type} : JsonChain D → List (JsonItem D)
  | .nil => []
  | .cons _ item next => item :: next.items

/-- The loop of `get_object_item`, which ends at an item without a name. -/
def JsonChain.getItem {D : Type} (name : CText) : JsonChain D → Option (JsonItem D)
  | .nil => none
  | .cons none _ _ => none
  | .cons (some string) item next => if string = name then some item else next.getItem name

/-- `cJSON_GetObjectItemCaseSensitive`. -/
def JsonItem.getObjectItem {D : Type} (object : JsonItem D) (name : String) :
    Option (JsonItem D) :=
  object.child.getItem (CText.ofBlock (textBytes name))

/-- `CJSON_NESTING_LIMIT`. -/
def cjsonNestingLimit : ℕ := 1000

/-! ### Numbers -/

/-- The bytes that `parse_number` copies. -/
def isNumberChar (c : UInt8) : Bool :=
  (48 ≤ c && c ≤ 57) || c = 43 || c = 45 || c = 101 || c = 69 || c = 46

/-- The bytes with which `parse_value` starts a number. -/
def startsNumber (c : UInt8) : Bool :=
  c = 45 || (48 ≤ c && c ≤ 57)

/-- A text that is a number for the parser, and has room in `number_buffer`. -/
structure IsNumberText (text : List UInt8) : Prop where
  chars : ∀ c ∈ text, isNumberChar c
  starts : ∃ c rest, text = c :: rest ∧ startsNumber c
  length_le : text.length ≤ 25

/-- The type `double` with the functions of the C library that are used on it.  Assumed is that
`strtod` takes no more than the text, and that a number printed with at most 17 digits has the form
of one. -/
structure Doubles (D : Type) where
  /-- `isnan(d) || isinf(d)` -/
  notFinite : D → Bool
  /-- `(double)n` -/
  ofInt : Int32 → D
  /-- `(int)d` -/
  toInt : D → Int32
  /-- `a == b` -/
  eq : D → D → Bool
  /-- `d >= n` -/
  ge : D → Int32 → Bool
  /-- `d <= n` -/
  le : D → Int32 → Bool
  compareDouble : D → D → Bool
  /-- `sprintf` with `%1.15g` or `%1.17g` -/
  sprintf : ℕ → D → List UInt8
  /-- `sscanf` with `%lg` -/
  sscanf : List UInt8 → Option D
  /-- The number, and how many bytes of the text it takes. -/
  strtod : List UInt8 → D × ℕ
  strtod_le : ∀ text, (strtod text).2 ≤ text.length
  sprintf_number : ∀ precision d, precision ≤ 17 → notFinite d = false →
    IsNumberText (sprintf precision d)

/-- `valueint` for a number, with saturation. -/
def Doubles.saturate {D : Type} (dbl : Doubles D) (number : D) : Int32 :=
  if dbl.ge number Int32.maxValue then Int32.maxValue
  else if dbl.le number Int32.minValue then Int32.minValue
  else dbl.toInt number

/-- The text of an `int` is a number. -/
lemma isNumberText_decimalInt (n : Int32) : IsNumberText (decimalInt n.toInt) := by
  have hdigit {c : UInt8} (hc : c ∈ decimal n.toInt.natAbs) : startsNumber c = true := by
    obtain ⟨hle, hge⟩ := bounds_of_mem_decimal hc
    simp only [startsNumber, Bool.or_eq_true, Bool.and_eq_true, decide_eq_true_eq,
      UInt8.le_iff_toNat_le]
    exact .inr ⟨hle, hge⟩
  have hchar {c : UInt8} (hc : startsNumber c = true) : isNumberChar c = true := by
    revert c
    decide +kernel
  have hbound : n.toInt.natAbs < 10 ^ 10 := by
    have hlow := n.le_toInt
    have hhigh := n.toInt_lt
    omega
  have hlen := length_decimal_le (by decide) hbound
  obtain ⟨c, rest, htext⟩ := List.exists_cons_of_ne_nil (decimal_ne_nil n.toInt.natAbs)
  rcases Int.lt_or_le n.toInt 0 with hneg | hpos
  · rw [decimalInt_of_neg hneg]
    refine ⟨?_, ⟨minusSign, _, rfl, by decide⟩, by rw [List.length_cons]; omega⟩
    intro d hd
    rcases List.mem_cons.mp hd with rfl | hd
    · decide
    · exact hchar (hdigit hd)
  · rw [decimalInt_of_nonneg hpos]
    refine ⟨fun d hd => hchar (hdigit hd), ⟨c, rest, htext, hdigit ?_⟩, by omega⟩
    rw [htext]
    exact List.mem_cons_self

/-- The digits at the front of a text. -/
def leadingDigits (text : List UInt8) : List UInt8 :=
  text.takeWhile fun c => 48 ≤ c && c ≤ 57

/-- The `int` at the front of a text, and how many bytes it takes. -/
def leadingInt : List UInt8 → Int32 × ℕ
  | [] => (0, 0)
  | c :: text =>
    if c = minusSign then
      (Int32.ofInt (-digitsValue (leadingDigits text)), (leadingDigits text).length + 1)
    else
      (Int32.ofInt (digitsValue (leadingDigits (c :: text))), (leadingDigits (c :: text)).length)

lemma leadingInt_le (text : List UInt8) : (leadingInt text).2 ≤ text.length := by
  have htake (text : List UInt8) : (leadingDigits text).length ≤ text.length :=
    (List.takeWhile_prefix _).length_le
  cases text with
  | nil => exact le_rfl
  | cons c text =>
    rw [leadingInt]
    split_ifs
    · exact Nat.succ_le_succ (htake text)
    · exact htake (c :: text)

/-- The numbers of a library without fractions, in which a `double` is an `int`. -/
def Doubles.ints : Doubles Int32 where
  notFinite _ := false
  ofInt n := n
  toInt n := n
  eq m n := m = n
  ge m n := n ≤ m
  le m n := m ≤ n
  compareDouble m n := m = n
  sprintf _ n := decimalInt n.toInt
  sscanf text := some (leadingInt text).1
  strtod := leadingInt
  strtod_le := leadingInt_le
  sprintf_number _ n _ _ := isNumberText_decimalInt n

/-! ### The input -/

/-- `parse_buffer` without the text. -/
structure ParseBuffer where
  offset : ℕ
  depth : ℕ
  deriving DecidableEq, Repr

/-- What the allocations give: whether there is memory for an item, and the block of a size for a
string.  Both may depend on the place in the text. -/
structure JsonHeap where
  item : ℕ → Bool
  block : ℕ → ℕ → Option (List UInt8)
  length_block : ∀ {offset size b}, block offset size = some b → b.length = size

section Input

variable (content : List UInt8) (length : ℕ)

/-- `can_access_at_index(buffer, 0)`, and a test of the byte there. -/
def byteIs (b : ParseBuffer) (test : UInt8 → Bool) : Except Fault Bool :=
  if b.offset < length then do
    let c ← byteAt content b.offset
    return test c
  else .ok false

/-- `strncmp` of the bytes at a place with a word: whether they are equal. -/
def startsWith : ℕ → List UInt8 → Except Fault Bool
  | _, [] => .ok true
  | offset, c :: word => do
    let d ← byteAt content offset
    if d = c then startsWith (offset + 1) word else return false

/-- `can_read` for a word, and its comparison. -/
def wordIs (b : ParseBuffer) (word : List UInt8) : Except Fault Bool :=
  if b.offset + word.length ≤ length then startsWith content b.offset word else .ok false

/-- The loop of `buffer_skip_whitespace`; `left` bytes can be accessed. -/
def skipLoop : (left offset : ℕ) → Except Fault ℕ
  | 0, offset => .ok offset
  | left + 1, offset => do
    let c ← byteAt content offset
    if c ≤ 32 then skipLoop left (offset + 1) else return offset

/-- `buffer_skip_whitespace`. -/
def bufferSkipWhitespace (b : ParseBuffer) : Except Fault ParseBuffer :=
  if b.offset < length then do
    let offset ← skipLoop content (length - b.offset) b.offset
    return { b with offset := if offset = length then offset - 1 else offset }
  else .ok b

/-- `skip_utf8_bom`. -/
def skipUtf8Bom (b : ParseBuffer) : Except Fault ParseBuffer :=
  if b.offset + 4 < length then do
    let bom ← startsWith content b.offset [0xEF, 0xBB, 0xBF]
    return if bom then { b with offset := b.offset + 3 } else b
  else .ok b

/-! ### Numbers of a text -/

/-- The loop of `parse_number`, which copies at most `left` bytes. -/
def copyNumber : (left offset : ℕ) → Except Fault (List UInt8)
  | 0, _ => .ok []
  | left + 1, offset => do
    let c ← byteAt content offset
    if isNumberChar c then do
      let text ← copyNumber left (offset + 1)
      return c :: text
    else return []

/-- `parse_number`. -/
def parseNumber {D : Type} (dbl : Doubles D) (b : ParseBuffer) :
    Except Fault (Option (JsonItem D) × ParseBuffer) := do
  let text ← copyNumber content (min 63 (length - b.offset)) b.offset
  let (number, n) := dbl.strtod text
  if n = 0 then return (none, b)
  else
    return (some (.number number (dbl.saturate number)), { b with offset := b.offset + n })

/-! ### Strings of a text -/

/-- The value of a digit in `parse_hex4`. -/
def hexDigit (c : UInt8) : Option ℕ :=
  if 48 ≤ c ∧ c ≤ 57 then some (c.toNat - 48)
  else if 65 ≤ c ∧ c ≤ 70 then some (10 + c.toNat - 65)
  else if 97 ≤ c ∧ c ≤ 102 then some (10 + c.toNat - 97)
  else none

/-- The loop of `parse_hex4`, with `left` digits to come. -/
def hexLoop : (left input h : ℕ) → Except Fault ℕ
  | 0, _, h => .ok h
  | left + 1, input, h => do
    let c ← byteAt content input
    match hexDigit c with
    | none => return 0
    | some d => hexLoop left (input + 1) (if left = 0 then h + d else (h + d) <<< 4)

/-- `parse_hex4`. -/
def parseHex4 (input : ℕ) : Except Fault ℕ :=
  hexLoop content 4 input 0

/-- The loop of `utf16_literal_to_utf8` over the bytes behind the first one, from the last on. -/
def utf8Tail : (position codepoint : ℕ) → List UInt8 → ℕ × List UInt8
  | 0, codepoint, bytes => (codepoint, bytes)
  | position + 1, codepoint, bytes =>
    utf8Tail position (codepoint >>> 6) (UInt8.ofNat ((codepoint ||| 0x80) &&& 0xBF) :: bytes)

/-- The bytes that `utf16_literal_to_utf8` writes for a code point. -/
def utf8Bytes (codepoint : ℕ) : Option (List UInt8) :=
  if codepoint < 0x80 then some [UInt8.ofNat (codepoint &&& 0x7F)]
  else if codepoint < 0x800 then some (withMark 0xC0 (utf8Tail 1 codepoint []))
  else if codepoint < 0x10000 then some (withMark 0xE0 (utf8Tail 2 codepoint []))
  else if codepoint ≤ 0x10FFFF then some (withMark 0xF0 (utf8Tail 3 codepoint []))
  else none
where
  /-- The first byte, with `first_byte_mark`. -/
  withMark (mark : ℕ) (tail : ℕ × List UInt8) : List UInt8 :=
    UInt8.ofNat ((tail.1 ||| mark) &&& 0xFF) :: tail.2

/-- `codepoint` and `sequence_length` of the literal at a place. -/
def utf16Literal (inputPointer inputEnd : ℕ) : Except Fault (Option (ℕ × ℕ)) :=
  if inputEnd - inputPointer < 6 then .ok none
  else do
    let firstCode ← parseHex4 content (inputPointer + 2)
    if 0xDC00 ≤ firstCode ∧ firstCode ≤ 0xDFFF then return none
    else if 0xD800 ≤ firstCode ∧ firstCode ≤ 0xDBFF then
      if inputEnd - (inputPointer + 6) < 6 then return none
      else do
        let marked ← startsWith content (inputPointer + 6) [92, 117]
        if marked then do
          let secondCode ← parseHex4 content (inputPointer + 8)
          if secondCode < 0xDC00 ∨ secondCode > 0xDFFF then return none
          else
            return some
              (0x10000 + (((firstCode &&& 0x3FF) <<< 10) ||| (secondCode &&& 0x3FF)), 12)
        else return none
    else return some (firstCode, 6)

/-- `utf16_literal_to_utf8`: the length of the literal, and the bytes for it. -/
def utf16LiteralToUtf8 (inputPointer inputEnd : ℕ) : Except Fault (Option (ℕ × List UInt8)) := do
  let literal ← utf16Literal content inputPointer inputEnd
  match literal with
  | none => return none
  | some (codepoint, sequenceLength) =>
    return (utf8Bytes codepoint).map fun bytes => (sequenceLength, bytes)

/-- The escapes of one character that `parse_string` knows, with what they stand for. -/
def escapes : List (UInt8 × UInt8) :=
  [(98, 8), (102, 12), (110, 10), (114, 13), (116, 9), (34, 34), (92, 92), (47, 47)]

/-- The first loop of `parse_string`, with `left` bytes that can be accessed: `input_end` and
`skipped_bytes`. -/
def scanString : (left inputEnd skippedBytes : ℕ) → Except Fault (Option (ℕ × ℕ))
  | 0, _, _ => .ok none
  | left + 1, inputEnd, skippedBytes => do
    let c ← byteAt content inputEnd
    if c = 34 then return some (inputEnd, skippedBytes)
    else if c = 92 then
      -- a backslash that is the last byte is an error
      match left with
      | 0 => return none
      | left + 1 => scanString left (inputEnd + 2) (skippedBytes + 1)
    else scanString left (inputEnd + 1) skippedBytes

/-- The variables of the second loop of `parse_string`. -/
structure UnescapeState where
  inputPointer : ℕ
  outputPointer : ℕ
  output : List UInt8

/-- `n` bytes of the input are read and some bytes are written. -/
def UnescapeState.put (s : UnescapeState) (n : ℕ) (bytes : List UInt8) :
    Except Fault UnescapeState := do
  let output ← writeAt s.output s.outputPointer bytes
  return ⟨s.inputPointer + n, s.outputPointer + bytes.length, output⟩

/-- A round of the second loop of `parse_string`.  The loop is left with a failure at a place, or
with the output. -/
def unescapeRound (inputEnd : ℕ) (s : UnescapeState) :
    Except Fault (UnescapeState ⊕ (ℕ ⊕ (ℕ × List UInt8))) :=
  if s.inputPointer < inputEnd then do
    let c ← byteAt content s.inputPointer
    if c ≠ 92 then (s.put 1 [c]).map .inl
    else do
      let e ← byteAt content (s.inputPointer + 1)
      match escapes.lookup e with
      | some c => (s.put 2 [c]).map .inl
      | none =>
        if e = 117 then do
          let literal ← utf16LiteralToUtf8 content s.inputPointer inputEnd
          match literal with
          | some (n, bytes) => (s.put n bytes).map .inl
          | none => return .inr (.inl s.inputPointer)
        else return .inr (.inl s.inputPointer)
  else .ok (.inr (.inr (s.outputPointer, s.output)))

/-- The end of `parse_string`: where it has failed, or the string with its terminator. -/
def endString (b : ParseBuffer) (inputEnd : ℕ) :
    ℕ ⊕ (ℕ × List UInt8) → Except Fault (Option CText × ParseBuffer)
  | .inl inputPointer => .ok (none, { b with offset := inputPointer })
  | .inr (outputPointer, output) => do
    let output ← writeAt output outputPointer [0]
    return (some (CText.ofBlock output), { b with offset := inputEnd + 1 })

/-- `parse_string`; the string is the result. -/
def parseString (heap : JsonHeap) (fuel : ℕ) (b : ParseBuffer) :
    Run (Option CText × ParseBuffer) := do
  let c ← byteAt content b.offset
  if c ≠ 34 then return (none, { b with offset := b.offset + 1 })
  else do
    let scanned ← scanString content (length - (b.offset + 1)) (b.offset + 1) 0
    match scanned with
    | none => return (none, { b with offset := b.offset + 1 })
    | some (inputEnd, skippedBytes) =>
      match heap.block b.offset (inputEnd - b.offset - skippedBytes + 1) with
      | none => return (none, { b with offset := b.offset + 1 })
      | some output => do
        let result ← loop (unescapeRound content inputEnd) fuel ⟨b.offset + 1, 0, output⟩
        endString b inputEnd result

/-! ### Values of a text -/

section Values

variable {D : Type} (dbl : Doubles D) (heap : JsonHeap)

/-- The elements of an array or the members of an object, from the character in front of the first
one on; `element` reads one with its name. -/
def parseChain (element : ParseBuffer → Run (Option (Option CText × JsonItem D) × ParseBuffer)) :
    ℕ → ParseBuffer → Run (Option (JsonChain D) × ParseBuffer)
  | 0, _ => .running
  | fuel + 1, b =>
    if heap.item (b.offset + 1) then do
      let b ← bufferSkipWhitespace content length { b with offset := b.offset + 1 }
      let (new, b) ← element b
      match new with
      | none => return (none, b)
      | some (string, item) => do
        let b ← bufferSkipWhitespace content length b
        let more ← byteIs content length b (· = 44)
        if more then do
          let (next, b) ← parseChain element fuel b
          return (next.map (.cons string item), b)
        else return (some (.cons string item .nil), b)
    else return (none, b)

/-- An element of an array has no name. -/
def parseElement (value : ParseBuffer → Run (Option (JsonItem D) × ParseBuffer))
    (b : ParseBuffer) : Run (Option (Option CText × JsonItem D) × ParseBuffer) := do
  let (item, b) ← value b
  return (item.map fun item => (none, item), b)

/-- A member of an object. -/
def parseMember (fuel : ℕ) (value : ParseBuffer → Run (Option (JsonItem D) × ParseBuffer))
    (b : ParseBuffer) : Run (Option (Option CText × JsonItem D) × ParseBuffer) := do
  let (string, b) ← parseString content length heap fuel b
  match string with
  | none => return (none, b)
  | some string => do
    let b ← bufferSkipWhitespace content length b
    let colon ← byteIs content length b (· = 58)
    if colon then do
      let b ← bufferSkipWhitespace content length { b with offset := b.offset + 1 }
      let (item, b) ← value b
      return (item.map fun item => (some string, item), b)
    else return (none, b)

/-- The end of an array or of an object, at its last bracket. -/
def endItems (close : UInt8) (make : JsonChain D → JsonItem D) (child : Option (JsonChain D))
    (b : ParseBuffer) : Except Fault (Option (JsonItem D) × ParseBuffer) :=
  match child with
  | none => .ok (none, b)
  | some child => do
    let closed ← byteIs content length b (· = close)
    if closed then return (some (make child), ⟨b.offset + 1, b.depth - 1⟩)
    else return (none, b)

/-- What `parse_array` and `parse_object` have in common, behind the test of the first bracket. -/
def parseItems (close : UInt8)
    (element : ParseBuffer → Run (Option (Option CText × JsonItem D) × ParseBuffer))
    (make : JsonChain D → JsonItem D) (fuel : ℕ) (b : ParseBuffer) :
    Run (Option (JsonItem D) × ParseBuffer) := do
  let b ← bufferSkipWhitespace content length { b with offset := b.offset + 1 }
  let empty ← byteIs content length b (· = close)
  if empty then return (some (make .nil), ⟨b.offset + 1, b.depth - 1⟩)
  else if b.offset < length then do
    let (child, b) ← parseChain content length heap element fuel { b with offset := b.offset - 1 }
    endItems content length close make child b
  else return (none, { b with offset := b.offset - 1 })

/-- `parse_array`. -/
def parseArray (value : ParseBuffer → Run (Option (JsonItem D) × ParseBuffer)) (fuel : ℕ)
    (b : ParseBuffer) : Run (Option (JsonItem D) × ParseBuffer) :=
  if cjsonNestingLimit ≤ b.depth then return (none, b)
  else do
    let c ← byteAt content b.offset
    if c ≠ 91 then return (none, ⟨b.offset, b.depth + 1⟩)
    else
      parseItems content length heap 93 (parseElement value) .array fuel ⟨b.offset, b.depth + 1⟩

/-- `parse_object`. -/
def parseObject (value : ParseBuffer → Run (Option (JsonItem D) × ParseBuffer)) (fuel : ℕ)
    (b : ParseBuffer) : Run (Option (JsonItem D) × ParseBuffer) :=
  if cjsonNestingLimit ≤ b.depth then return (none, b)
  else do
    let opened ← byteIs content length b (· = 123)
    if opened then
      parseItems content length heap 125 (parseMember content length heap fuel value) .object fuel
        ⟨b.offset, b.depth + 1⟩
    else return (none, ⟨b.offset, b.depth + 1⟩)

/-- `parse_value`. -/
def parseValue : ℕ → ParseBuffer → Run (Option (JsonItem D) × ParseBuffer)
  | 0, _ => .running
  | fuel + 1, b => do
    if ← wordIs content length b (textBytes "null") then
      return (some .null, { b with offset := b.offset + 4 })
    else if ← wordIs content length b (textBytes "false") then
      return (some (.bool false), { b with offset := b.offset + 5 })
    else if ← wordIs content length b (textBytes "true") then
      return (some (.bool true), { b with offset := b.offset + 4 })
    else if ← byteIs content length b (· = 34) then do
      let (string, b) ← parseString content length heap fuel b
      return (string.map fun string => .string (some string), b)
    else if ← byteIs content length b startsNumber then
      parseNumber content length dbl b
    else if ← byteIs content length b (· = 91) then
      parseArray content length heap (parseValue fuel) fuel b
    else if ← byteIs content length b (· = 123) then
      parseObject content length heap (parseValue fuel) fuel b
    else return (none, b)

end Values

end Input

/-! ### Parsing -/

/-- The place of an error in a text. -/
def errorPosition (length : ℕ) (b : ParseBuffer) : ℕ :=
  if b.offset < length then b.offset
  else if 0 < length then length - 1
  else 0

/-- The end of `cJSON_ParseWithLengthOpts`: what is behind the value, if that matters. -/
def endParse {D : Type} (content : List UInt8) (length : ℕ) (requireNullTerminated : Bool)
    (item : Option (JsonItem D)) (b : ParseBuffer) : Except Fault (Option (JsonItem D) × ℕ) :=
  match item with
  | none => .ok (none, errorPosition length b)
  | some item =>
    if requireNullTerminated then do
      let b ← bufferSkipWhitespace content length b
      let terminated ← byteIs content length b (· = 0)
      if terminated then return (some item, b.offset)
      else return (none, errorPosition length b)
    else .ok (some item, b.offset)

/-- `cJSON_ParseWithLengthOpts`: the item, and `*return_parse_end` as an offset. -/
def cjsonParseWithLengthOpts {D : Type} (dbl : Doubles D) (heap : JsonHeap) (fuel : ℕ)
    (value : List UInt8) (bufferLength : ℕ) (requireNullTerminated : Bool) :
    Run (Option (JsonItem D) × ℕ) :=
  if bufferLength = 0 then return (none, 0)
  else if heap.item 0 then do
    let b ← skipUtf8Bom value bufferLength ⟨0, 0⟩
    let b ← bufferSkipWhitespace value bufferLength b
    let (item, b) ← parseValue value bufferLength dbl heap fuel b
    endParse value bufferLength requireNullTerminated item b
  else return (none, 0)

/-- `cJSON_ParseWithOpts`. -/
def cjsonParseWithOpts {D : Type} (dbl : Doubles D) (heap : JsonHeap) (fuel : ℕ)
    (value : List UInt8) (requireNullTerminated : Bool) : Run (Option (JsonItem D) × ℕ) := do
  let n ← strlen value
  cjsonParseWithLengthOpts dbl heap fuel value (n + 1) requireNullTerminated

/-- `cJSON_Parse`. -/
def cjsonParse {D : Type} (dbl : Doubles D) (heap : JsonHeap) (fuel : ℕ) (value : List UInt8) :
    Run (Option (JsonItem D) × ℕ) :=
  cjsonParseWithOpts dbl heap fuel value false

/-- `cJSON_ParseWithLength`. -/
def cjsonParseWithLength {D : Type} (dbl : Doubles D) (heap : JsonHeap) (fuel : ℕ)
    (value : List UInt8) (bufferLength : ℕ) : Run (Option (JsonItem D) × ℕ) :=
  cjsonParseWithLengthOpts dbl heap fuel value bufferLength false

end WiotaAp
