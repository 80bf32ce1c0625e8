import WiotaAp.Foundation.Lz77
import WiotaAp.Foundation.Loop

/-!
# FastLZ

`fastlz.c` compresses with back references.  Its body is compiled twice, as level 1 and as level 2,
which differ in how far a reference reaches and how its length is written; `FastlzLevel` is the
macro that chooses between them.

Pointers are offsets into a block, and every access to a block is checked.  The block of the input
may be longer than `length`, so that a read behind the input can be told from one outside the
memory.  The loops have fuel.
-/

namespace WiotaAp

open Buffers

/-- `FASTLZ_LEVEL`. -/
inductive FastlzLevel
  | one
  | two
  deriving DecidableEq, Repr

/-- `MAX_COPY`. -/
def fastlzMaxCopy : ℕ := 32

/-- `MAX_LEN`. -/
def fastlzMaxLen : ℕ := 264

/-- `MAX_DISTANCE`. -/
def FastlzLevel.maxDistance : FastlzLevel → ℕ
  | .one => 8192
  | .two => 8191

/-- The distance from which on a match is not taken: `MAX_DISTANCE`, or `MAX_FARDISTANCE`. -/
def FastlzLevel.searchLimit : FastlzLevel → ℕ
  | .one => 8192
  | .two => 65535 + 8191 - 1

/-! ### Decompression -/

/-- The variables of the loop of `FASTLZ_DECOMPRESSOR`. -/
structure DecompressState where
  ip : ℕ
  op : ℕ
  ctrl : ℕ
  output : List UInt8

/-- The loop over the length bytes of level 2, which has no limit: their sum and their number. -/
def lenCodes : List UInt8 → Except Fault (ℕ × ℕ)
  | [] => .error .outOfBounds
  | code :: rest =>
    if code = 255 then do
      let (len, n) ← lenCodes rest
      return (255 + len, n + 1)
    else .ok (code.toNat, 1)

/-- `len` of a match, and `ip` behind its bytes. -/
def readLen (level : FastlzLevel) (input : List UInt8) (ip ctrl : ℕ) : Except Fault (ℕ × ℕ) :=
  let len := ctrl / 32 - 1
  if len = 7 - 1 then
    match level with
    | .one => do
      let code ← byteAt input ip
      return (len + code.toNat, ip + 1)
    | .two => do
      let (more, n) ← lenCodes (input.drop ip)
      return (len + more, ip + n)
  else .ok (len, ip)

/-- `ref` of a match, which may point in front of the output, and `ip` behind its bytes. -/
def readRef (level : FastlzLevel) (input : List UInt8) (ip op ctrl : ℕ) :
    Except Fault (ℤ × ℕ) := do
  let ofs := ctrl % 32 * 256
  let code ← byteAt input ip
  match level with
  | .one => return ((op : ℤ) - ofs - code.toNat, ip + 1)
  | .two =>
    if code = 255 ∧ ofs = 31 * 256 then do
      let high ← byteAt input (ip + 1)
      let low ← byteAt input (ip + 2)
      return ((op : ℤ) - (high.toNat * 256 + low.toNat : ℕ) - level.maxDistance, ip + 3)
    else return ((op : ℤ) - ofs - code.toNat, ip + 1)

/-- The copy of `len + 3` bytes from `ref`, where a run of one byte is written without reading. -/
def copyMatch (output : List UInt8) (op : ℕ) (ref : ℤ) (len : ℕ) : Except Fault (List UInt8) :=
  if ref = op then do
    let b ← byteAt output (op - 1)
    writeAt output op (List.replicate (len + 3) b)
  else copyCells output op (ref - 1).toNat (len + 3)

/-- The next control byte, if there is one. -/
def nextCtrl (input : List UInt8) (length ip : ℕ) : Except Fault (Option UInt8) :=
  if ip < length then do
    let ctrl ← byteAt input ip
    return some ctrl
  else .ok none

/-- The end of a round: the loop is left with the length of the output when there is no control
byte. -/
def endRound (next : Option UInt8) (ip op : ℕ) (output : List UInt8) :
    DecompressState ⊕ (ℕ × List UInt8) :=
  match next with
  | some ctrl => .inl ⟨ip + 1, op, ctrl.toNat, output⟩
  | none => .inr (op, output)

/-- A round for a match. -/
def matchRound (level : FastlzLevel) (input : List UInt8) (length maxout : ℕ)
    (s : DecompressState) : Except Fault (DecompressState ⊕ (ℕ × List UInt8)) := do
  let (len, ip) ← readLen level input s.ip s.ctrl
  let (ref, ip) ← readRef level input ip s.op s.ctrl
  if s.op + len + 3 > maxout then return .inr (0, s.output)
  else if ref - 1 < 0 then return .inr (0, s.output)
  else do
    let next ← nextCtrl input length ip
    let output ← copyMatch s.output s.op ref len
    return endRound next ip (s.op + len + 3) output

/-- A round for literals. -/
def literalRound (input : List UInt8) (length maxout : ℕ) (s : DecompressState) :
    Except Fault (DecompressState ⊕ (ℕ × List UInt8)) :=
  let ctrl := s.ctrl + 1
  if s.op + ctrl > maxout then .ok (.inr (0, s.output))
  else if s.ip + ctrl > length then .ok (.inr (0, s.output))
  else do
    let bytes ← readAt input s.ip ctrl
    let output ← writeAt s.output s.op bytes
    let next ← nextCtrl input length (s.ip + ctrl)
    return endRound next (s.ip + ctrl) (s.op + ctrl) output

/-- One round of the loop of `FASTLZ_DECOMPRESSOR`. -/
def decompressRound (level : FastlzLevel) (input : List UInt8) (length maxout : ℕ)
    (s : DecompressState) : Except Fault (DecompressState ⊕ (ℕ × List UInt8)) :=
  if s.ctrl ≥ 32 then matchRound level input length maxout s
  else literalRound input length maxout s

/-- `FASTLZ_DECOMPRESSOR`: the result and the block of the output. -/
def fastlzDecompressor (level : FastlzLevel) (input : List UInt8) (length : ℕ)
    (output : List UInt8) (maxout fuel : ℕ) : Run (ℕ × List UInt8) := do
  let ctrl ← Run.ofExcept (byteAt input 0)
  loop (decompressRound level input length maxout) fuel ⟨1, 0, ctrl.toNat % 32, output⟩

/-- `fastlz_decompress`. -/
def fastlzDecompress (input : List UInt8) (length : ℕ) (output : List UInt8) (maxout fuel : ℕ) :
    Run (ℕ × List UInt8) := do
  let magic ← Run.ofExcept (byteAt input 0)
  let level := magic.toNat / 32 + 1
  if level = 1 then fastlzDecompressor .one input length output maxout fuel
  else if level = 2 then fastlzDecompressor .two input length output maxout fuel
  else .done (0, output)

/-! ### Compression -/

/-- The variables of `FASTLZ_COMPRESSOR`.  `htab` holds offsets into the input. -/
structure CompressState where
  ip : ℕ
  op : ℕ
  copy : ℕ
  htab : List ℕ
  output : List UInt8

/-- `FASTLZ_READU16`. -/
def fastlzReadu16 (input : List UInt8) (p : ℕ) : Except Fault ℕ := do
  let low ← byteAt input p
  let high ← byteAt input (p + 1)
  return low.toNat ||| high.toNat <<< 8

/-- `HASH_SIZE`. -/
def fastlzHashSize : ℕ := 1024

/-- `HASH_FUNCTION`. -/
def hashFunction (input : List UInt8) (p : ℕ) : Except Fault ℕ := do
  let v ← fastlzReadu16 input p
  let w ← fastlzReadu16 input (p + 1)
  return (v ^^^ (w ^^^ (v >>> 6))) % fastlzHashSize

/-- Whether the three bytes at `ip` repeat the one in front of them; only level 2 asks. -/
def isRun (level : FastlzLevel) (input : List UInt8) (ip : ℕ) : Except Fault Bool :=
  match level with
  | .one => .ok false
  | .two => do
    let b ← byteAt input ip
    let b' ← byteAt input (ip - 1)
    if b = b' then do
      let v ← fastlzReadu16 input (ip - 1)
      let w ← fastlzReadu16 input (ip + 1)
      return decide (v = w)
    else return false

/-- `n` comparisons of `*ref++` with `*ip++`, up to the first that fails: `ip` behind the last one,
and whether all bytes agree. -/
def compareBytes (input : List UInt8) (ref ip : ℕ) : ℕ → Except Fault (ℕ × Bool)
  | 0 => .ok (ip, true)
  | n + 1 => do
    let r ← byteAt input ref
    let i ← byteAt input ip
    if r ≠ i then return (ip + 1, false) else compareBytes input (ref + 1) (ip + 1) n

/-- The comparison of the first bytes of a candidate: how many agree, if they are enough. -/
def checkMatch (level : FastlzLevel) (input : List UInt8) (anchor ref : ℕ) :
    Except Fault (Option ℕ) := do
  let distance := anchor - ref
  if distance = 0 ∨ distance ≥ level.searchLimit then return none
  else do
    let (_, same) ← compareBytes input ref anchor 3
    if same = false then return none
    else if level = .two ∧ distance ≥ level.maxDistance then do
      -- far, needs at least a match of five bytes
      let (_, same) ← compareBytes input (ref + 3) (anchor + 3) 2
      if same = false then return none else return some 5
    else return some 3

/-- The search for a match at `anchor`: the distance and the bytes that agree, if there is one, and
the table. -/
def findMatch (level : FastlzLevel) (input : List UInt8) (anchor : ℕ) (htab : List ℕ) :
    Except Fault (Option (ℕ × ℕ) × List ℕ) := do
  let run ← isRun level input anchor
  if run then return (some (1, 3), htab)
  else do
    let hval ← hashFunction input anchor
    let ref ← byteAt htab hval
    let found ← checkMatch level input anchor ref
    return (found.map fun len => (anchor - ref, len), htab.set hval anchor)

/-- The end of a run of the byte `x`, with at most `n` comparisons. -/
def extendRun (input : List UInt8) (x : UInt8) (ref ip : ℕ) : ℕ → Except Fault ℕ
  | 0 => .ok ip
  | n + 1 => do
    let b ← byteAt input ref
    if b ≠ x then return ip else extendRun input x (ref + 1) (ip + 1) n

/-- The end of a match: eight comparisons, and then those in front of `ip_bound`. -/
def extendMatch (input : List UInt8) (ipBound ref ip : ℕ) : Except Fault ℕ := do
  let (ip', same) ← compareBytes input ref ip 8
  if same then do
    let (ip'', _) ← compareBytes input (ref + 8) ip' (ipBound - ip')
    return ip''
  else return ip'

/-- `ip` behind a match of at least `len` bytes with the distance `distance`. -/
def extend (input : List UInt8) (length anchor distance len : ℕ) : Except Fault ℕ :=
  let ip := anchor + len
  let ref := anchor - distance + len
  if distance - 1 = 0 then do
    let x ← byteAt input (ip - 1)
    extendRun input x ref ip (length - 2 - ip)
  else extendMatch input (length - 2) ref ip

/-- The control byte of the literals is filled in, or taken back if there are none. -/
def closeLiterals (s : CompressState) : Except Fault (ℕ × List UInt8) :=
  if s.copy ≠ 0 then do
    let output ← writeAt s.output (s.op - s.copy - 1) [UInt8.ofNat (s.copy - 1)]
    return (s.op, output)
  else .ok (s.op - 1, s.output)

/-- The loop of level 1 over a match that is too long for one code, with at most `n` rounds: the
bytes, and the rest of the length. -/
def longMatch (distance : ℕ) : ℕ → ℕ → List UInt8 × ℕ
  | 0, len => ([], len)
  | n + 1, len =>
    if len > fastlzMaxLen - 2 then
      let (bytes, rest) := longMatch distance n (len - (fastlzMaxLen - 2))
      (UInt8.ofNat (7 * 32 + distance / 256) :: UInt8.ofNat (fastlzMaxLen - 2 - 7 - 2) ::
        UInt8.ofNat (distance % 256) :: bytes, rest)
    else ([], len)

/-- The code of level 1 for a match that is not too long. -/
def shortMatch (distance len : ℕ) : List UInt8 :=
  if len < 7 then [UInt8.ofNat (len * 32 + distance / 256), UInt8.ofNat (distance % 256)]
  else [UInt8.ofNat (7 * 32 + distance / 256), UInt8.ofNat (len - 7), UInt8.ofNat (distance % 256)]

/-- The loop of level 2 over the length bytes, with at most `n` rounds. -/
def lenBytes : ℕ → ℕ → List UInt8
  | 0, len => [UInt8.ofNat len]
  | n + 1, len => if len ≥ 255 then 255 :: lenBytes n (len - 255) else [UInt8.ofNat len]

/-- The length of a match of level 2 with the bits `high` of its distance. -/
def lenCode2 (high len : ℕ) : List UInt8 :=
  if len < 7 then [UInt8.ofNat (len * 32 + high)]
  else UInt8.ofNat (7 * 32 + high) :: lenBytes len (len - 7)

/-- The bytes of a match; `distance` and `len` are biased. -/
def matchBytes (level : FastlzLevel) (distance len : ℕ) : List UInt8 :=
  match level with
  | .one =>
    let (bytes, len) := longMatch distance len len
    bytes ++ shortMatch distance len
  | .two =>
    if distance < level.maxDistance then
      lenCode2 (distance / 256) len ++ [UInt8.ofNat (distance % 256)]
    else
      let distance := distance - level.maxDistance
      lenCode2 31 len ++ [255, UInt8.ofNat (distance / 256), UInt8.ofNat (distance % 256)]

/-- The table with the place `ip` entered. -/
def updateHash (input : List UInt8) (htab : List ℕ) (ip : ℕ) : Except Fault (List ℕ) := do
  let hval ← hashFunction input ip
  return htab.set hval ip

/-- The rest of a round in which a match has been found. -/
def encodeMatch (level : FastlzLevel) (input : List UInt8) (length : ℕ) (s : CompressState)
    (distance len : ℕ) (htab : List ℕ) : Except Fault CompressState := do
  let ip ← extend input length s.ip distance len
  let (op, output) ← closeLiterals s
  let ip := ip - 3
  let bytes := matchBytes level (distance - 1) (ip - s.ip)
  let output ← writeAt output op bytes
  let htab ← updateHash input htab ip
  let htab ← updateHash input htab (ip + 1)
  -- assuming literal copy
  let output ← writeAt output (op + bytes.length) [UInt8.ofNat (fastlzMaxCopy - 1)]
  return ⟨ip + 2, op + bytes.length + 1, 0, htab, output⟩

/-- One literal, and a new control byte when the old one has its full number. -/
def putLiteral (input : List UInt8) (s : CompressState) : Except Fault CompressState := do
  let b ← byteAt input s.ip
  let output ← writeAt s.output s.op [b]
  if s.copy + 1 = fastlzMaxCopy then do
    let output ← writeAt output (s.op + 1) [UInt8.ofNat (fastlzMaxCopy - 1)]
    return ⟨s.ip + 1, s.op + 2, 0, s.htab, output⟩
  else return ⟨s.ip + 1, s.op + 1, s.copy + 1, s.htab, output⟩

/-- One round of the main loop of `FASTLZ_COMPRESSOR`. -/
def compressRound (level : FastlzLevel) (input : List UInt8) (length : ℕ) (s : CompressState) :
    Except Fault (CompressState ⊕ CompressState) :=
  if s.ip + 12 < length then do
    let (found, htab) ← findMatch level input s.ip s.htab
    match found with
    | some (distance, len) => do
      let s ← encodeMatch level input length s distance len htab
      return .inl s
    | none => do
      let s ← putLiteral input { s with htab := htab }
      return .inl s
  else .ok (.inr s)

/-- The left-over as literal copy: `n` literals. -/
def leftOver (input : List UInt8) : ℕ → CompressState → Except Fault CompressState
  | 0, s => .ok s
  | n + 1, s => do
    let s ← putLiteral input s
    leftOver input n s

/-- The marker of level 2 in the first byte of the output. -/
def putMarker (level : FastlzLevel) (output : List UInt8) : Except Fault (List UInt8) :=
  match level with
  | .one => .ok output
  | .two => do
    let b ← byteAt output 0
    writeAt output 0 [b ||| 32]

/-- The part of `FASTLZ_COMPRESSOR` behind the main loop. -/
def finishCompress (level : FastlzLevel) (input : List UInt8) (length : ℕ) (s : CompressState) :
    Except Fault (ℤ × List UInt8) := do
  let s ← leftOver input (length - s.ip) s
  let (op, output) ← closeLiterals s
  let output ← putMarker level output
  return ((op : ℤ), output)

/-- The variables in front of the main loop: two literals have been copied. -/
def startCompress (input output : List UInt8) : Except Fault CompressState := do
  let b ← byteAt input 0
  let b' ← byteAt input 1
  let output ← writeAt output 0 [UInt8.ofNat (fastlzMaxCopy - 1), b, b']
  return ⟨2, 3, 2, List.replicate fastlzHashSize 0, output⟩

/-- `FASTLZ_COMPRESSOR`: the result and the block of the output.  `malloc` is the success of the
allocation of the table. -/
def fastlzCompressor (level : FastlzLevel) (malloc : Bool) (input : List UInt8) (length : ℕ)
    (output : List UInt8) (fuel : ℕ) : Run (ℤ × List UInt8) :=
  if malloc = false then .done (-1, output)
  else if length < 4 then
    if length ≠ 0 then Run.ofExcept do
      let bytes ← readAt input 0 length
      let output ← writeAt output 0 (UInt8.ofNat (length - 1) :: bytes)
      return ((length : ℤ) + 1, output)
    else .done (0, output)
  else do
    let s ← Run.ofExcept (startCompress input output)
    let s ← loop (compressRound level input length) fuel s
    Run.ofExcept (finishCompress level input length s)

/-- `fastlz_compress`. -/
def fastlzCompress (malloc : Bool) (input : List UInt8) (length : ℕ) (output : List UInt8)
    (fuel : ℕ) : Run (ℤ × List UInt8) :=
  if length < 65536 then fastlzCompressor .one malloc input length output fuel
  else fastlzCompressor .two malloc input length output fuel

/-- `fastlz_compress_level`. -/
def fastlzCompressLevel (level : ℕ) (malloc : Bool) (input : List UInt8) (length : ℕ)
    (output : List UInt8) (fuel : ℕ) : Run (ℤ × List UInt8) :=
  if level = 1 then fastlzCompressor .one malloc input length output fuel
  else if level = 2 then fastlzCompressor .two malloc input length output fuel
  else .done (0, output)

end WiotaAp
