import SecureShell.Zlib.Format

/-!
A decoder of compressed streams that takes one bit at a time. Its stage says
which number or code word the next bit belongs to; the bit that completes one
also carries out what it stands for. All output stays in the decoder, because
copies read it and the checksum covers it.
-/
namespace SecureShell.Zlib

structure TableSizes where
  literals : Nat
  distances : Nat
  deriving DecidableEq

inductive Number where
  | streamHeader
  | blockHeader
  /-- The size of a stored block and its complement, behind the rest of a byte. -/
  | storedSize (skipped : Nat)
  | storedByte (left : Nat)
  | tableSizes
  /-- One length of the code that the code lengths are written in. -/
  | metaLength (sizes : TableSizes) (left : Nat) (lengths : List Nat)
  /-- How often to repeat a code length; the lengths so far are kept last first. -/
  | repetition (sizes : TableSizes) (code : PrefixCode) (lengths : List Nat) (length least : Nat)
  | lengthExtra (codes : BlockCodes) (least : Nat)
  | distanceExtra (codes : BlockCodes) (length least : Nat)
  /-- The checksum, behind the rest of a byte. -/
  | checksum (skipped : Nat)

inductive Word where
  | codeLength (sizes : TableSizes) (code : PrefixCode) (lengths : List Nat)
  | literal (codes : BlockCodes)
  | distance (codes : BlockCodes) (length : Nat)

inductive Stage where
  /-- The first `got` of `width` bits have come, and denote `value`. -/
  | number (what : Number) (width got value : Nat)
  /-- The bits so far have led to the tree `below`. -/
  | word (what : Word) (below : PrefixCode)
  | finished
  | corrupt

structure Decoder where
  stage : Stage := .number .streamHeader 16 0 0
  /-- How many bits have been taken. -/
  position : Nat := 0
  /-- Is the current block the last one? -/
  lastBlock : Bool := false
  output : Array UInt8 := #[]

namespace Decoder

def fail (d : Decoder) : Decoder := { d with stage := .corrupt }

def read (d : Decoder) (what : Number) (width : Nat) : Decoder :=
  { d with stage := .number what width 0 0 }

def skipped (d : Decoder) : Nat := (8 - d.position % 8) % 8

def write (d : Decoder) (b : UInt8) : Decoder := { d with output := d.output.push b }

/-- The byte at a distance from the end; before the beginning there are zeros. -/
def lookBack (d : Decoder) (distance : Nat) : UInt8 :=
  if distance ≤ d.output.size then d.output.getD (d.output.size - distance) 0 else 0

/-- Writes `length` bytes again that stand at a distance, the new ones included. -/
def copy (distance : Nat) : (length : Nat) → Decoder → Decoder
  | 0, d => d
  | length + 1, d => copy distance length (d.write (d.lookBack distance))

def nextBlock (d : Decoder) : Decoder :=
  if d.lastBlock then d.read (.checksum d.skipped) (d.skipped + 32) else d.read .blockHeader 3

def nextStored (d : Decoder) (left : Nat) : Decoder :=
  if left = 0 then d.nextBlock else d.read (.storedByte left) 8

def nextLiteral (d : Decoder) (codes : BlockCodes) : Decoder :=
  { d with stage := .word (.literal codes) codes.literal }

def nextDistance (d : Decoder) (codes : BlockCodes) (length : Nat) : Decoder :=
  { d with stage := .word (.distance codes length) codes.distance }

/-- Takes the code lengths, last first, or goes on to the next one. -/
def nextCodeLength (d : Decoder) (sizes : TableSizes) (code : PrefixCode) (lengths : List Nat) :
    Decoder :=
  let total := sizes.literals + sizes.distances
  if lengths.length < total then { d with stage := .word (.codeLength sizes code lengths) code }
  else if total < lengths.length then d.fail
  else
    let lengths := lengths.reverse
    match PrefixCode.lenient? (lengths.take sizes.literals),
        PrefixCode.lenient? (lengths.drop sizes.literals) with
    | some literal, some distance => d.nextLiteral ⟨literal, distance⟩
    | _, _ => d.fail

/-- Takes the lengths of the code of code lengths, which come in an order of their own. -/
def nextMetaLength (d : Decoder) (sizes : TableSizes) (left : Nat) (lengths : List Nat) :
    Decoder :=
  if left ≠ 0 then d.read (.metaLength sizes left lengths) 3
  else
    let given := lengthOrder.zip lengths.reverse
    let code := PrefixCode.complete? ((List.range lengthOrder.length).map fun symbol =>
      (given.lookup symbol).getD 0)
    match code with
    | some code => d.nextCodeLength sizes code []
    | none => d.fail

def startBlock (d : Decoder) (header : Nat) : Decoder :=
  let d := { d with lastBlock := header % 2 == 1 }
  match header / 2 with
  | 0 => d.read (.storedSize d.skipped) (d.skipped + 32)
  | 1 => d.nextLiteral .fixed
  | 2 => d.read .tableSizes 14
  | _ => d.fail

/-- May a stream begin so? It must have no preset dictionary and a known method. -/
def headerValid (header : Nat) : Bool :=
  let method := header % 256
  let flags := header / 256
  (method * 256 + flags) % 31 == 0 && method % 16 == 8 && method / 16 ≤ 7 && !flags.testBit 5

/-- Carries out what a complete number stands for. -/
def takeNumber (d : Decoder) (what : Number) (value : Nat) : Decoder :=
  match what with
  | .streamHeader => if headerValid value then d.nextBlock else d.fail
  | .blockHeader => d.startBlock value
  | .storedSize skipped =>
    let size := value / 2 ^ skipped % 65536
    if size + value / 2 ^ skipped / 65536 = 65535 then d.nextStored size else d.fail
  | .storedByte left => (d.write (UInt8.ofNat value)).nextStored (left - 1)
  | .tableSizes =>
    let sizes : TableSizes := ⟨value % 32 + 257, value / 32 % 32 + 1⟩
    if sizes.literals ≤ 286 ∧ sizes.distances ≤ 30 then
      d.nextMetaLength sizes (value / 1024 + 4) []
    else d.fail
  | .metaLength sizes left lengths => d.nextMetaLength sizes (left - 1) (value :: lengths)
  | .repetition sizes code lengths length least =>
    d.nextCodeLength sizes code (List.replicate (least + value) length ++ lengths)
  | .lengthExtra codes least => d.nextDistance codes (least + value)
  | .distanceExtra codes length least => (d.copy (least + value) length).nextLiteral codes
  | .checksum skipped =>
    let sum := Bytes.toNat (Bytes.wide 4 (value / 2 ^ skipped)).reverse
    if sum = Zlib.checksum d.output then { d with stage := .finished } else d.fail

/-- Carries out what a symbol stands for. -/
def takeSymbol (d : Decoder) (what : Word) (symbol : Nat) : Decoder :=
  match what with
  | .codeLength sizes code lengths =>
    match symbol, lengths with
    | 16, length :: _ => d.read (.repetition sizes code lengths length 3) 2
    | 16, [] => d.fail
    | 17, _ => d.read (.repetition sizes code lengths 0 3) 3
    | 18, _ => d.read (.repetition sizes code lengths 0 11) 7
    | _, _ => d.nextCodeLength sizes code (symbol :: lengths)
  | .literal codes =>
    if symbol < endOfBlock then (d.write (UInt8.ofNat symbol)).nextLiteral codes
    else if symbol = endOfBlock then d.nextBlock
    else
      match lengthRanges[symbol - firstLength]? with
      | some (length, 0) => d.nextDistance codes length
      | some (least, extra) => d.read (.lengthExtra codes least) extra
      | none => d.fail
  | .distance codes length =>
    match distanceRanges[symbol]? with
    | some (distance, 0) => (d.copy distance length).nextLiteral codes
    | some (least, extra) => d.read (.distanceExtra codes length least) extra
    | none => d.fail

def step (d : Decoder) (bit : Bool) : Decoder :=
  let d := { d with position := d.position + 1 }
  match d.stage with
  | .number what width got value =>
    let value := value + bit.toNat * 2 ^ got
    if got + 1 < width then { d with stage := .number what width (got + 1) value }
    else d.takeNumber what value
  | .word what below =>
    match below.child bit with
    | .leaf symbol => d.takeSymbol what symbol
    | .fork zero one => { d with stage := .word what (.fork zero one) }
    | .vacant => d.fail
  | .finished | .corrupt => d

/-- Is there nothing to be done before output may grow beyond `room` bytes? A
stored byte is not even begun. -/
def halted (d : Decoder) (room : Nat) : Bool :=
  match d.stage with
  | .finished | .corrupt => true
  | .number (.storedByte _) _ 0 _ => room ≤ d.output.size
  | _ => room < d.output.size

/-- Takes bits until it halts or none are left, and gives back the others. -/
def run (room : Nat) (d : Decoder) : List Bool → Decoder × List Bool
  | [] => (d, [])
  | bit :: rest => if d.halted room then (d, bit :: rest) else run room (d.step bit) rest

def isFinished (d : Decoder) : Bool := d.stage matches .finished

def isCorrupt (d : Decoder) : Bool := d.stage matches .corrupt

end Decoder

end SecureShell.Zlib
