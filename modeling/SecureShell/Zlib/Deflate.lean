import SecureShell.Zlib.Format

/-!
Writing compressed streams. A run of one byte is written once, and the rest of it
as copies of the byte before; everything goes through the fixed code. Each piece
of data ends with an empty stored block, so that it can be read at once.
-/
namespace SecureShell.Zlib

/-- What a block is made of. -/
inductive Token where
  | literal (b : UInt8)
  /-- The byte before, `length` times more. -/
  | again (length : Nat)
  deriving DecidableEq

def addToRuns (b : UInt8) : List (UInt8 × Nat) → List (UInt8 × Nat)
  | (c, n) :: more => if b = c then (c, n + 1) :: more else (b, 1) :: (c, n) :: more
  | [] => [(b, 1)]

def runs (data : Bytes) : List (UInt8 × Nat) := data.foldr addToRuns []

/-- Writes a byte `count` times where the same byte stands before; a copy has a
length from 3 to 258. -/
def repeatTokens (b : UInt8) (count : Nat) : List Token :=
  if count < 3 then List.replicate count (.literal b)
  else .again (min count 258) :: repeatTokens b (count - min count 258)

def runTokens : UInt8 × Nat → List Token
  | (_, 0) => []
  | (b, count + 1) => .literal b :: repeatTokens b count

def tokens (data : Bytes) : List Token := (runs data).flatMap runTokens

def fixedWords : Array (List Bool) :=
  let words := PrefixCode.words fixedLiteralLengths
  ((List.range fixedLiteralLengths.length).map fun s => (words.lookup s).getD []).toArray

def fixedWord (symbol : Nat) : List Bool := fixedWords.getD symbol []

def lengthIndex (length : Nat) : Nat := (lengthRanges.takeWhile (·.1 ≤ length)).length - 1

/-- The bits of a token; distance 1 is the first symbol of the distance code. -/
def Token.bits : Token → List Bool
  | .literal b => fixedWord b.toNat
  | .again length =>
    let index := lengthIndex length
    let (least, extra) := lengthRanges.getD index (0, 0)
    fixedWord (firstLength + index) ++ lowBits extra (length - least) ++ List.replicate 5 false

/-- One block in the fixed code, which is not the last. -/
def blockBits (data : Bytes) : List Bool :=
  lowBits 3 2 ++ (tokens data).flatMap Token.bits ++ fixedWord endOfBlock

/-- An empty stored block after `before`, up to a whole byte. -/
def flushed (before : List Bool) : Bytes := pack (before ++ lowBits 3 0) ++ [0, 0, 0xff, 0xff]

/-- How a stream begins: the method, and a window of full size. -/
def streamHeader : Bytes := [0x78, 0x01]

def deflate (data : Bytes) : Bytes := flushed (if data.isEmpty then [] else blockBits data)

end SecureShell.Zlib
