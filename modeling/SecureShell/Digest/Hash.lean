import SecureShell.Bytes

/-!
Cryptographic hash functions as values, and what their constructions share: data
is padded to whole blocks with a one bit, zeros and its length in bits, and
blocks are read as words.
-/
namespace SecureShell

/-- A hash function with outputs of one non-zero length. -/
structure Hash where
  /-- The length of an output in bytes. -/
  size : Nat
  /-- The length of the blocks that data is cut into. -/
  blockSize : Nat
  digest : Bytes → Bytes
  length_digest : ∀ data, (digest data).length = size
  size_pos : 0 < size

namespace Digest

/-- Data with its closing bit and the zeros that leave room for `lengthSize` bytes. -/
def closed (blockSize lengthSize : Nat) (data : Bytes) : Bytes :=
  let used := (data.length + 1 + lengthSize) % blockSize
  data ++ 0x80 :: List.replicate ((blockSize - used) % blockSize) 0

/-- Whole blocks that end in the length, most significant byte first. -/
def paddedBig (blockSize lengthSize : Nat) (data : Bytes) : List Bytes :=
  Bytes.pieces blockSize
    (closed blockSize lengthSize data ++ Bytes.wide lengthSize (8 * data.length))

def paddedLittle (blockSize lengthSize : Nat) (data : Bytes) : List Bytes :=
  Bytes.pieces blockSize
    (closed blockSize lengthSize data ++ (Bytes.wide lengthSize (8 * data.length)).reverse)

def words32 : Bytes → List UInt32
  | a :: b :: c :: d :: rest =>
    ((a.toUInt32 <<< 24) ||| (b.toUInt32 <<< 16) ||| (c.toUInt32 <<< 8) ||| d.toUInt32) ::
      words32 rest
  | _ => []

def words32Little : Bytes → List UInt32
  | a :: b :: c :: d :: rest =>
    (a.toUInt32 ||| (b.toUInt32 <<< 8) ||| (c.toUInt32 <<< 16) ||| (d.toUInt32 <<< 24)) ::
      words32Little rest
  | _ => []

def words64 : Bytes → List UInt64
  | a :: b :: c :: d :: e :: f :: g :: h :: rest =>
    ((a.toUInt64 <<< 56) ||| (b.toUInt64 <<< 48) ||| (c.toUInt64 <<< 40) |||
      (d.toUInt64 <<< 32) ||| (e.toUInt64 <<< 24) ||| (f.toUInt64 <<< 16) |||
      (g.toUInt64 <<< 8) ||| h.toUInt64) :: words64 rest
  | _ => []

def rotateLeft (x : UInt32) (n : UInt32) : UInt32 := (x <<< n) ||| (x >>> (32 - n))

def rotateRight (x : UInt32) (n : UInt32) : UInt32 := (x >>> n) ||| (x <<< (32 - n))

def rotateRight64 (x : UInt64) (n : UInt64) : UInt64 := (x >>> n) ||| (x <<< (64 - n))

end Digest

end SecureShell
