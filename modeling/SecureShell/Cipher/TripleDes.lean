import SecureShell.Bytes

/-!
DES and its threefold use. One round exchanges the halves of a block, so running
the same rounds with the keys reversed takes a block back; three keys are used in
the order encrypt, decrypt, encrypt.
-/
namespace SecureShell.Des

/-- Picks bits by position, the first position being the most significant of `width`. -/
def pick (width : UInt64) (positions : List UInt64) (x : UInt64) : UInt64 :=
  positions.foldl (fun y p => (y <<< 1) ||| ((x >>> (width - p)) &&& 1)) 0

def initialPositions : List UInt64 :=
  [58, 50, 42, 34, 26, 18, 10, 2, 60, 52, 44, 36, 28, 20, 12, 4, 62, 54, 46, 38, 30, 22, 14, 6,
    64, 56, 48, 40, 32, 24, 16, 8, 57, 49, 41, 33, 25, 17, 9, 1, 59, 51, 43, 35, 27, 19, 11, 3,
    61, 53, 45, 37, 29, 21, 13, 5, 63, 55, 47, 39, 31, 23, 15, 7]

def finalPositions : List UInt64 :=
  [40, 8, 48, 16, 56, 24, 64, 32, 39, 7, 47, 15, 55, 23, 63, 31, 38, 6, 46, 14, 54, 22, 62, 30,
    37, 5, 45, 13, 53, 21, 61, 29, 36, 4, 44, 12, 52, 20, 60, 28, 35, 3, 43, 11, 51, 19, 59, 27,
    34, 2, 42, 10, 50, 18, 58, 26, 33, 1, 41, 9, 49, 17, 57, 25]

/-- The bits of a key that count, its eight parity bits left out. -/
def keyPositions : List UInt64 :=
  [57, 49, 41, 33, 25, 17, 9, 1, 58, 50, 42, 34, 26, 18, 10, 2, 59, 51, 43, 35, 27, 19, 11, 3,
    60, 52, 44, 36, 63, 55, 47, 39, 31, 23, 15, 7, 62, 54, 46, 38, 30, 22, 14, 6, 61, 53, 45, 37,
    29, 21, 13, 5, 28, 20, 12, 4]

def roundKeyPositions : List UInt64 :=
  [14, 17, 11, 24, 1, 5, 3, 28, 15, 6, 21, 10, 23, 19, 12, 4, 26, 8, 16, 7, 27, 20, 13, 2, 41,
    52, 31, 37, 47, 55, 30, 40, 51, 45, 33, 48, 44, 49, 39, 56, 34, 53, 46, 42, 50, 36, 29, 32]

def spreadPositions : List UInt64 :=
  [16, 7, 20, 21, 29, 12, 28, 17, 1, 15, 23, 26, 5, 18, 31, 10, 2, 8, 24, 14, 32, 27, 3, 9, 19,
    13, 30, 6, 22, 11, 4, 25]

/-- The eight substitutions: sixty-four hexadecimal digits each, in four rows of sixteen. -/
def boxes : List Nat :=
  [0xe4d12fb83a6c59070f74e2d1a6cb953841e8d62bfc973a50fc8249175b3ea06d,
    0xf18e6b34972dc05a3d47f28ec01a69b50e7ba4d158c6932fd8a13f42b67c05e9,
    0xa09e63f51dc7b428d709346a285ecbf1d6498f30b12c5ae71ad069874fe3b52c,
    0x7de3069a1285bc4fd8b56f03472c1ae9a690cb7df13e52843f06a1d8945bc72e,
    0x2c417ab6853fd0e9eb2c47d150fa3986421bad78f9c5630eb8c71e2d6f09a453,
    0xc1af92680d34e75baf427c9561de0b389ef528c3704a1db6432c95fabe17608d,
    0x4b2ef08d3c975a61d0b7491ae35c2f8614bdc37eaf6805926bd814a7950fe23c,
    0xd2846fb1a93e50c71fd8a374c56b0e927b419ce206adf35821e74a8dfc90356b]

/-- What a box and the spreading after it make of six bits; the outer two choose the row. -/
def boxEntry (box index digits : Nat) : UInt32 :=
  let row := index / 32 * 2 + index % 2
  let column := index / 2 % 16
  let value := digits >>> (4 * (63 - (row * 16 + column))) % 16
  (pick 32 spreadPositions (UInt64.ofNat (value <<< (28 - 4 * box)))).toUInt32

def boxEntries : Array UInt32 :=
  (boxes.zipIdx.flatMap fun (digits, box) =>
    (List.range 64).map fun index => boxEntry box index digits).toArray

abbrev RoundKey := List UInt32

def rotateLeft (x n : UInt32) : UInt32 := (x <<< n) ||| (x >>> (32 - n))

def group (half : UInt32) (i : Nat) : UInt32 :=
  rotateLeft half (UInt32.ofNat ((5 + 4 * i) % 32)) &&& 0x3f

def mangle (half : UInt32) (key : RoundKey) : UInt32 :=
  (key.foldl (fun (acc, i) k =>
    (acc ^^^ boxEntries.getD (64 * i + (group half i ^^^ k).toNat) 0, i + 1)) (0, 0)).1

structure Halves where
  left : UInt32
  right : UInt32
  deriving DecidableEq

def Halves.swap (h : Halves) : Halves := ⟨h.right, h.left⟩

def round (h : Halves) (key : RoundKey) : Halves := ⟨h.right, h.left ^^^ mangle h.right key⟩

def crypt (keys : List RoundKey) (block : UInt64) : UInt64 :=
  let x := pick 64 initialPositions block
  let h := (keys.foldl round ⟨(x >>> 32).toUInt32, x.toUInt32⟩).swap
  pick 64 finalPositions ((h.left.toUInt64 <<< 32) ||| h.right.toUInt64)

def rotate28 (x n : UInt64) : UInt64 := ((x <<< n) ||| (x >>> (28 - n))) &&& 0xfffffff

def rotations : List UInt64 := [1, 1, 2, 2, 2, 2, 2, 2, 1, 2, 2, 2, 2, 2, 2, 1]

def groups (key : UInt64) : RoundKey :=
  (List.range 8).map fun i => ((key >>> UInt64.ofNat (42 - 6 * i)) &&& 0x3f).toUInt32

def roundKeys (key : Bytes) : List RoundKey :=
  let x := pick 64 keyPositions (UInt64.ofNat (Bytes.toNat key))
  let go := rotations.foldl (fun (keys, c, d) n =>
    let c := rotate28 c n
    let d := rotate28 d n
    (groups (pick 56 roundKeyPositions ((c <<< 28) ||| d)) :: keys, c, d))
    (([] : List RoundKey), x >>> 28, x &&& 0xfffffff)
  go.1.reverse

/-- The round keys of the three keys in turn. -/
structure Schedule where
  first : List RoundKey
  second : List RoundKey
  third : List RoundKey
  deriving DecidableEq

def schedule (key : Bytes) : Schedule :=
  ⟨roundKeys (key.take 8), roundKeys ((key.drop 8).take 8), roundKeys (key.drop 16)⟩

def encrypt (keys : Schedule) (block : Bytes) : Bytes :=
  let x := crypt keys.first (UInt64.ofNat (Bytes.toNat block))
  Bytes.wide 8 (crypt keys.third (crypt keys.second.reverse x)).toNat

def decrypt (keys : Schedule) (block : Bytes) : Bytes :=
  let x := crypt keys.third.reverse (UInt64.ofNat (Bytes.toNat block))
  Bytes.wide 8 (crypt keys.first.reverse (crypt keys.second x)).toNat

end SecureShell.Des
