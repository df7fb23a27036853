import SecureShell.Zlib.PrefixCode

/-!
The tables of the compressed format: the fixed code, the ranges of lengths and
distances that a symbol with extra bits stands for, and the checksum of the
uncompressed bytes.
-/
namespace SecureShell.Zlib

/-- How far back a copy may reach. -/
def windowSize : Nat := 32768

/-- The symbol that ends a block. -/
def endOfBlock : Nat := 256

/-- The first symbol that stands for a length. -/
def firstLength : Nat := 257

/-- The least length that each length symbol stands for, and how many extra bits
are added to it. -/
def lengthRanges : List (Nat × Nat) :=
  [(3, 0), (4, 0), (5, 0), (6, 0), (7, 0), (8, 0), (9, 0), (10, 0),
   (11, 1), (13, 1), (15, 1), (17, 1), (19, 2), (23, 2), (27, 2), (31, 2),
   (35, 3), (43, 3), (51, 3), (59, 3), (67, 4), (83, 4), (99, 4), (115, 4),
   (131, 5), (163, 5), (195, 5), (227, 5), (258, 0)]

/-- The least distance of each distance symbol, and its extra bits. -/
def distanceRanges : List (Nat × Nat) :=
  [(1, 0), (2, 0), (3, 0), (4, 0), (5, 1), (7, 1), (9, 2), (13, 2), (17, 3), (25, 3),
   (33, 4), (49, 4), (65, 5), (97, 5), (129, 6), (193, 6), (257, 7), (385, 7), (513, 8),
   (769, 8), (1025, 9), (1537, 9), (2049, 10), (3073, 10), (4097, 11), (6145, 11),
   (8193, 12), (12289, 12), (16385, 13), (24577, 13)]

/-- The lengths of the fixed code for literals and lengths. -/
def fixedLiteralLengths : List Nat :=
  List.replicate 144 8 ++ List.replicate 112 9 ++ List.replicate 24 7 ++ List.replicate 8 8

def fixedDistanceLengths : List Nat := List.replicate 32 5

/-- The codes of one block. -/
structure BlockCodes where
  literal : PrefixCode
  distance : PrefixCode
  deriving DecidableEq

def BlockCodes.fixed : BlockCodes where
  literal := .ofLengths fixedLiteralLengths
  distance := .ofLengths fixedDistanceLengths

/-- In which order the code of the code lengths lists its own lengths. -/
def lengthOrder : List Nat := [16, 17, 18, 0, 8, 7, 9, 6, 10, 5, 11, 4, 12, 3, 13, 2, 14, 1, 15]

/-- Two sums modulo 65521 over all bytes: of the bytes, and of the first sums. -/
def checksum (data : Array UInt8) : Nat :=
  let (low, high) := data.foldl
    (fun (low, high) b =>
      let low := (low + b.toNat) % 65521
      (low, (high + low) % 65521))
    (1, 0)
  high * 65536 + low

end SecureShell.Zlib
