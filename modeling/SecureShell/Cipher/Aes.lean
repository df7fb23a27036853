import SecureShell.Bytes

/-!
AES with a 128-bit key. A block is four columns of four bytes; each step of a
round is a function on blocks with its inverse beside it.
-/
namespace SecureShell.Aes

structure Column where
  r0 : UInt8
  r1 : UInt8
  r2 : UInt8
  r3 : UInt8
  deriving DecidableEq

structure Block where
  c0 : Column
  c1 : Column
  c2 : Column
  c3 : Column
  deriving DecidableEq

def substitution : Array UInt8 :=
  #[0x63, 0x7c, 0x77, 0x7b, 0xf2, 0x6b, 0x6f, 0xc5, 0x30, 0x01, 0x67, 0x2b, 0xfe, 0xd7, 0xab, 0x76,
    0xca, 0x82, 0xc9, 0x7d, 0xfa, 0x59, 0x47, 0xf0, 0xad, 0xd4, 0xa2, 0xaf, 0x9c, 0xa4, 0x72, 0xc0,
    0xb7, 0xfd, 0x93, 0x26, 0x36, 0x3f, 0xf7, 0xcc, 0x34, 0xa5, 0xe5, 0xf1, 0x71, 0xd8, 0x31, 0x15,
    0x04, 0xc7, 0x23, 0xc3, 0x18, 0x96, 0x05, 0x9a, 0x07, 0x12, 0x80, 0xe2, 0xeb, 0x27, 0xb2, 0x75,
    0x09, 0x83, 0x2c, 0x1a, 0x1b, 0x6e, 0x5a, 0xa0, 0x52, 0x3b, 0xd6, 0xb3, 0x29, 0xe3, 0x2f, 0x84,
    0x53, 0xd1, 0x00, 0xed, 0x20, 0xfc, 0xb1, 0x5b, 0x6a, 0xcb, 0xbe, 0x39, 0x4a, 0x4c, 0x58, 0xcf,
    0xd0, 0xef, 0xaa, 0xfb, 0x43, 0x4d, 0x33, 0x85, 0x45, 0xf9, 0x02, 0x7f, 0x50, 0x3c, 0x9f, 0xa8,
    0x51, 0xa3, 0x40, 0x8f, 0x92, 0x9d, 0x38, 0xf5, 0xbc, 0xb6, 0xda, 0x21, 0x10, 0xff, 0xf3, 0xd2,
    0xcd, 0x0c, 0x13, 0xec, 0x5f, 0x97, 0x44, 0x17, 0xc4, 0xa7, 0x7e, 0x3d, 0x64, 0x5d, 0x19, 0x73,
    0x60, 0x81, 0x4f, 0xdc, 0x22, 0x2a, 0x90, 0x88, 0x46, 0xee, 0xb8, 0x14, 0xde, 0x5e, 0x0b, 0xdb,
    0xe0, 0x32, 0x3a, 0x0a, 0x49, 0x06, 0x24, 0x5c, 0xc2, 0xd3, 0xac, 0x62, 0x91, 0x95, 0xe4, 0x79,
    0xe7, 0xc8, 0x37, 0x6d, 0x8d, 0xd5, 0x4e, 0xa9, 0x6c, 0x56, 0xf4, 0xea, 0x65, 0x7a, 0xae, 0x08,
    0xba, 0x78, 0x25, 0x2e, 0x1c, 0xa6, 0xb4, 0xc6, 0xe8, 0xdd, 0x74, 0x1f, 0x4b, 0xbd, 0x8b, 0x8a,
    0x70, 0x3e, 0xb5, 0x66, 0x48, 0x03, 0xf6, 0x0e, 0x61, 0x35, 0x57, 0xb9, 0x86, 0xc1, 0x1d, 0x9e,
    0xe1, 0xf8, 0x98, 0x11, 0x69, 0xd9, 0x8e, 0x94, 0x9b, 0x1e, 0x87, 0xe9, 0xce, 0x55, 0x28, 0xdf,
    0x8c, 0xa1, 0x89, 0x0d, 0xbf, 0xe6, 0x42, 0x68, 0x41, 0x99, 0x2d, 0x0f, 0xb0, 0x54, 0xbb, 0x16]

def substitutionInverse : Array UInt8 :=
  #[0x52, 0x09, 0x6a, 0xd5, 0x30, 0x36, 0xa5, 0x38, 0xbf, 0x40, 0xa3, 0x9e, 0x81, 0xf3, 0xd7, 0xfb,
    0x7c, 0xe3, 0x39, 0x82, 0x9b, 0x2f, 0xff, 0x87, 0x34, 0x8e, 0x43, 0x44, 0xc4, 0xde, 0xe9, 0xcb,
    0x54, 0x7b, 0x94, 0x32, 0xa6, 0xc2, 0x23, 0x3d, 0xee, 0x4c, 0x95, 0x0b, 0x42, 0xfa, 0xc3, 0x4e,
    0x08, 0x2e, 0xa1, 0x66, 0x28, 0xd9, 0x24, 0xb2, 0x76, 0x5b, 0xa2, 0x49, 0x6d, 0x8b, 0xd1, 0x25,
    0x72, 0xf8, 0xf6, 0x64, 0x86, 0x68, 0x98, 0x16, 0xd4, 0xa4, 0x5c, 0xcc, 0x5d, 0x65, 0xb6, 0x92,
    0x6c, 0x70, 0x48, 0x50, 0xfd, 0xed, 0xb9, 0xda, 0x5e, 0x15, 0x46, 0x57, 0xa7, 0x8d, 0x9d, 0x84,
    0x90, 0xd8, 0xab, 0x00, 0x8c, 0xbc, 0xd3, 0x0a, 0xf7, 0xe4, 0x58, 0x05, 0xb8, 0xb3, 0x45, 0x06,
    0xd0, 0x2c, 0x1e, 0x8f, 0xca, 0x3f, 0x0f, 0x02, 0xc1, 0xaf, 0xbd, 0x03, 0x01, 0x13, 0x8a, 0x6b,
    0x3a, 0x91, 0x11, 0x41, 0x4f, 0x67, 0xdc, 0xea, 0x97, 0xf2, 0xcf, 0xce, 0xf0, 0xb4, 0xe6, 0x73,
    0x96, 0xac, 0x74, 0x22, 0xe7, 0xad, 0x35, 0x85, 0xe2, 0xf9, 0x37, 0xe8, 0x1c, 0x75, 0xdf, 0x6e,
    0x47, 0xf1, 0x1a, 0x71, 0x1d, 0x29, 0xc5, 0x89, 0x6f, 0xb7, 0x62, 0x0e, 0xaa, 0x18, 0xbe, 0x1b,
    0xfc, 0x56, 0x3e, 0x4b, 0xc6, 0xd2, 0x79, 0x20, 0x9a, 0xdb, 0xc0, 0xfe, 0x78, 0xcd, 0x5a, 0xf4,
    0x1f, 0xdd, 0xa8, 0x33, 0x88, 0x07, 0xc7, 0x31, 0xb1, 0x12, 0x10, 0x59, 0x27, 0x80, 0xec, 0x5f,
    0x60, 0x51, 0x7f, 0xa9, 0x19, 0xb5, 0x4a, 0x0d, 0x2d, 0xe5, 0x7a, 0x9f, 0x93, 0xc9, 0x9c, 0xef,
    0xa0, 0xe0, 0x3b, 0x4d, 0xae, 0x2a, 0xf5, 0xb0, 0xc8, 0xeb, 0xbb, 0x3c, 0x83, 0x53, 0x99, 0x61,
    0x17, 0x2b, 0x04, 0x7e, 0xba, 0x77, 0xd6, 0x26, 0xe1, 0x69, 0x14, 0x63, 0x55, 0x21, 0x0c, 0x7d]

def substitute (b : UInt8) : UInt8 := substitution.getD b.toNat 0

def unsubstitute (b : UInt8) : UInt8 := substitutionInverse.getD b.toNat 0

namespace Column

def map (f : UInt8 → UInt8) (c : Column) : Column := ⟨f c.r0, f c.r1, f c.r2, f c.r3⟩

def xor (a b : Column) : Column := ⟨a.r0 ^^^ b.r0, a.r1 ^^^ b.r1, a.r2 ^^^ b.r2, a.r3 ^^^ b.r3⟩

def rotate (c : Column) : Column := ⟨c.r1, c.r2, c.r3, c.r0⟩

def ofBytes (bytes : Bytes) : Column :=
  ⟨bytes.getD 0 0, bytes.getD 1 0, bytes.getD 2 0, bytes.getD 3 0⟩

def toBytes (c : Column) : Bytes := [c.r0, c.r1, c.r2, c.r3]

/-- Twice a byte, as a polynomial modulo x^8 + x^4 + x^3 + x + 1. -/
def double (b : UInt8) : UInt8 := (b <<< 1) ^^^ (if b < 0x80 then 0 else 0x1b)

def mix (c : Column) : Column :=
  let d := c.map double
  ⟨d.r0 ^^^ d.r1 ^^^ c.r1 ^^^ c.r2 ^^^ c.r3, c.r0 ^^^ d.r1 ^^^ d.r2 ^^^ c.r2 ^^^ c.r3,
    c.r0 ^^^ c.r1 ^^^ d.r2 ^^^ d.r3 ^^^ c.r3, d.r0 ^^^ c.r0 ^^^ c.r1 ^^^ c.r2 ^^^ d.r3⟩

def unmix (c : Column) : Column :=
  let d := c.map double
  let q := d.map double
  let o := q.map double
  ⟨o.r0 ^^^ q.r0 ^^^ d.r0 ^^^ o.r1 ^^^ d.r1 ^^^ c.r1 ^^^ o.r2 ^^^ q.r2 ^^^ c.r2 ^^^ o.r3 ^^^ c.r3,
    o.r0 ^^^ c.r0 ^^^ o.r1 ^^^ q.r1 ^^^ d.r1 ^^^ o.r2 ^^^ d.r2 ^^^ c.r2 ^^^ o.r3 ^^^ q.r3 ^^^ c.r3,
    o.r0 ^^^ q.r0 ^^^ c.r0 ^^^ o.r1 ^^^ c.r1 ^^^ o.r2 ^^^ q.r2 ^^^ d.r2 ^^^ o.r3 ^^^ d.r3 ^^^ c.r3,
    o.r0 ^^^ d.r0 ^^^ c.r0 ^^^ o.r1 ^^^ q.r1 ^^^ c.r1 ^^^ o.r2 ^^^ c.r2 ^^^ o.r3 ^^^ q.r3 ^^^ d.r3⟩

end Column

namespace Block

def map (f : Column → Column) (b : Block) : Block := ⟨f b.c0, f b.c1, f b.c2, f b.c3⟩

def xor (a b : Block) : Block :=
  ⟨a.c0.xor b.c0, a.c1.xor b.c1, a.c2.xor b.c2, a.c3.xor b.c3⟩

def ofBytes (bytes : Bytes) : Block :=
  ⟨.ofBytes bytes, .ofBytes (bytes.drop 4), .ofBytes (bytes.drop 8), .ofBytes (bytes.drop 12)⟩

def toBytes (b : Block) : Bytes :=
  b.c0.toBytes ++ b.c1.toBytes ++ b.c2.toBytes ++ b.c3.toBytes

def shiftRows (b : Block) : Block :=
  ⟨⟨b.c0.r0, b.c1.r1, b.c2.r2, b.c3.r3⟩, ⟨b.c1.r0, b.c2.r1, b.c3.r2, b.c0.r3⟩,
    ⟨b.c2.r0, b.c3.r1, b.c0.r2, b.c1.r3⟩, ⟨b.c3.r0, b.c0.r1, b.c1.r2, b.c2.r3⟩⟩

def unshiftRows (b : Block) : Block :=
  ⟨⟨b.c0.r0, b.c3.r1, b.c2.r2, b.c1.r3⟩, ⟨b.c1.r0, b.c0.r1, b.c3.r2, b.c2.r3⟩,
    ⟨b.c2.r0, b.c1.r1, b.c0.r2, b.c3.r3⟩, ⟨b.c3.r0, b.c2.r1, b.c1.r2, b.c0.r3⟩⟩

def substitute (b : Block) : Block := b.map (·.map Aes.substitute)

def unsubstitute (b : Block) : Block := b.map (·.map Aes.unsubstitute)

end Block

/-- The keys of the ten rounds, with the one added before them. -/
structure Schedule where
  first : Block
  middle : List Block
  last : Block
  deriving DecidableEq

def roundConstants : List UInt8 := [0x01, 0x02, 0x04, 0x08, 0x10, 0x20, 0x40, 0x80, 0x1b]

def nextKey (key : Block) (constant : UInt8) : Block :=
  let c0 := (key.c0.xor (key.c3.rotate.map substitute)).xor ⟨constant, 0, 0, 0⟩
  let c1 := key.c1.xor c0
  let c2 := key.c2.xor c1
  ⟨c0, c1, c2, key.c3.xor c2⟩

def expand (key : Block) : List UInt8 → List Block × Block
  | [] => ([], nextKey key 0x36)
  | constant :: rest =>
    let next := nextKey key constant
    let (middle, last) := expand next rest
    (next :: middle, last)

def schedule (key : Bytes) : Schedule :=
  let first := Block.ofBytes key
  let (middle, last) := expand first roundConstants
  ⟨first, middle, last⟩

def round (b key : Block) : Block := (b.substitute.shiftRows.map (·.mix)).xor key

def unround (b key : Block) : Block := ((b.xor key).map (·.unmix)).unshiftRows.unsubstitute

def encrypt (keys : Schedule) (block : Bytes) : Bytes :=
  let b := keys.middle.foldl round ((Block.ofBytes block).xor keys.first)
  (b.substitute.shiftRows.xor keys.last).toBytes

def decrypt (keys : Schedule) (block : Bytes) : Bytes :=
  let b := ((Block.ofBytes block).xor keys.last).unshiftRows.unsubstitute
  ((keys.middle.foldr (fun key b => unround b key) b).xor keys.first).toBytes

@[simp] theorem length_toBytes (b : Block) : b.toBytes.length = 16 := rfl

end SecureShell.Aes
