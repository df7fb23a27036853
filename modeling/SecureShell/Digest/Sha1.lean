import SecureShell.Digest.Hash

/-!
SHA-1: five chaining words, eighty rounds for each block of 64 bytes.
-/
namespace SecureShell.Digest.Sha1

structure Chain where
  a : UInt32
  b : UInt32
  c : UInt32
  d : UInt32
  e : UInt32

def start : Chain := ⟨0x67452301, 0xefcdab89, 0x98badcfe, 0x10325476, 0xc3d2e1f0⟩

def schedule (block : Bytes) : Array UInt32 :=
  (List.range 64).foldl
    (fun w t => w.push (rotateLeft
      (w.getD (t + 13) 0 ^^^ w.getD (t + 8) 0 ^^^ w.getD (t + 2) 0 ^^^ w.getD t 0) 1))
    (words32 block).toArray

def round (w : Array UInt32) (s : Chain) (t : Nat) : Chain :=
  let (f, k) : UInt32 × UInt32 :=
    if t < 20 then ((s.b &&& s.c) ||| (~~~s.b &&& s.d), 0x5a827999)
    else if t < 40 then (s.b ^^^ s.c ^^^ s.d, 0x6ed9eba1)
    else if t < 60 then ((s.b &&& s.c) ||| (s.b &&& s.d) ||| (s.c &&& s.d), 0x8f1bbcdc)
    else (s.b ^^^ s.c ^^^ s.d, 0xca62c1d6)
  ⟨rotateLeft s.a 5 + f + s.e + k + w.getD t 0, s.a, rotateLeft s.b 30, s.c, s.d⟩

def compress (s : Chain) (block : Bytes) : Chain :=
  let r := (List.range 80).foldl (round (schedule block)) s
  ⟨s.a + r.a, s.b + r.b, s.c + r.c, s.d + r.d, s.e + r.e⟩

def digest (data : Bytes) : Bytes :=
  let s := (paddedBig 64 8 data).foldl compress start
  Bytes.ofUInt32 s.a ++ Bytes.ofUInt32 s.b ++ Bytes.ofUInt32 s.c ++ Bytes.ofUInt32 s.d ++
    Bytes.ofUInt32 s.e

def hash : Hash where
  size := 20
  blockSize := 64
  digest := digest
  length_digest data := by simp [digest, Bytes.ofUInt32]
  size_pos := by decide

end SecureShell.Digest.Sha1
