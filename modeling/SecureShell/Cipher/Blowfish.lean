import SecureShell.Bytes

/-!
Blowfish. Its tables start as the binary digits of π behind the point, computed
here from two arctangent series; the key is mixed in by encrypting a running
block over and over. A round exchanges the halves of a block, so the rounds with
the subkeys reversed take a block back.
-/
namespace SecureShell.Blowfish

/-- Adds up `terms` terms of the alternating arctangent series of the inverse of `k`. -/
def arctanSeries (k : Nat) : (terms power n add sub : Nat) → Nat
  | 0, _, _, add, sub => add - sub
  | terms + 1, power, n, add, sub =>
    arctanSeries k terms (power / (k * k)) (n + 2) sub (add + power / n)

/-- The arctangent of the inverse of `k`, times 2^bits; the count of terms is even. -/
def arctanInverse (k bits : Nat) : Nat :=
  arctanSeries k (2 * (bits / (4 * k.log2) + 1)) (2 ^ bits / k) 1 0 0

/-- The leading `bits` binary digits of π behind the point. -/
def piFraction (bits : Nat) : Nat :=
  let guarded := bits + 64
  (16 * arctanInverse 5 guarded - 4 * arctanInverse 239 guarded) / 2 ^ 64 % 2 ^ bits

structure Schedule where
  /-- Sixteen round keys, and two that are added after the rounds. -/
  subkeys : List UInt32
  /-- Four tables of 256 words, one behind the other. -/
  boxes : Array UInt32
  deriving DecidableEq

def piWords : List UInt32 :=
  let bits := 32 * (18 + 1024)
  let digits := piFraction bits
  (List.range (18 + 1024)).map fun i => UInt32.ofNat (digits >>> (bits - 32 * (i + 1)))

def initial : Schedule := ⟨piWords.take 18, (piWords.drop 18).toArray⟩

def mangle (boxes : Array UInt32) (x : UInt32) : UInt32 :=
  ((boxes.getD (x >>> 24).toNat 0 + boxes.getD (256 + ((x >>> 16) &&& 0xff).toNat) 0) ^^^
    boxes.getD (512 + ((x >>> 8) &&& 0xff).toNat) 0) + boxes.getD (768 + (x &&& 0xff).toNat) 0

structure Halves where
  left : UInt32
  right : UInt32
  deriving DecidableEq

def round (boxes : Array UInt32) (h : Halves) (subkey : UInt32) : Halves :=
  let left := h.left ^^^ subkey
  ⟨h.right ^^^ mangle boxes left, left⟩

def crypt (boxes : Array UInt32) (subkeys : List UInt32) (h : Halves) : Halves :=
  let h := (subkeys.take 16).foldl (round boxes) h
  ⟨h.right ^^^ subkeys.getD 17 0, h.left ^^^ subkeys.getD 16 0⟩

/-- The key, over and over, as eighteen words. -/
def keyWords (key : Bytes) : List UInt32 :=
  let cells := key.toArray
  (List.range 18).map fun i =>
    Bytes.toUInt32 ((List.range 4).map fun j => cells.getD ((4 * i + j) % cells.size) 0)

def refillSubkeys (boxes : Array UInt32) (state : List UInt32 × Halves) (i : Nat) :
    List UInt32 × Halves :=
  let (subkeys, h) := state
  let h := crypt boxes subkeys h
  ((subkeys.set (2 * i) h.left).set (2 * i + 1) h.right, h)

def refillBoxes (subkeys : List UInt32) (state : Array UInt32 × Halves) (i : Nat) :
    Array UInt32 × Halves :=
  let (boxes, h) := state
  let h := crypt boxes subkeys h
  ((boxes.setIfInBounds (2 * i) h.left).setIfInBounds (2 * i + 1) h.right, h)

def schedule (key : Bytes) : Schedule :=
  let mixed := List.zipWith (· ^^^ ·) initial.subkeys (keyWords key)
  let (subkeys, h) := (List.range 9).foldl (refillSubkeys initial.boxes) (mixed, ⟨0, 0⟩)
  let (boxes, _) := (List.range 512).foldl (refillBoxes subkeys) (initial.boxes, h)
  ⟨subkeys, boxes⟩

def Halves.ofBytes (block : Bytes) : Halves :=
  ⟨Bytes.toUInt32 (block.take 4), Bytes.toUInt32 (block.drop 4)⟩

def Halves.toBytes (h : Halves) : Bytes := Bytes.ofUInt32 h.left ++ Bytes.ofUInt32 h.right

def encrypt (keys : Schedule) (block : Bytes) : Bytes :=
  (crypt keys.boxes keys.subkeys (.ofBytes block)).toBytes

def decrypt (keys : Schedule) (block : Bytes) : Bytes :=
  (crypt keys.boxes keys.subkeys.reverse (.ofBytes block)).toBytes

end SecureShell.Blowfish
