import SecureShell.Arithmetic.PowMod
import SecureShell.Digest.Sha512

/-!
Ed25519 signatures. Points of the curve are kept in extended coordinates, with
x = X/Z, y = Y/Z and xy = T/Z modulo 2^255 - 19; one formula adds any two points.
-/
namespace SecureShell.Ed25519

def prime : Nat := 2 ^ 255 - 19

def order : Nat := 2 ^ 252 + 27742317777372353535851937790883648493

structure Point where
  x : Nat
  y : Nat
  z : Nat
  t : Nat
  deriving DecidableEq

def doubledCoefficient : Nat :=
  2 * 37095705934669439343138083508754565189542113879843219016388785533085940283555

def neutral : Point := ⟨0, 1, 1, 0⟩

def base : Point :=
  let x := 15112221349535400772501151409588531511454012693041857206046113283949847762202
  let y := 46316835694926478169428394003475163141307993866256225615783033603165251855960
  ⟨x, y, 1, x * y % prime⟩

def add (a b : Point) : Point :=
  let m := (a.y + (prime - a.x)) * (b.y + (prime - b.x)) % prime
  let n := (a.y + a.x) * (b.y + b.x) % prime
  let c := a.t * doubledCoefficient % prime * b.t % prime
  let d := 2 * a.z * b.z % prime
  let e := n + (prime - m)
  let f := d + (prime - c)
  let g := d + c
  let h := n + m
  ⟨e * f % prime, g * h % prime, f * g % prime, e * h % prime⟩

/-- Adds to `sum` the multiple of a point by the low `bits` digits of a number. -/
def addMultiple : (bits n : Nat) → (point sum : Point) → Point
  | 0, _, _, sum => sum
  | bits + 1, n, point, sum =>
    addMultiple bits (n / 2) (add point point) (if n % 2 = 1 then add sum point else sum)

def multiple (n : Nat) : Point := addMultiple (bitLength n) n base neutral

/-- The y coordinate, least significant byte first, with the parity of x at the top. -/
def encode (point : Point) : Bytes :=
  let inverse := powMod point.z (prime - 2) prime
  let x := point.x * inverse % prime
  let y := point.y * inverse % prime
  (Bytes.wide 32 (y + x % 2 * 2 ^ 255)).reverse

def littleEndian (bytes : Bytes) : Nat := Bytes.toNat bytes.reverse

/-- The secret scalar: some bits of the seed's hash are fixed. -/
def scalar (seed : Bytes) : Nat :=
  let half := littleEndian ((Digest.Sha512.digest seed).take 32)
  half % 2 ^ 254 / 8 * 8 + 2 ^ 254

def publicKey (seed : Bytes) : Bytes := encode (multiple (scalar seed))

def sign (seed data : Bytes) : Bytes :=
  let nonceKey := (Digest.Sha512.digest seed).drop 32
  let nonce := littleEndian (Digest.Sha512.digest (nonceKey ++ data)) % order
  let commitment := encode (multiple nonce)
  let challenge := littleEndian (Digest.Sha512.digest (commitment ++ publicKey seed ++ data))
  commitment ++ (Bytes.wide 32 ((nonce + challenge * scalar seed) % order)).reverse

end SecureShell.Ed25519
