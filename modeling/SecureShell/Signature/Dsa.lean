import SecureShell.Arithmetic.Inverse
import SecureShell.Arithmetic.PowMod
import SecureShell.Digest.Sha1
import SecureShell.Signature.Der

/-!
DSA signatures over a SHA-1 digest. Domain parameters and public key are checked
before the signature is looked at.
-/
namespace SecureShell.Dsa

structure PublicKey where
  p : Nat
  q : Nat
  g : Nat
  y : Nat
  deriving DecidableEq

namespace PublicKey

def domainValid (key : PublicKey) : Bool :=
  2 ≤ key.p && 2 ≤ key.q && key.g != 0 && key.g ≤ key.p

def valueValid (key : PublicKey) : Bool := 2 ≤ key.y && powMod key.y key.q key.p == 1

/-- The number that a digest stands for: as many whole bytes of it as fit the order. -/
def digestNumber (key : PublicKey) (data : Bytes) : Nat :=
  Bytes.toNat ((Digest.Sha1.digest data).take (bitLength key.q / 8))

/-- Checks the two numbers of a signature against the digest of some data. -/
def admits (key : PublicKey) (data : Bytes) (r s : Nat) : Bool :=
  if r = 0 ∨ key.q ≤ r ∨ s = 0 ∨ key.q ≤ s then false
  else
    match inverseMod s key.q with
    | none => false
    | some w =>
      let u1 := key.digestNumber data * w % key.q
      let u2 := r * w % key.q
      powMod key.g u1 key.p * powMod key.y u2 key.p % key.p % key.q == r

def verify (key : PublicKey) (data signature : Bytes) : Except Error Bool := do
  if !key.domainValid then throw (.hostKey .dsaDomain)
  if !key.valueValid then throw (.hostKey .dsaPublicKey)
  if signature.length ≠ Der.dssLength then throw (.hostKey (.dssLength signature.length))
  return key.admits data (Bytes.toNat (signature.take 20)) (Bytes.toNat (signature.drop 20))

end PublicKey

end SecureShell.Dsa
