import SecureShell.Algorithm
import SecureShell.Arithmetic.PowMod
import SecureShell.Entropy
import SecureShell.Error

/-!
Diffie-Hellman in a group of integers modulo an odd number. Fixed groups are
built in; a group that a server chooses is checked against the size that was
asked for. A private exponent lies between 2 and the modulus minus 2, and a
peer's value is only used when it lies strictly between 1 and the modulus minus 1.
-/
namespace SecureShell

/-- The modulus sizes, in bits, that a client asks a server to choose from. -/
structure GroupBounds where
  least : UInt32 := 1024
  preferred : UInt32 := 2048
  most : UInt32 := 8192
  deriving DecidableEq

structure DhGroup where
  modulus : Nat
  generator : Nat
  deriving DecidableEq

namespace DhGroup

def group1 : DhGroup where
  modulus :=
    0xFFFFFFFFFFFFFFFFC90FDAA22168C234C4C6628B80DC1CD129024E088A67CC74020BBEA63B139B22514A08798E3404DDEF9519B3CD3A431B302B0A6DF25F14374FE1356D6D51C245E485B576625E7EC6F44C42E9A637ED6B0BFF5CB6F406B7EDEE386BFB5A899FA5AE9F24117C4B1FE649286651ECE65381FFFFFFFFFFFFFFFF
  generator := 2

def group14 : DhGroup where
  modulus :=
    0xFFFFFFFFFFFFFFFFC90FDAA22168C234C4C6628B80DC1CD129024E088A67CC74020BBEA63B139B22514A08798E3404DDEF9519B3CD3A431B302B0A6DF25F14374FE1356D6D51C245E485B576625E7EC6F44C42E9A637ED6B0BFF5CB6F406B7EDEE386BFB5A899FA5AE9F24117C4B1FE649286651ECE45B3DC2007CB8A163BF0598DA48361C55D39A69163FA8FD24CF5F83655D23DCA3AD961C62F356208552BB9ED529077096966D670C354E4ABC9804F1746C08CA18217C32905E462E36CE3BE39E772C180E86039B2783A2EC07A28FB5C55DF06F4C52C9DE2BCBF6955817183995497CEA956AE515D2261898FA051015728E5A8AACAA68FFFFFFFFFFFFFFFF
  generator := 2

def ofMethod? : KexMethod → Option DhGroup
  | .groupExchange => none
  | .group14 => some group14
  | .group1 => some group1

/-- Accepts a group of a size within bounds with an odd modulus and a generator
strictly between 1 and the modulus minus 1. -/
def check (bounds : GroupBounds) (modulus generator : Nat) : Except Error DhGroup :=
  let bits := bitLength modulus
  if bits < bounds.least.toNat ∨ bounds.most.toNat < bits then
    .error (.crypto (.groupSize bits bounds.least bounds.most))
  else if modulus % 2 = 0 then .error (.crypto .evenModulus)
  else if generator ≤ 1 ∨ modulus - 1 ≤ generator then
    .error (.crypto .generatorOutOfRange)
  else .ok ⟨modulus, generator⟩

end DhGroup

/-- One side's part of an exchange: the group and the private exponent. -/
structure DhExchange where
  group : DhGroup
  exponent : Nat
  deriving DecidableEq

namespace DhExchange

/-- A number of as many bits as `bound`, from random words, lowest first; the
highest word loses the bits that are not needed. -/
def randomNumber (entropy : Entropy) (bound : Nat) : Nat :=
  let bits := bitLength bound
  let words := (bits + 31) / 32
  let drawn := Bytes.toNat (entropy.bytes (4 * words)).reverse
  let high := 32 * (words - 1)
  drawn % 2 ^ high + drawn / 2 ^ high / 2 ^ (32 * words - bits) * 2 ^ high

/-- Draws an exponent from 2 up to the modulus minus 2. -/
def create (entropy : Entropy) (group : DhGroup) : DhExchange :=
  let range := group.modulus - 3
  ⟨group, 2 + randomNumber entropy range % range⟩

def publicValue (dh : DhExchange) : Nat := powMod dh.group.generator dh.exponent dh.group.modulus

def publicBytes (dh : DhExchange) : Bytes := Bytes.ofNatNonempty dh.publicValue

def sharedSecret (dh : DhExchange) (peer : Bytes) : Except Error Bytes :=
  let value := Bytes.toNat peer
  if value ≤ 1 ∨ dh.group.modulus - 1 ≤ value then .error (.crypto .peerOutOfRange)
  else .ok (Bytes.ofNatNonempty (powMod value dh.exponent dh.group.modulus))

def summary (dh : DhExchange) : String :=
  "DhExchange \x7b bits: " ++ toString (bitLength dh.group.modulus) ++
    ", private_key: \"<redacted>\" \x7d"

end DhExchange

end SecureShell
