import SecureShell.Arithmetic.PowMod
import SecureShell.Digest.Sha1
import SecureShell.Error

/-!
RSA signatures over a SHA-1 digest. Signer and verifier build the same encoded
message: as long as the modulus, filled up with ones, the digest at its end.
-/
namespace SecureShell.Rsa

def digestInfo : Bytes :=
  [0x30, 0x21, 0x30, 0x09, 0x06, 0x05, 0x2b, 0x0e, 0x03, 0x02, 0x1a, 0x05, 0x00, 0x04, 0x14]

def byteLength (n : Nat) : Nat := (bitLength n + 7) / 8

def encoded (length : Nat) (data : Bytes) : Bytes :=
  let tail := 0x00 :: digestInfo ++ Digest.Sha1.digest data
  [0x00, 0x01] ++ List.replicate (length - 2 - tail.length) 0xff ++ tail

/-- The least length that leaves room for eight filling bytes. -/
def minLength : Nat := digestInfo.length + Digest.Sha1.hash.size + 11

/-- The signature of some data, as long as the modulus. -/
def sign (modulus privateExponent : Nat) (data : Bytes) : Except Error Bytes :=
  let length := byteLength modulus
  if length < minLength then .error (.crypto .modulusTooShort)
  else
    .ok (Bytes.wide length
      (powMod (Bytes.toNat (encoded length data)) privateExponent modulus))

/-- From 1024 bits on there is room for the encoded message. -/
theorem sign_eq {modulus : Nat} (bits : 1024 ≤ bitLength modulus) (privateExponent : Nat)
    (data : Bytes) :
    sign modulus privateExponent data =
      .ok (Bytes.wide (byteLength modulus)
        (powMod (Bytes.toNat (encoded (byteLength modulus) data)) privateExponent modulus)) := by
  have least : minLength = 46 := rfl
  have long : ¬ byteLength modulus < minLength := by
    rw [byteLength, least]
    omega
  rw [sign, if_neg long]

def acceptable (modulus exponent : Nat) : Bool :=
  modulus % 2 == 1 && 128 ≤ byteLength modulus && byteLength modulus ≤ 1024 &&
    exponent % 2 == 1 && 3 ≤ exponent && exponent < 2 ^ 33

/-- What judges a signature that is as long as the modulus. -/
abbrev Verifier := (modulus exponent : Nat) → (data signature : Bytes) → Bool

def standard : Verifier := fun modulus exponent data signature =>
  let s := Bytes.toNat signature
  acceptable modulus exponent && signature.length == byteLength modulus && 0 < s && s < modulus &&
    powMod s exponent modulus == Bytes.toNat (encoded (byteLength modulus) data)

/-- Verifies a signature of any length: without its leading zeros it must fit into the
modulus, and it is judged filled up with zeros to the length of the modulus. -/
def verifyWith (verifier : Verifier) (modulus exponent : Nat) (data signature : Bytes) : Bool :=
  let significant := Bytes.trimZeros signature
  let length := byteLength modulus
  if length < significant.length then false
  else
    verifier modulus exponent data
      (List.replicate (length - significant.length) 0 ++ significant)

end SecureShell.Rsa
