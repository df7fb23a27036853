import SecureShell.Signature.Ed25519
import SecureShell.Signature.Rsa
import SecureShell.Wire.Writer

/-!
Keys with which a user proves an identity, and the two kinds of credential.
-/
namespace SecureShell

structure RsaKeyPair where
  modulus : Nat
  publicExponent : Nat
  privateExponent : Nat
  deriving DecidableEq

namespace RsaKeyPair

/-- Accepts a modulus of at least 1024 bits and exponents below it other than zero. -/
def create (modulus publicExponent privateExponent : Nat) : Except Error RsaKeyPair :=
  if bitLength modulus < 1024 then .error (.config (.modulusTooSmall (bitLength modulus)))
  else if publicExponent = 0 ∨ modulus ≤ publicExponent then
    .error (.config .publicExponentOutOfRange)
  else if privateExponent = 0 ∨ modulus ≤ privateExponent then
    .error (.config .privateExponentOutOfRange)
  else .ok ⟨modulus, publicExponent, privateExponent⟩

/-- What is accepted is kept as it was given. -/
theorem create_eq_ok {modulus publicExponent privateExponent : Nat} {pair : RsaKeyPair} :
    create modulus publicExponent privateExponent = .ok pair ↔
      1024 ≤ bitLength modulus ∧ (0 < publicExponent ∧ publicExponent < modulus) ∧
        (0 < privateExponent ∧ privateExponent < modulus) ∧
        pair = ⟨modulus, publicExponent, privateExponent⟩ := by
  unfold create
  split
  · simp; omega
  split
  · simp; omega
  split
  · simp; omega
  · rw [Except.ok.injEq]
    exact ⟨fun same => ⟨by omega, by omega, by omega, same.symm⟩, fun all => all.2.2.2.symm⟩

end RsaKeyPair

/-- A key pair of this library, or a key that the caller keeps: the name of its algorithm,
its public key as it travels, and what makes a signature blob. -/
inductive ClientKey where
  | rsa (pair : RsaKeyPair)
  | ed25519 (seed : Bytes)
  | provided (name : String) (publicKey : Bytes) (signer : Bytes → Except Error Bytes)

namespace ClientKey

def algorithm : ClientKey → String
  | .rsa _ => "ssh-rsa"
  | .ed25519 _ => "ssh-ed25519"
  | .provided name _ _ => name

def blob (key : ClientKey) : Bytes :=
  match key with
  | .rsa pair =>
    Wire.text key.algorithm ++ Wire.mpint (Bytes.ofNat pair.publicExponent) ++
      Wire.mpint (Bytes.ofNat pair.modulus)
  | .ed25519 seed => Wire.text key.algorithm ++ Wire.string (Ed25519.publicKey seed)
  | .provided _ publicKey _ => publicKey

def signatureBlob (algorithm : String) (signature : Bytes) : Bytes :=
  Wire.text algorithm ++ Wire.string signature

def sign (key : ClientKey) (data : Bytes) : Except Error Bytes := do
  match key with
  | .rsa pair =>
    return signatureBlob key.algorithm (← Rsa.sign pair.modulus pair.privateExponent data)
  | .ed25519 seed => return signatureBlob key.algorithm (Ed25519.sign seed data)
  | .provided _ _ signer => signer data

/-- Shows a key without its secret. -/
def summary : ClientKey → String
  | .rsa pair =>
    "RsaKeyPair \x7b bits: " ++ toString (bitLength pair.modulus) ++ ", d: \"<redacted>\" \x7d"
  | .ed25519 seed =>
    "Ed25519KeyPair \x7b public_key: " ++ Text.quoted (Ed25519.publicKey seed).hex ++ " \x7d"
  | .provided name _ _ => name

end ClientKey

inductive Credential where
  | password (word : String)
  | key (identity : ClientKey)

namespace Credential

def methodName : Credential → String
  | .password _ => "password"
  | .key _ => "publickey"

def summary : Credential → String
  | .password _ => "Password(<redacted>)"
  | .key identity => s!"PublicKey({identity.algorithm})"

end Credential

end SecureShell
