import SecureShell.Digest.Sha256
import SecureShell.Signature.Dsa
import SecureShell.Signature.Rsa
import SecureShell.Text.Base64
import SecureShell.Wire.Reader

/-!
The key of a server: read from its wire form, used to verify what the server has
signed, and shown by its fingerprint to whoever decides on trust.
-/
namespace SecureShell

inductive PublicKey where
  | rsa (exponent modulus : Nat)
  | dss (key : Dsa.PublicKey)
  deriving DecidableEq

structure HostKey where
  /-- The key as received. -/
  blob : Bytes
  key : PublicKey
  deriving DecidableEq

namespace HostKey

def number : Reader Nat := return Bytes.toNat (← Reader.mpint)

def keyReader : Reader PublicKey := do
  let name ← Reader.text
  match HostKeyAlgorithm.ofName? name with
  | some .rsa =>
    let exponent ← number
    let modulus ← number
    return .rsa exponent modulus
  | some .dss =>
    let p ← number
    let q ← number
    let g ← number
    let y ← number
    return .dss ⟨p, q, g, y⟩
  | none => throw (.hostKey (.unsupported name))

def parse (blob : Bytes) : Except Error HostKey := do
  return ⟨blob, ← Reader.parse keyReader blob⟩

def algorithm (hostKey : HostKey) : HostKeyAlgorithm :=
  match hostKey.key with
  | .rsa _ _ => .rsa
  | .dss _ => .dss

def fingerprintOf (blob : Bytes) : String :=
  "SHA256:" ++ Text.base64 (Digest.Sha256.digest blob)

def fingerprint (hostKey : HostKey) : String := fingerprintOf hostKey.blob

/-- The signature in a field: behind its algorithm's name, or, where the first three
bytes cannot begin a length, the whole field. -/
def extractSignature (algorithm : HostKeyAlgorithm) (field : Bytes) : Except Error Bytes :=
  match field with
  | a :: b :: c :: _ => if a = 0 ∧ b = 0 ∧ c = 0 then wrapped else .ok field
  | _ => wrapped
where
  wrapped : Except Error Bytes :=
    Reader.parse (do
      let name ← Reader.text
      if name ≠ algorithm.name then throw (.hostKey (.signatureAlgorithm name algorithm))
      Reader.string) field

def verifyWith (rsa : Rsa.Verifier) (hostKey : HostKey) (data field : Bytes) : Except Error Unit := do
  let signature ← extractSignature hostKey.algorithm field
  let verified ← match hostKey.key with
    | .rsa exponent modulus => pure (Rsa.verifyWith rsa modulus exponent data signature)
    | .dss key => key.verify data signature
  if !verified then throw (.hostKey (.badSignature hostKey.algorithm))

def verify (hostKey : HostKey) (data field : Bytes) : Except Error Unit :=
  hostKey.verifyWith Rsa.standard data field

def summary (hostKey : HostKey) : String :=
  "HostKey \x7b algorithm: " ++ Text.quoted hostKey.algorithm.name ++ ", fingerprint: " ++
    Text.quoted hostKey.fingerprint ++ " \x7d"

end HostKey

inductive Trust where
  | anyKey
  | pinned (fingerprints : List String)
  /-- A judgement of the caller's own. -/
  | judged (judge : HostKey → Except Error Unit)

def Trust.check (trust : Trust) (hostKey : HostKey) : Except Error Unit :=
  match trust with
  | .anyKey => .ok ()
  | .pinned fingerprints =>
    if fingerprints.contains hostKey.fingerprint then .ok ()
    else .error (.hostKey (.untrusted hostKey.algorithm hostKey.fingerprint))
  | .judged judge => judge hostKey

end SecureShell
