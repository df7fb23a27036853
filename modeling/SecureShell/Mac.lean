import SecureShell.Digest.Hmac
import SecureShell.Digest.Md5
import SecureShell.Digest.Sha1
import SecureShell.Digest.Sha256
import SecureShell.Error

/-!
Packet authentication: the tag of a packet covers its sequence number and its
bytes before encryption.
-/
namespace SecureShell

def MacAlgorithm.hash : MacAlgorithm → Hash
  | .md5 => Digest.Md5.hash
  | .sha1 => Digest.Sha1.hash
  | .sha256 => Digest.Sha256.hash

theorem MacAlgorithm.size_hash (algorithm : MacAlgorithm) :
    algorithm.hash.size = algorithm.tagSize := by
  cases algorithm <;> rfl

structure MacKey where
  algorithm : MacAlgorithm
  key : Bytes
  deriving DecidableEq

namespace MacKey

/-- A key must be exactly as long as a tag. -/
def create (algorithm : MacAlgorithm) (key : Bytes) : Except Error MacKey :=
  if key.length = algorithm.keySize then .ok ⟨algorithm, key⟩
  else .error (.crypto (.macKeyLength algorithm key.length))

def tagSize (mac : MacKey) : Nat := mac.algorithm.tagSize

def tag (mac : MacKey) (sequence : UInt32) (packet : Bytes) : Bytes :=
  Digest.hmac mac.algorithm.hash mac.key (Bytes.ofUInt32 sequence ++ packet)

def verify (mac : MacKey) (sequence : UInt32) (packet tag : Bytes) : Except Error Unit :=
  if mac.tag sequence packet = tag then .ok () else .error (.integrity (.tag sequence))

def summary (mac : MacKey) : String :=
  "MacKey \x7b algorithm: " ++ Text.quoted mac.algorithm.name ++ ", key: \"<redacted>\" \x7d"

@[simp] theorem length_tag (mac : MacKey) (sequence : UInt32) (packet : Bytes) :
    (mac.tag sequence packet).length = mac.tagSize := by
  rw [tag, Digest.length_hmac, MacAlgorithm.size_hash]
  rfl

end MacKey

end SecureShell
