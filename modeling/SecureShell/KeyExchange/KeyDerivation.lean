import SecureShell.Algorithm
import SecureShell.Digest.Sha1
import SecureShell.Text.Quoted
import SecureShell.Wire.Writer

/-!
Keys drawn from a shared secret. Hashing the secret, the exchange and a letter
gives the first bytes of a key; hashing the secret, the exchange and all bytes so
far gives more, as many as are wanted.
-/
namespace SecureShell

/-- Adds hashes of `base` and all bytes so far until there are `length` bytes. -/
def extendKey (hash : Hash) (base : Bytes) (length : Nat) (key : Bytes) : Bytes :=
  if key.length < length then extendKey hash base length (key ++ hash.digest (base ++ key))
  else key
  termination_by length - key.length
  decreasing_by
    have := hash.size_pos
    rw [List.length_append, hash.length_digest]
    omega

def deriveKey (hash : Hash) (secret exchange session : Bytes) (letter : UInt8) (length : Nat) :
    Bytes :=
  let base := Wire.mpint secret ++ exchange
  (extendKey hash base length (hash.digest (base ++ letter :: session))).take length

inductive Direction where
  | clientToServer
  | serverToClient
  deriving DecidableEq

/-- The keys that protect one direction. -/
structure DirectionKeys where
  cipher : CipherAlgorithm
  mac : MacAlgorithm
  iv : Bytes
  encryption : Bytes
  integrity : Bytes
  deriving DecidableEq

namespace Direction

def ivLetter : Direction → UInt8
  | .clientToServer => 0x41
  | .serverToClient => 0x42

def encryptionLetter : Direction → UInt8
  | .clientToServer => 0x43
  | .serverToClient => 0x44

def integrityLetter : Direction → UInt8
  | .clientToServer => 0x45
  | .serverToClient => 0x46

end Direction

namespace DirectionKeys

def derive (secret exchange session : Bytes) (direction : Direction) (cipher : CipherAlgorithm)
    (mac : MacAlgorithm) : DirectionKeys :=
  let key := deriveKey Digest.Sha1.hash secret exchange session
  { cipher, mac,
    iv := key direction.ivLetter cipher.blockSize,
    encryption := key direction.encryptionLetter cipher.keySize,
    integrity := key direction.integrityLetter mac.keySize }

def summary (keys : DirectionKeys) : String :=
  "DirectionKeys \x7b cipher: " ++ Text.quoted keys.cipher.name ++ ", mac: " ++
    Text.quoted keys.mac.name ++ ", .. \x7d"

end DirectionKeys

end SecureShell
