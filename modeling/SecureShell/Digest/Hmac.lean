import SecureShell.Digest.Hash

/-!
Keyed hashing: the hash of the key and the hash of the key and the data, with the
key masked differently each time.
-/
namespace SecureShell.Digest

/-- A key of exactly one block: a longer one is hashed first, a shorter one filled up. -/
def blockKey (hash : Hash) (key : Bytes) : Bytes :=
  let key := if key.length > hash.blockSize then hash.digest key else key
  key ++ List.replicate (hash.blockSize - key.length) 0

def hmac (hash : Hash) (key data : Bytes) : Bytes :=
  let key := blockKey hash key
  hash.digest (key.map (· ^^^ 0x5c) ++ hash.digest (key.map (· ^^^ 0x36) ++ data))

theorem length_hmac (hash : Hash) (key data : Bytes) : (hmac hash key data).length = hash.size :=
  hash.length_digest _

end SecureShell.Digest
