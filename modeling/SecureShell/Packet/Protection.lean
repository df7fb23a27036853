import SecureShell.Cipher.Context
import SecureShell.KeyExchange.KeyDerivation
import SecureShell.Mac
import SecureShell.Packet.Frame

/-!
The keys in use on one direction of a connection: a cipher context, whose chain
goes on from packet to packet, and the key of the tags.
-/
namespace SecureShell

structure Protection where
  cipher : CipherContext
  mac : MacKey
  deriving DecidableEq

namespace Protection

def create (operation : Operation) (keys : DirectionKeys) : Except Error Protection := do
  let cipher ← CipherContext.create keys.cipher operation keys.encryption keys.iv
  let mac ← MacKey.create keys.mac keys.integrity
  return ⟨cipher, mac⟩

/-- The block size that packets are padded to, with keys or without. -/
def blockSize (keys : Option Protection) : Nat :=
  match keys with
  | some keys => max keys.cipher.blockSize Packet.defaultBlockSize
  | none => Packet.defaultBlockSize

/-- How many bytes of tag follow a packet. -/
def tagSize (keys : Option Protection) : Nat :=
  match keys with
  | some keys => keys.mac.tagSize
  | none => 0

/-- Decrypts the next bytes of a stream, or passes them on where there are no keys. -/
def decrypt (keys : Option Protection) (data : Bytes) :
    Except Error (Bytes × Option Protection) :=
  match keys with
  | none => .ok (data, none)
  | some keys =>
    match CipherContext.apply data keys.cipher with
    | .ok decrypted cipher => .ok (decrypted, some { keys with cipher })
    | .error error _ => .error error

/-- Checks the tag of a packet; where there are no keys there is none. -/
def verify (keys : Option Protection) (sequence : UInt32) (packet tag : Bytes) :
    Except Error Unit :=
  match keys with
  | none => .ok ()
  | some keys => keys.mac.verify sequence packet tag

theorem blockSize_ge (keys : Option Protection) : 8 ≤ blockSize keys := by
  cases keys with
  | none => exact Nat.le_refl 8
  | some keys => exact Nat.le_max_right _ _

end Protection

end SecureShell
