import SecureShell.Packet.Protection

/-!
Sealing of outbound packets. Before keys are armed a packet passes as it is, and
is counted; afterwards it is encrypted and followed by its tag, which covers the
packet before encryption.
-/
namespace SecureShell

structure Sealer where
  keys : Option Protection := none
  /-- The number of the next packet. -/
  sequence : UInt32 := 0
  deriving DecidableEq

namespace Sealer

/-- Has keys for the packets to come; keys that cannot be used change nothing. -/
def arm (keys : DirectionKeys) (sealer : Sealer) : Except Error Sealer := do
  return { sealer with keys := some (← Protection.create .encrypt keys) }

def armed (sealer : Sealer) : Bool := sealer.keys.isSome

def blockSize (sealer : Sealer) : Nat := Protection.blockSize sealer.keys

/-- Seals a packet; one that is refused is not counted. -/
def protect (packet : Bytes) : EStateM Error Sealer Bytes := do
  let sealer ← get
  match sealer.keys with
  | none =>
    set { sealer with sequence := sealer.sequence + 1 }
    return packet
  | some keys =>
    match CipherContext.apply packet keys.cipher with
    | .ok encrypted cipher =>
      set { sealer with keys := some { keys with cipher }, sequence := sealer.sequence + 1 }
      return encrypted ++ keys.mac.tag sealer.sequence packet
    | .error error _ => throw error

end Sealer

end SecureShell
