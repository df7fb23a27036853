import SecureShell.Bytes
import SecureShell.Entropy
import SecureShell.Error

/-!
The binary packet without its tag: a length, the padding's length, the payload
and the padding. The padding fills the packet up to a whole number of blocks and
has at least four bytes.
-/
namespace SecureShell

structure Packet where
  payload : Bytes
  padding : Bytes
  deriving DecidableEq

namespace Packet

/-- The block size that holds while no cipher is in use. -/
def defaultBlockSize : Nat := 8

def minPadding : Nat := 4

/-- The packet length field and the padding length byte. -/
def headerLength : Nat := 5

/-- The least padding of at least four bytes that fills up a block. -/
def paddingLength (payloadLength blockSize : Nat) : Nat :=
  let block := max blockSize defaultBlockSize
  let fill := block - (headerLength + payloadLength) % block
  if fill < minPadding then fill + block else fill

def frame (entropy : Entropy) (blockSize : Nat) (payload : Bytes) : Packet :=
  ⟨payload, entropy.bytes (paddingLength payload.length blockSize)⟩

def bodyLength (packet : Packet) : Nat := 1 + packet.payload.length + packet.padding.length

def wireLength (packet : Packet) : Nat :=
  headerLength + packet.payload.length + packet.padding.length

def toBytes (packet : Packet) : Bytes :=
  Bytes.wide 4 packet.bodyLength ++ UInt8.ofNat packet.padding.length ::
    (packet.payload ++ packet.padding)

def paddingFault (bodyLength padding : Nat) : Option ProtocolFault :=
  if padding < minPadding then some (.paddingTooShort padding)
  else if bodyLength < 1 + padding then some (.paddingTooLong bodyLength padding)
  else none

def parse (data : Bytes) : Except Error Packet :=
  let declared := Bytes.toNat (data.take 4)
  let body := data.drop 4
  if data.length < headerLength then .error (.protocol (.packetTooShort data.length))
  else if body.length ≠ declared then
    .error (.protocol (.packetLengthMismatch declared body.length))
  else
    let padding := (body.headD 0).toNat
    match paddingFault declared padding with
    | some fault => .error (.protocol fault)
    | none =>
      let payloadLength := declared - 1 - padding
      .ok ⟨(body.drop 1).take payloadLength, (body.drop 1).drop payloadLength⟩

end Packet

end SecureShell
