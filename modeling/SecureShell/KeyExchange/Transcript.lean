import SecureShell.Digest.Sha1
import SecureShell.KeyExchange.DiffieHellman
import SecureShell.Wire.Writer

/-!
What the two sides of a key exchange have said to each other, as one byte string.
Its hash is what a server signs, and the first one names the session.
-/
namespace SecureShell

structure ChosenGroup where
  bounds : GroupBounds
  modulus : Bytes
  generator : Bytes
  deriving DecidableEq

structure Transcript where
  clientVersion : String
  serverVersion : String
  clientProposal : Bytes
  serverProposal : Bytes
  hostKey : Bytes
  group : Option ChosenGroup
  clientPublic : Bytes
  serverPublic : Bytes
  secret : Bytes
  deriving DecidableEq

namespace Transcript

def encodeGroup (group : ChosenGroup) : Bytes :=
  Wire.uint32 group.bounds.least ++ Wire.uint32 group.bounds.preferred ++
    Wire.uint32 group.bounds.most ++ Wire.mpint group.modulus ++ Wire.mpint group.generator

def encode (t : Transcript) : Bytes :=
  Wire.text t.clientVersion ++ Wire.text t.serverVersion ++ Wire.string t.clientProposal ++
    Wire.string t.serverProposal ++ Wire.string t.hostKey ++
    (t.group.map encodeGroup).getD [] ++ Wire.mpint t.clientPublic ++
    Wire.mpint t.serverPublic ++ Wire.mpint t.secret

def hash (t : Transcript) : Bytes := Digest.Sha1.digest t.encode

end Transcript

end SecureShell
