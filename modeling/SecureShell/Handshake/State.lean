import SecureShell.Config
import SecureShell.Identification
import SecureShell.KeyExchange.KeyDerivation
import SecureShell.KeyExchange.Negotiation
import SecureShell.KeyExchange.Transcript
import SecureShell.Phase
import SecureShell.SessionChannel

/-!
The client's side of a connection as a state machine over payloads. A transition
does no work on the wire itself: it names the actions that have to follow, in
order. A transition that fails may be followed by others.
-/
namespace SecureShell

/-- What a transition asks for. -/
inductive Action where
  | send (payload : Bytes)
  | armOutbound (keys : DirectionKeys)
  /-- To be done before the next packet is opened. -/
  | armInbound (keys : DirectionKeys)
  | compress (outbound inbound : Bool)
  | established
  | deliver (data : ChannelData)
  | closed
  deriving DecidableEq

/-- The outcome of a key exchange that is not yet in use. -/
structure PendingKeys where
  secret : Bytes
  exchangeHash : Bytes
  deriving DecidableEq

structure Handshake where
  config : Config
  phase : Phase := .headerExchange
  clientVersion : Identification
  serverVersion : Option Identification := none
  /-- The proposals as they were sent and received. -/
  clientProposal : Bytes
  serverProposal : Bytes := []
  negotiated : Option Negotiated := none
  /-- The exchange in progress. -/
  exchange : Option DhExchange := none
  group : Option ChosenGroup := none
  pending : Option PendingKeys := none
  /-- The hash of the first exchange. -/
  sessionId : Option Bytes := none
  /-- Is the next message of the key exchange a wrong guess? -/
  discardGuess : Bool := false
  channel : SessionChannel

namespace Handshake

/-- A handshake that has not seen anything; the configuration is not checked. -/
def create (entropy : Entropy) (config : Config) : Handshake where
  config := config
  clientVersion := .ofSoftware config.software none
  clientProposal := (Proposal.ofPreferences entropy config.preferences).toBytes
  channel := { localWindow := config.windowSize, localMaxPacket := config.maxPacketSize }

/-- A step of the handshake that names what has to follow. -/
abbrev Transition := EStateM Error Handshake (List Action)

/-- Fails as a check that does not look at the state fails. -/
def lift (result : Except Error α) : EStateM Error Handshake α :=
  match result with
  | .ok value => pure value
  | .error error => throw error

def require (value : Option α) (fault : ProtocolFault) : EStateM Error Handshake α :=
  lift (match value with
    | some value => .ok value
    | none => .error (.protocol fault))

def enter (phase : Phase) : EStateM Error Handshake Unit :=
  modify fun h => { h with phase }

def refuse (code : UInt8) : EStateM Error Handshake α := do
  throw (.protocol (.unexpected code (← get).phase))

def expect (code : MessageCode) (payload : Bytes) : EStateM Error Handshake Unit := do
  let got := payload.headD 0
  if got ≠ code.toByte then refuse got

end Handshake

end SecureShell
