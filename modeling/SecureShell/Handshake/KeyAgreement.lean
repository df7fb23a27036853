import SecureShell.Handshake.State
import SecureShell.Message.Transport

/-!
Key agreement: proposals, the group if the server chooses one, the server's reply
with its signature over all that was said, and the switch to the new keys.
-/
namespace SecureShell.Handshake

def onVersion (version : Identification) : Transition := do
  let h ← get
  if h.phase ≠ .headerExchange then throw (.protocol .unexpectedVersion)
  set { h with serverVersion := some version, phase := .kexInit }
  return [.send h.clientProposal]

def publicMessage (code : MessageCode) (exchange : DhExchange) : Bytes :=
  code.toByte :: Wire.mpint exchange.publicBytes

/-- The request for a group of acceptable size. -/
def groupRequest (bounds : GroupBounds) : Bytes :=
  MessageCode.gexRequest.toByte :: Wire.uint32 bounds.least ++ Wire.uint32 bounds.preferred ++
    Wire.uint32 bounds.most

/-- Settles the algorithms, and begins the exchange with the method that won. -/
def onProposal (entropy : Entropy) (payload : Bytes) : Transition := do
  expect .kexInit payload
  let h ← get
  let client ← lift (Proposal.parse h.clientProposal)
  let server ← lift (Proposal.parse payload)
  let negotiated ← lift (negotiate client server)
  let h := { h with
    serverProposal := payload
    discardGuess := negotiated.discardGuess
    negotiated := some negotiated }
  match DhGroup.ofMethod? negotiated.kex with
  | some group =>
    let exchange := DhExchange.create entropy group
    set { h with exchange := some exchange, phase := .kexReply }
    return [.send (publicMessage .dhInit exchange)]
  | none =>
    set { h with phase := .groupNegotiation }
    return [.send (groupRequest h.config.groupBounds)]

def groupReader : Reader (Bytes × Bytes) := do
  let _code ← Reader.byte
  let modulus ← Reader.mpint
  let generator ← Reader.mpint
  return (modulus, generator)

/-- Begins the exchange in the group that the server has chosen. -/
def onGroup (entropy : Entropy) (payload : Bytes) : Transition := do
  expect .dhReply payload
  let h ← get
  let (modulus, generator) ← lift (Reader.parse groupReader payload)
  let bounds := h.config.groupBounds
  let group ← lift (DhGroup.check bounds (Bytes.toNat modulus) (Bytes.toNat generator))
  let exchange := DhExchange.create entropy group
  set { h with
    group := some ⟨bounds, modulus, generator⟩
    exchange := some exchange
    phase := .kexReply }
  return [.send (publicMessage .gexInit exchange)]

/-- The server's part of an exchange. -/
structure KexReply where
  hostKey : Bytes
  serverPublic : Bytes
  signature : Bytes
  deriving DecidableEq

namespace KexReply

def reader : Reader KexReply := do
  let _code ← Reader.byte
  let hostKey ← Reader.string
  let serverPublic ← Reader.mpint
  let signature ← Reader.string
  return ⟨hostKey, serverPublic, signature⟩

def parse (payload : Bytes) : Except Error KexReply := Reader.parse reader payload

end KexReply

def transcript (h : Handshake) (server : Identification) (exchange : DhExchange)
    (reply : KexReply) (secret : Bytes) : Transcript where
  clientVersion := h.clientVersion.line
  serverVersion := server.line
  clientProposal := h.clientProposal
  serverProposal := h.serverProposal
  hostKey := reply.hostKey
  group := h.group
  clientPublic := exchange.publicBytes
  serverPublic := reply.serverPublic
  secret

/-- Accepts the server's reply if its key is of the negotiated kind, has signed what
was said, and is trusted. The exchange in progress ends also where this fails late. -/
def onReply (payload : Bytes) : Transition := do
  expect (if (← get).group.isSome then .gexReply else .dhReply) payload
  let reply ← lift (KexReply.parse payload)
  let negotiated ← require (← get).negotiated .notNegotiated
  let hostKey ← lift (HostKey.parse reply.hostKey)
  if hostKey.algorithm ≠ negotiated.hostKey then
    throw (.hostKey (.notNegotiated hostKey.algorithm negotiated.hostKey))
  let exchange ← require (← get).exchange .noKeyExchange
  modify fun h => { h with exchange := none }
  let secret ← lift (exchange.sharedSecret reply.serverPublic)
  let h ← get
  let server ← require h.serverVersion .unknownServerVersion
  let exchangeHash := (h.transcript server exchange reply secret).hash
  lift (hostKey.verify exchangeHash reply.signature)
  lift (h.config.trust.check hostKey)
  set { h with
    sessionId := some (h.sessionId.getD exchangeHash)
    pending := some ⟨secret, exchangeHash⟩
    phase := .newKeys }
  return [.send (NewKeys.toBytes {})]

/-- Puts the new keys to use in both directions, and asks for the first service. -/
def onNewKeys (payload : Bytes) : Transition := do
  expect .newKeys payload
  let _message ← lift (NewKeys.parse payload)
  let pending ← require (← get).pending .newKeysBeforeKeyExchange
  modify fun h => { h with pending := none }
  let sessionId ← require (← get).sessionId .noSessionId
  let negotiated ← require (← get).negotiated .notNegotiated
  let derive := DirectionKeys.derive pending.secret pending.exchangeHash sessionId
  enter .serviceAccept
  return [
    .armInbound (derive .serverToClient negotiated.cipherIn negotiated.macIn),
    .armOutbound (derive .clientToServer negotiated.cipherOut negotiated.macOut),
    .send (Service.request Service.userauth)]

end SecureShell.Handshake
