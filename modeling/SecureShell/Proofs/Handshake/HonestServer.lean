import SecureShell.Proofs.Handshake.Runs
import SecureShell.Proofs.Negotiation

/-! A server that plays by the rules, as the client meets it: the messages that it
sends, and what it works out from its own side of the exchange. Its messages are
described by what is read from them, so they may be written in any way and carry
anything behind their last field. -/
namespace SecureShell.Handshake

/-- What a server says to a client, in order. -/
structure ServerMessages where
  version : Identification
  proposal : Bytes
  /-- The group, if the server has to choose one. -/
  group : Option Bytes
  reply : Bytes
  newKeys : Bytes
  serviceAccept : Bytes
  failure : Bytes
  /-- The answer to the offer of a key, if a key is offered. -/
  keyAccepted : Option Bytes
  success : Bytes
  confirmation : Bytes

def ServerMessages.calls (server : ServerMessages) (supply : Supply) : List Call :=
  .version server.version :: .packet (supply.source 0) server.proposal ::
    server.group.toList.map (.packet (supply.source 1)) ++
    .packet (supply.source 2) server.reply :: .packet (supply.source 3) server.newKeys ::
    .packet (supply.source 4) server.serviceAccept :: .packet (supply.source 5) server.failure ::
    server.keyAccepted.toList.map (.packet (supply.source 6)) ++
    [.packet (supply.source 7) server.success, .packet (supply.source 8) server.confirmation]

def ServerMessages.payloads (server : ServerMessages) : List Bytes :=
  server.proposal :: server.group.toList ++ server.reply :: server.newKeys ::
    server.serviceAccept :: server.failure :: server.keyAccepted.toList ++
    [server.success, server.confirmation]

theorem ServerMessages.calls_eq (server : ServerMessages) (random : Entropy) :
    server.calls random = .version server.version :: server.payloads.map (.packet random) := by
  simp [calls, payloads]

/-- What a server knows of an exchange in a group, with its own exponent. -/
structure ServerView where
  group : DhGroup
  /-- The group as the server has sent it, with the bounds that it was asked for. -/
  chosen : Option ChosenGroup
  exponent : Nat
  /-- The client's public value, as the server has read it. -/
  clientPublic : Bytes
  hostKey : HostKey

namespace ServerView

def publicValue (view : ServerView) : Nat := view.group.generator ^ view.exponent % view.group.modulus

def secret (view : ServerView) : Bytes :=
  .ofNatNonempty (Bytes.toNat view.clientPublic ^ view.exponent % view.group.modulus)

def transcript (view : ServerView) (client server : Identification)
    (clientProposal serverProposal : Bytes) : Transcript where
  clientVersion := client.line
  serverVersion := server.line
  clientProposal
  serverProposal
  hostKey := view.hostKey.blob
  group := view.chosen
  clientPublic := view.clientPublic
  serverPublic := .ofNatNonempty view.publicValue
  secret := view.secret

def exchangeHash (view : ServerView) (config : Config) (proposal : Bytes)
    (server : ServerMessages) : Bytes :=
  (view.transcript (.ofSoftware config.software none) server.version proposal server.proposal).hash

end ServerView

def boundsReader : Reader GroupBounds := do
  let _code ← Reader.byte
  let least ← Reader.uint32
  let preferred ← Reader.uint32
  let most ← Reader.uint32
  return ⟨least, preferred, most⟩

def publicReader : Reader Bytes := do
  let _code ← Reader.byte
  Reader.mpint

/-- The two sides have a group: it is fixed by the method, or the server has sent one
that the client takes, and remembers its two numbers and the bounds that it read. -/
inductive SharesGroup (config : Config) (kex : KexMethod) :
    Option Bytes → DhGroup → Option ChosenGroup → Prop where
  | fixed {group : DhGroup} : DhGroup.ofMethod? kex = some group →
      SharesGroup config kex none group none
  | chosen {message modulus generator : Bytes} {group : DhGroup} {chosen : ChosenGroup} :
      DhGroup.ofMethod? kex = none →
      Reader.parse boundsReader (groupRequest config.groupBounds) = .ok chosen.bounds →
      message.headD 0 = MessageCode.gexGroup.toByte →
      Reader.parse groupReader message = .ok (modulus, generator) →
      Bytes.toNat modulus = Bytes.toNat chosen.modulus →
      Bytes.toNat generator = Bytes.toNat chosen.generator →
      DhGroup.check chosen.bounds (Bytes.toNat modulus) (Bytes.toNat generator) = .ok group →
      SharesGroup config kex (some message) group (some chosen)

def beginning (supply : Supply) (group : DhGroup) (chosen : Bool) : Bytes :=
  if chosen then publicMessage .gexInit (.create (supply.source 1) group)
  else publicMessage .dhInit (.create (supply.source 0) group)

/-- A server that plays by the rules towards a client with the given configuration and
proposal, after the two have agreed on algorithms. -/
structure Honest (config : Config) (proposal : Bytes) (negotiated : Negotiated) (supply : Supply)
    (server : ServerMessages) (view : ServerView) : Prop where
  group : SharesGroup config negotiated.kex server.group view.group view.chosen
  heard : Reader.parse publicReader (beginning supply view.group view.chosen.isSome) =
    .ok view.clientPublic
  inRange : 1 < view.publicValue ∧ view.publicValue < view.group.modulus - 1
  hostKey : HostKey.parse view.hostKey.blob = .ok view.hostKey
  algorithm : view.hostKey.algorithm = negotiated.hostKey
  trusted : config.trust.check view.hostKey = .ok ()
  replyCode : server.reply.headD 0 =
    (if view.chosen.isSome then MessageCode.gexReply else .dhReply).toByte
  reply : ∃ reply, KexReply.parse server.reply = .ok reply ∧
    reply.hostKey = view.hostKey.blob ∧ Bytes.toNat reply.serverPublic = view.publicValue ∧
    view.hostKey.verify (view.exchangeHash config proposal server) reply.signature = .ok ()
  newKeys : NewKeys.parse server.newKeys = .ok {}
  serviceAccept : Service.parse .serviceAccept server.serviceAccept = .ok Service.userauth
  failure : ∃ failure, UserauthFailure.parse server.failure = .ok failure ∧
    failure.allows config.credential.methodName = true
  keyAccepted : match config.credential with
    | .password _ => server.keyAccepted = none
    | .key identity => ∃ message, server.keyAccepted = some message ∧
      UserauthPkOk.parse message = .ok ⟨identity.algorithm, identity.blob⟩
  success : server.success.headD 0 = MessageCode.userauthSuccess.toByte
  confirmation : ∃ confirmation, ChannelConfirmation.parse server.confirmation = .ok confirmation ∧
    confirmation.recipient = SessionChannel.localId ∧ confirmation.maxPacket ≠ 0

/-- A key pair that could be created, from numbers that belong together by size or a seed of
32 bytes, or a key of the caller's own that signs whatever it is given. A password needs
nothing. -/
def Usable : Credential → Prop
  | .password _ => True
  | .key (.rsa pair) => ∃ modulus publicExponent privateExponent,
      RsaKeyPair.create modulus publicExponent privateExponent = .ok pair
  | .key (.ed25519 seed) => seed.length = 32
  | .key (.provided _ _ signer) => ∀ data, ∃ signature, signer data = .ok signature

end SecureShell.Handshake
