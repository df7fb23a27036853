import SecureShell.Algorithm
import SecureShell.MessageCode
import SecureShell.Phase
import SecureShell.Text.Quoted

/-!
What can go wrong, as causes. Each class of error has its own type of faults and
one function that words them; a caller that only has to react asks for the
category.
-/
namespace SecureShell

inductive AlgorithmKind where
  | kex
  | hostKey
  | cipher
  | mac
  | compression
  deriving DecidableEq

def AlgorithmKind.name : AlgorithmKind → String
  | .kex => "kex"
  | .hostKey => "host key"
  | .cipher => "cipher"
  | .mac => "mac"
  | .compression => "compression"

/-- A configuration that cannot be used. -/
inductive ConfigFault where
  | emptyUsername
  | invalidSoftware (software : String)
  | zeroMaxPacketSize
  | zeroInflateBuffer
  | maxPacketLengthTooSmall (length : Nat)
  | invalidGroupBounds (least preferred most : UInt32)
  | emptyList (kind : AlgorithmKind)
  | unsupported (kind : AlgorithmKind) (name : String)
  | notImplemented (kind : AlgorithmKind) (name : String)
  | modulusTooSmall (bits : Nat)
  | publicExponentOutOfRange
  | privateExponentOutOfRange
  | other (text : String)
  deriving DecidableEq

def ConfigFault.message : ConfigFault → String
  | .emptyUsername => "Username must not be empty"
  | .invalidSoftware software => "Invalid software version: " ++ Text.quoted software
  | .zeroMaxPacketSize => "max_packet_size must be greater than zero"
  | .zeroInflateBuffer => "inflate_buffer_size must be greater than zero"
  | .maxPacketLengthTooSmall length => s!"max_packet_length too small: {length}"
  | .invalidGroupBounds least preferred most =>
    s!"Invalid group exchange bounds: {least.toNat}/{preferred.toNat}/{most.toNat}"
  | .emptyList kind => s!"Empty {kind.name} algorithm list"
  | .unsupported kind name => s!"Unsupported {kind.name} algorithm: {name}"
  | .notImplemented kind name => s!"Negotiated {kind.name} '{name}' is not implemented"
  | .modulusTooSmall bits => s!"RSA modulus too small: {bits} bits"
  | .publicExponentOutOfRange => "RSA public exponent out of range"
  | .privateExponentOutOfRange => "RSA private exponent out of range"
  | .other text => text

/-- What was being read when the bytes ran out. -/
inductive Field where
  | byte
  | uint32
  | raw
  | string

def Field.name : Field → String
  | .byte => "byte"
  | .uint32 => "uint32"
  | .raw => "raw bytes"
  | .string => "string"

/-- Bytes that cannot be read, or a message that does not belong here. -/
inductive ProtocolFault where
  | truncated (field : Field) (need got : Nat)
  | textEncoding
  | nameListEncoding
  | negativeMpint
  | versionTooLong (length : Nat)
  | versionNul
  | versionStart (line : String)
  | versionFormat (line : String)
  | versionProtocol (protocol : String)
  | versionLineTooLong
  | tooManyLines
  | versionEncoding
  | packetTooShort (length : Nat)
  | packetLengthMismatch (declared got : Nat)
  | paddingTooShort (length : Nat)
  | paddingTooLong (packet padding : Nat)
  | packetTooLarge (length limit : Nat)
  | packetTooSmall (length : Nat)
  | packetUnaligned (length block : Nat)
  | armedMidPacket
  | notOnePayload
  | inflateFailed
  | inflatedTooLarge (limit : Nat)
  | trailingData
  | notKexInit (code : UInt8)
  | notNewKeys (code : UInt8)
  | emptyNewKeys
  | expected (code : MessageCode) (got : UInt8)
  | unsupportedAuthMethod (name : String)
  | unexpectedConfirmation
  | unknownConfirmation (channel : UInt32)
  | zeroRemotePacketSize
  | unknownChannel (channel : UInt32)
  | unexpectedVersion
  | emptyPayload
  | unimplemented (sequence : UInt32)
  | unexpected (code : UInt8) (phase : Phase)
  | notNegotiated
  | noKeyExchange
  | unknownServerVersion
  | newKeysBeforeKeyExchange
  | noSessionId
  | unexpectedService (name : String)
  | pkOkWithoutQuery
  | channelOpenFailed (reason description : String)
  | cannotWrite (phase : Phase)
  | other (text : String)

def ProtocolFault.message : ProtocolFault → String
  | .truncated field need got => s!"Truncated {field.name}: need {need} bytes, have {got}"
  | .textEncoding => "Invalid UTF-8 in string"
  | .nameListEncoding => "Invalid UTF-8 in name-list"
  | .negativeMpint => "Negative mpint not allowed"
  | .versionTooLong length => s!"Version string too long: {length} bytes (max 255)"
  | .versionNul => "Version string contains null byte"
  | .versionStart line => s!"Invalid version string: must start with 'SSH-', got '{line}'"
  | .versionFormat line => s!"Invalid version string format: '{line}'"
  | .versionProtocol protocol =>
    s!"Unsupported protocol version: '{protocol}' (expected '2.0' or '1.99')"
  | .versionLineTooLong => "Version line exceeds 255 bytes"
  | .tooManyLines => "Too many lines before version string"
  | .versionEncoding => "Version string is not valid UTF-8"
  | .packetTooShort length => s!"Packet too short: {length} bytes (minimum 5)"
  | .packetLengthMismatch declared got =>
    s!"Packet length mismatch: declared {declared}, got {got} bytes"
  | .paddingTooShort length => s!"Padding too short: {length} bytes (minimum 4)"
  | .paddingTooLong packet padding =>
    s!"Invalid packet: packet_length ({packet}) too small for padding ({padding})"
  | .packetTooLarge length limit => s!"Packet too large: {length} bytes (maximum {limit})"
  | .packetTooSmall length => s!"Packet too small: {length} bytes"
  | .packetUnaligned length block =>
    s!"Packet length {length} not aligned to cipher block size {block}"
  | .armedMidPacket => "Keys armed in the middle of an inbound packet"
  | .notOnePayload => "Opened packet did not frame to exactly one payload"
  | .inflateFailed => "Inflate failed: deflate decompression error"
  | .inflatedTooLarge limit => s!"Inflated payload exceeds {limit} bytes"
  | .trailingData => "Compressed payload has trailing data"
  | .notKexInit code =>
    s!"Invalid message type: expected 20 (SSH_MSG_KEXINIT), got {code.toNat}"
  | .notNewKeys code =>
    s!"Invalid message type: expected 21 (SSH_MSG_NEWKEYS), got {code.toNat}"
  | .emptyNewKeys => "NEWKEYS message is empty"
  | .expected code got => s!"Expected {code.label}, got {MessageCode.describe got}"
  | .unsupportedAuthMethod name => s!"Unsupported authentication method: {name}"
  | .unexpectedConfirmation => "Unexpected channel open confirmation"
  | .unknownConfirmation channel => s!"Confirmation for unknown channel {channel.toNat}"
  | .zeroRemotePacketSize => "Peer advertised zero maximum packet size"
  | .unknownChannel channel => s!"Message for unknown channel {channel.toNat}"
  | .unexpectedVersion => "Unexpected identification line"
  | .emptyPayload => "Empty packet payload"
  | .unimplemented sequence => s!"Peer could not handle packet {sequence.toNat}"
  | .unexpected code phase => s!"Unexpected {MessageCode.describe code} in state {phase.name}"
  | .notNegotiated => "Algorithms not negotiated"
  | .noKeyExchange => "No key exchange in progress"
  | .unknownServerVersion => "Server version unknown"
  | .newKeysBeforeKeyExchange => "NEWKEYS before key exchange"
  | .noSessionId => "Session id not set"
  | .unexpectedService name => s!"Server accepted unexpected service {name}"
  | .pkOkWithoutQuery => "PK_OK without a public key query"
  | .channelOpenFailed reason description =>
    s!"Channel open failed: {reason} ({description})"
  | .cannotWrite phase => s!"Cannot write in state {phase.name}"
  | .other text => text

inductive HostKeyFault where
  | unsupported (name : String)
  | notNegotiated (sent negotiated : HostKeyAlgorithm)
  | signatureAlgorithm (name : String) (key : HostKeyAlgorithm)
  | badSignature (key : HostKeyAlgorithm)
  | dsaDomain
  | dsaPublicKey
  | dssLength (got : Nat)
  | untrusted (key : HostKeyAlgorithm) (fingerprint : String)
  | other (text : String)

def HostKeyFault.message : HostKeyFault → String
  | .unsupported name => s!"Unsupported host key algorithm: {name}"
  | .notNegotiated sent negotiated =>
    s!"Server sent {sent.name} key, negotiated {negotiated.name}"
  | .signatureAlgorithm name key =>
    s!"Signature algorithm '{name}' does not match host key '{key.name}'"
  | .badSignature key => s!"{key.name} signature verification failed"
  | .dsaDomain => "Invalid DSA domain parameters"
  | .dsaPublicKey => "Invalid DSA public key"
  | .dssLength got => s!"DSS signature must be 40 bytes, got {got}"
  | .untrusted key fingerprint => s!"Host key {key.name} {fingerprint} is not trusted"
  | .other text => text

/-- A packet whose tag is not the one its bytes call for. -/
inductive IntegrityFault where
  | tag (sequence : UInt32)
  | other (text : String)

def IntegrityFault.message : IntegrityFault → String
  | .tag sequence => s!"MAC verification failed for packet {sequence.toNat}"
  | .other text => text

/-- Keys, groups or values that the arithmetic does not admit. -/
inductive CryptoFault where
  | keyOrIvLength (cipher : CipherAlgorithm)
  | unaligned (length block : Nat)
  | macKeyLength (mac : MacAlgorithm) (got : Nat)
  | groupSize (bits : Nat) (least most : UInt32)
  | evenModulus
  | generatorOutOfRange
  | peerOutOfRange
  | modulusTooShort
  | other (text : String)

def CryptoFault.message : CryptoFault → String
  | .keyOrIvLength cipher => s!"Invalid key or IV length for {cipher.name}"
  | .unaligned length block => s!"Data length {length} is not a multiple of block size {block}"
  | .macKeyLength mac got =>
    s!"Invalid {mac.name} key length: expected {mac.keySize}, got {got}"
  | .groupSize bits least most =>
    s!"Group modulus of {bits} bits outside requested range {least.toNat}..={most.toNat}"
  | .evenModulus => "Group modulus is even"
  | .generatorOutOfRange => "Group generator out of range"
  | .peerOutOfRange => "Invalid peer public key: out of range"
  | .modulusTooShort => "RSA modulus too short for SHA-1 signature"
  | .other text => text

/-- A server that will not let the user in. -/
inductive AuthFault where
  | passwordChange
  | rejected (method accepted : String)
  | notAccepted (method accepted : String)
  | pkOkMismatch
  | other (text : String)

def AuthFault.message : AuthFault → String
  | .passwordChange => "Server requested a password change"
  | .rejected method accepted =>
    s!"{method} authentication rejected (server accepts: {accepted})"
  | .notAccepted method accepted =>
    s!"Server does not accept {method} authentication (server accepts: {accepted})"
  | .pkOkMismatch => "PK_OK does not match the offered key"
  | .other text => text

/-- The reaction that an error asks for. -/
inductive Category where
  | transport
  | decode
  | crypto
  | auth
  | localFault
  deriving DecidableEq

inductive Error where
  | io (reason : String)
  | config (fault : ConfigFault)
  | protocol (fault : ProtocolFault)
  | negotiation (slot : String) (client server : List String)
  | hostKey (fault : HostKeyFault)
  | integrity (fault : IntegrityFault)
  | crypto (fault : CryptoFault)
  | auth (fault : AuthFault)
  | disconnected (code : UInt32) (description : String)
  | closed

namespace Error

def category : Error → Category
  | .io _ | .disconnected _ _ => .transport
  | .protocol _ => .decode
  | .negotiation _ _ _ | .hostKey _ | .integrity _ | .crypto _ => .crypto
  | .auth _ => .auth
  | .config _ | .closed => .localFault

def message : Error → String
  | .io reason => s!"IO error: {reason}"
  | .config fault => s!"Configuration error: {fault.message}"
  | .protocol fault => s!"Protocol error: {fault.message}"
  | .negotiation slot client server =>
    s!"No common algorithm for {slot}: " ++ "client=" ++ Text.quotedList client ++
      ", server=" ++ Text.quotedList server
  | .hostKey fault => s!"Host key error: {fault.message}"
  | .integrity fault => s!"Integrity error: {fault.message}"
  | .crypto fault => s!"Crypto error: {fault.message}"
  | .auth fault => s!"Authentication error: {fault.message}"
  | .disconnected code description => s!"Disconnected ({code.toNat}): {description}"
  | .closed => "Connection closed"

/-- Did another error, of the transport underneath, cause this one? -/
def hasSource : Error → Bool
  | .io _ => true
  | _ => false

end Error

end SecureShell
