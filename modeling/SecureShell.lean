import SecureShell.Algorithm
import SecureShell.Arithmetic.Inverse
import SecureShell.Arithmetic.PowMod
import SecureShell.Bytes
import SecureShell.Cipher.Aes
import SecureShell.Cipher.Blowfish
import SecureShell.Cipher.Context
import SecureShell.Cipher.TripleDes
import SecureShell.ClientKey
import SecureShell.Compression
import SecureShell.Config
import SecureShell.Digest.Hash
import SecureShell.Digest.Hmac
import SecureShell.Digest.Md5
import SecureShell.Digest.Sha1
import SecureShell.Digest.Sha256
import SecureShell.Digest.Sha512
import SecureShell.Engine
import SecureShell.Entropy
import SecureShell.Error
import SecureShell.Focus
import SecureShell.Handshake.Authentication
import SecureShell.Handshake.KeyAgreement
import SecureShell.Handshake.Receive
import SecureShell.Handshake.Session
import SecureShell.Handshake.State
import SecureShell.HostKey
import SecureShell.Identification
import SecureShell.KeyExchange.DiffieHellman
import SecureShell.KeyExchange.KeyDerivation
import SecureShell.KeyExchange.Negotiation
import SecureShell.KeyExchange.Proposal
import SecureShell.KeyExchange.Transcript
import SecureShell.Mac
import SecureShell.Message.Connection
import SecureShell.Message.Transport
import SecureShell.Message.Userauth
import SecureShell.MessageCode
import SecureShell.Packet.Deframer
import SecureShell.Packet.Frame
import SecureShell.Packet.Opener
import SecureShell.Packet.Protection
import SecureShell.Packet.Sealer
import SecureShell.Phase
import SecureShell.Pipeline.Inbound
import SecureShell.Pipeline.Outbound
import SecureShell.Proofs.Blameless
import SecureShell.Proofs.Bytes
import SecureShell.Proofs.Cipher.Aes
import SecureShell.Proofs.Cipher.Blowfish
import SecureShell.Proofs.Cipher.Context
import SecureShell.Proofs.Cipher.Streaming
import SecureShell.Proofs.Codecs
import SecureShell.Proofs.Compression
import SecureShell.Proofs.DiffieHellman
import SecureShell.Proofs.DssSignature
import SecureShell.Proofs.Engine.Buffering
import SecureShell.Proofs.Engine.Chunking
import SecureShell.Proofs.Engine.Compressing
import SecureShell.Proofs.Engine.Deflating
import SecureShell.Proofs.Engine.Delivery
import SecureShell.Proofs.Engine.Entrusting
import SecureShell.Proofs.Engine.Grammar
import SecureShell.Proofs.Engine.Indifference
import SecureShell.Proofs.Engine.Introducing
import SecureShell.Proofs.Engine.Measuring
import SecureShell.Proofs.Engine.Meeting
import SecureShell.Proofs.Engine.NewKeys
import SecureShell.Proofs.Engine.Performing
import SecureShell.Proofs.Engine.Reckoning
import SecureShell.Proofs.Engine.Requests
import SecureShell.Proofs.Engine.Script
import SecureShell.Proofs.Engine.Secrecy
import SecureShell.Proofs.Engine.Steps
import SecureShell.Proofs.Engine.Switching
import SecureShell.Proofs.Engine.Taking
import SecureShell.Proofs.Engine.Unfolding
import SecureShell.Proofs.Engine.Unseen
import SecureShell.Proofs.Guarded
import SecureShell.Proofs.Handshake.Binding
import SecureShell.Proofs.Handshake.Calculating
import SecureShell.Proofs.Handshake.Completion
import SecureShell.Proofs.Handshake.Cues
import SecureShell.Proofs.Handshake.Entrusting
import SecureShell.Proofs.Handshake.Equipped
import SecureShell.Proofs.Handshake.Failing
import SecureShell.Proofs.Handshake.Guessing
import SecureShell.Proofs.Handshake.HonestServer
import SecureShell.Proofs.Handshake.KeyAgreement
import SecureShell.Proofs.Handshake.Keying
import SecureShell.Proofs.Handshake.Objections
import SecureShell.Proofs.Handshake.Passing
import SecureShell.Proofs.Handshake.Reaction
import SecureShell.Proofs.Handshake.Runs
import SecureShell.Proofs.Handshake.Script
import SecureShell.Proofs.Handshake.Secured
import SecureShell.Proofs.Handshake.Serving
import SecureShell.Proofs.Identification
import SecureShell.Proofs.Inflation
import SecureShell.Proofs.KeyDerivation
import SecureShell.Proofs.Leaves
import SecureShell.Proofs.LineReader
import SecureShell.Proofs.Messages
import SecureShell.Proofs.Negotiation
import SecureShell.Proofs.Ordinary
import SecureShell.Proofs.Overlooking
import SecureShell.Proofs.Pipeline.Aligning
import SecureShell.Proofs.Pipeline.Cutting
import SecureShell.Proofs.Pipeline.Framing
import SecureShell.Proofs.Pipeline.Lockstep
import SecureShell.Proofs.Pipeline.Opening
import SecureShell.Proofs.Pipeline.Packets
import SecureShell.Proofs.Pipeline.Parsing
import SecureShell.Proofs.Pipeline.RoundTrip
import SecureShell.Proofs.Pipeline.Sealing
import SecureShell.Proofs.Pipeline.Sending
import SecureShell.Proofs.Pipeline.Stages
import SecureShell.Proofs.Pipeline.Unpacking
import SecureShell.Proofs.Raising
import SecureShell.Proofs.Relay
import SecureShell.Proofs.Resumption
import SecureShell.Proofs.RsaSignature
import SecureShell.Proofs.Session.Meeting
import SecureShell.Proofs.Session.Reporting
import SecureShell.Proofs.Session.Turns
import SecureShell.Proofs.Session.Writing
import SecureShell.Proofs.SessionChannel
import SecureShell.Proofs.Transcript
import SecureShell.Proofs.TwosComplement
import SecureShell.Proofs.Wire
import SecureShell.Proofs.Yields
import SecureShell.Proofs.Zlib.Bits
import SecureShell.Proofs.Zlib.Deflate
import SecureShell.Proofs.Zlib.Deflater
import SecureShell.Proofs.Zlib.Inflater
import SecureShell.Proofs.Zlib.Stepping
import SecureShell.Session
import SecureShell.SessionChannel
import SecureShell.Signature.Der
import SecureShell.Signature.Dsa
import SecureShell.Signature.Ed25519
import SecureShell.Signature.Rsa
import SecureShell.Text.Base64
import SecureShell.Text.Blank
import SecureShell.Text.Combining
import SecureShell.Text.Quoted
import SecureShell.Text.Unprintable
import SecureShell.Wire.Reader
import SecureShell.Wire.Writer
import SecureShell.Zlib.Bits
import SecureShell.Zlib.Decoder
import SecureShell.Zlib.Deflate
import SecureShell.Zlib.Deflater
import SecureShell.Zlib.Format
import SecureShell.Zlib.Inflater
import SecureShell.Zlib.PrefixCode
