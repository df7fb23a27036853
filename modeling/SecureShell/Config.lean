import SecureShell.ClientKey
import SecureShell.HostKey
import SecureShell.KeyExchange.DiffieHellman
import SecureShell.Message.Connection

/-!
Everything that a client can be told before it starts, and the check that it can
work with it. What the check accepts makes a legal line of identification, unless the
name of the program is too long for one: of the name only the characters are checked.
-/
namespace SecureShell

structure Config where
  /-- Names the program in the line of identification. -/
  software : String
  username : String
  credential : Credential
  /-- The command to run; without one a shell is started. -/
  command : Option String := none
  /-- The terminal to ask for before the command or shell. -/
  pty : Option Pty := none
  preferences : Preferences := {}
  groupBounds : GroupBounds := {}
  /-- The window that is advertised for the session channel. -/
  windowSize : UInt32 := 4294967294
  /-- The largest message of channel data that is asked for. -/
  maxPacketSize : UInt32 := 65536
  /-- How much is inflated in one step. -/
  inflateBuffer : Nat := 10240
  /-- The largest inbound packet that is accepted. -/
  maxPacketLength : Nat := 262144
  trust : Trust := .anyKey

namespace Config

/-- May a character stand in the name of a program? Blanks and hyphens would end it. -/
def softwareChar (c : Char) : Bool := '!' ≤ c && c ≤ '~' && c != '-'

def checkNames (kind : AlgorithmKind) (supported names : List String) : Except Error Unit :=
  if names.isEmpty then .error (.config (.emptyList kind))
  else
    match names.find? (!supported.contains ·) with
    | some name => .error (.config (.unsupported kind name))
    | none => .ok ()

def checkPreferences (p : Preferences) : Except Error Unit := do
  let supported : Preferences := {}
  checkNames .kex supported.kex p.kex
  checkNames .hostKey supported.hostKey p.hostKey
  checkNames .cipher supported.ciphers p.ciphers
  checkNames .mac supported.macs p.macs
  checkNames .compression supported.compression p.compression

def check (config : Config) : Except Error Unit := do
  if config.username.isEmpty then throw (.config .emptyUsername)
  if config.software.isEmpty || !config.software.toList.all softwareChar then
    throw (.config (.invalidSoftware config.software))
  if config.maxPacketSize = 0 then throw (.config .zeroMaxPacketSize)
  if config.inflateBuffer = 0 then throw (.config .zeroInflateBuffer)
  if config.maxPacketLength < 1024 then
    throw (.config (.maxPacketLengthTooSmall config.maxPacketLength))
  let bounds := config.groupBounds
  if bounds.preferred < bounds.least ∨ bounds.most < bounds.preferred then
    throw (.config (.invalidGroupBounds bounds.least bounds.preferred bounds.most))
  checkPreferences config.preferences

end Config

end SecureShell
