import SecureShell.Wire.Reader
import SecureShell.Wire.Writer

/-!
Messages of the connection protocol, as far as one session channel needs them.
-/
namespace SecureShell

structure ChannelOpen where
  kind : String
  sender : UInt32
  window : UInt32
  maxPacket : UInt32
  deriving DecidableEq

namespace ChannelOpen

def session (sender window maxPacket : UInt32) : ChannelOpen := ⟨"session", sender, window, maxPacket⟩

def toBytes (message : ChannelOpen) : Bytes :=
  MessageCode.channelOpen.toByte :: Wire.text message.kind ++ Wire.uint32 message.sender ++
    Wire.uint32 message.window ++ Wire.uint32 message.maxPacket

def parse (payload : Bytes) : Except Error ChannelOpen :=
  Reader.parse (do
    Reader.expect .channelOpen
    let kind ← Reader.text
    let sender ← Reader.uint32
    let window ← Reader.uint32
    let maxPacket ← Reader.uint32
    return ⟨kind, sender, window, maxPacket⟩) payload

end ChannelOpen

structure ChannelConfirmation where
  recipient : UInt32
  sender : UInt32
  window : UInt32
  maxPacket : UInt32
  deriving DecidableEq

namespace ChannelConfirmation

def toBytes (message : ChannelConfirmation) : Bytes :=
  MessageCode.channelOpenConfirmation.toByte :: Wire.uint32 message.recipient ++
    Wire.uint32 message.sender ++ Wire.uint32 message.window ++ Wire.uint32 message.maxPacket

def parse (payload : Bytes) : Except Error ChannelConfirmation :=
  Reader.parse (do
    Reader.expect .channelOpenConfirmation
    let recipient ← Reader.uint32
    let sender ← Reader.uint32
    let window ← Reader.uint32
    let maxPacket ← Reader.uint32
    return ⟨recipient, sender, window, maxPacket⟩) payload

end ChannelConfirmation

inductive OpenFailureReason where
  | prohibited
  | connectFailed
  | unknownKind
  | resourceShortage
  | other (code : UInt32)
  deriving DecidableEq

namespace OpenFailureReason

def ofCode : UInt32 → OpenFailureReason
  | 1 => .prohibited
  | 2 => .connectFailed
  | 3 => .unknownKind
  | 4 => .resourceShortage
  | code => .other code

def code : OpenFailureReason → UInt32
  | .prohibited => 1
  | .connectFailed => 2
  | .unknownKind => 3
  | .resourceShortage => 4
  | .other code => code

def text : OpenFailureReason → String
  | .prohibited => "administratively prohibited"
  | .connectFailed => "connect failed"
  | .unknownKind => "unknown channel type"
  | .resourceShortage => "resource shortage"
  | .other _ => "unknown reason"

end OpenFailureReason

structure ChannelOpenFailure where
  recipient : UInt32
  reason : OpenFailureReason
  description : String
  deriving DecidableEq

namespace ChannelOpenFailure

/-- The language behind the description stays empty. -/
def toBytes (message : ChannelOpenFailure) : Bytes :=
  MessageCode.channelOpenFailure.toByte :: Wire.uint32 message.recipient ++
    Wire.uint32 message.reason.code ++ Wire.text message.description ++ Wire.string []

def parse (payload : Bytes) : Except Error ChannelOpenFailure :=
  Reader.parse (do
    Reader.expect .channelOpenFailure
    let recipient ← Reader.uint32
    let reason ← Reader.uint32
    let description ← Reader.text
    return ⟨recipient, .ofCode reason, description⟩) payload

end ChannelOpenFailure

structure DataMessage where
  recipient : UInt32
  data : Bytes
  deriving DecidableEq

namespace DataMessage

def toBytes (message : DataMessage) : Bytes :=
  MessageCode.channelData.toByte :: Wire.uint32 message.recipient ++ Wire.string message.data

def parse (payload : Bytes) : Except Error DataMessage :=
  Reader.parse (do
    Reader.expect .channelData
    let recipient ← Reader.uint32
    let data ← Reader.string
    return ⟨recipient, data⟩) payload

end DataMessage

/-- Data of a kind of its own, such as error output. -/
structure ExtendedDataMessage where
  recipient : UInt32
  kind : UInt32
  data : Bytes
  deriving DecidableEq

namespace ExtendedDataMessage

def toBytes (message : ExtendedDataMessage) : Bytes :=
  MessageCode.channelExtendedData.toByte :: Wire.uint32 message.recipient ++
    Wire.uint32 message.kind ++ Wire.string message.data

def parse (payload : Bytes) : Except Error ExtendedDataMessage :=
  Reader.parse (do
    Reader.expect .channelExtendedData
    let recipient ← Reader.uint32
    let kind ← Reader.uint32
    let data ← Reader.string
    return ⟨recipient, kind, data⟩) payload

end ExtendedDataMessage

-- Messages that consist of their code and a channel number.
namespace ChannelOnly

def toBytes (code : MessageCode) (recipient : UInt32) : Bytes :=
  code.toByte :: Wire.uint32 recipient

def parse (code : MessageCode) (payload : Bytes) : Except Error UInt32 :=
  Reader.parse (do Reader.expect code; Reader.uint32) payload

end ChannelOnly

structure Pty where
  term : String := "vt100"
  columns : UInt32 := 80
  rows : UInt32 := 24
  widthPixels : UInt32 := 0
  heightPixels : UInt32 := 0
  deriving DecidableEq

namespace Pty

/-- The list of terminal modes holds nothing but its end. -/
def fields (pty : Pty) : Bytes :=
  Wire.text pty.term ++ Wire.uint32 pty.columns ++ Wire.uint32 pty.rows ++
    Wire.uint32 pty.widthPixels ++ Wire.uint32 pty.heightPixels ++ Wire.string [0]

def reader : Reader Pty := do
  let term ← Reader.text
  let columns ← Reader.uint32
  let rows ← Reader.uint32
  let widthPixels ← Reader.uint32
  let heightPixels ← Reader.uint32
  let _modes ← Reader.string
  return ⟨term, columns, rows, widthPixels, heightPixels⟩

end Pty

inductive ChannelRequestKind where
  | pty (terminal : Pty)
  | shell
  | exec (command : String)
  | other (name : String) (data : Bytes)
  deriving DecidableEq

namespace ChannelRequestKind

def name : ChannelRequestKind → String
  | .pty _ => "pty-req"
  | .shell => "shell"
  | .exec _ => "exec"
  | .other name _ => name

def fields : ChannelRequestKind → Bytes
  | .pty terminal => terminal.fields
  | .shell => []
  | .exec command => Wire.text command
  | .other _ data => data

def reader (name : String) : Reader ChannelRequestKind := do
  match name with
  | "pty-req" => return .pty (← Pty.reader)
  | "shell" => return .shell
  | "exec" => return .exec (← Reader.text)
  | name => return .other name (← Reader.rest)

end ChannelRequestKind

structure ChannelRequest where
  recipient : UInt32
  wantReply : Bool
  kind : ChannelRequestKind
  deriving DecidableEq

namespace ChannelRequest

def toBytes (message : ChannelRequest) : Bytes :=
  MessageCode.channelRequest.toByte :: Wire.uint32 message.recipient ++
    Wire.text message.kind.name ++ Wire.bool message.wantReply ++ message.kind.fields

def parse (payload : Bytes) : Except Error ChannelRequest :=
  Reader.parse (do
    Reader.expect .channelRequest
    let recipient ← Reader.uint32
    let name ← Reader.text
    let wantReply ← Reader.bool
    let kind ← ChannelRequestKind.reader name
    return ⟨recipient, wantReply, kind⟩) payload

end ChannelRequest

/-- A request that concerns no channel; what stands behind its fields is dropped. -/
structure GlobalRequest where
  name : String
  wantReply : Bool
  deriving DecidableEq

namespace GlobalRequest

def toBytes (message : GlobalRequest) : Bytes :=
  MessageCode.globalRequest.toByte :: Wire.text message.name ++ Wire.bool message.wantReply

def parse (payload : Bytes) : Except Error GlobalRequest :=
  Reader.parse (do
    Reader.expect .globalRequest
    let name ← Reader.text
    let wantReply ← Reader.bool
    return ⟨name, wantReply⟩) payload

def failure : Bytes := [MessageCode.requestFailure.toByte]

end GlobalRequest

end SecureShell
