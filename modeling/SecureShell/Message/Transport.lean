import SecureShell.Wire.Reader
import SecureShell.Wire.Writer

/-!
Messages of the transport itself: asking for a service, taking leave, and text
for a developer.
-/
namespace SecureShell

namespace Service

def userauth : String := "ssh-userauth"

def connection : String := "ssh-connection"

def request (service : String) : Bytes := MessageCode.serviceRequest.toByte :: Wire.text service

def accept (service : String) : Bytes := MessageCode.serviceAccept.toByte :: Wire.text service

def parse (code : MessageCode) (payload : Bytes) : Except Error String :=
  Reader.parse (do Reader.expect code; Reader.text) payload

end Service

structure Disconnect where
  reason : UInt32
  description : String
  deriving DecidableEq

namespace Disconnect

def protocolError : UInt32 := 2

def macError : UInt32 := 5

def byApplication : UInt32 := 11

/-- The language behind the description stays empty. -/
def toBytes (message : Disconnect) : Bytes :=
  MessageCode.disconnect.toByte :: Wire.uint32 message.reason ++ Wire.text message.description ++
    Wire.string []

def parse (payload : Bytes) : Except Error Disconnect :=
  Reader.parse (do
    Reader.expect .disconnect
    let reason ← Reader.uint32
    let description ← Reader.text
    return ⟨reason, description⟩) payload

end Disconnect

def parseDebug (payload : Bytes) : Except Error String :=
  Reader.parse (do
    Reader.expect .debug
    let _alwaysDisplay ← Reader.bool
    Reader.text) payload

end SecureShell
