import SecureShell.Message.Connection

/-!
The client's end of the one session channel: what it has advertised, what the
peer has confirmed, and the messages that follow from both. Data is cut so that
no message exceeds the size that the peer has asked for; the window is counted
down and never replenished.
-/
namespace SecureShell

inductive ChannelState where
  /-- The confirmation has not arrived. -/
  | opening
  | opened
  /-- Our close has been sent, the peer's has not arrived. -/
  | closing
  | closed
  deriving DecidableEq

def ChannelState.name : ChannelState → String
  | .opening => "Opening"
  | .opened => "Open"
  | .closing => "Closing"
  | .closed => "Closed"

inductive ChannelData where
  | output (data : Bytes)
  | extended (kind : UInt32) (data : Bytes)
  deriving DecidableEq

structure SessionChannel where
  state : ChannelState := .opening
  localWindow : UInt32
  localMaxPacket : UInt32
  remoteId : UInt32 := 0
  remoteWindow : UInt32 := 0
  remoteMaxPacket : UInt32 := 0
  closeSent : Bool := false
  deriving DecidableEq

namespace SessionChannel

/-- Our number for the channel. -/
def localId : UInt32 := 0

def dataOverhead : Nat := 9

def openMessage (channel : SessionChannel) : Bytes :=
  (ChannelOpen.session localId channel.localWindow channel.localMaxPacket).toBytes

def confirm (channel : SessionChannel) (message : ChannelConfirmation) :
    Except Error SessionChannel :=
  if channel.state ≠ .opening then .error (.protocol .unexpectedConfirmation)
  else if message.recipient ≠ localId then
    .error (.protocol (.unknownConfirmation message.recipient))
  else if message.maxPacket = 0 then .error (.protocol .zeroRemotePacketSize)
  else
    .ok { channel with
      state := .opened, remoteId := message.sender, remoteWindow := message.window,
      remoteMaxPacket := message.maxPacket }

def request (channel : SessionChannel) (kind : ChannelRequestKind) : Bytes :=
  ChannelRequest.toBytes ⟨channel.remoteId, false, kind⟩

/-- Asks for a terminal, if one is wanted, and then for the command or a shell. -/
def startRequests (channel : SessionChannel) (pty : Option Pty) (command : Option String) :
    List Bytes :=
  (pty.map fun terminal => channel.request (.pty terminal)).toList ++
    [channel.request ((command.map ChannelRequestKind.exec).getD .shell)]

def pieceSize (channel : SessionChannel) : Nat :=
  max (channel.remoteMaxPacket.toNat - dataOverhead) 1

def dataMessages (channel : SessionChannel) (data : Bytes) : Except Error (List Bytes) :=
  if channel.state ≠ .opened then .error .closed
  else .ok ((Bytes.pieces channel.pieceSize data).map fun piece =>
    DataMessage.toBytes ⟨channel.remoteId, piece⟩)

/-- Counts arrived data against the window; data beyond it is accepted too. -/
def receive (channel : SessionChannel) (length : Nat) : SessionChannel :=
  { channel with localWindow := UInt32.ofNat (channel.localWindow.toNat - length) }

def checkRecipient (recipient : UInt32) : Except Error Unit :=
  if recipient = localId then .ok () else .error (.protocol (.unknownChannel recipient))

/-- Our close, unless it has been sent or the channel never opened. -/
def close (channel : SessionChannel) : Option Bytes × SessionChannel :=
  if channel.closeSent ∨ channel.state = .opening then (none, channel)
  else
    (some (ChannelOnly.toBytes .channelClose channel.remoteId),
      { channel with
        closeSent := true
        state := if channel.state = .closed then .closed else .closing })

/-- The peer's close; gives our own if it is still owed. -/
def peerClosed (channel : SessionChannel) : Option Bytes × SessionChannel :=
  let (reply, channel) := channel.close
  (reply, { channel with state := .closed })

end SessionChannel

end SecureShell
