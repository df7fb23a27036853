import SecureShell.Handshake.State
import SecureShell.Message.Transport

/-!
The session channel's part of the handshake: opening it, what arrives on it, and
its end.
-/
namespace SecureShell.Handshake

def onGlobalRequest (payload : Bytes) : Transition := do
  let request ← lift (GlobalRequest.parse payload)
  return if request.wantReply then [.send GlobalRequest.failure] else []

def onConfirmation (payload : Bytes) : Transition := do
  let confirmation ← lift (ChannelConfirmation.parse payload)
  let h ← get
  let channel ← lift (h.channel.confirm confirmation)
  set { h with channel, phase := .established }
  return (channel.startRequests h.config.pty h.config.command).map .send ++ [.established]

def onChannelOpen (payload : Bytes) : Transition := do
  let code := payload.headD 0
  match MessageCode.ofByte? code with
  | some .channelOpenConfirmation => onConfirmation payload
  | some .channelOpenFailure =>
    let failure ← lift (ChannelOpenFailure.parse payload)
    throw (.protocol (.channelOpenFailed failure.reason.text failure.description))
  | some .globalRequest => onGlobalRequest payload
  | _ => refuse code

/-- Hands out data for our channel and counts it against the window. -/
def deliver (recipient : UInt32) (length : Nat) (data : ChannelData) : Transition := do
  lift (SessionChannel.checkRecipient recipient)
  modify fun h => { h with channel := h.channel.receive length }
  return [.deliver data]

/-- Reads a message of a channel number alone and ignores it. -/
def onIgnored (code : MessageCode) (payload : Bytes) : Transition := do
  lift (SessionChannel.checkRecipient (← lift (ChannelOnly.parse code payload)))
  return []

def onChannelRequest (payload : Bytes) : Transition := do
  let request ← lift (ChannelRequest.parse payload)
  lift (SessionChannel.checkRecipient request.recipient)
  let refusal := ChannelOnly.toBytes .channelFailure (← get).channel.remoteId
  return if request.wantReply then [.send refusal] else []

/-- Answers the server's close and ends normally. -/
def onPeerClose (payload : Bytes) : Transition := do
  lift (SessionChannel.checkRecipient (← lift (ChannelOnly.parse .channelClose payload)))
  let h ← get
  let (reply, channel) := h.channel.peerClosed
  set { h with channel, phase := .closed }
  return (reply.map Action.send).toList ++ [.closed]

def onEstablished (payload : Bytes) : Transition := do
  let code := payload.headD 0
  match MessageCode.ofByte? code with
  | some .channelData =>
    let message ← lift (DataMessage.parse payload)
    deliver message.recipient message.data.length (.output message.data)
  | some .channelExtendedData =>
    let message ← lift (ExtendedDataMessage.parse payload)
    deliver message.recipient message.data.length (.extended message.kind message.data)
  | some .channelWindowAdjust => onIgnored .channelWindowAdjust payload
  | some .channelEof => onIgnored .channelEof payload
  | some .channelSuccess => onIgnored .channelSuccess payload
  | some .channelRequest => onChannelRequest payload
  | some .globalRequest => onGlobalRequest payload
  | some .channelClose => onPeerClose payload
  | _ => refuse code

def write (h : Handshake) (data : Bytes) : Except Error (List Bytes) :=
  match h.phase with
  | .established => h.channel.dataMessages data
  | .closed => .error .closed
  | phase => .error (.protocol (.cannotWrite phase))

def farewell : Disconnect := ⟨Disconnect.byApplication, "disconnected by application"⟩

/-- Ends the session; gives the close of the channel, if it is owed, and, once there
are packets, the leave-taking. -/
def close (h : Handshake) : List Bytes × Handshake :=
  if h.phase = .closed then ([], h)
  else
    let (message, channel) := h.channel.close
    (message.toList ++ (if h.phase = .headerExchange then [] else [farewell.toBytes]),
      { h with channel, phase := .closed })

/-- Ends the session at once and forgets its secrets. -/
def abort (h : Handshake) : Handshake :=
  { h with pending := none, exchange := none, phase := .closed }

end SecureShell.Handshake
