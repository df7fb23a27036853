import SecureShell.Handshake.Authentication
import SecureShell.Handshake.KeyAgreement
import SecureShell.Handshake.Session

/-!
What becomes of an inbound payload. Four kinds of message are treated alike in
every phase; the others belong to the phase that waits for them.
-/
namespace SecureShell.Handshake

/-- Drops the message if it is a wrong guess, and treats it otherwise. -/
def unlessGuess (transition : Transition) : Transition := do
  let h ← get
  if h.discardGuess then
    set { h with discardGuess := false }
    return []
  transition

def onPhase (entropy : Entropy) (payload : Bytes) : Transition := do
  match (← get).phase with
  | .headerExchange => refuse (payload.headD 0)
  | .kexInit => onProposal entropy payload
  | .groupNegotiation => unlessGuess (onGroup entropy payload)
  | .kexReply => unlessGuess (onReply payload)
  | .newKeys => onNewKeys payload
  | .serviceAccept => onServiceAccept payload
  | .auth stage => onAuth stage payload
  | .channelOpen => onChannelOpen payload
  | .established => onEstablished payload
  | .closed => throw .closed

def unimplementedReader : Reader UInt32 := do
  let _code ← Reader.byte
  Reader.uint32

def onPacket (entropy : Entropy) (payload : Bytes) : Transition := do
  match payload with
  | [] => throw (.protocol .emptyPayload)
  | code :: _ =>
    match MessageCode.ofByte? code with
    | some .ignore | some .debug => return []
    | some .disconnect =>
      let message ← lift (Disconnect.parse payload)
      enter .closed
      throw (.disconnected message.reason message.description)
    | some .unimplemented =>
      throw (.protocol (.unimplemented (← lift (Reader.parse unimplementedReader payload))))
    | _ => onPhase entropy payload

end SecureShell.Handshake
