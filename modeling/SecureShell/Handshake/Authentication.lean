import SecureShell.Handshake.State
import SecureShell.Message.Userauth

/-!
User authentication. The client first asks for nothing, to learn what the server
accepts; then it uses the one credential that it has, a key only after the server
has said that it would take it.
-/
namespace SecureShell.Handshake

def request (stage : AuthStage) (method : AuthMethod) : Transition := do
  enter (.auth stage)
  return [.send (UserauthRequest.toBytes { user := (← get).config.username, method })]

def onServiceAccept (payload : Bytes) : Transition := do
  expect .serviceAccept payload
  let service ← lift (Service.parse .serviceAccept payload)
  if service ≠ Service.userauth then throw (.protocol (.unexpectedService service))
  request .methodsQuery .none

def firstRequest : Credential → AuthStage × AuthMethod
  | .password word => (.password, .password word)
  | .key identity => (.publicKeyQuery, .query identity.algorithm identity.blob)

/-- Goes on with the credential if nothing has been tried and the server accepts
its method. -/
def onAuthFailure (stage : AuthStage) (failure : UserauthFailure) : Transition := do
  let credential := (← get).config.credential
  let method := credential.methodName
  let accepted := String.intercalate "," failure.methods
  if stage ≠ .methodsQuery then throw (.auth (.rejected method accepted))
  if !failure.allows method then throw (.auth (.notAccepted method accepted))
  let (stage, method) := firstRequest credential
  request stage method

def onPkOk (answer : UserauthPkOk) : Transition := do
  let h ← get
  match h.config.credential with
  | .password _ => throw (.protocol .pkOkWithoutQuery)
  | .key identity =>
    if answer.algorithm ≠ identity.algorithm ∨ answer.key ≠ identity.blob then
      throw (.auth .pkOkMismatch)
    let sessionId ← require h.sessionId .noSessionId
    let data :=
      UserauthRequest.signatureData sessionId h.config.username identity.algorithm identity.blob
    let signature ← lift (identity.sign data)
    request .publicKeySigned (.signed identity.algorithm identity.blob signature)

/-- Switches negotiated compression on and opens the session channel. -/
def onAuthSuccess : Transition := do
  let h ← get
  let negotiated ← require h.negotiated .notNegotiated
  let outbound := negotiated.compressionOut.delayed
  let inbound := negotiated.compressionIn.delayed
  enter .channelOpen
  return (if outbound || inbound then [.compress outbound inbound] else []) ++
    [.send h.channel.openMessage]

def onAuth (stage : AuthStage) (payload : Bytes) : Transition := do
  let code := payload.headD 0
  match MessageCode.ofByte? code with
  | some .userauthBanner =>
    let _banner ← lift (UserauthBanner.parse payload)
    return []
  | some .userauthSuccess => onAuthSuccess
  | some .userauthFailure => onAuthFailure stage (← lift (UserauthFailure.parse payload))
  | some .userauthPkOk =>
    match stage with
    | .publicKeyQuery => onPkOk (← lift (UserauthPkOk.parse payload))
    | .password => throw (.auth .passwordChange)
    | .methodsQuery | .publicKeySigned => refuse code
  | _ => refuse code

end SecureShell.Handshake
