/-!
The stages that a connection passes through, from the first line of text to a
usable session and its end.
-/
namespace SecureShell

/-- Progress through user authentication: the request that was sent last. -/
inductive AuthStage where
  | methodsQuery
  | password
  | publicKeyQuery
  | publicKeySigned
  deriving DecidableEq

def AuthStage.name : AuthStage → String
  | .methodsQuery => "MethodsQuery"
  | .password => "Password"
  | .publicKeyQuery => "PublicKeyQuery"
  | .publicKeySigned => "PublicKeySigned"

/-- What the client waits for. -/
inductive Phase where
  | headerExchange
  | kexInit
  | groupNegotiation
  | kexReply
  | newKeys
  | serviceAccept
  | auth (stage : AuthStage)
  | channelOpen
  | established
  | closed
  deriving DecidableEq

def Phase.name : Phase → String
  | .headerExchange => "HeaderExchange"
  | .kexInit => "KexInit"
  | .groupNegotiation => "GroupNegotiation"
  | .kexReply => "KexReply"
  | .newKeys => "NewKeys"
  | .serviceAccept => "ServiceAccept"
  | .auth _ => "Auth"
  | .channelOpen => "ChannelOpen"
  | .established => "Established"
  | .closed => "Closed"

end SecureShell
