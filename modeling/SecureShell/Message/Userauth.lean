import SecureShell.Message.Transport

/-!
Messages of user authentication, and the bytes that a client signs to prove that
it holds a key: the session and the very request that carries the signature.
-/
namespace SecureShell

inductive AuthMethod where
  | none
  | password (word : String)
  /-- Would the server take this key? -/
  | query (algorithm : String) (key : Bytes)
  | signed (algorithm : String) (key signature : Bytes)
  deriving DecidableEq

namespace AuthMethod

def name : AuthMethod → String
  | .none => "none"
  | .password _ => "password"
  | .query _ _ | .signed _ _ _ => "publickey"

def summary : AuthMethod → String
  | .none => "None"
  | .password _ => "Password(<redacted>)"
  | .query algorithm _ => s!"PublicKeyQuery({algorithm})"
  | .signed algorithm _ _ => s!"PublicKeySigned({algorithm})"

def fields : AuthMethod → Bytes
  | .none => []
  | .password word => Wire.bool false ++ Wire.text word
  | .query algorithm key => Wire.bool false ++ Wire.text algorithm ++ Wire.string key
  | .signed algorithm key signature =>
    Wire.bool true ++ Wire.text algorithm ++ Wire.string key ++ Wire.string signature

def reader (name : String) : Reader AuthMethod := do
  match name with
  | "none" => return .none
  | "password" =>
    let _change ← Reader.bool
    return .password (← Reader.text)
  | "publickey" =>
    let hasSignature ← Reader.bool
    let algorithm ← Reader.text
    let key ← Reader.string
    if hasSignature then return .signed algorithm key (← Reader.string)
    else return .query algorithm key
  | other => throw (.protocol (.unsupportedAuthMethod other))

end AuthMethod

structure UserauthRequest where
  user : String
  service : String := Service.connection
  method : AuthMethod
  deriving DecidableEq

namespace UserauthRequest

def toBytes (message : UserauthRequest) : Bytes :=
  MessageCode.userauthRequest.toByte :: Wire.text message.user ++ Wire.text message.service ++
    Wire.text message.method.name ++ message.method.fields

def parse (payload : Bytes) : Except Error UserauthRequest :=
  Reader.parse (do
    Reader.expect .userauthRequest
    let user ← Reader.text
    let service ← Reader.text
    let method ← AuthMethod.reader (← Reader.text)
    return ⟨user, service, method⟩) payload

/-- What a client signs: the session, and its request up to the signature. -/
def signatureData (session : Bytes) (user algorithm : String) (key : Bytes) : Bytes :=
  Wire.string session ++ MessageCode.userauthRequest.toByte :: (Wire.text user ++
    Wire.text Service.connection ++ Wire.text "publickey" ++ Wire.bool true ++
    Wire.text algorithm ++ Wire.string key)

end UserauthRequest

structure UserauthFailure where
  /-- The methods that can continue. -/
  methods : List String
  partialSuccess : Bool
  deriving DecidableEq

namespace UserauthFailure

def toBytes (message : UserauthFailure) : Bytes :=
  MessageCode.userauthFailure.toByte :: Wire.nameList message.methods ++
    Wire.bool message.partialSuccess

def parse (payload : Bytes) : Except Error UserauthFailure :=
  Reader.parse (do
    Reader.expect .userauthFailure
    let methods ← Reader.nameList
    let partialSuccess ← Reader.bool
    return ⟨methods, partialSuccess⟩) payload

def allows (message : UserauthFailure) (method : String) : Bool := message.methods.contains method

end UserauthFailure

structure UserauthBanner where
  message : String
  language : String
  deriving DecidableEq

namespace UserauthBanner

def toBytes (banner : UserauthBanner) : Bytes :=
  MessageCode.userauthBanner.toByte :: Wire.text banner.message ++ Wire.text banner.language

def parse (payload : Bytes) : Except Error UserauthBanner :=
  Reader.parse (do
    Reader.expect .userauthBanner
    let message ← Reader.text
    let language ← Reader.text
    return ⟨message, language⟩) payload

end UserauthBanner

structure UserauthPkOk where
  algorithm : String
  key : Bytes
  deriving DecidableEq

namespace UserauthPkOk

def toBytes (message : UserauthPkOk) : Bytes :=
  MessageCode.userauthPkOk.toByte :: Wire.text message.algorithm ++ Wire.string message.key

def parse (payload : Bytes) : Except Error UserauthPkOk :=
  Reader.parse (do
    Reader.expect .userauthPkOk
    let algorithm ← Reader.text
    let key ← Reader.string
    return ⟨algorithm, key⟩) payload

end UserauthPkOk

end SecureShell
