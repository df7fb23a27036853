import SecureShell.Algorithm
import SecureShell.Entropy
import SecureShell.Wire.Reader
import SecureShell.Wire.Writer

/-!
The proposals that open a key exchange, and the message that closes it. A
proposal lists names in order of preference for every slot.
-/
namespace SecureShell

structure Proposal where
  cookie : Bytes
  kex : List String
  hostKey : List String
  cipherOut : List String
  cipherIn : List String
  macOut : List String
  macIn : List String
  compressionOut : List String
  compressionIn : List String
  languageOut : List String
  languageIn : List String
  /-- Is a packet on its way that guesses the outcome? -/
  guessFollows : Bool
  length_cookie : cookie.length = 16
  deriving DecidableEq

namespace Proposal

/-- The same lists for both directions, no languages, and a fresh cookie. -/
def ofPreferences (entropy : Entropy) (preferences : Preferences) : Proposal where
  cookie := entropy.bytes 16
  kex := preferences.kex
  hostKey := preferences.hostKey
  cipherOut := preferences.ciphers
  cipherIn := preferences.ciphers
  macOut := preferences.macs
  macIn := preferences.macs
  compressionOut := preferences.compression
  compressionIn := preferences.compression
  languageOut := []
  languageIn := []
  guessFollows := false
  length_cookie := entropy.length_bytes 16

def toBytes (p : Proposal) : Bytes :=
  MessageCode.kexInit.toByte :: p.cookie ++ Wire.nameList p.kex ++ Wire.nameList p.hostKey ++
    Wire.nameList p.cipherOut ++ Wire.nameList p.cipherIn ++ Wire.nameList p.macOut ++
    Wire.nameList p.macIn ++ Wire.nameList p.compressionOut ++ Wire.nameList p.compressionIn ++
    Wire.nameList p.languageOut ++ Wire.nameList p.languageIn ++ Wire.bool p.guessFollows ++
    Wire.uint32 0

def reader : Reader Proposal := do
  let code ← Reader.byte
  if code ≠ MessageCode.kexInit.toByte then throw (.protocol (.notKexInit code))
  let ⟨cookie, length_cookie⟩ ← Reader.exactly 16 .raw
  let kex ← Reader.nameList
  let hostKey ← Reader.nameList
  let cipherOut ← Reader.nameList
  let cipherIn ← Reader.nameList
  let macOut ← Reader.nameList
  let macIn ← Reader.nameList
  let compressionOut ← Reader.nameList
  let compressionIn ← Reader.nameList
  let languageOut ← Reader.nameList
  let languageIn ← Reader.nameList
  let guessFollows ← Reader.bool
  let _reserved ← Reader.uint32
  return { cookie, kex, hostKey, cipherOut, cipherIn, macOut, macIn, compressionOut,
           compressionIn, languageOut, languageIn, guessFollows, length_cookie }

def parse (payload : Bytes) : Except Error Proposal := Reader.parse reader payload

end Proposal

structure NewKeys where
  deriving DecidableEq

namespace NewKeys

def toBytes (_ : NewKeys) : Bytes := [MessageCode.newKeys.toByte]

/-- Only the code is looked at. -/
def parse : Bytes → Except Error NewKeys
  | [] => .error (.protocol .emptyNewKeys)
  | code :: _ =>
    if code = MessageCode.newKeys.toByte then .ok {} else .error (.protocol (.notNewKeys code))

end NewKeys

end SecureShell
