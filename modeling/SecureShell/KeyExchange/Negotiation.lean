import SecureShell.KeyExchange.Proposal

/-!
The outcome of two proposals. In every slot the client's first name that the
server also lists is taken; a slot without one ends the negotiation, a language
without one is left open.
-/
namespace SecureShell

/-- The slots that must be agreed on, in the order in which they are tried. -/
inductive Slot where
  | kex
  | hostKey
  | cipherOut
  | cipherIn
  | macOut
  | macIn
  | compressionOut
  | compressionIn
  deriving DecidableEq

namespace Slot

def label : Slot → String
  | .kex => "kex"
  | .hostKey => "host key"
  | .cipherOut => "cipher client to server"
  | .cipherIn => "cipher server to client"
  | .macOut => "mac client to server"
  | .macIn => "mac server to client"
  | .compressionOut => "compression client to server"
  | .compressionIn => "compression server to client"

def names (slot : Slot) (p : Proposal) : List String :=
  match slot with
  | .kex => p.kex
  | .hostKey => p.hostKey
  | .cipherOut => p.cipherOut
  | .cipherIn => p.cipherIn
  | .macOut => p.macOut
  | .macIn => p.macIn
  | .compressionOut => p.compressionOut
  | .compressionIn => p.compressionIn

end Slot

/-- What both sides will use. -/
structure Negotiated where
  kex : KexMethod
  hostKey : HostKeyAlgorithm
  cipherOut : CipherAlgorithm
  cipherIn : CipherAlgorithm
  macOut : MacAlgorithm
  macIn : MacAlgorithm
  compressionOut : CompressionMethod
  compressionIn : CompressionMethod
  languageOut : Option String
  languageIn : Option String
  /-- Did the server announce a guess that is not the outcome? -/
  discardGuess : Bool
  deriving DecidableEq

namespace Negotiation

/-- The first of the client's names that the server lists. -/
def common (client server : List String) : Option String := client.find? (server.contains ·)

def choose (label : String) (client server : List String) : Except Error String :=
  match common client server with
  | some name => .ok name
  | none => .error (.negotiation label client server)

def resolve (kind : AlgorithmKind) (ofName? : String → Option α) (name : String) :
    Except Error α :=
  match ofName? name with
  | some algorithm => .ok algorithm
  | none => .error (.config (.notImplemented kind name))

def slot (slot : Slot) (client server : Proposal) : Except Error String :=
  choose slot.label (slot.names client) (slot.names server)

/-- Does the server's first choice, in both slots that a guess is about, win? -/
def guessRight (server : Proposal) (kex hostKey : String) : Bool :=
  server.kex.head? == some kex && server.hostKey.head? == some hostKey

end Negotiation

open Negotiation in
def negotiate (client server : Proposal) : Except Error Negotiated := do
  let kexName ← slot .kex client server
  let hostKeyName ← slot .hostKey client server
  let kex ← resolve .kex KexMethod.ofName? kexName
  let hostKey ← resolve .hostKey HostKeyAlgorithm.ofName? hostKeyName
  let cipherOut ← resolve .cipher CipherAlgorithm.ofName? (← slot .cipherOut client server)
  let cipherIn ← resolve .cipher CipherAlgorithm.ofName? (← slot .cipherIn client server)
  let macOut ← resolve .mac MacAlgorithm.ofName? (← slot .macOut client server)
  let macIn ← resolve .mac MacAlgorithm.ofName? (← slot .macIn client server)
  let compressionOut ←
    resolve .compression CompressionMethod.ofName? (← slot .compressionOut client server)
  let compressionIn ←
    resolve .compression CompressionMethod.ofName? (← slot .compressionIn client server)
  return { kex, hostKey, cipherOut, cipherIn, macOut, macIn, compressionOut, compressionIn,
           languageOut := common client.languageOut server.languageOut,
           languageIn := common client.languageIn server.languageIn,
           discardGuess := server.guessFollows && !guessRight server kexName hostKeyName }

end SecureShell
