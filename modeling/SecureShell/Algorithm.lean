/-!
The algorithms that can be agreed on, one type for each kind. Every kind lists
its members in default preference order; a name is looked up among the names of
that list, so `ofName?` inverts `name` and knows no other text.
-/
namespace SecureShell

inductive KexMethod where
  | groupExchange
  | group14
  | group1
  deriving DecidableEq

namespace KexMethod

def name : KexMethod → String
  | .groupExchange => "diffie-hellman-group-exchange-sha1"
  | .group14 => "diffie-hellman-group14-sha1"
  | .group1 => "diffie-hellman-group1-sha1"

def all : List KexMethod := [.groupExchange, .group14, .group1]

def ofName? (text : String) : Option KexMethod := all.find? (·.name == text)

def choosesGroup : KexMethod → Bool
  | .groupExchange => true
  | .group14 | .group1 => false

theorem ofName?_name (method : KexMethod) : ofName? method.name = some method := by
  cases method <;> decide

end KexMethod

inductive HostKeyAlgorithm where
  | rsa
  | dss
  deriving DecidableEq

namespace HostKeyAlgorithm

def name : HostKeyAlgorithm → String
  | .rsa => "ssh-rsa"
  | .dss => "ssh-dss"

def all : List HostKeyAlgorithm := [.rsa, .dss]

def ofName? (text : String) : Option HostKeyAlgorithm := all.find? (·.name == text)

theorem ofName?_name (algorithm : HostKeyAlgorithm) :
    ofName? algorithm.name = some algorithm := by
  cases algorithm <;> decide

end HostKeyAlgorithm

inductive CipherAlgorithm where
  | aes128Ctr
  | aes128Cbc
  | tripleDesCtr
  | tripleDesCbc
  | blowfishCbc
  deriving DecidableEq

namespace CipherAlgorithm

def name : CipherAlgorithm → String
  | .aes128Ctr => "aes128-ctr"
  | .aes128Cbc => "aes128-cbc"
  | .tripleDesCtr => "3des-ctr"
  | .tripleDesCbc => "3des-cbc"
  | .blowfishCbc => "blowfish-cbc"

def all : List CipherAlgorithm :=
  [.aes128Ctr, .aes128Cbc, .tripleDesCtr, .tripleDesCbc, .blowfishCbc]

def ofName? (text : String) : Option CipherAlgorithm := all.find? (·.name == text)

def keySize : CipherAlgorithm → Nat
  | .aes128Ctr | .aes128Cbc | .blowfishCbc => 16
  | .tripleDesCtr | .tripleDesCbc => 24

def blockSize : CipherAlgorithm → Nat
  | .aes128Ctr | .aes128Cbc => 16
  | .tripleDesCtr | .tripleDesCbc | .blowfishCbc => 8

theorem ofName?_name (algorithm : CipherAlgorithm) :
    ofName? algorithm.name = some algorithm := by
  cases algorithm <;> decide

theorem blockSize_pos (algorithm : CipherAlgorithm) : 0 < algorithm.blockSize := by
  cases algorithm <;> decide

end CipherAlgorithm

inductive MacAlgorithm where
  | md5
  | sha1
  | sha256
  deriving DecidableEq

namespace MacAlgorithm

def name : MacAlgorithm → String
  | .md5 => "hmac-md5"
  | .sha1 => "hmac-sha1"
  | .sha256 => "hmac-sha2-256"

def all : List MacAlgorithm := [.md5, .sha1, .sha256]

def ofName? (text : String) : Option MacAlgorithm := all.find? (·.name == text)

def tagSize : MacAlgorithm → Nat
  | .md5 => 16
  | .sha1 => 20
  | .sha256 => 32

/-- A key is as long as a tag. -/
def keySize (algorithm : MacAlgorithm) : Nat := algorithm.tagSize

theorem ofName?_name (algorithm : MacAlgorithm) : ofName? algorithm.name = some algorithm := by
  cases algorithm <;> decide

end MacAlgorithm

inductive CompressionMethod where
  | zlibDelayed
  | none
  deriving DecidableEq

namespace CompressionMethod

def name : CompressionMethod → String
  | .zlibDelayed => "zlib@openssh.com"
  | .none => "none"

def all : List CompressionMethod := [.zlibDelayed, .none]

def ofName? (text : String) : Option CompressionMethod := all.find? (·.name == text)

/-- Does compression wait for the end of authentication? -/
def delayed : CompressionMethod → Bool
  | .zlibDelayed => true
  | .none => false

theorem ofName?_name (method : CompressionMethod) : ofName? method.name = some method := by
  cases method <;> decide

end CompressionMethod

/-- Ordered proposals, most preferred first; each serves both directions. -/
structure Preferences where
  kex : List String := KexMethod.all.map (·.name)
  hostKey : List String := HostKeyAlgorithm.all.map (·.name)
  ciphers : List String := CipherAlgorithm.all.map (·.name)
  macs : List String := MacAlgorithm.all.map (·.name)
  compression : List String := CompressionMethod.all.map (·.name)
  deriving DecidableEq

end SecureShell
