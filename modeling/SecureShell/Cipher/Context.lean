import SecureShell.Cipher.Aes
import SecureShell.Cipher.Blowfish
import SecureShell.Cipher.TripleDes
import SecureShell.Error

/-!
Cipher contexts: a keyed block cipher in counter or chaining mode. A context
carries its chaining block from call to call, so that data may be handed over in
any pieces of whole blocks; data of another length is refused and leaves the
context alone.
-/
namespace SecureShell

/-- A block cipher with its expanded key. -/
inductive BlockCipher where
  | aes (keys : Aes.Schedule)
  | tripleDes (keys : Des.Schedule)
  | blowfish (keys : Blowfish.Schedule)
  deriving DecidableEq

namespace BlockCipher

def encrypt : BlockCipher → Bytes → Bytes
  | .aes keys => Aes.encrypt keys
  | .tripleDes keys => Des.encrypt keys
  | .blowfish keys => Blowfish.encrypt keys

def decrypt : BlockCipher → Bytes → Bytes
  | .aes keys => Aes.decrypt keys
  | .tripleDes keys => Des.decrypt keys
  | .blowfish keys => Blowfish.decrypt keys

end BlockCipher

inductive Operation where
  | encrypt
  | decrypt
  deriving DecidableEq

/-- How the blocks of a stream hang together. -/
inductive Mode where
  | counter
  | chaining (operation : Operation)
  deriving DecidableEq

structure CipherContext where
  algorithm : CipherAlgorithm
  cipher : BlockCipher
  mode : Mode
  /-- The next counter, or the ciphertext block before the next one. -/
  chain : Bytes
  deriving DecidableEq

namespace CipherContext

def acceptsKey (algorithm : CipherAlgorithm) (length : Nat) : Bool :=
  match algorithm with
  | .blowfishCbc => 4 ≤ length && length ≤ 56
  | _ => length == algorithm.keySize

def expandKey (algorithm : CipherAlgorithm) (key : Bytes) : BlockCipher :=
  match algorithm with
  | .aes128Ctr | .aes128Cbc => .aes (Aes.schedule key)
  | .tripleDesCtr | .tripleDesCbc => .tripleDes (Des.schedule key)
  | .blowfishCbc => .blowfish (Blowfish.schedule key)

def modeOf (algorithm : CipherAlgorithm) (operation : Operation) : Mode :=
  match algorithm with
  | .aes128Ctr | .tripleDesCtr => .counter
  | .aes128Cbc | .tripleDesCbc | .blowfishCbc => .chaining operation

def create (algorithm : CipherAlgorithm) (operation : Operation) (key iv : Bytes) :
    Except Error CipherContext :=
  if acceptsKey algorithm key.length ∧ iv.length = algorithm.blockSize then
    .ok ⟨algorithm, expandKey algorithm key, modeOf algorithm operation, iv⟩
  else .error (.crypto (.keyOrIvLength algorithm))

def blockSize (context : CipherContext) : Nat := context.algorithm.blockSize

/-- What becomes of one block, and the chaining block after it. A counter wraps
around at the width of a block. -/
def step (cipher : BlockCipher) (mode : Mode) (chain block : Bytes) : Bytes × Bytes :=
  match mode with
  | .counter => (Bytes.xor block (cipher.encrypt chain), Bytes.wide chain.length (Bytes.toNat chain + 1))
  | .chaining .encrypt =>
    let out := cipher.encrypt (Bytes.xor block chain)
    (out, out)
  | .chaining .decrypt => (Bytes.xor (cipher.decrypt block) chain, block)

def run (cipher : BlockCipher) (mode : Mode) (chain : Bytes) (blocks : List Bytes) :
    List Bytes × Bytes :=
  blocks.foldl
    (fun (done, chain) block =>
      let (out, chain) := step cipher mode chain block
      (out :: done, chain))
    ([], chain)

def apply (data : Bytes) : EStateM Error CipherContext Bytes := do
  let context ← get
  if data.length % context.blockSize ≠ 0 then
    throw (.crypto (.unaligned data.length context.blockSize))
  let (done, chain) :=
    run context.cipher context.mode context.chain (Bytes.pieces context.blockSize data)
  set { context with chain := chain }
  return done.reverse.flatten

def summary (context : CipherContext) : String :=
  "CipherContext \x7b algorithm: " ++ Text.quoted context.algorithm.name ++
    ", state: \"<redacted>\" \x7d"

end CipherContext

end SecureShell
