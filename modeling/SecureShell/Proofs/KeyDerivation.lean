import SecureShell.KeyExchange.KeyDerivation
import SecureShell.Proofs.Wire

/-! What keys are made of. A sequence of blocks goes on for ever: the first one hashes the
secret, the exchange, the letter and the session; every other one hashes the secret, the
exchange and all blocks before it. A key of any length is the front of these blocks. -/
namespace SecureShell

theorem length_extendKey (hash : Hash) (base : Bytes) (length : Nat) (key : Bytes) :
    length ≤ (extendKey hash base length key).length := by
  fun_induction extendKey hash base length key with
  | case1 key short ih => exact ih
  | case2 key enough => exact Nat.not_lt.1 enough

theorem length_deriveKey (hash : Hash) (secret exchange session : Bytes) (letter : UInt8)
    (length : Nat) : (deriveKey hash secret exchange session letter length).length = length := by
  rw [deriveKey, List.length_take]
  exact Nat.min_eq_left (length_extendKey ..)

/-- The blocks that keys are cut from, counted from zero. -/
def keyBlock (hash : Hash) (secret exchange session : Bytes) (letter : UInt8) : Nat → Bytes
  | 0 => hash.digest (Wire.mpint secret ++ exchange ++ letter :: session)
  | i + 1 =>
    let earlier := List.ofFn fun j : Fin (i + 1) => keyBlock hash secret exchange session letter j
    hash.digest (Wire.mpint secret ++ exchange ++ earlier.flatten)
  termination_by i => i
  decreasing_by exact j.isLt

def keyBlocks (hash : Hash) (secret exchange session : Bytes) (letter : UInt8) (count : Nat) :
    Bytes :=
  (List.ofFn fun i : Fin count => keyBlock hash secret exchange session letter i).flatten

section Blocks

variable (hash : Hash) (secret exchange session : Bytes) (letter : UInt8)

theorem keyBlock_zero : keyBlock hash secret exchange session letter 0 =
    hash.digest (Wire.mpint secret ++ exchange ++ letter :: session) := by
  rw [keyBlock]

theorem keyBlock_succ (i : Nat) : keyBlock hash secret exchange session letter (i + 1) =
    hash.digest (Wire.mpint secret ++ exchange ++
      keyBlocks hash secret exchange session letter (i + 1)) := by
  rw [keyBlock, keyBlocks]

theorem keyBlocks_succ (count : Nat) : keyBlocks hash secret exchange session letter (count + 1) =
    keyBlocks hash secret exchange session letter count ++
      keyBlock hash secret exchange session letter count := by
  simp only [keyBlocks, List.ofFn_succ_last, Fin.val_castSucc, Fin.val_last, List.flatten_append,
    List.flatten_singleton]

theorem keyBlocks_one : keyBlocks hash secret exchange session letter 1 =
    hash.digest (Wire.mpint secret ++ exchange ++ letter :: session) := by
  rw [keyBlocks_succ, keyBlock_zero]
  rfl

theorem length_keyBlock (i : Nat) :
    (keyBlock hash secret exchange session letter i).length = hash.size := by
  cases i with
  | zero => rw [keyBlock_zero, hash.length_digest]
  | succ i => rw [keyBlock_succ, hash.length_digest]

theorem length_keyBlocks (count : Nat) :
    (keyBlocks hash secret exchange session letter count).length = count * hash.size := by
  induction count with
  | zero => simp [keyBlocks]
  | succ count ih => rw [keyBlocks_succ, List.length_append, ih, length_keyBlock, Nat.succ_mul]

theorem keyBlocks_prefix {few many : Nat} (le : few ≤ many) :
    keyBlocks hash secret exchange session letter few <+:
      keyBlocks hash secret exchange session letter many := by
  induction le with
  | refl => exact List.prefix_refl _
  | step _ ih =>
    rw [keyBlocks_succ]
    exact ih.trans (List.prefix_append ..)

theorem take_keyBlocks {length few many : Nat} (enough : length ≤ few * hash.size)
    (le : few ≤ many) :
    (keyBlocks hash secret exchange session letter many).take length =
      (keyBlocks hash secret exchange session letter few).take length := by
  obtain ⟨rest, more⟩ := keyBlocks_prefix hash secret exchange session letter le
  rw [← more, List.take_append_of_le_length]
  rwa [length_keyBlocks]

/-- Bytes that are the first blocks are continued by the next ones. -/
theorem exists_extendKey_keyBlocks (length count : Nat) : ∃ whole,
    extendKey hash (Wire.mpint secret ++ exchange) length
        (keyBlocks hash secret exchange session letter (count + 1)) =
      keyBlocks hash secret exchange session letter whole := by
  -- along the loop: what has been gathered is always the first `count + 1` blocks
  generalize sofar : keyBlocks hash secret exchange session letter (count + 1) = key
  fun_induction extendKey hash (Wire.mpint secret ++ exchange) length key generalizing count with
  | case1 key short ih =>
    refine ih (count + 1) ?_
    rw [keyBlocks_succ, keyBlock_succ, sofar]
  | case2 key enough => exact ⟨count + 1, sofar.symm⟩

end Blocks

variable (hash : Hash) (secret exchange session : Bytes) (letter : UInt8)

/-- A key is the front of any blocks that are enough for it. -/
theorem deriveKey_eq_take {length count : Nat} (enough : length ≤ count * hash.size) :
    deriveKey hash secret exchange session letter length =
      (keyBlocks hash secret exchange session letter count).take length := by
  obtain ⟨whole, extended⟩ := exists_extendKey_keyBlocks hash secret exchange session letter length 0
  have derived : deriveKey hash secret exchange session letter length =
      (keyBlocks hash secret exchange session letter whole).take length := by
    rw [deriveKey, ← extended, keyBlocks_one]
  have covered : length ≤ whole * hash.size := by
    rw [← length_keyBlocks hash secret exchange session letter, ← extended]
    exact length_extendKey ..
  rw [derived]
  rcases Nat.le_total whole count with le | le
  · exact (take_keyBlocks hash secret exchange session letter covered le).symm
  · exact take_keyBlocks hash secret exchange session letter enough le

theorem deriveKey_congr {first second : Bytes} (same : Bytes.toNat first = Bytes.toNat second)
    (length : Nat) : deriveKey hash first exchange session letter length =
      deriveKey hash second exchange session letter length := by
  rw [deriveKey, deriveKey, Wire.mpint_congr same]

/-- A key of `length` bytes is the front of the blocks, so a shorter key is the front of a
longer one; and zeros in front of the secret make no difference. -/
theorem deriveKey_front (length : Nat) :
    (deriveKey hash secret exchange session letter length).length = length ∧
    (∀ count, length ≤ count * hash.size →
      deriveKey hash secret exchange session letter length =
        (keyBlocks hash secret exchange session letter count).take length) ∧
    (∀ longer, length ≤ longer →
      deriveKey hash secret exchange session letter length <+:
        deriveKey hash secret exchange session letter longer) ∧
    ∀ zeros, deriveKey hash (List.replicate zeros 0 ++ secret) exchange session letter length =
      deriveKey hash secret exchange session letter length := by
  refine ⟨length_deriveKey .., fun count enough => deriveKey_eq_take _ _ _ _ _ enough, ?_, ?_⟩
  · intro longer le
    -- as many blocks as bytes are always enough
    have enough : longer ≤ longer * hash.size := Nat.le_mul_of_pos_right longer hash.size_pos
    rw [deriveKey_eq_take hash secret exchange session letter enough,
      deriveKey_eq_take hash secret exchange session letter (Nat.le_trans le enough)]
    exact List.take_prefix_take_left le
  · intro zeros
    exact deriveKey_congr hash exchange session letter (Bytes.toNat_zeros_append zeros secret) length

/-- SHA-1 gives a key of 48 bytes from two blocks and a part of a third one; a key of 16
bytes is its front, and a secret that is held with a zero in front gives the same key. -/
theorem deriveKey_front_third :
    let secret : Bytes := 0x8f :: List.replicate 31 0x01
    let exchange : Bytes := List.replicate 20 0x11
    let session : Bytes := List.replicate 20 0x22
    let key (secret : Bytes) := deriveKey Digest.Sha1.hash secret exchange session 0x43
    48 ≤ 3 * Digest.Sha1.hash.size ∧
    key secret 48 = (keyBlocks Digest.Sha1.hash secret exchange session 0x43 3).take 48 ∧
    16 ≤ 48 ∧ key secret 16 <+: key secret 48 ∧
    key (List.replicate 1 0 ++ secret) 48 = key secret 48 := by
  intro secret exchange session key
  have enough : 48 ≤ 3 * Digest.Sha1.hash.size := by decide
  have shorter : 16 ≤ 48 := by decide
  obtain ⟨-, cut, -, same⟩ := deriveKey_front Digest.Sha1.hash secret exchange session 0x43 48
  obtain ⟨-, -, front, -⟩ := deriveKey_front Digest.Sha1.hash secret exchange session 0x43 16
  exact ⟨enough, cut 3 enough, shorter, front 48 shorter, same 1⟩

namespace DirectionKeys

/-- No key of a packet needs more than two blocks. -/
theorem take_keyBlocks_two (secret exchange session : Bytes) (letter : UInt8) {length : Nat}
    (short : length ≤ 40) :
    let first := Digest.Sha1.hash.digest (Wire.mpint secret ++ exchange ++ letter :: session)
    let second := Digest.Sha1.hash.digest (Wire.mpint secret ++ exchange ++ first)
    deriveKey Digest.Sha1.hash secret exchange session letter length =
      (first ++ second).take length := by
  intro first second
  have blocks : keyBlocks Digest.Sha1.hash secret exchange session letter 2 = first ++ second := by
    rw [keyBlocks_succ, keyBlock_succ, Nat.zero_add, keyBlocks_one]
  rw [deriveKey_eq_take _ _ _ _ _ (show length ≤ 2 * Digest.Sha1.hash.size from short), blocks]

/-- Which key comes of what. Each is the front of SHA-1 of the secret, the exchange hash, a
letter of its own and the session, and of SHA-1 of the secret, the exchange hash and that. -/
theorem derive_eq (secret exchange session : Bytes) (cipher : CipherAlgorithm)
    (mac : MacAlgorithm) :
    let first (letter : Char) := Digest.Sha1.hash.digest
      (Wire.mpint secret ++ exchange ++ letter.toUInt8 :: session)
    let blocks (letter : Char) :=
      first letter ++ Digest.Sha1.hash.digest (Wire.mpint secret ++ exchange ++ first letter)
    derive secret exchange session .clientToServer cipher mac =
      { cipher, mac
        iv := (blocks 'A').take cipher.blockSize
        encryption := (blocks 'C').take cipher.keySize
        integrity := (blocks 'E').take mac.keySize } ∧
    derive secret exchange session .serverToClient cipher mac =
      { cipher, mac
        iv := (blocks 'B').take cipher.blockSize
        encryption := (blocks 'D').take cipher.keySize
        integrity := (blocks 'F').take mac.keySize } := by
  intro first blocks
  have iv : cipher.blockSize ≤ 40 := by cases cipher <;> decide
  have encryption : cipher.keySize ≤ 40 := by cases cipher <;> decide
  have integrity : mac.keySize ≤ 40 := by cases mac <;> decide
  have key (letter : UInt8) {length : Nat} (short : length ≤ 40) :=
    take_keyBlocks_two secret exchange session letter short
  constructor
  · simp only [derive, key _ iv, key _ encryption, key _ integrity]
    rfl
  · simp only [derive, key _ iv, key _ encryption, key _ integrity]
    rfl

end DirectionKeys

end SecureShell
