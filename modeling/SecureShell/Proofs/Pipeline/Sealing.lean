import SecureShell.Packet.Opener
import SecureShell.Packet.Sealer
import SecureShell.Proofs.Cipher.Context
import SecureShell.Proofs.Pipeline.Framing

/-! An opener opens what a sealer has sealed: its first block, the rest, and the tag, which
is the HMAC over the number and the bytes of the packet. The chains of both ciphers and both
counters then stand at the same place again. -/
namespace SecureShell

theorem CipherAlgorithm.blockSize_bounds (algorithm : CipherAlgorithm) :
    8 ≤ algorithm.blockSize ∧ algorithm.blockSize ≤ 16 := by
  cases algorithm <;> decide

namespace MacKey

/-- The tag of a packet is the HMAC over its number, in four bytes, and its own bytes. -/
theorem tag_eq {mac : MacKey} (sized : mac.key.length = mac.algorithm.keySize)
    (sequence : UInt32) (packet : Bytes) :
    let digest := mac.algorithm.hash.digest
    let masked (mask : UInt8) :=
      (mac.key ++ List.replicate (64 - mac.key.length) 0).map (· ^^^ mask)
    mac.tag sequence packet = digest (masked 0x5c ++ digest (masked 0x36 ++
      (Bytes.wide 4 sequence.toNat ++ packet))) := by
  have block : mac.algorithm.hash.blockSize = 64 := by cases mac.algorithm <;> rfl
  have short : mac.key.length ≤ 64 := by
    rw [sized]
    cases mac.algorithm <;> decide
  rw [tag, Digest.hmac, Digest.blockKey, block, if_neg (Nat.not_lt.2 short)]
  rfl

/-- What is hashed tells the number and the bytes of the packet. -/
theorem tagged_inj {first second : UInt32} {packet other : Bytes}
    (same : Bytes.ofUInt32 first ++ packet = Bytes.ofUInt32 second ++ other) :
    first = second ∧ packet = other := by
  obtain ⟨number, rest⟩ := List.append_inj same (by simp [Bytes.ofUInt32])
  refine ⟨?_, rest⟩
  rw [← Bytes.toUInt32_ofUInt32 first, number, Bytes.toUInt32_ofUInt32]

end MacKey

namespace Protection

def decrypting (keys : Protection) : Protection := { keys with cipher := keys.cipher.decrypting }

theorem blockSize_some (keys : Protection) : blockSize (some keys) = keys.cipher.blockSize :=
  Nat.max_eq_left keys.cipher.algorithm.blockSize_bounds.1

theorem blockSize_le (keys : Option Protection) :
    max (blockSize keys) Packet.defaultBlockSize ≤ 16 := by
  have large : max (blockSize keys) Packet.defaultBlockSize = blockSize keys :=
    Nat.max_eq_left (blockSize_ge keys)
  rw [large]
  cases keys with
  | none => decide
  | some keys =>
    rw [blockSize_some]
    exact keys.cipher.algorithm.blockSize_bounds.2

/-- With these keys the bytes of a packet are found in `wire`: a first block, the other
blocks, and a tag over all of them. -/
inductive Opens (keys : Option Protection) (sequence : UInt32) :
    (wire packet : Bytes) → (after : Option Protection) → Prop
  | intro {first second tag head rest : Bytes} {between after : Option Protection}
      (firstLength : first.length = blockSize keys) (headLength : head.length = first.length)
      (hFirst : decrypt keys first = .ok (head, between))
      (secondLength : second.length = rest.length)
      (hSecond : decrypt between second = .ok (rest, after))
      (tagLength : tag.length = tagSize between)
      (verified : verify after sequence (head ++ rest) tag = .ok ()) :
      Opens keys sequence (first ++ second ++ tag) (head ++ rest) after

section Written

variable {keys : Protection} {after between : CipherContext} {head rest first second : Bytes}

theorem decrypt_of_writes (writes : keys.cipher.Writes head first after) :
    decrypt (some keys.decrypting) first =
      .ok (head, some (decrypting { keys with cipher := after })) := by
  simp [decrypt, decrypting, writes.taken]

theorem verify_tag (keys : Protection) (sequence : UInt32) (packet : Bytes) :
    verify (some keys.decrypting) sequence packet (keys.mac.tag sequence packet) = .ok () := by
  simp [verify, decrypting, MacKey.verify]

theorem opens_of_writes (sequence : UInt32) (whole : head.length = keys.cipher.blockSize)
    (hFirst : keys.cipher.Writes head first between) (hSecond : between.Writes rest second after) :
    Opens (some keys.decrypting) sequence
      (first ++ second ++ keys.mac.tag sequence (head ++ rest)) (head ++ rest)
      (some (decrypting { keys with cipher := after })) := by
  have firstLength : first.length = blockSize (some keys.decrypting) := by
    rw [blockSize_some, hFirst.length, whole]
    rfl
  exact .intro firstLength hFirst.length.symm (decrypt_of_writes hFirst) hSecond.length
    (decrypt_of_writes hSecond) (MacKey.length_tag ..) (verify_tag ..)

end Written

end Protection

namespace Opener

variable {opener : Opener} {packet : Packet} {wire later : Bytes} {after : Option Protection}

/-- Has taken all packets that a sealer has sealed, and holds nothing of the next one. -/
structure Follows (opener : Opener) (sealer : Sealer) : Prop where
  keys : opener.keys = sealer.keys.map Protection.decrypting
  sequence : opener.sequence = sealer.sequence
  free : opener.head = none

theorem checkLength_fits (fits : packet.Fits opener.limit)
    (aligned : packet.wireLength % opener.blockSize = 0) :
    opener.checkLength packet.bodyLength = .ok () := by
  have := fits.leastPadding
  have := fits.limit
  have small : ¬ packet.bodyLength < 1 + Packet.minPadding := by
    rw [Packet.bodyLength]
    omega
  rw [Packet.wireLength_eq] at aligned
  simp [checkLength, Nat.not_lt.2 fits.limit, small, aligned, pure, Except.pure]

/-- Opening takes exactly the packet, whatever follows it. -/
theorem next_opens (free : opener.head = none) (fits : packet.Fits opener.limit)
    (aligned : packet.wireLength % opener.blockSize = 0)
    (opens : Protection.Opens opener.keys opener.sequence wire packet.toBytes after)
    (buffer : opener.buffer = wire ++ later) :
    next opener = .ok (some packet.toBytes)
      { opener with keys := after, sequence := opener.sequence + 1, buffer := later } := by
  have field := Packet.toBytes_length fits
  have size := packet.length_toBytes
  have checked := checkLength_fits fits aligned
  generalize packet.toBytes = bytes at *
  obtain @⟨first, second, tag, head, rest, between, _, atBlock, headLength, hFirst,
    secondLength, hSecond, tagLength, verified⟩ := opens
  have firstLength : first.length = opener.blockSize := atBlock
  have large : 8 ≤ head.length := by
    rw [headLength, firstLength]
    exact Protection.blockSize_ge opener.keys
  have short : Bytes.toNat (head.take 4) = packet.bodyLength := by
    rw [← field, List.take_append_of_le_length (by omega)]
  have remaining : 4 + packet.bodyLength - head.length = second.length := by
    rw [← Packet.wireLength_eq, ← size, secondLength, List.length_append, Nat.add_sub_cancel_left]
  have arrived : opener.buffer = first ++ (second ++ (tag ++ later)) := by
    rw [buffer, List.append_assoc, List.append_assoc]
  have enough : ¬ opener.buffer.length < opener.blockSize := by
    rw [arrived, List.length_append, firstLength]
    omega
  have hHead : nextHead opener = .ok (some ⟨head, packet.bodyLength⟩)
      { opener with
        buffer := second ++ (tag ++ later), keys := between
        head := some ⟨head, packet.bodyLength⟩ } := by
    simp only [nextHead, free, if_neg enough]
    rw [arrived, List.take_left' firstLength, List.drop_left' firstLength, hFirst]
    simp only [short, checked]
  have waiting : ¬ (second ++ (tag ++ later)).length < second.length + Protection.tagSize between := by
    rw [List.length_append, List.length_append, tagLength]
    omega
  simp only [next, bind_apply, hHead, nextBody, remaining, tagSize, if_neg waiting, List.take_left,
    List.drop_left, hSecond, List.take_left' tagLength, List.drop_left' tagLength, verified]
  rw [free]

end Opener

namespace Sealer

/-- Its cipher, if it has one, is ready to encrypt. -/
def Encrypts (sealer : Sealer) : Prop := ∀ keys, sealer.keys = some keys → keys.cipher.Encrypts

variable {sealer : Sealer}

/-- A packet of whole blocks is sealed so that it can be opened. -/
theorem protect_opens (encrypts : sealer.Encrypts) {packet : Bytes}
    (enough : sealer.blockSize ≤ packet.length) (aligned : packet.length % sealer.blockSize = 0) :
    ∃ wire after, protect packet sealer = .ok wire after ∧ after.Encrypts ∧
      after.sequence = sealer.sequence + 1 ∧ after.blockSize = sealer.blockSize ∧
      Protection.Opens (sealer.keys.map Protection.decrypting) sealer.sequence wire packet
        (after.keys.map Protection.decrypting) := by
  have split : packet.take sealer.blockSize ++ packet.drop sealer.blockSize = packet :=
    List.take_append_drop ..
  obtain ⟨whole, rest⟩ := Bytes.take_drop_aligned enough aligned
  cases armed : sealer.keys with
  | none =>
    have eight : sealer.blockSize = 8 := by rw [blockSize, armed]; rfl
    have opens : Protection.Opens none sealer.sequence
        (packet.take sealer.blockSize ++ packet.drop sealer.blockSize ++ [])
        (packet.take sealer.blockSize ++ packet.drop sealer.blockSize) none :=
      .intro (whole.trans eight) rfl rfl rfl rfl rfl rfl
    rw [List.append_nil, split] at opens
    refine ⟨packet, { sealer with sequence := sealer.sequence + 1 }, ?_, encrypts, rfl, rfl, ?_⟩
    · simp only [protect, bind_apply, get_apply, armed, set_apply, pure_apply]
    · rw [armed]
      exact opens
  | some keys =>
    have ready := encrypts keys armed
    have size : sealer.blockSize = keys.cipher.blockSize := by
      rw [blockSize, armed, Protection.blockSize_some]
    rw [size] at split whole rest
    -- the opener decrypts the first block apart, so the packet is written in these two parts
    obtain ⟨first, between, hFirst⟩ := ready.writes_block whole
    have same : between.blockSize = keys.cipher.blockSize := by
      rw [CipherContext.blockSize, hFirst.algorithm, CipherContext.blockSize]
    obtain ⟨second, after, hSecond⟩ := hFirst.encrypts.writes (by rw [same]; exact rest)
    have written := hFirst.append whole hSecond rest
    have opens := Protection.opens_of_writes sealer.sequence whole hFirst hSecond
    rw [split] at written opens
    refine ⟨first ++ second ++ keys.mac.tag sealer.sequence packet,
      { sealer with keys := some { keys with cipher := after }, sequence := sealer.sequence + 1 },
      ?_, ?_, rfl, ?_, opens⟩
    · simp only [protect, bind_apply, get_apply, armed, written.applied, set_apply, pure_apply]
    · intro later found
      cases found
      exact written.encrypts
    · rw [size, blockSize, Protection.blockSize_some]
      simp only [CipherContext.blockSize, hSecond.algorithm, hFirst.algorithm]

end Sealer

end SecureShell
