import SecureShell.Proofs.Compression
import SecureShell.Proofs.KeyDerivation
import SecureShell.Proofs.Pipeline.Runs
import SecureShell.Proofs.Pipeline.Sealing
import SecureShell.Proofs.Resumption

/-! Sender and receiver in step: what each command of the sender means for a receiver
that has followed all commands before it. -/
namespace SecureShell

/-- Keys as long as their algorithms want them. -/
structure DirectionKeys.Sized (keys : DirectionKeys) : Prop where
  iv : keys.iv.length = keys.cipher.blockSize
  encryption : keys.encryption.length = keys.cipher.keySize
  integrity : keys.integrity.length = keys.mac.keySize

theorem DirectionKeys.derive_sized (secret exchange session : Bytes) (direction : Direction)
    (cipher : CipherAlgorithm) (mac : MacAlgorithm) :
    (derive secret exchange session direction cipher mac).Sized :=
  ⟨length_deriveKey .., length_deriveKey .., length_deriveKey ..⟩

theorem Protection.create_opposite {keys : DirectionKeys} (sized : keys.Sized) :
    ∃ protection, create .encrypt keys = .ok protection ∧
      create .decrypt keys = .ok protection.decrypting ∧ protection.cipher.Encrypts := by
  obtain ⟨context, hEncrypt, hDecrypt, encrypts, -⟩ :=
    CipherContext.create_encrypts sized.encryption sized.iv
  have mac : MacKey.create keys.mac keys.integrity = .ok ⟨keys.mac, keys.integrity⟩ :=
    if_pos sized.integrity
  refine ⟨⟨context, ⟨keys.mac, keys.integrity⟩⟩, ?_, ?_, encrypts⟩
  · simp [create, hEncrypt, mac, bind, Except.bind, pure, Except.pure]
  · simp [create, hDecrypt, mac, bind, Except.bind, pure, Except.pure, decrypting]

namespace Outbound

/-- The packet that a payload is framed into. -/
def framed (entropy : Entropy) (payload : Bytes) (outbound : Outbound) : Packet :=
  Packet.frame entropy outbound.framer.blockSize (outbound.compressor.compress payload).1

theorem send_eq (outbound : Outbound) (entropy : Entropy) (payload : Bytes) :
    send entropy payload outbound =
      focus Outbound.sealer (fun sealer outbound => { outbound with sealer })
        (Sealer.protect (outbound.framed entropy payload).toBytes)
        { outbound with compressor := (outbound.compressor.compress payload).2 } :=
  send_of_compress rfl

/-- Frames for the cipher in use, which is ready to encrypt. -/
structure Ready {σ : Type} [Deflation σ] (outbound : Outbound σ) : Prop where
  framer : outbound.framer.blockSize = outbound.sealer.blockSize
  encrypts : outbound.sealer.Encrypts

theorem ready_fresh (σ : Type := Compressor) [Deflation σ] : Ready ({} : Outbound σ) where
  framer := rfl
  encrypts keys none := by cases none

/-- Neither a payload nor the packet it is framed into is too long. -/
structure Accepts (outbound : Outbound) (limit : Nat) (entropy : Entropy) (payload : Bytes) :
    Prop where
  payloadSize : payload.length ≤ limit
  packetSize : (outbound.framed entropy payload).bodyLength ≤ limit
  /-- The length field has four bytes. -/
  fieldSize : (outbound.framed entropy payload).bodyLength < 2 ^ 32

variable {outbound : Outbound} {limit : Nat} {entropy : Entropy} {payload : Bytes}

theorem Ready.blockSize_le {σ : Type} [Deflation σ] {outbound : Outbound σ}
    (ready : outbound.Ready) :
    max outbound.framer.blockSize Packet.defaultBlockSize ≤ 16 := by
  rw [ready.framer]
  exact Protection.blockSize_le outbound.sealer.keys

/-- Framing adds at most twenty bytes to the length of a compressed payload. -/
theorem Ready.accepts (ready : outbound.Ready) (short : payload.length ≤ limit)
    (compressed : (outbound.compressor.compress payload).1.length + 20 ≤ limit)
    (field : limit < 2 ^ 32) : outbound.Accepts limit entropy payload := by
  have block := ready.blockSize_le
  have most := (Packet.paddingLength_spec (outbound.compressor.compress payload).1.length
    outbound.framer.blockSize).2.1
  have body : (outbound.framed entropy payload).bodyLength ≤ limit := by
    rw [Packet.minPadding] at most
    simp only [framed, Packet.frame, Packet.bodyLength, entropy.length_bytes]
    omega
  exact ⟨short, body, Nat.lt_of_le_of_lt body field⟩

/-- Framing fills the blocks that the sealer works on, whatever the payload. -/
theorem Ready.framed_aligned (ready : outbound.Ready) (entropy : Entropy) (payload : Bytes) :
    Packet.minPadding ≤ (outbound.framed entropy payload).padding.length ∧
      (outbound.framed entropy payload).padding.length < 256 ∧
      (outbound.framed entropy payload).wireLength % outbound.sealer.blockSize = 0 := by
  have large : max outbound.framer.blockSize Packet.defaultBlockSize = outbound.sealer.blockSize := by
    rw [ready.framer]
    exact Nat.max_eq_left (Protection.blockSize_ge outbound.sealer.keys)
  rw [← large]
  exact Packet.frame_spec entropy ready.blockSize_le (outbound.compressor.compress payload).1

theorem Ready.framed_fits (ready : outbound.Ready)
    (accepts : outbound.Accepts limit entropy payload) :
    (outbound.framed entropy payload).Fits limit ∧
      (outbound.framed entropy payload).wireLength % outbound.sealer.blockSize = 0 := by
  obtain ⟨least, most, aligned⟩ := ready.framed_aligned entropy payload
  exact ⟨⟨least, most, accepts.fieldSize, accepts.packetSize⟩, aligned⟩

end Outbound

namespace Inbound

/-- Has taken all payloads that a sender has sent, and nothing of the next one. -/
structure Follows (inbound : Inbound) (limit : Nat) (outbound : Outbound) : Prop where
  opener : inbound.opener.Follows outbound.sealer
  idle : inbound.deframer.pending = []
  decompressor : inbound.decompressor.Follows outbound.compressor
  openerLimit : inbound.opener.limit = limit
  deframerLimit : inbound.deframer.limit = limit
  decompressorLimit : inbound.decompressor.limit = limit

theorem create_follows (limit inflateBuffer : Nat) :
    (create limit inflateBuffer).Follows limit {} where
  opener := ⟨rfl, rfl, rfl⟩
  idle := rfl
  decompressor := Decompressor.create_follows inflateBuffer limit
  openerLimit := rfl
  deframerLimit := rfl
  decompressorLimit := rfl

/-- One packet holds one payload. -/
theorem unpack_toBytes {inbound : Inbound} {packet : Packet} {payload : Bytes}
    {decompressor : Decompressor} (fits : packet.Fits inbound.deframer.limit)
    (idle : inbound.deframer.pending = [])
    (inflated : Decompressor.decompress packet.payload inbound.decompressor =
      .ok payload decompressor) :
    unpack packet.toBytes inbound = .ok payload { inbound with decompressor } := by
  have deframed := Deframer.feed_toBytes fits idle
  have deframing : deframe packet.toBytes inbound = .ok [payload] { inbound with decompressor } := by
    simp only [deframe, focus, bind_apply, deframed, List.mapM_cons, List.mapM_nil, inflated,
      pure_apply]
  have whole : inbound.deframer.idle = true := by rw [Deframer.idle, idle, List.isEmpty_nil]
  simp only [unpack, bind_apply, deframing, get_apply, whole, if_true, pure_apply]

theorem next_toBytes {inbound : Inbound} {opener : Opener} {packet : Packet} {payload : Bytes}
    {decompressor : Decompressor}
    (opened : Opener.next inbound.opener = .ok (some packet.toBytes) opener)
    (fits : packet.Fits inbound.deframer.limit) (idle : inbound.deframer.pending = [])
    (inflated : Decompressor.decompress packet.payload inbound.decompressor =
      .ok payload decompressor) :
    next inbound = .ok (some payload) { inbound with opener, decompressor } := by
  have unpacked : unpack packet.toBytes { inbound with opener } =
      .ok payload { inbound with opener, decompressor } := unpack_toBytes fits idle inflated
  simp only [next, nextPacket, focus, bind_apply, opened, unpacked, pure_apply]

/-- A payload that is sent is the next one that is taken, whatever follows it. -/
theorem next_send {outbound : Outbound} {limit : Nat} {entropy : Entropy} {payload : Bytes}
    (ready : outbound.Ready) (accepts : outbound.Accepts limit entropy payload) :
    ∃ wire after, Outbound.send entropy payload outbound = .ok wire after ∧ after.Ready ∧
      after.sequence = outbound.sequence + 1 ∧
      ∀ {inbound : Inbound} {later : Bytes}, inbound.Follows limit outbound →
        inbound.opener.buffer = wire ++ later →
        ∃ taken, next inbound = .ok (some payload) taken ∧ taken.Follows limit after ∧
          taken.opener.buffer = later := by
  obtain ⟨fits, aligned⟩ := ready.framed_fits accepts
  have enough : outbound.sealer.blockSize ≤ (outbound.framed entropy payload).toBytes.length := by
    rw [Packet.length_toBytes]
    exact Nat.le_of_dvd (by rw [Packet.wireLength_eq]; omega) (Nat.dvd_of_mod_eq_zero aligned)
  obtain ⟨wire, sealer, hProtect, encrypts, sequence, blockSize, opens⟩ :=
    Sealer.protect_opens ready.encrypts enough (by rw [Packet.length_toBytes]; exact aligned)
  refine ⟨wire, { outbound with compressor := (outbound.compressor.compress payload).2, sealer },
    ?_, ⟨?_, encrypts⟩, sequence, ?_⟩
  · rw [Outbound.send_eq]
    simp only [focus, hProtect]
  · rw [blockSize]
    exact ready.framer
  · intro inbound later follows buffer
    obtain ⟨⟨keys, sameSequence, free⟩, idle, decompressor, openerLimit, deframerLimit,
      decompressorLimit⟩ := follows
    obtain ⟨inflated, hInflate, inflatedFollows, inflatedLimit⟩ :=
      decompressor.decompress (decompressorLimit ▸ accepts.payloadSize)
    have size : inbound.opener.blockSize = outbound.sealer.blockSize := by
      rw [Opener.blockSize, keys, Sealer.blockSize]
      cases outbound.sealer.keys <;> rfl
    have opened := Opener.next_opens free (openerLimit ▸ fits) (by rw [size]; exact aligned)
      (by rw [keys, sameSequence]; exact opens) buffer
    refine ⟨_, next_toBytes opened (deframerLimit ▸ fits) idle hInflate, ?_, rfl⟩
    exact ⟨⟨rfl, by rw [sequence, sameSequence], free⟩, idle, inflatedFollows, openerLimit,
      deframerLimit, inflatedLimit.trans decompressorLimit⟩

/-- New keys on both sides leave them in step. -/
theorem arm_follows (outbound : Outbound) {keys : DirectionKeys} (sized : keys.Sized) :
    ∃ after, outbound.arm keys = .ok after ∧ after.Ready ∧ after.sequence = outbound.sequence ∧
      ∀ {inbound : Inbound} {limit : Nat}, inbound.Follows limit outbound →
        ∃ armed, inbound.arm keys = .ok armed ∧ armed.Follows limit after ∧
          armed.opener.buffer = inbound.opener.buffer := by
  obtain ⟨protection, hEncrypt, hDecrypt, encrypts⟩ := Protection.create_opposite sized
  let sealer := { outbound.sealer with keys := some protection }
  have sealing : outbound.sealer.arm keys = .ok sealer := by
    simp [Sealer.arm, hEncrypt, bind, Except.bind, pure, Except.pure, sealer]
  have arming : outbound.arm keys =
      .ok { outbound with sealer, framer := ⟨sealer.blockSize⟩ } := by
    simp [Outbound.arm, sealing, bind, Except.bind, pure, Except.pure]
  refine ⟨_, arming, ⟨rfl, ?_⟩, rfl, ?_⟩
  · intro keys found
    cases found
    exact encrypts
  · intro inbound limit follows
    obtain ⟨opener, idle, decompressor, openerLimit, deframerLimit, decompressorLimit⟩ := follows
    have opening : inbound.opener.arm keys =
        .ok { inbound.opener with keys := some protection.decrypting } := by
      simp [Opener.arm, opener.free, hDecrypt, bind, Except.bind, pure, Except.pure]
    have arming : inbound.arm keys = .ok { inbound with
        opener := { inbound.opener with keys := some protection.decrypting } } := by
      simp [arm, opening, bind, Except.bind, pure, Except.pure]
    refine ⟨_, arming, ?_, rfl⟩
    exact ⟨⟨rfl, opener.sequence, opener.free⟩, idle, decompressor, openerLimit, deframerLimit,
      decompressorLimit⟩

theorem Follows.activate {inbound : Inbound} {limit : Nat} {outbound : Outbound}
    (follows : inbound.Follows limit outbound) :
    inbound.activateCompression.Follows limit outbound.activateCompression where
  opener := follows.opener
  idle := follows.idle
  decompressor := follows.decompressor.activate
  openerLimit := follows.openerLimit
  deframerLimit := follows.deframerLimit
  decompressorLimit := follows.decompressorLimit

theorem Follows.feed {inbound : Inbound} {limit : Nat} {outbound : Outbound}
    (follows : inbound.Follows limit outbound) (data : Bytes) :
    (inbound.feed data).Follows limit outbound where
  opener := ⟨follows.opener.keys, follows.opener.sequence, follows.opener.free⟩
  idle := follows.idle
  decompressor := follows.decompressor
  openerLimit := follows.openerLimit
  deframerLimit := follows.deframerLimit
  decompressorLimit := follows.decompressorLimit

theorem Follows.next_empty {inbound : Inbound} {limit : Nat} {outbound : Outbound}
    (follows : inbound.Follows limit outbound) (empty : inbound.opener.buffer = []) :
    next inbound = .ok none inbound := by
  have short : inbound.opener.buffer.length < inbound.opener.blockSize := by
    rw [empty]
    exact Nat.lt_of_lt_of_le (by decide) (Protection.blockSize_ge inbound.opener.keys)
  simp only [next, nextPacket, focus, bind_apply, Opener.next, Opener.nextHead_short
    follows.opener.free short, pure_apply]

end Inbound

end SecureShell
