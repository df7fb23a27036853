import Mathlib.Order.Bounds.Basic
import SecureShell.Proofs.Pipeline.RoundTrip
import SecureShell.Proofs.Pipeline.Sending

/-! Padding always fits the cipher. The padding of a payload is the least that is
admissible, and there is no other within a block of it. A sender changes the block size of
its framer together with that of its sealer, so whatever it was told before, it seals what
it frames: the packet as it is long, with a tag behind it once there are keys. -/
namespace SecureShell

namespace Packet

/-- Of the lengths of at least four bytes, less than a block apart from each other, one
fills the last block. -/
theorem paddingLength_eq_iff {payloadLength blockSize padding : Nat} :
    padding = paddingLength payloadLength blockSize ↔
      minPadding ≤ padding ∧ padding < max blockSize defaultBlockSize + minPadding ∧
        max blockSize defaultBlockSize ∣ headerLength + payloadLength + padding := by
  obtain ⟨least, most, filled⟩ := paddingLength_spec payloadLength blockSize
  have fills := Nat.dvd_of_mod_eq_zero filled
  constructor
  · rintro rfl
    exact ⟨least, most, fills⟩
  · rintro ⟨atLeast, atMost, fillsToo⟩
    have apart {a b : Nat} (low : minPadding ≤ b)
        (high : a < max blockSize defaultBlockSize + minPadding)
        (hA : max blockSize defaultBlockSize ∣ headerLength + payloadLength + a)
        (hB : max blockSize defaultBlockSize ∣ headerLength + payloadLength + b) : a ≤ b := by
      have multiple := Nat.dvd_sub hA hB
      rw [Nat.add_sub_add_left] at multiple
      have same := Nat.eq_zero_of_dvd_of_lt multiple (by omega)
      omega
    exact Nat.le_antisymm (apart least atMost fillsToo fills) (apart atLeast most fills fillsToo)

/-- No shorter padding is long enough and fills the last block. -/
theorem paddingLength_isLeast (payloadLength blockSize : Nat) :
    IsLeast {padding | minPadding ≤ padding ∧
        max blockSize defaultBlockSize ∣ headerLength + payloadLength + padding}
      (paddingLength payloadLength blockSize) := by
  obtain ⟨least, most, fills⟩ := paddingLength_eq_iff.1 (rfl : paddingLength payloadLength blockSize = _)
  refine ⟨⟨least, fills⟩, ?_⟩
  rintro padding ⟨atLeast, fillsToo⟩
  by_cases near : padding < max blockSize defaultBlockSize + minPadding
  · exact Nat.le_of_eq (paddingLength_eq_iff.2 ⟨atLeast, near, fillsToo⟩).symm
  · omega

end Packet

/-- Keys as a key exchange derives them. -/
def DirectionKeys.Derived (keys : DirectionKeys) : Prop :=
  ∃ secret exchange session direction cipher mac,
    keys = derive secret exchange session direction cipher mac

theorem DirectionKeys.Derived.sized {keys : DirectionKeys} (derived : keys.Derived) : keys.Sized := by
  obtain ⟨secret, exchange, session, direction, cipher, mac, rfl⟩ := derived
  exact derive_sized ..

namespace Sealer

variable {sealer after : Sealer} {packet wire : Bytes}

/-- A packet is sealed as it is long, with its tag behind it, and is counted. -/
theorem Encrypts.protect_length (encrypts : sealer.Encrypts)
    (sealing : protect packet sealer = .ok wire after) :
    wire.length = packet.length + Protection.tagSize sealer.keys ∧
      Protection.tagSize after.keys = Protection.tagSize sealer.keys ∧
      after.sequence = sealer.sequence + 1 := by
  rcases protect_cases sealing with ⟨none, rfl, rfl⟩ | ⟨keys, encrypted, cipher, armed, applied, rfl, rfl⟩
  · rw [none]
    exact ⟨rfl, rfl, rfl⟩
  · obtain ⟨out, last, writes⟩ :=
      (encrypts keys armed).writes (CipherContext.aligned_of_apply applied)
    obtain ⟨rfl, rfl⟩ : out = encrypted ∧ last = cipher := by
      have same := writes.applied.symm.trans applied
      cases same
      exact ⟨rfl, rfl⟩
    rw [armed, List.length_append, writes.length, MacKey.length_tag]
    exact ⟨rfl, rfl, rfl⟩

end Sealer

namespace Outbound

variable {outbound : Outbound} {count tag : Nat}

/-- Can send whatever it is asked to, after so many packets, and puts a tag of this size
behind each. -/
structure InStep (count tag : Nat) (outbound : Outbound) : Prop where
  ready : outbound.Ready
  sequence : outbound.sequence = UInt32.ofNat count
  tag : Protection.tagSize outbound.sealer.keys = tag

theorem inStep_fresh : InStep 0 0 {} := ⟨ready_fresh, rfl, rfl⟩

/-- Whatever a payload is compressed to, its packet can be sealed. -/
theorem InStep.protect (inStep : outbound.InStep count tag) (entropy : Entropy)
    (compressed : Bytes) :
    ∃ wire sealer,
      Sealer.protect (outbound.framer.frame entropy compressed) outbound.sealer = .ok wire sealer ∧
      wire.length =
        (Packet.frame entropy outbound.framer.blockSize compressed).wireLength + tag ∧
      ({ outbound with sealer } : Outbound).InStep (count + 1) tag := by
  -- a sender that does not compress frames these very bytes
  have ready : ({ outbound with compressor := {} } : Outbound).Ready :=
    ⟨inStep.ready.framer, inStep.ready.encrypts⟩
  obtain ⟨wire, left, sent, leftReady⟩ := ready.send entropy compressed
  obtain ⟨sealer, protects, rfl⟩ := send_ok sent
  obtain ⟨length, sameTag, counted⟩ := inStep.ready.encrypts.protect_length protects
  refine ⟨wire, sealer, protects, ?_, ⟨leftReady.framer, leftReady.encrypts⟩, ?_,
    sameTag.trans inStep.tag⟩
  · rw [length, inStep.tag, Packet.length_toBytes]
    rfl
  · have before : outbound.sealer.sequence = UInt32.ofNat count := inStep.sequence
    exact counted.trans (before ▸ sequence_succ count)

theorem InStep.send (inStep : outbound.InStep count tag) (entropy : Entropy) (payload : Bytes) :
    ∃ wire after, Outbound.send entropy payload outbound = .ok wire after ∧
      wire.length = (outbound.framed entropy payload).wireLength + tag ∧
      after.InStep (count + 1) tag := by
  obtain ⟨wire, sealer, protects, length, after⟩ :=
    inStep.protect entropy (outbound.compressor.compress payload).1
  refine ⟨wire, { outbound with compressor := (outbound.compressor.compress payload).2, sealer },
    ?_, length, ⟨after.ready.framer, after.ready.encrypts⟩, after.sequence, after.tag⟩
  have protected_ : Sealer.protect (outbound.framed entropy payload).toBytes outbound.sealer =
    .ok wire sealer := protects
  rw [Outbound.send_eq]
  simp only [focus, protected_]

theorem InStep.arm {keys : DirectionKeys} (inStep : outbound.InStep count tag)
    (derived : keys.Derived) :
    ∃ after, outbound.arm keys = .ok after ∧ after.InStep count keys.mac.tagSize := by
  obtain ⟨after, armed, ready, sequence, -⟩ := Inbound.arm_follows outbound derived.sized
  refine ⟨after, armed, ready, sequence.trans inStep.sequence, ?_⟩
  obtain ⟨sealer, arming, armed⟩ := exceptBind_eq_ok_iff.1 armed
  cases armed
  obtain ⟨protection, created, arming⟩ := exceptBind_eq_ok_iff.1 arming
  cases arming
  have sealing : Sealed keys 0 [] protection := .nil created
  simp only [Protection.tagSize, sealing.mac]
  rfl

theorem InStep.compress (inStep : outbound.InStep count tag) :
    outbound.activateCompression.InStep count tag :=
  ⟨⟨inStep.ready.framer, inStep.ready.encrypts⟩, inStep.sequence, inStep.tag⟩

end Outbound

namespace Pipeline

namespace Command

def lastKeys : List Command → Option DirectionKeys
  | [] => none
  | .arm keys :: rest => (lastKeys rest).or (some keys)
  | .send _ _ :: rest | .compress :: rest => lastKeys rest

def tagSize (keys : Option DirectionKeys) : Nat := (keys.map (·.mac.tagSize)).getD 0

variable {outbound : Outbound} {count : Nat} {keys : Option DirectionKeys}

/-- A sender carries out a command and is in step again. -/
theorem perform_inStep (inStep : outbound.InStep count (tagSize keys)) (command : Command)
    (derived : ∀ keys, command = .arm keys → keys.Derived) :
    ∃ wire after, command.perform outbound = .ok wire after ∧
      after.InStep (count + (payloads [command]).length)
        (tagSize ((lastKeys [command]).or keys)) := by
  cases command with
  | send entropy payload =>
    obtain ⟨wire, after, sent, -, afterInStep⟩ := inStep.send entropy payload
    exact ⟨wire, after, sent, afterInStep⟩
  | arm keys =>
    obtain ⟨after, armed, afterInStep⟩ := inStep.arm (derived keys rfl)
    refine ⟨[], after, ?_, afterInStep⟩
    simp only [perform, armed]
  | compress => exact ⟨[], outbound.activateCompression, rfl, inStep.compress⟩

theorem lastKeys_cons (command : Command) (rest : List Command) :
    lastKeys (command :: rest) = (lastKeys rest).or (lastKeys [command]) := by
  cases command with
  | arm keys => rfl
  | send | compress => exact (Option.or_none).symm

/-- A sender carries out all commands, whatever it is asked to send. -/
theorem performAll_inStep (inStep : outbound.InStep count (tagSize keys)) (commands : List Command)
    (derived : ∀ keys, .arm keys ∈ commands → keys.Derived) :
    ∃ wire final, performAll commands outbound = .ok wire final ∧
      final.InStep (count + (payloads commands).length)
        (tagSize ((lastKeys commands).or keys)) := by
  induction commands generalizing outbound count keys with
  | nil => exact ⟨[], outbound, rfl, inStep⟩
  | cons command rest ih =>
    obtain ⟨wire, after, performed, afterInStep⟩ :=
      perform_inStep inStep command fun keys same => derived keys (same ▸ .head _)
    obtain ⟨more, final, performedAll, finalInStep⟩ :=
      ih afterInStep fun keys later => derived keys (.tail _ later)
    refine ⟨wire ++ more, final, ?_, ?_⟩
    · simp only [performAll, bind_apply, performed, performedAll, pure_apply]
    · rw [payloads_cons, List.length_append, ← Nat.add_assoc, lastKeys_cons, Option.or_assoc]
      exact finalInStep

end Command

/-- Framing never stands in the way of sealing. The padding of a payload is the one length
of at least four bytes and less than four more than a block with which the packet fills its
blocks; no other admissible length is shorter, and it can be told in a byte as long as a
block has at most 252. A fresh sender carries out whatever commands it is given, with keys
that were derived; then its framer and its sealer have one block size, it has counted the
payloads, and whatever it is to send next, and whatever that is compressed to, is sealed,
counted, and as long on the wire as the packet it is framed into and a tag of the keys that
came last. -/
theorem performed_aligned :
    (∀ payloadLength blockSize padding : Nat,
      padding = Packet.paddingLength payloadLength blockSize ↔
        4 ≤ padding ∧ padding ≤ max blockSize 8 + 3 ∧
          max blockSize 8 ∣ 5 + payloadLength + padding) ∧
      (∀ payloadLength blockSize : Nat,
        IsLeast {padding | 4 ≤ padding ∧ max blockSize 8 ∣ 5 + payloadLength + padding}
            (Packet.paddingLength payloadLength blockSize) ∧
          (blockSize ≤ 252 → Packet.paddingLength payloadLength blockSize < 256)) ∧
      ∀ commands : List Command, (∀ keys, .arm keys ∈ commands → keys.Derived) →
        ∃ wires outbound, Command.performAll commands {} = .ok wires outbound ∧
          outbound.framer.blockSize = outbound.sealer.blockSize ∧
          outbound.sequence = UInt32.ofNat (Command.payloads commands).length ∧
          (∀ entropy compressed, ∃ wire sealer,
            Sealer.protect (outbound.framer.frame entropy compressed) outbound.sealer =
                .ok wire sealer ∧
              wire.length = (Packet.frame entropy outbound.framer.blockSize compressed).wireLength +
                Command.tagSize (Command.lastKeys commands) ∧
              sealer.sequence = outbound.sequence + 1) ∧
          ∀ entropy payload, ∃ wire after, Outbound.send entropy payload outbound = .ok wire after ∧
            wire.length = (outbound.framed entropy payload).wireLength +
              Command.tagSize (Command.lastKeys commands) ∧
            after.sequence = outbound.sequence + 1 := by
  refine ⟨?_, ?_, ?_⟩
  · intro payloadLength blockSize padding
    rw [Packet.paddingLength_eq_iff, Packet.minPadding, Packet.headerLength, Packet.defaultBlockSize]
    have bound : padding < max blockSize 8 + 4 ↔ padding ≤ max blockSize 8 + 3 := by omega
    rw [bound]
  · intro payloadLength blockSize
    refine ⟨Packet.paddingLength_isLeast payloadLength blockSize, fun few => ?_⟩
    have most := (Packet.paddingLength_spec payloadLength blockSize).2.1
    rw [Packet.minPadding, Packet.defaultBlockSize] at most
    omega
  · intro commands derived
    have fresh : Outbound.InStep 0 (Command.tagSize none) {} := Outbound.inStep_fresh
    obtain ⟨wires, outbound, performed, inStep⟩ :=
      Command.performAll_inStep fresh commands derived
    rw [Option.or_none, Nat.zero_add] at inStep
    have counts {after : Outbound} {size : Nat}
        (later : after.InStep ((Command.payloads commands).length + 1) size) :
        after.sequence = outbound.sequence + 1 := by
      rw [later.sequence, inStep.sequence, Outbound.sequence_succ]
    refine ⟨wires, outbound, performed, inStep.ready.framer, inStep.sequence, ?_, ?_⟩
    · intro entropy compressed
      obtain ⟨wire, sealer, protects, length, later⟩ := inStep.protect entropy compressed
      exact ⟨wire, sealer, protects, length, counts later⟩
    · intro entropy payload
      obtain ⟨wire, after, sent, length, later⟩ := inStep.send entropy payload
      exact ⟨wire, after, sent, length, counts later⟩

/-- After a payload, keys and the switch to compression a sender has counted its payloads
and puts tags of twenty bytes behind what follows. -/
theorem performed_aligned_sample :
    Packet.paddingLength 3 8 = 8 ∧ Packet.paddingLength 1000 252 < 256 ∧
      ∃ wires outbound, Command.performAll sampleCommands {} = .ok wires outbound ∧
        outbound.sequence = 2 ∧
        ∀ entropy payload, ∃ wire after, Outbound.send entropy payload outbound = .ok wire after ∧
          wire.length = (outbound.framed entropy payload).wireLength + 20 ∧ after.sequence = 3 := by
  have derived : ∀ keys, .arm keys ∈ sampleCommands → keys.Derived := by
    intro keys member
    simp only [sampleCommands, List.mem_cons, reduceCtorEq, Command.arm.injEq, List.not_mem_nil,
      or_false, false_or] at member
    exact ⟨[1], [2], [3], .serverToClient, .aes128Ctr, .sha1, member⟩
  obtain ⟨wires, outbound, performed, -, sequence, -, sends⟩ := performed_aligned.2.2 _ derived
  refine ⟨((performed_aligned.1 3 8 8).2 (by decide)).symm,
    (performed_aligned.2.1 1000 252).2 (by decide), wires, outbound, performed, sequence, ?_⟩
  intro entropy payload
  obtain ⟨wire, after, sent, length, counted⟩ := sends entropy payload
  exact ⟨wire, after, sent, length, counted.trans (by rw [sequence]; rfl)⟩

end Pipeline

end SecureShell
