import SecureShell.Proofs.Pipeline.Lockstep

/-! What a sender puts on the wire: packets in the clear until it has keys, and sealed
packets afterwards, each with the number of the packets before it in its tag. A sender
whose framer knows the block size can send whatever it is asked to. -/
namespace SecureShell

/-- A packet that anyone can read: framed and nothing more, its payload of one of some
kinds. -/
def InClear (codes : List MessageCode) (wire : Bytes) : Prop :=
  ∃ packet : Packet, ∃ code ∈ codes, packet.payload.head? = some code.toByte ∧
    wire = packet.toBytes

/-- Packets that are sealed with the same keys, one after the other, the first of them
being packet number `first` of all, and the protection for the next one. -/
inductive Sealed (keys : DirectionKeys) (first : Nat) : List Bytes → Protection → Prop where
  | nil {protection : Protection} : Protection.create .encrypt keys = .ok protection →
      Sealed keys first [] protection
  | snoc {wires : List Bytes} {protection : Protection} {packet : Packet} {encrypted : Bytes}
      {cipher : CipherContext} : Sealed keys first wires protection →
      CipherContext.apply packet.toBytes protection.cipher = .ok encrypted cipher →
      Sealed keys first
        (wires ++ [encrypted ++ MacKey.tag ⟨keys.mac, keys.integrity⟩
          (UInt32.ofNat (first + wires.length)) packet.toBytes])
        { protection with cipher }

theorem InClear.mono {codes more : List MessageCode} {wire : Bytes} (clear : InClear codes wire)
    (sub : codes ⊆ more) : InClear more wire := by
  obtain ⟨packet, code, listed, head, rfl⟩ := clear
  exact ⟨packet, code, sub listed, head, rfl⟩

theorem Packet.head_drop_toBytes {packet : Packet} {code : UInt8}
    (head : packet.payload.head? = some code) :
    (packet.toBytes.drop Packet.headerLength).head? = some code := by
  obtain ⟨rest, payload⟩ := List.head?_eq_some_iff.1 head
  have field : (Bytes.wide 4 packet.bodyLength ++ [UInt8.ofNat packet.padding.length]).length =
      Packet.headerLength := by
    rw [List.length_append, Bytes.length_wide]
    rfl
  rw [Packet.toBytes, ← List.singleton_append, ← List.append_assoc, List.drop_left' field, payload]
  rfl

/-- A packet in the clear has one code. -/
theorem InClear.code_unique {codes : List MessageCode} {wire : Bytes} {packet : Packet}
    {code : MessageCode} (clear : InClear codes wire) (same : wire = packet.toBytes)
    (head : packet.payload.head? = some code.toByte) : code ∈ codes := by
  obtain ⟨other, known, listed, found, wireSame⟩ := clear
  have bytes := congrArg (fun wire : Bytes => (wire.drop Packet.headerLength).head?)
    (wireSame.symm.trans same)
  simp only [Packet.head_drop_toBytes found, Packet.head_drop_toBytes head] at bytes
  have equal : known = code := by
    have codes := congrArg MessageCode.ofByte? (Option.some.inj bytes)
    simpa only [MessageCode.ofByte?_toByte, Option.some.injEq] using codes
  rwa [← equal]

theorem InClear.meets {codes more : List MessageCode} {wire : Bytes} (clear : InClear codes wire)
    (also : InClear more wire) : ∃ code ∈ codes, code ∈ more := by
  obtain ⟨packet, code, listed, head, same⟩ := clear
  exact ⟨code, listed, also.code_unique same head⟩

theorem Sealed.mac {keys : DirectionKeys} {first : Nat} {wires : List Bytes}
    {protection : Protection} (sealing : Sealed keys first wires protection) :
    protection.mac = ⟨keys.mac, keys.integrity⟩ := by
  induction sealing with
  | nil created =>
    obtain ⟨cipher, -, created⟩ := exceptBind_eq_ok_iff.1 created
    obtain ⟨mac, made, created⟩ := exceptBind_eq_ok_iff.1 created
    cases created
    unfold MacKey.create at made
    split at made
    · exact (Except.ok.inj made).symm
    · cases made
  | snoc _ _ ih => exact ih

/-- Sealed packets are whole blocks, each with a tag behind it. -/
theorem Sealed.length_mod {keys : DirectionKeys} {first : Nat} {wires : List Bytes}
    {protection : Protection} (sealing : Sealed keys first wires protection) :
    protection.cipher.Regular ∧ ∀ wire ∈ wires, wire.length % 8 = keys.mac.tagSize % 8 := by
  induction sealing with
  | nil created =>
    obtain ⟨cipher, made, created⟩ := exceptBind_eq_ok_iff.1 created
    obtain ⟨mac, -, created⟩ := exceptBind_eq_ok_iff.1 created
    cases created
    exact ⟨(CipherContext.create_regular made).1, nofun⟩
  | @snoc wires protection packet encrypted cipher _ applied ih =>
    obtain ⟨regular, earlier⟩ := ih
    obtain ⟨length, regular', -⟩ := regular.applied applied
    refine ⟨regular', ?_⟩
    intro wire member
    rcases List.mem_append.1 member with member | member
    · exact earlier wire member
    · have whole : 8 ∣ packet.toBytes.length := by
        have blocks : 8 ∣ protection.cipher.blockSize := by
          rw [CipherContext.blockSize]
          cases protection.cipher.algorithm <;> decide
        exact Nat.dvd_trans blocks (Nat.dvd_of_mod_eq_zero (CipherContext.aligned_of_apply applied))
      have tag : (MacKey.tag ⟨keys.mac, keys.integrity⟩ (UInt32.ofNat (first + wires.length))
          packet.toBytes).length = keys.mac.tagSize := MacKey.length_tag ..
      rw [List.mem_singleton.1 member, List.length_append, length, tag]
      omega

namespace Sealer

variable {sealer after : Sealer} {packet wire : Bytes}

/-- All that sealing can do. -/
theorem protect_cases (sealed : protect packet sealer = .ok wire after) :
    (sealer.keys = none ∧ wire = packet ∧ after = { sealer with sequence := sealer.sequence + 1 }) ∨
      ∃ keys encrypted cipher, sealer.keys = some keys ∧
        CipherContext.apply packet keys.cipher = .ok encrypted cipher ∧
        wire = encrypted ++ keys.mac.tag sealer.sequence packet ∧
        after = ⟨some { keys with cipher }, sealer.sequence + 1⟩ := by
  cases armed : sealer.keys with
  | none =>
    simp only [protect, bind_apply, get_apply, armed] at sealed
    cases sealed
    exact .inl ⟨rfl, rfl, rfl⟩
  | some keys =>
    cases applied : CipherContext.apply packet keys.cipher with
    | error error cipher =>
      simp only [protect, bind_apply, get_apply, armed, applied] at sealed
      cases sealed
    | ok encrypted cipher =>
      simp only [protect, bind_apply, get_apply, armed, applied] at sealed
      cases sealed
      exact .inr ⟨keys, encrypted, cipher, rfl, applied, rfl, rfl⟩

end Sealer

namespace Outbound

variable {outbound after : Outbound} {entropy : Entropy} {payload wire : Bytes}

theorem send_ok (sent : send entropy payload outbound = .ok wire after) :
    ∃ sealer, Sealer.protect (outbound.framed entropy payload).toBytes outbound.sealer =
        .ok wire sealer ∧
      after = { outbound with compressor := (outbound.compressor.compress payload).2, sealer } := by
  rw [send_eq] at sent
  obtain ⟨sealer, protected_, rfl⟩ := focus_eq_ok_iff.1 sent
  exact ⟨sealer, protected_, rfl⟩

section Library

variable {σ : Type} [Deflation σ] {outbound : Outbound σ}

/-- Whatever the payload, it is sent if it can be compressed. What the library refuses is not
sent, and uses up no number. -/
theorem Ready.sends (ready : outbound.Ready) (entropy : Entropy) (payload : Bytes) :
    (∃ wire after, Outbound.send entropy payload outbound = .ok wire after ∧ after.Ready ∧
      after.sequence = outbound.sequence + 1) ∨
    ∃ error after, Outbound.send entropy payload outbound = .error error after ∧ after.Ready ∧
      after.sequence = outbound.sequence ∧ outbound.compressing = true ∧
      Deflation.Fails σ error := by
  cases deflated : Deflation.compress payload outbound.compressor with
  | error error compressor =>
    obtain ⟨running, fails⟩ := Deflation.fails_of_compress deflated
    exact .inr ⟨error, _, send_of_compress_error deflated, ⟨ready.framer, ready.encrypts⟩, rfl,
      running, fails⟩
  | ok compressed compressor =>
    have large : max outbound.framer.blockSize Packet.defaultBlockSize =
        outbound.sealer.blockSize := by
      rw [ready.framer]
      exact Nat.max_eq_left (Protection.blockSize_ge outbound.sealer.keys)
    obtain ⟨-, -, aligned⟩ := Packet.frame_spec entropy ready.blockSize_le compressed
    rw [large, ← Packet.length_toBytes] at aligned
    have enough : outbound.sealer.blockSize ≤
        (outbound.framer.frame entropy compressed).length := by
      refine Nat.le_of_dvd ?_ (Nat.dvd_of_mod_eq_zero aligned)
      rw [Framer.frame, Packet.length_toBytes, Packet.wireLength_eq]
      omega
    obtain ⟨wire, sealer, protects, encrypts, sequence, blockSize, -⟩ :=
      Sealer.protect_opens ready.encrypts enough aligned
    refine .inl ⟨wire, { outbound with compressor, sealer }, ?_, ⟨?_, encrypts⟩, sequence⟩
    · rw [send_of_compress deflated]
      simp only [focus, protects]
    · rw [blockSize]
      exact ready.framer

/-- New keys of the right lengths can be taken at any time. -/
theorem arm_ready (outbound : Outbound σ) {keys : DirectionKeys} (sized : keys.Sized) :
    ∃ after, outbound.arm keys = .ok after ∧ after.Ready := by
  obtain ⟨protection, created, -, encrypts⟩ := Protection.create_opposite sized
  let sealer := { outbound.sealer with keys := some protection }
  have sealing : outbound.sealer.arm keys = .ok sealer := by
    simp [Sealer.arm, created, bind, Except.bind, pure, Except.pure, sealer]
  refine ⟨{ outbound with sealer, framer := ⟨sealer.blockSize⟩ }, ?_, rfl, ?_⟩
  · simp [Outbound.arm, sealing, bind, Except.bind, pure, Except.pure]
  · intro keys found
    cases found
    exact encrypts

end Library

theorem Ready.send (ready : outbound.Ready) (entropy : Entropy) (payload : Bytes) :
    ∃ wire after, Outbound.send entropy payload outbound = .ok wire after ∧ after.Ready := by
  rcases ready.sends entropy payload with
    ⟨wire, after, sent, readyAfter, -⟩ | ⟨error, _, _, _, _, _, fails⟩
  · exact ⟨wire, after, sent, readyAfter⟩
  · exact absurd fails (Compressor.not_fails error)

section Exposed

/-- A sender that has no keys and does not compress, after so many packets. -/
def Exposed (count : Nat) (outbound : Outbound) : Prop :=
  outbound = { sealer := { sequence := UInt32.ofNat count } }

theorem exposed_fresh : Exposed 0 {} := rfl

theorem sequence_succ (count : Nat) : UInt32.ofNat count + 1 = UInt32.ofNat (count + 1) :=
  (UInt32.ofNat_add count 1).symm

theorem Exposed.ready {count : Nat} (exposed : outbound.Exposed count) : outbound.Ready := by
  cases exposed
  exact ⟨rfl, fun keys none => nomatch none⟩

/-- Without keys packets are whole blocks of eight bytes. -/
theorem Exposed.length_mod {count : Nat} (exposed : outbound.Exposed count)
    (sent : Outbound.send entropy payload outbound = .ok wire after) : wire.length % 8 = 0 := by
  obtain ⟨-, -, aligned⟩ := exposed.ready.framed_aligned entropy payload
  obtain ⟨sealer, protects, -⟩ := send_ok sent
  cases exposed
  rcases Sealer.protect_cases protects with ⟨-, rfl, -⟩ | ⟨keys, _, _, armed, -⟩
  · rw [Packet.length_toBytes]
    exact aligned
  · cases armed

/-- Without keys a payload can be read. -/
theorem Exposed.send {count : Nat} {code : MessageCode} {codes : List MessageCode}
    (exposed : outbound.Exposed count)
    (sent : Outbound.send entropy payload outbound = .ok wire after)
    (head : payload.head? = some code.toByte) (listed : code ∈ codes) :
    InClear codes wire ∧ after.Exposed (count + 1) := by
  cases exposed
  obtain ⟨sealer, protects, rfl⟩ := send_ok sent
  rcases Sealer.protect_cases protects with ⟨-, rfl, rfl⟩ | ⟨keys, _, _, armed, -⟩
  · refine ⟨⟨_, code, listed, head, rfl⟩, ?_⟩
    simp only [Exposed, sequence_succ]
    rfl
  · cases armed

end Exposed

section Guarded

/-- A sender that has sealed some packets with keys, after so many in the clear. -/
structure Guarded (keys : DirectionKeys) (first : Nat) (wires : List Bytes) (outbound : Outbound) :
    Prop where
  seals : ∃ protection, Sealed keys first wires protection ∧
    outbound.sealer.keys = some protection
  sequence : outbound.sealer.sequence = UInt32.ofNat (first + wires.length)

variable {keys : DirectionKeys} {first : Nat} {wires : List Bytes}

/-- From the first packet behind the new keys on. -/
theorem Exposed.arm (exposed : outbound.Exposed first) (armed : outbound.arm keys = .ok after) :
    after.Guarded keys first [] := by
  cases exposed
  obtain ⟨sealer, arming, armed⟩ := exceptBind_eq_ok_iff.1 armed
  cases armed
  obtain ⟨protection, created, arming⟩ := exceptBind_eq_ok_iff.1 arming
  cases arming
  exact ⟨⟨protection, .nil created, rfl⟩, rfl⟩

/-- With keys a payload is sealed. -/
theorem Guarded.send (guarded : outbound.Guarded keys first wires)
    (sent : Outbound.send entropy payload outbound = .ok wire after) :
    after.Guarded keys first (wires ++ [wire]) := by
  obtain ⟨⟨protection, sealing, armed⟩, sequence⟩ := guarded
  obtain ⟨sealer, protects, rfl⟩ := send_ok sent
  rcases Sealer.protect_cases protects with ⟨unarmed, -⟩ |
    ⟨found, encrypted, cipher, armed', applied, rfl, rfl⟩
  · rw [unarmed] at armed
    cases armed
  · obtain rfl : found = protection := Option.some.inj (armed'.symm.trans armed)
    have step := sealing.snoc applied
    rw [← sealing.mac, ← sequence] at step
    refine ⟨⟨_, step, rfl⟩, ?_⟩
    rw [sequence, sequence_succ, List.length_append, List.length_singleton, Nat.add_assoc]

theorem Guarded.activate (guarded : outbound.Guarded keys first wires) :
    outbound.activateCompression.Guarded keys first wires :=
  ⟨guarded.seals, guarded.sequence⟩

end Guarded

end Outbound

end SecureShell
