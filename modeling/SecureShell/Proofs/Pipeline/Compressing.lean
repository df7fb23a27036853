import SecureShell.Proofs.Pipeline.Packets
import SecureShell.Proofs.Pipeline.Parsing

/-! What is inside packets. A sender packs each payload as its compressor leaves it, so its
packets are those of a sender that never compresses and is given what the compressor makes
of the payloads. An inbound side gives, for each packet, what its decompressor makes of the
payload that is framed in it. -/
namespace SecureShell

namespace Compressor

variable {c : Compressor}

def bodies (c : Compressor) : List Bytes → List Bytes
  | [] => []
  | payload :: rest => (c.compress payload).1 :: (c.compress payload).2.bodies rest

theorem compress_inert (inert : c.active = false) (payload : Bytes) :
    c.compress payload = (payload, c) := by
  rw [compress, if_neg (by simp [inert])]

theorem bodies_inert (inert : c.active = false) (payloads : List Bytes) :
    c.bodies payloads = payloads := by
  induction payloads with
  | nil => rfl
  | cons payload rest ih => rw [bodies, compress_inert inert, ih]

end Compressor

section Outbound

variable {entropy : Entropy} {payload wire : Bytes} {outbound after : Outbound}

def Outbound.bare (outbound : Outbound) : Outbound := { outbound with compressor := {} }

theorem Outbound.send_bare (sent : send entropy payload outbound = .ok wire after) :
    send entropy (outbound.compressor.compress payload).1 outbound.bare = .ok wire after.bare := by
  rw [send_eq] at sent
  obtain ⟨sealer, sealed, rfl⟩ := focus_eq_ok_iff.1 sent
  rw [send_of_compress (Deflation.compress_inert _ rfl)]
  exact focus_eq_ok_iff.2 ⟨sealer, sealed, rfl⟩

namespace Pipeline.Command

variable {c : Compressor} {first second commands : List Command} {wires : List Bytes}

/-- Commands for a sender that never compresses: it is given what a compressor makes of the
payloads. -/
def packed : Compressor → List Command → List Command
  | _, [] => []
  | c, .send entropy payload :: rest =>
    .send entropy (c.compress payload).1 :: packed (c.compress payload).2 rest
  | c, .arm keys :: rest => .arm keys :: packed c rest
  | c, .compress :: rest => packed c.activate rest

theorem arm_bare {keys : DirectionKeys} (armed : (arm keys).perform outbound = .ok wire after) :
    (arm keys).perform outbound.bare = .ok wire after.bare := by
  simp only [perform, Outbound.arm, Outbound.bare] at armed ⊢
  cases arming : outbound.sealer.arm keys with
  | error error =>
    rw [arming] at armed
    cases armed
  | ok sealer =>
    rw [arming] at armed
    cases armed
    rfl

/-- The packets of a sender are those of one that never compresses. -/
theorem packets_packed (performed : packets commands outbound = .ok wires after) :
    packets (packed outbound.compressor commands) outbound.bare = .ok wires after.bare := by
  induction commands generalizing outbound wires with
  | nil =>
    cases performed
    rfl
  | cons command rest ih =>
    obtain ⟨wire, middle, sent, performed⟩ := bind_eq_ok_iff.1 performed
    obtain ⟨further, left, performed, made⟩ := bind_eq_ok_iff.1 performed
    cases made
    have later := ih performed
    cases command with
    | send entropy payload =>
      rw [send_compressor sent] at later
      exact packets_cons (Outbound.send_bare sent) later
    | arm keys =>
      rw [arm_compressor sent] at later
      exact packets_cons (arm_bare sent) later
    | compress =>
      cases sent
      exact later

theorem payloads_packed (steady : .compress ∉ commands) :
    payloads (packed c commands) = c.bodies (payloads commands) := by
  induction commands generalizing c with
  | nil => rfl
  | cons command rest ih =>
    rw [List.mem_cons, not_or] at steady
    cases command with
    | send => exact congrArg _ (ih steady.2)
    | arm => exact ih steady.2
    | compress => exact absurd rfl steady.1

/-- While compression is switched off, what follows is packed as if nothing came before. -/
theorem packed_append (inert : c.active = false) (steady : .compress ∉ first) :
    packed c (first ++ second) = first ++ packed c second := by
  induction first with
  | nil => rfl
  | cons command rest ih =>
    rw [List.mem_cons, not_or] at steady
    cases command with
    | send =>
      rw [List.cons_append, packed, Compressor.compress_inert inert, ih steady.2, List.cons_append]
    | arm => exact congrArg _ (ih steady.2)
    | compress => exact absurd rfl steady.1

end Pipeline.Command

end Outbound

section Inbound

namespace Decompressor

theorem decompress_inert {d after : Decompressor} {payload out : Bytes} (inert : d.active = false)
    (decompressed : decompress payload d = .ok out after) : out = payload ∧ after = d := by
  have off : d.stream = none := Option.not_isSome_iff_eq_none.1 (by simpa [active] using inert)
  simp only [decompress, decompressWith, bind_apply, get_apply, off] at decompressed
  cases decompressed
  exact ⟨rfl, rfl⟩

end Decompressor

namespace Inbound

variable {inbound after : Inbound} {packet payload : Bytes}

/-- One payload comes of one packet. -/
theorem decompress_one {packets : List Packet} {d left : Decompressor}
    (decompressed : packets.mapM (fun packet => Decompressor.decompress packet.payload) d =
      .ok [payload] left) :
    ∃ framed, packets = [framed] ∧ Decompressor.decompress framed.payload d = .ok payload left := by
  cases packets with
  | nil => cases decompressed
  | cons framed rest =>
    rw [List.mapM_cons] at decompressed
    obtain ⟨out, between, inflates, further⟩ := bind_eq_ok_iff.1 decompressed
    obtain ⟨more, last, others, made⟩ := bind_eq_ok_iff.1 further
    cases made
    cases rest with
    | nil =>
      cases others
      exact ⟨framed, rfl, inflates⟩
    | cons second rest =>
      rw [List.mapM_cons] at others
      obtain ⟨_, _, -, others⟩ := bind_eq_ok_iff.1 others
      obtain ⟨_, _, -, others⟩ := bind_eq_ok_iff.1 others
      cases others

/-- A payload is what the decompressor makes of the payload that a packet frames. -/
theorem unpack_ok (idle : inbound.deframer.idle = true)
    (unpacked : unpack packet inbound = .ok payload after) :
    ∃ framed, Packet.parse packet = .ok framed ∧
      Decompressor.decompress framed.payload inbound.decompressor =
        .ok payload after.decompressor ∧
      after.deframer.idle = true := by
  obtain ⟨payloads, between, deframed, further⟩ := bind_eq_ok_iff.1 unpacked
  obtain ⟨packets, framing, cut, inflated⟩ := bind_eq_ok_iff.1 deframed
  obtain ⟨deframer, fed, rfl⟩ := focus_eq_ok_iff.1 cut
  obtain ⟨decompressor, decompressed, rfl⟩ := focus_eq_ok_iff.1 inflated
  split at further
  case h_2 => cases further
  obtain ⟨_, _, looked, further⟩ := bind_eq_ok_iff.1 further
  cases looked
  split at further
  case isFalse => cases further
  rename_i still
  cases further
  obtain ⟨framed, rfl, inflates⟩ := decompress_one decompressed
  have empty : inbound.deframer = { limit := inbound.deframer.limit } := by
    rw [← List.isEmpty_iff.1 idle]
  rw [empty] at fed
  obtain ⟨fits, whole⟩ := Deframer.feed_whole_iff.1 ⟨deframer, fed, still⟩
  rw [List.flatMap_singleton] at whole
  have writable := (fits framed (.head _)).writable
  exact ⟨framed, whole ▸ Packet.parse_of_writable writable, inflates, still⟩

end Inbound

end Inbound

end SecureShell
