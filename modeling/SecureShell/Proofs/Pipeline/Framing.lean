import SecureShell.Focus
import SecureShell.Packet.Deframer
import SecureShell.Proofs.Bytes

/-! A framed payload fills whole blocks, and an idle deframer that is fed exactly one
packet gives that packet and is idle again. -/
namespace SecureShell

namespace Packet

/-- Padding has at least four bytes, less than four more than a block, and fills up the
last block. -/
theorem paddingLength_spec (payloadLength blockSize : Nat) :
    minPadding ≤ paddingLength payloadLength blockSize ∧
      paddingLength payloadLength blockSize < max blockSize defaultBlockSize + minPadding ∧
      (headerLength + payloadLength + paddingLength payloadLength blockSize) %
        max blockSize defaultBlockSize = 0 := by
  have large : 8 ≤ max blockSize defaultBlockSize := Nat.le_max_right ..
  unfold paddingLength
  generalize max blockSize defaultBlockSize = block at *
  have below := Nat.mod_lt (headerLength + payloadLength) (by omega : 0 < block)
  have filled : (headerLength + payloadLength +
      (block - (headerLength + payloadLength) % block)) % block = 0 := by
    have parts := Nat.div_add_mod (headerLength + payloadLength) block
    have whole : headerLength + payloadLength + (block - (headerLength + payloadLength) % block) =
        block * ((headerLength + payloadLength) / block + 1) := by
      rw [Nat.mul_add, Nat.mul_one]
      omega
    rw [whole, Nat.mul_mod_right]
  rw [minPadding]
  by_cases few : block - (headerLength + payloadLength) % block < 4
  · simp only [if_pos few]
    refine ⟨by omega, by omega, ?_⟩
    rw [← Nat.add_assoc, Nat.add_mod_right, filled]
  · simp only [if_neg few]
    exact ⟨by omega, by omega, filled⟩

/-- Can be told from the bytes behind it, and is not too long. -/
structure Fits (limit : Nat) (packet : Packet) : Prop where
  leastPadding : minPadding ≤ packet.padding.length
  mostPadding : packet.padding.length < 256
  field : packet.bodyLength < 2 ^ 32
  limit : packet.bodyLength ≤ limit

variable {packet : Packet} {limit : Nat}

@[simp] theorem length_toBytes (packet : Packet) : packet.toBytes.length = packet.wireLength := by
  simp [toBytes, wireLength, headerLength]
  omega

theorem wireLength_eq (packet : Packet) : packet.wireLength = 4 + packet.bodyLength := by
  rw [wireLength, bodyLength, headerLength]
  omega

theorem toBytes_length (fits : packet.Fits limit) :
    Bytes.toNat (packet.toBytes.take 4) = packet.bodyLength := by
  rw [toBytes, List.take_left' (Bytes.length_wide ..), Bytes.toNat_wide,
    Nat.mod_eq_of_lt (show packet.bodyLength < 256 ^ 4 from fits.field)]

theorem frame_spec (entropy : Entropy) {blockSize : Nat} (few : max blockSize defaultBlockSize ≤ 16)
    (payload : Bytes) :
    minPadding ≤ (frame entropy blockSize payload).padding.length ∧
      (frame entropy blockSize payload).padding.length < 256 ∧
      (frame entropy blockSize payload).wireLength % max blockSize defaultBlockSize = 0 := by
  obtain ⟨least, most, filled⟩ := paddingLength_spec payload.length blockSize
  rw [minPadding] at most
  simp only [frame, entropy.length_bytes, wireLength]
  exact ⟨least, by omega, filled⟩

end Packet

namespace Deframer

variable {packet : Packet} {limit : Nat}

theorem lengthFault_fits (fits : packet.Fits limit) : lengthFault limit packet.bodyLength = none := by
  have := fits.leastPadding
  have := fits.limit
  rw [lengthFault, if_neg (by omega), if_neg (by rw [Packet.bodyLength]; omega)]

theorem paddingFault_fits (fits : packet.Fits limit) :
    Packet.paddingFault packet.bodyLength packet.padding.length = none := by
  have := fits.leastPadding
  rw [Packet.paddingFault, if_neg (by omega), if_neg (by rw [Packet.bodyLength]; omega)]

/-- An acceptable header shows a packet as soon as the bytes that it announces are there. -/
theorem scan_header {length padding : Nat} {body : Bytes} (small : length < 256 ^ 4)
    (allowed : lengthFault limit length = none) (byte : padding < 256)
    (fitting : Packet.paddingFault length padding = none) :
    scan limit (Bytes.wide 4 length ++ UInt8.ofNat padding :: body) =
      if body.length < length - 1 then .incomplete
      else .packet ⟨body.take (length - 1 - padding),
        (body.drop (length - 1 - padding)).take padding⟩ (body.drop (length - 1)) := by
  obtain ⟨a, b, c, d, field⟩ : ∃ a b c d, Bytes.wide 4 length = [a, b, c, d] :=
    ⟨_, _, _, _, List.eq_getElem_of_length_eq_four _ (Bytes.length_wide ..)⟩
  have number : Bytes.toNat [a, b, c, d] = length := by
    rw [← field, Bytes.toNat_wide, Nat.mod_eq_of_lt small]
  have same : (UInt8.ofNat padding).toNat = padding := by
    rw [UInt8.toNat_ofNat', Nat.mod_eq_of_lt byte]
  rw [field]
  simp only [List.cons_append, List.nil_append, scan, number, allowed, same, fitting]

/-- The bytes of one packet show that packet, and nothing behind it. -/
theorem scan_toBytes (fits : packet.Fits limit) : scan limit packet.toBytes = .packet packet [] := by
  have body : packet.bodyLength - 1 = (packet.payload ++ packet.padding).length := by
    rw [Packet.bodyLength, List.length_append]
    omega
  have payload : (packet.payload ++ packet.padding).length - packet.padding.length =
      packet.payload.length := by
    rw [List.length_append]
    omega
  rw [Packet.toBytes, scan_header fits.field (lengthFault_fits fits) fits.mostPadding
    (paddingFault_fits fits), body, if_neg (Nat.lt_irrefl _), payload, List.take_left,
    List.drop_left, List.take_length, List.drop_length]

section Draining

variable {done : List Packet} {stream rest kept : Bytes} {fault : ProtocolFault}

theorem drain_waits (waits : scan limit stream = .incomplete) :
    drain limit done stream = .ok (done.reverse, stream) := by
  rw [drain]
  split <;> simp_all

theorem drain_packet (found : scan limit stream = .packet packet rest) :
    drain limit done stream = drain limit (packet :: done) rest := by
  rw [drain]
  split <;> simp_all

theorem drain_refused (found : scan limit stream = .refused fault kept) :
    drain limit done stream = .error (fault, kept) := by
  rw [drain]
  split <;> simp_all

end Draining

theorem drain_toBytes (fits : packet.Fits limit) :
    drain limit [] packet.toBytes = .ok ([packet], []) := by
  rw [drain_packet (scan_toBytes fits), drain_waits rfl]
  rfl

theorem feed_toBytes {deframer : Deframer} (fits : packet.Fits deframer.limit)
    (idle : deframer.pending = []) :
    feed packet.toBytes deframer = .ok [packet] deframer := by
  have some : packet.toBytes.isEmpty = false := by
    rw [Packet.toBytes]
    simp
  have same : { deframer with pending := [] } = deframer := by rw [← idle]
  simp only [feed, some, Bool.false_eq_true, if_false, bind_apply, get_apply, idle, List.nil_append,
    drain_toBytes fits, set_apply, pure_apply, same]

end Deframer

end SecureShell
