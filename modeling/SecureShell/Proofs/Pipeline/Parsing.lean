import SecureShell.Proofs.Pipeline.Cutting

/-! The wire form of a packet and its two readers. A packet whose lengths fit their fields
is read as it was written, and whatever is read as a packet is the wire form of that packet.
The reader that has all bytes before it and the deframer that takes packets off a stream
check lengths and padding at different times, and accept the same. -/
namespace SecureShell

namespace Packet

variable {packet : Packet} {limit : Nat}

/-- Its padding is long enough, and both of its lengths fit their fields. -/
structure Writable (packet : Packet) : Prop where
  leastPadding : minPadding ≤ packet.padding.length
  mostPadding : packet.padding.length < 256
  field : packet.bodyLength < 2 ^ 32

def declaredLength (data : Bytes) : Option Nat :=
  if data.length < 4 then none else some (Bytes.toNat (data.take 4))

theorem Writable.fits (writable : packet.Writable) (short : packet.bodyLength ≤ limit) :
    packet.Fits limit :=
  ⟨writable.leastPadding, writable.mostPadding, writable.field, short⟩

theorem Fits.writable (fits : packet.Fits limit) : packet.Writable :=
  ⟨fits.leastPadding, fits.mostPadding, fits.field⟩

theorem paddingFault_eq_none_iff {bodyLength padding : Nat} :
    paddingFault bodyLength padding = none ↔ minPadding ≤ padding ∧ padding + 1 ≤ bodyLength := by
  unfold paddingFault
  split
  · simp only [reduceCtorEq, false_iff]
    omega
  · split
    · simp only [reduceCtorEq, false_iff]
      omega
    · simp only [true_iff]
      omega

theorem declaredLength_wide (length : Nat) (rest : Bytes) :
    declaredLength (Bytes.wide 4 length ++ rest) = some (length % 2 ^ 32) := by
  have long : ¬ (Bytes.wide 4 length ++ rest).length < 4 := by
    rw [List.length_append, Bytes.length_wide]
    omega
  rw [declaredLength, if_neg long, List.take_left' (Bytes.length_wide ..), Bytes.toNat_wide]
  rfl

theorem declaredLength_toBytes (writable : packet.Writable) :
    declaredLength packet.toBytes = some packet.bodyLength := by
  rw [toBytes, declaredLength_wide, Nat.mod_eq_of_lt writable.field]

/-- A length field, a padding length that can belong to it, and as many bytes as it says are
the wire form of a packet. -/
theorem writable_of_whole {field body : Bytes} {padding : UInt8} (four : field.length = 4)
    (whole : body.length = Bytes.toNat field - 1)
    (fitting : paddingFault (Bytes.toNat field) padding.toNat = none) :
    Writable ⟨body.take (body.length - padding.toNat), body.drop (body.length - padding.toNat)⟩ ∧
      toBytes ⟨body.take (body.length - padding.toNat), body.drop (body.length - padding.toNat)⟩ =
        field ++ padding :: body := by
  obtain ⟨least, room⟩ := paddingFault_eq_none_iff.1 fitting
  have small := Bytes.toNat_lt field
  rw [four] at small
  have last : (body.drop (body.length - padding.toNat)).length = padding.toNat := by
    rw [List.length_drop]
    omega
  have length : bodyLength
      ⟨body.take (body.length - padding.toNat), body.drop (body.length - padding.toNat)⟩ =
        Bytes.toNat field := by
    rw [bodyLength, last, List.length_take]
    omega
  refine ⟨⟨?_, ?_, ?_⟩, ?_⟩
  · rw [last]
    exact least
  · rw [last]
    exact padding.toNat_lt
  · rw [length]
    exact small
  · rw [toBytes, length, last, UInt8.ofNat_toNat, List.take_append_drop, ← four, Bytes.wide_toNat]

/-- What is read as a packet is the wire form of that packet. -/
theorem toBytes_of_parse {data : Bytes} (parsed : parse data = .ok packet) :
    packet.Writable ∧ packet.toBytes = data := by
  simp only [parse] at parsed
  split at parsed
  · cases parsed
  rename_i long
  split at parsed
  · cases parsed
  rename_i whole
  split at parsed
  · cases parsed
  rename_i fitting
  cases parsed
  rw [headerLength] at long
  obtain ⟨padding, body, behind⟩ : ∃ padding body, data.drop 4 = padding :: body := by
    cases behind : data.drop 4 with
    | nil =>
      have none := congrArg List.length behind
      rw [List.length_drop, List.length_nil] at none
      omega
    | cons padding body => exact ⟨padding, body, rfl⟩
  have four : (data.take 4).length = 4 := by
    rw [List.length_take]
    omega
  rw [behind] at whole fitting ⊢
  rw [List.headD_cons] at fitting ⊢
  have declared : body.length = Bytes.toNat (data.take 4) - 1 := by
    rw [List.length_cons] at whole
    omega
  obtain ⟨writable, same⟩ := writable_of_whole four declared fitting
  rw [← behind, List.take_append_drop] at same
  rw [List.drop_one, List.tail_cons, ← declared]
  exact ⟨writable, same⟩

theorem parse_of_writable (writable : packet.Writable) : parse packet.toBytes = .ok packet := by
  have fits := writable.fits (Nat.le_refl packet.bodyLength)
  have field := Bytes.length_wide 4 packet.bodyLength
  have behind : packet.toBytes.drop 4 =
      UInt8.ofNat packet.padding.length :: (packet.payload ++ packet.padding) := by
    rw [toBytes, List.drop_left' field]
  have long : ¬ packet.toBytes.length < headerLength := by
    rw [length_toBytes, wireLength]
    omega
  have whole : (UInt8.ofNat packet.padding.length :: (packet.payload ++ packet.padding)).length =
      packet.bodyLength := by
    rw [List.length_cons, List.length_append, bodyLength]
    omega
  have byte : (UInt8.ofNat packet.padding.length).toNat = packet.padding.length := by
    rw [UInt8.toNat_ofNat', Nat.mod_eq_of_lt writable.mostPadding]
  have payload : packet.bodyLength - 1 - packet.padding.length = packet.payload.length := by
    rw [bodyLength]
    omega
  simp only [parse, if_neg long, toBytes_length fits, behind, whole, ne_eq, not_true, if_false,
    List.headD_cons, byte, Deframer.paddingFault_fits fits, payload, List.drop_one, List.tail_cons,
    List.take_left, List.drop_left]

theorem parse_eq_ok_iff {data : Bytes} :
    parse data = .ok packet ↔ packet.Writable ∧ packet.toBytes = data := by
  constructor
  · exact toBytes_of_parse
  · rintro ⟨writable, rfl⟩
    exact parse_of_writable writable

end Packet

namespace Deframer

variable {limit : Nat} {stream rest : Bytes} {packet : Packet}

theorem lengthFault_eq_none_iff {length : Nat} :
    lengthFault limit length = none ↔ length ≤ limit ∧ 1 + Packet.minPadding ≤ length := by
  unfold lengthFault
  split
  · simp only [reduceCtorEq, false_iff]
    omega
  · split
    · simp only [reduceCtorEq, false_iff]
      omega
    · simp only [true_iff]
      omega

/-- A stream shows a packet just if it begins with its wire form. -/
theorem scan_eq_packet_iff :
    scan limit stream = .packet packet rest ↔
      packet.Fits limit ∧ stream = packet.toBytes ++ rest := by
  constructor
  · intro found
    unfold scan at found
    split at found
    case h_2 => cases found
    rename_i a b c d body
    dsimp only at found
    split at found
    · cases found
    rename_i allowed
    split at found
    · cases found
    rename_i padding body
    split at found
    · cases found
    rename_i fitting
    split at found
    · cases found
    rename_i enough
    cases found
    obtain ⟨short, -⟩ := lengthFault_eq_none_iff.1 allowed
    obtain ⟨-, room⟩ := Packet.paddingFault_eq_none_iff.1 fitting
    generalize announced : Bytes.toNat [a, b, c, d] = length at *
    -- the packet is made of the bytes that its header announces
    have whole : (body.take (length - 1)).length = length - 1 := by
      rw [List.length_take]
      omega
    have enough : (body.take (length - 1)).length = Bytes.toNat [a, b, c, d] - 1 := by
      rw [announced]
      exact whole
    obtain ⟨writable, same⟩ := Packet.writable_of_whole rfl enough (announced ▸ fitting)
    have front : (body.take (length - 1)).take (length - 1 - padding.toNat) =
        body.take (length - 1 - padding.toNat) := by
      rw [List.take_take]
      congr 1
      omega
    have back : (body.take (length - 1)).drop (length - 1 - padding.toNat) =
        (body.drop (length - 1 - padding.toNat)).take padding.toNat := by
      rw [List.drop_take]
      congr 1
      omega
    rw [whole, front, back] at writable same
    refine ⟨writable.fits ?_, ?_⟩
    · have declared := Packet.declaredLength_toBytes writable
      rw [same] at declared
      have equal : length = _ := announced.symm.trans (Option.some.inj declared)
      omega
    · rw [same]
      simp only [List.cons_append, List.nil_append, List.take_append_drop]
  · rintro ⟨fits, rfl⟩
    exact scan_append_packet (scan_toBytes fits)

/-- What is drained of a stream are the packets whose wire forms it begins with. -/
theorem flatMap_of_drain {done packets : List Packet}
    (drained : drain limit done stream = .ok (packets, rest)) :
    ∃ later, packets = done.reverse ++ later ∧ (∀ packet ∈ later, packet.Fits limit) ∧
      stream = later.flatMap Packet.toBytes ++ rest := by
  fun_induction drain limit done stream with
  | case1 done stream waits =>
    cases drained
    exact ⟨[], (List.append_nil _).symm, List.forall_mem_nil _, rfl⟩
  | case2 done stream packet behind found ih =>
    obtain ⟨fits, rfl⟩ := scan_eq_packet_iff.1 found
    obtain ⟨later, rfl, others, rfl⟩ := ih drained
    refine ⟨packet :: later, ?_, ?_, ?_⟩
    · rw [List.reverse_cons, List.append_assoc, List.singleton_append]
    · intro other among
      rcases List.mem_cons.1 among with rfl | among
      · exact fits
      · exact others other among
    · rw [List.flatMap_cons, List.append_assoc]
  | case3 done stream fault kept found => cases drained

/-- A fresh deframer gives packets and keeps nothing just if it is fed their wire forms. -/
theorem feed_whole_iff {data : Bytes} {packets : List Packet} :
    (∃ after, feed data { limit } = .ok packets after ∧ after.idle = true) ↔
      (∀ packet ∈ packets, packet.Fits limit) ∧ packets.flatMap Packet.toBytes = data := by
  constructor
  · rintro ⟨after, fed, idle⟩
    rw [feed_eq (settled_fresh limit), List.nil_append] at fed
    cases drained : drain limit [] data with
    | error failure =>
      rw [drained] at fed
      cases fed
    | ok taken =>
      obtain ⟨found, rest⟩ := taken
      rw [drained] at fed
      cases fed
      obtain rfl : rest = [] := List.isEmpty_iff.1 idle
      obtain ⟨later, rfl, fits, whole⟩ := flatMap_of_drain drained
      exact ⟨fits, by rw [whole, List.append_nil]⟩
  · rintro ⟨fits, rfl⟩
    exact ⟨{ limit }, feed_ok (settled_fresh limit) (drain_flatMap_toBytes fits), rfl⟩

end Deframer

namespace Packet

/-- Framing is a bijection between the packets whose lengths fit their fields and the bytes
that are read as a packet, and the readers agree: of bytes whose length field, if they hold
one, does not exceed the limit, the one makes a packet just if a fresh deframer that is fed
them gives that packet alone and keeps nothing. -/
theorem parse_framed :
    (∀ packet : Packet, packet.Writable → parse packet.toBytes = .ok packet) ∧
      (∀ (data : Bytes) (packet : Packet), parse data = .ok packet →
        packet.Writable ∧ packet.toBytes = data) ∧
      ∀ (limit : Nat) (data : Bytes), (∀ length ∈ declaredLength data, length ≤ limit) →
        ∀ packet : Packet, parse data = .ok packet ↔
          ∃ after, Deframer.feed data { limit } = .ok [packet] after ∧ after.idle = true := by
  refine ⟨fun packet writable => parse_of_writable writable,
    fun data packet parsed => toBytes_of_parse parsed, ?_⟩
  intro limit data short packet
  rw [parse_eq_ok_iff, Deframer.feed_whole_iff, List.flatMap_singleton]
  simp only [List.mem_singleton, forall_eq]
  constructor
  · rintro ⟨writable, rfl⟩
    exact ⟨writable.fits (short _ (declaredLength_toBytes writable)), rfl⟩
  · rintro ⟨fits, same⟩
    exact ⟨fits.writable, same⟩

/-- A packet of one byte with the least padding comes through both readers; bytes that end
within the padding are a packet for neither. -/
theorem parse_framed_small :
    parse [0, 0, 0, 6, 4, 7, 1, 2, 3, 4] = .ok ⟨[7], [1, 2, 3, 4]⟩ ∧
      toBytes ⟨[7], [1, 2, 3, 4]⟩ = [0, 0, 0, 6, 4, 7, 1, 2, 3, 4] ∧
      (∃ after, Deframer.feed [0, 0, 0, 6, 4, 7, 1, 2, 3, 4] { limit := 6 } =
        .ok [⟨[7], [1, 2, 3, 4]⟩] after ∧ after.idle = true) ∧
      ¬ ∃ after, Deframer.feed [0, 0, 0, 6, 4, 7, 1, 2, 3] { limit := 6 } =
        .ok [⟨[7], [1, 2, 3]⟩] after ∧ after.idle = true := by
  have writable : Writable ⟨[7], [1, 2, 3, 4]⟩ := ⟨by decide, by decide, by decide⟩
  have written : toBytes ⟨[7], [1, 2, 3, 4]⟩ = [0, 0, 0, 6, 4, 7, 1, 2, 3, 4] := by decide
  have parsed : parse [0, 0, 0, 6, 4, 7, 1, 2, 3, 4] = .ok ⟨[7], [1, 2, 3, 4]⟩ :=
    written ▸ parse_framed.1 _ writable
  have short : ∀ length ∈ declaredLength [0, 0, 0, 6, 4, 7, 1, 2, 3, 4], length ≤ 6 := by decide
  have cut : ∀ length ∈ declaredLength [0, 0, 0, 6, 4, 7, 1, 2, 3], length ≤ 6 := by decide
  refine ⟨parsed, (parse_framed.2.1 _ _ parsed).2, (parse_framed.2.2 6 _ short _).1 parsed, ?_⟩
  intro found
  have padded := (parse_framed.2.1 _ _ ((parse_framed.2.2 6 _ cut _).2 found)).1.leastPadding
  exact absurd padded (by decide)

end Packet

end SecureShell
