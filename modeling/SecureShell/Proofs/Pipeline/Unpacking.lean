import SecureShell.Proofs.Pipeline.Framing
import SecureShell.Proofs.Raising

/-! What an opened packet can be refused for. An opener gives out packets of the length that
their first field shows, within the limit that the deframer has as well; an idle deframer
makes exactly one packet of such bytes, or refuses its padding. -/
namespace SecureShell

open Error (Ordinary ordinary_protocol)

namespace Deframer

variable {limit : Nat} {done packets : List Packet} {stream packet rest kept : Bytes}
  {fault : ProtocolFault}

theorem lengthFault_ordinary {length : Nat} (found : lengthFault limit length = some fault) :
    Ordinary (.protocol fault) := by
  unfold lengthFault at found
  split at found
  · cases found
    exact ordinary_protocol nofun
  · split at found
    · cases found
      exact ordinary_protocol nofun
    · cases found

theorem paddingFault_ordinary {length padding : Nat}
    (found : Packet.paddingFault length padding = some fault) : Ordinary (.protocol fault) := by
  unfold Packet.paddingFault at found
  split at found
  · cases found
    exact ordinary_protocol nofun
  · split at found
    · cases found
      exact ordinary_protocol nofun
    · cases found

theorem scan_ordinary (found : scan limit stream = .refused fault kept) :
    Ordinary (.protocol fault) := by
  unfold scan at found
  split at found
  · dsimp only at found
    split at found
    · rename_i length
      cases found
      exact lengthFault_ordinary length
    · split at found
      · cases found
      · split at found
        · rename_i padding
          cases found
          exact paddingFault_ordinary padding
        · split at found <;> cases found
  · cases found

theorem drain_ordinary (drained : drain limit done stream = .error (fault, kept)) :
    Ordinary (.protocol fault) := by
  fun_induction drain limit done stream with
  | case1 done stream waits => cases drained
  | case2 done stream packet rest found ih => exact ih drained
  | case3 done stream fault kept found =>
    cases drained
    exact scan_ordinary found

theorem feed_raises (data : Bytes) : Raises Ordinary (feed data) := by
  unfold feed
  split
  · exact .pure _
  · refine .bind .get fun deframer => ?_
    split
    · exact .bind (.set _) fun _ => .pure _
    · rename_i drained
      exact .bind (.set _) fun _ => .throw (drain_ordinary drained)

/-- Bytes as long as their first field shows are one packet, or have wrong padding. -/
theorem drain_whole (size : stream.length = 4 + Packet.declared stream)
    (least : 5 ≤ Packet.declared stream) (most : Packet.declared stream ≤ limit) :
    (∃ packet, drain limit [] stream = .ok ([packet], [])) ∨
      ∃ failure, drain limit [] stream = .error failure := by
  obtain ⟨a, b, c, d, padding, body, rfl⟩ : ∃ a b c d padding body,
      stream = a :: b :: c :: d :: padding :: body := by
    match stream, size with
    | a :: b :: c :: d :: padding :: body, _ => exact ⟨a, b, c, d, padding, body, rfl⟩
    | [], size | [_], size | [_, _], size | [_, _, _], size | [_, _, _, _], size =>
      simp only [List.length_cons, List.length_nil] at size
      omega
  have shown : Packet.declared (a :: b :: c :: d :: padding :: body) = Bytes.toNat [a, b, c, d] :=
    rfl
  have allowed : lengthFault limit (Bytes.toNat [a, b, c, d]) = none := by
    rw [lengthFault, if_neg (by omega), if_neg (by rw [Packet.minPadding]; omega)]
  have length : body.length = Bytes.toNat [a, b, c, d] - 1 := by
    simp only [List.length_cons] at size
    omega
  cases fitting : Packet.paddingFault (Bytes.toNat [a, b, c, d]) padding.toNat with
  | some fault =>
    refine .inr ⟨(fault, [a, b, c, d]), drain_refused ?_⟩
    simp only [scan, allowed, fitting]
  | none =>
    obtain ⟨packet, found⟩ : ∃ packet,
        scan limit (a :: b :: c :: d :: padding :: body) = .packet packet [] := by
      simp only [scan, allowed, fitting, ← length, Nat.lt_irrefl, if_false, List.drop_length]
      exact ⟨_, rfl⟩
    refine .inl ⟨packet, ?_⟩
    rw [drain_packet found, drain_waits rfl]
    rfl

theorem feed_whole {deframer after : Deframer} (idle : deframer.pending = [])
    (size : stream.length = 4 + Packet.declared stream) (least : 5 ≤ Packet.declared stream)
    (most : Packet.declared stream ≤ deframer.limit) (fed : feed stream deframer = .ok packets after) :
    ∃ packet, packets = [packet] ∧ after = deframer := by
  have some : stream.isEmpty = false := by
    rw [List.isEmpty_eq_false_iff, ← List.length_pos_iff]
    omega
  simp only [feed, some, Bool.false_eq_true, if_false, bind_apply, get_apply, idle,
    List.nil_append] at fed
  rcases drain_whole size least most with ⟨packet, drained⟩ | ⟨failure, drained⟩
  · rw [drained] at fed
    cases fed
    exact ⟨packet, rfl, by rw [← idle]⟩
  · rw [drained] at fed
    cases fed

end Deframer

namespace Decompressor

theorem gather_ordinary {σ : Type} {library : Inflation σ} {scratch limit room : Nat} {stream : σ}
    {input : Bytes} {fault : ProtocolFault}
    (refused : (gather library scratch limit room stream input).1 = .error fault) :
    Ordinary (.protocol fault) := by
  induction room using Nat.strongRecOn generalizing stream input with
  | _ room ih =>
    rw [gather] at refused
    split at refused
    · cases refused
      exact ordinary_protocol (by rintro ⟨⟩)
    · rename_i bytes after rest inflated
      split at refused
      · cases refused
        exact ordinary_protocol (by rintro ⟨⟩)
      · split at refused
        · dsimp only at refused
          split at refused
          · cases refused
          · cases refused
            exact ordinary_protocol (by rintro ⟨⟩)
        · split at refused
          · cases refused
          · rename_i some _ _ _ further
            cases refused
            exact ih (room - bytes.length) (by omega) (congrArg Prod.fst further)

theorem decompress_raises (payload : Bytes) : Raises Ordinary (decompress payload) := by
  refine .bind .get fun d => ?_
  cases d.stream with
  | none => exact .pure _
  | some stream =>
    dsimp only
    refine .bind (.set _) fun _ => ?_
    split
    · exact .pure _
    · rename_i refused
      exact .throw (gather_ordinary refused)

end Decompressor

namespace Opener

variable {opener failed : Opener} {keys : Option Protection} {unread : Bytes} {error : Error}

theorem checkLength_ordinary {length : Nat} {fault : ProtocolFault}
    (refused : opener.checkLength length = .error fault) : Ordinary (.protocol fault) := by
  simp only [checkLength, bind, Except.bind, pure, Except.pure, throw, throwThe,
    MonadExceptOf.throw] at refused
  split at refused
  · cases refused
    exact ordinary_protocol (by rintro ⟨⟩)
  · split at refused
    · cases refused
      exact ordinary_protocol (by rintro ⟨⟩)
    · split at refused
      · cases refused
        exact ordinary_protocol (by rintro ⟨⟩)
      · cases refused

/-- What has arrived always consists of the blocks that it is decrypted by, so an opener
refuses nothing but lengths and tags. -/
theorem next_fails (regular : Protection.Regular keys) (holds : opener.Holds keys unread)
    (refused : next opener = .error error failed) : error.Tampered ∨ Ordinary error := by
  rcases nextHead_cases regular holds with ⟨none, -⟩ | ⟨_, head, taken, some, begun, -⟩ |
    ⟨fault, _, _, _, faulty, checked, -⟩
  · simp only [next, bind_apply, none, pure_apply] at refused
    cases refused
  · rw [next_of_head some] at refused
    rcases nextBody_cases regular begun with ⟨none, -⟩ |
      ⟨_, _, _, _, _, -, -, -, ⟨-, found⟩ | ⟨-, _, _, wrong, tampered⟩⟩
    · rw [none] at refused
      cases refused
    · rw [found] at refused
      cases refused
    · rw [wrong] at refused
      cases refused
      exact .inl tampered
  · simp only [next, bind_apply, faulty] at refused
    cases refused
    exact .inr (checkLength_ordinary checked)

end Opener

namespace Inbound

variable {inbound after : Inbound} {packet : Bytes} {payloads : List Bytes}

theorem deframe_raises (packet : Bytes) : Raises Ordinary (deframe packet) :=
  .bind (.focus (Deframer.feed_raises packet)) fun packets =>
    .focus (.mapM (fun packet => Decompressor.decompress_raises packet.payload) packets)

theorem unpack_raises (packet : Bytes) :
    Raises (fun error => Ordinary error ∨ error = .protocol .notOnePayload) (unpack packet) := by
  refine .bind ((deframe_raises packet).mono fun _ => .inl) fun payloads => ?_
  split
  · exact .bind .get fun _ => .ite (.pure _) (.throw (.inr rfl))
  · exact .throw (.inr rfl)

/-- Bytes as long as their first field shows frame to one payload, if they frame at all. -/
theorem deframe_whole (idle : inbound.deframer.pending = [])
    (size : packet.length = 4 + Packet.declared packet) (least : 5 ≤ Packet.declared packet)
    (most : Packet.declared packet ≤ inbound.deframer.limit)
    (deframed : deframe packet inbound = .ok payloads after) :
    ∃ payload, payloads = [payload] ∧ after.deframer = inbound.deframer := by
  obtain ⟨packets, between, framed, inflated⟩ := bind_eq_ok_iff.1 deframed
  obtain ⟨deframer, fed, rfl⟩ := focus_eq_ok_iff.1 framed
  obtain ⟨decompressor, decompressed, rfl⟩ := focus_eq_ok_iff.1 inflated
  obtain ⟨one, rfl, rfl⟩ := Deframer.feed_whole idle size least most fed
  rw [List.mapM_cons] at decompressed
  obtain ⟨payload, _, -, further⟩ := bind_eq_ok_iff.1 decompressed
  cases further
  exact ⟨payload, rfl, rfl⟩

/-- A whole packet is refused with ordinary errors only. -/
theorem unpack_whole (idle : inbound.deframer.pending = [])
    (size : packet.length = 4 + Packet.declared packet) (least : 5 ≤ Packet.declared packet)
    (most : Packet.declared packet ≤ inbound.deframer.limit) :
    RaisesAt Ordinary inbound (unpack packet) := by
  refine (deframe_raises packet inbound).bind ?_
  intro payloads after deframed
  obtain ⟨payload, rfl, same⟩ := deframe_whole idle size least most deframed
  have still : after.deframer.idle = true := by
    rw [same, Deframer.idle, idle]
    rfl
  refine .get ?_
  rw [if_pos still]
  exact .pure payload

/-- The bytes of the server are held as they arrived, with the keys for them, and nothing is
kept of the packets that were opened. -/
structure Steady (inbound : Inbound) : Prop where
  holds : ∃ keys unread, Protection.Regular keys ∧ inbound.opener.Holds keys unread
  idle : inbound.deframer.pending = []
  limit : inbound.deframer.limit = inbound.opener.limit

namespace Steady

theorem create (limit inflateBuffer : Nat) : (Inbound.create limit inflateBuffer).Steady :=
  ⟨⟨none, [], Protection.regular_none, .fresh rfl⟩, rfl, rfl⟩

theorem feed (steady : inbound.Steady) (data : Bytes) : (inbound.feed data).Steady := by
  obtain ⟨⟨keys, unread, regular, holds⟩, idle, limit⟩ := steady
  exact ⟨⟨keys, unread ++ data, regular, holds.feed data⟩, idle, limit⟩

/-- An opened packet is whole, and within the limit. -/
theorem opened {opener : Opener} (steady : inbound.Steady)
    (opened : Opener.next inbound.opener = .ok (some packet) opener) :
    (packet.length = 4 + Packet.declared packet ∧ 5 ≤ Packet.declared packet ∧
        Packet.declared packet ≤ inbound.deframer.limit) ∧
      (∃ keys unread, Protection.Regular keys ∧ opener.Holds keys unread) ∧
      opener.limit = inbound.opener.limit := by
  obtain ⟨⟨keys, unread, regular, holds⟩, -, limit⟩ := steady
  obtain ⟨body, rest, after, -, decrypts, rfl⟩ := Opener.next_takes regular holds opened
  obtain ⟨length, regularAfter, -⟩ := Protection.decrypt_ok regular decrypts.decrypted
  refine ⟨⟨length.trans decrypts.length, decrypts.acceptable.least, ?_⟩, ?_, rfl⟩
  · rw [limit]
    exact decrypts.acceptable.most
  · exact ⟨after, rest, regularAfter, .fresh rfl⟩

/-- Taking a payload, or finding that none is there, leaves the inbound side as steady. -/
theorem next {found : Option Bytes} (steady : inbound.Steady)
    (taken : Inbound.next inbound = .ok found after) : after.Steady := by
  cases found with
  | none =>
    obtain ⟨opener, stopped, rfl⟩ := next_none taken
    obtain ⟨⟨keys, unread, regular, holds⟩, idle, limit⟩ := steady
    obtain ⟨held, -, same, -⟩ := Opener.next_waits regular holds stopped
    exact ⟨⟨keys, unread, regular, held⟩, idle, limit.trans same.symm⟩
  | some payload =>
    obtain ⟨packet, opener, opening, unpacked, rfl⟩ := next_some taken
    obtain ⟨⟨size, least, most⟩, held, same⟩ := steady.opened opening
    obtain ⟨payloads, between, deframed, further⟩ := bind_eq_ok_iff.1 unpacked
    have idle : ({ inbound with opener := after.opener } : Inbound).deframer.pending = [] :=
      steady.idle
    obtain ⟨one, rfl, kept⟩ := deframe_whole idle size least most deframed
    obtain ⟨_, _, got, further⟩ := bind_eq_ok_iff.1 further
    cases got
    obtain rfl : after = between := by
      split at further
      · cases further
        rfl
      · cases further
    refine ⟨held, ?_, ?_⟩
    · rw [kept]
      exact idle
    · rw [kept, same]
      exact steady.limit

theorem arm {new : DirectionKeys} (steady : inbound.Steady)
    (armed : inbound.arm new = .ok after) : after.Steady := by
  obtain ⟨protection, created, rfl⟩ := arm_ok armed
  have regular := (Protection.create_regular created).1
  exact ⟨⟨some protection, _, regular, .fresh (arm_free armed)⟩, steady.idle, steady.limit⟩

theorem activate (steady : inbound.Steady) : inbound.activateCompression.Steady :=
  ⟨steady.holds, steady.idle, steady.limit⟩

/-- What the server has sent is refused for what it is, or because it was changed. -/
theorem next_raises (steady : inbound.Steady) :
    RaisesAt (fun error => error.Tampered ∨ Ordinary error) inbound Inbound.next := by
  intro error failed refused
  rcases next_error refused with ⟨opener, unopened⟩ | ⟨packet, opener, _, opening, unpacked⟩
  · obtain ⟨keys, unread, regular, holds⟩ := steady.holds
    exact Opener.next_fails regular holds unopened
  · obtain ⟨⟨size, least, most⟩, -⟩ := steady.opened opening
    have idle : ({ inbound with opener } : Inbound).deframer.pending = [] := steady.idle
    exact .inr (unpack_whole idle size least most error _ unpacked)

end Steady

end Inbound

end SecureShell
