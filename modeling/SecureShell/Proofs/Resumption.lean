import SecureShell.Pipeline.Inbound
import SecureShell.Proofs.Overlooking
import SecureShell.Identification

/-! Readers that stop where the bytes run out go on from there: bytes that arrive
later are treated as if they had been there before. This holds of the opener, which
keeps a decrypted block across the gap, of the inbound pipeline and of the reader
of lines. -/
namespace SecureShell

namespace Opener

variable {opener opener' : Opener} {head : PacketHead}

theorem nextHead_short (free : opener.head = none)
    (short : opener.buffer.length < opener.blockSize) :
    nextHead opener = .ok none opener := by
  simp only [nextHead, free, if_pos short]

theorem nextHead_none (h : nextHead opener = .ok none opener') :
    opener' = opener ∧ opener.head = none ∧ opener.buffer.length < opener.blockSize := by
  unfold nextHead at h
  split at h
  · cases h
  · rename_i free
    split at h
    · rename_i short
      cases h
      exact ⟨rfl, free, short⟩
    · dsimp only at h
      split at h
      · cases h
      · split at h <;> cases h

theorem nextHead_held (held : opener.head = some head) :
    nextHead opener = .ok (some head) opener := by
  simp only [nextHead, held]

theorem nextHead_some (h : nextHead opener = .ok (some head) opener') :
    opener'.head = some head := by
  unfold nextHead at h
  split at h
  · rename_i held
    cases h
    exact held
  · split at h
    · cases h
    · dsimp only at h
      split at h
      · cases h
      · split at h <;> cases h
        rfl

theorem nextBody_short
    (short : opener.buffer.length < 4 + head.length - head.bytes.length + opener.tagSize) :
    nextBody head opener = .ok none opener := by
  simp only [nextBody, if_pos short]

theorem nextBody_none (h : nextBody head opener = .ok none opener') : opener' = opener := by
  unfold nextBody at h
  dsimp only at h
  split at h
  · cases h
    rfl
  · split at h
    · cases h
    · split at h <;> cases h

theorem next_of_head (h : nextHead opener = .ok (some head) opener') :
    next opener = nextBody head opener' := by
  simp only [next, bind_apply, h]

variable (later : Bytes)

@[simp] theorem feed_head : (opener.feed later).head = opener.head := rfl

@[simp] theorem feed_keys : (opener.feed later).keys = opener.keys := rfl

@[simp] theorem feed_sequence : (opener.feed later).sequence = opener.sequence := rfl

@[simp] theorem feed_buffer : (opener.feed later).buffer = opener.buffer ++ later := rfl

@[simp] theorem feed_blockSize : (opener.feed later).blockSize = opener.blockSize := rfl

@[simp] theorem feed_tagSize : (opener.feed later).tagSize = opener.tagSize := rfl

theorem feed_feed (data : Bytes) : (opener.feed data).feed later = opener.feed (data ++ later) := by
  simp only [feed, List.append_assoc]

/-- The first block is taken as soon as it is there, whatever follows it. -/
theorem nextHead_feed (ready : nextHead opener ≠ .ok none opener) :
    nextHead (opener.feed later) = mapState (feed later) (nextHead opener) := by
  cases held : opener.head with
  | some head =>
    have heldLater : (opener.feed later).head = some head := held
    rw [nextHead_held held, nextHead_held heldLater, mapState]
  | none =>
    have enough : opener.blockSize ≤ opener.buffer.length :=
      Nat.not_lt.1 fun short => ready (nextHead_short held short)
    have enoughLater : ¬ (opener.buffer ++ later).length < opener.blockSize := by
      rw [List.length_append]
      omega
    simp only [nextHead, feed_head, feed_buffer, feed_blockSize, feed_keys, held,
      if_neg enoughLater, if_neg (Nat.not_lt.2 enough), List.take_append_of_le_length enough,
      List.drop_append_of_le_length enough]
    cases Protection.decrypt opener.keys (opener.buffer.take opener.blockSize) with
    | error error => rfl
    | ok decrypted =>
      have same : (opener.feed later).checkLength (Bytes.toNat (decrypted.1.take 4)) =
          opener.checkLength (Bytes.toNat (decrypted.1.take 4)) := rfl
      simp only [same]
      cases opener.checkLength (Bytes.toNat (decrypted.1.take 4)) <;> rfl

/-- The rest of a packet is taken as soon as it is there, whatever follows it. -/
theorem nextBody_feed (ready : nextBody head opener ≠ .ok none opener) :
    nextBody head (opener.feed later) = mapState (feed later) (nextBody head opener) := by
  have arrived : 4 + head.length - head.bytes.length + opener.tagSize ≤ opener.buffer.length :=
    Nat.not_lt.1 fun short => ready (nextBody_short short)
  have arrivedLater : ¬ (opener.buffer ++ later).length <
      4 + head.length - head.bytes.length + opener.tagSize := by
    rw [List.length_append]
    omega
  have body : 4 + head.length - head.bytes.length ≤ opener.buffer.length := by omega
  have tag : opener.tagSize ≤ (opener.buffer.drop (4 + head.length - head.bytes.length)).length := by
    rw [List.length_drop]
    omega
  simp only [nextBody, feed_buffer, feed_tagSize, feed_keys, feed_sequence, if_neg arrivedLater,
    if_neg (Nat.not_lt.2 arrived), List.take_append_of_le_length body,
    List.drop_append_of_le_length body, List.take_append_of_le_length tag,
    List.drop_append_of_le_length tag]
  cases Protection.decrypt opener.keys (opener.buffer.take (4 + head.length - head.bytes.length)) with
  | error error => rfl
  | ok decrypted =>
    simp only
    cases Protection.verify decrypted.2 opener.sequence (head.bytes ++ decrypted.1) _ <;> rfl

/-- Opening goes on where it stopped. -/
theorem next_feed : next (opener.feed later) =
    match next opener with
    | .ok none stopped => next (stopped.feed later)
    | .ok (some packet) opened => .ok (some packet) (opened.feed later)
    | .error error failed => .error error (failed.feed later) := by
  cases taking : nextHead opener with
  | error error failed =>
    have ready : nextHead opener ≠ .ok none opener := by simp [taking]
    have takingLater := nextHead_feed later ready
    rw [taking] at takingLater
    simp only [mapState] at takingLater
    simp only [next, bind_apply, taking, takingLater]
  | ok found taken =>
    cases found with
    | none =>
      obtain ⟨rfl, -, -⟩ := nextHead_none taking
      simp only [next, bind_apply, taking, pure_apply]
    | some head =>
      have ready : nextHead opener ≠ .ok none opener := by simp [taking]
      have takingLater := nextHead_feed later ready
      rw [taking] at takingLater
      simp only [mapState] at takingLater
      rw [next_of_head taking, next_of_head takingLater]
      cases opening : nextBody head taken with
      | error error failed =>
        have arrived : nextBody head taken ≠ .ok none taken := by simp [opening]
        rw [nextBody_feed later arrived, opening]
        rfl
      | ok packet opened =>
        cases packet with
        | none =>
          obtain rfl := nextBody_none opening
          have kept : opened.head = some head := nextHead_some taking
          have keptLater : (opened.feed later).head = some head := kept
          exact (next_of_head (nextHead_held keptLater)).symm
        | some packet =>
          have arrived : nextBody head taken ≠ .ok none taken := by simp [opening]
          rw [nextBody_feed later arrived, opening]
          rfl

/-- New keys are for the bytes to come, and for those that wait. -/
theorem arm_feed (keys : DirectionKeys) :
    (opener.feed later).arm keys = (opener.arm keys).map (feed later) := by
  cases held : opener.head with
  | some head =>
    simp only [arm, feed_head, held]
    rfl
  | none =>
    simp only [arm, feed_head, held]
    cases Protection.create .decrypt keys <;> rfl

end Opener

namespace Inbound

variable {inbound : Inbound} (later : Bytes)

theorem arm_feed (keys : DirectionKeys) :
    (inbound.feed later).arm keys = (inbound.arm keys).map (feed later) := by
  have opener : (inbound.feed later).opener.arm keys = _ := Opener.arm_feed later keys
  simp only [arm, opener]
  cases inbound.opener.arm keys <;> rfl

theorem feed_feed (data : Bytes) :
    (inbound.feed data).feed later = inbound.feed (data ++ later) := by
  simp only [feed, Opener.feed_feed]

theorem feed_nil (inbound : Inbound) : inbound.feed [] = inbound := by
  simp [feed, Opener.feed]

theorem deframe_overlooks (packet : Bytes) : Overlooks (feed later) (deframe packet) :=
  .bind (.focus (fun _ => rfl) (fun _ _ => rfl)) fun _ => .focus (fun _ => rfl) (fun _ _ => rfl)

theorem unpack_overlooks (packet : Bytes) : Overlooks (feed later) (unpack packet) := by
  refine .bind (deframe_overlooks later packet) ?_
  intro payloads s
  split
  · simp only [bind_apply, get_apply, mapState]
    have same : (s.feed later).deframer = s.deframer := rfl
    simp only [same]
    split <;> rfl
  · rfl

/-- Taking payloads goes on where it stopped. -/
theorem next_feed : next (inbound.feed later) =
    match next inbound with
    | .ok none stopped => next (stopped.feed later)
    | .ok (some payload) taken => .ok (some payload) (taken.feed later)
    | .error error failed => .error error (failed.feed later) := by
  have opening : Opener.next (inbound.feed later).opener = _ := Opener.next_feed later
  cases opened : Opener.next inbound.opener with
  | error error failed =>
    simp only [opened] at opening
    simp only [next, nextPacket, focus, bind_apply, opened, opening]
    rfl
  | ok found opener =>
    simp only [opened] at opening
    cases found with
    | none =>
      simp only [next, nextPacket, focus, bind_apply, opened, opening, pure_apply]
      rfl
    | some packet =>
      have unpacking : unpack packet { inbound.feed later with opener := opener.feed later } =
          mapState (feed later) (unpack packet { inbound with opener }) :=
        unpack_overlooks later packet { inbound with opener }
      simp only [next, nextPacket, focus, bind_apply, opened, opening, unpacking]
      cases unpack packet { inbound with opener } <;> rfl

end Inbound

namespace LineReader

/-- The reader of lines goes on where it stopped. -/
theorem feed_append (reader : LineReader) (data later : Bytes) : feed (data ++ later) reader =
    match feed data reader with
    | .ok none stopped => feed later stopped
    | .ok (some (found, rest)) done => .ok (some (found, rest ++ later)) done
    | .error error failed => .error error failed := by
  induction data generalizing reader with
  | nil => rfl
  | cons byte rest ih =>
    simp only [List.cons_append, feed, bind_apply]
    cases step byte reader with
    | error error failed => rfl
    | ok found stepped =>
      cases found with
      | none => exact ih stepped
      | some found => rfl

end LineReader

end SecureShell
