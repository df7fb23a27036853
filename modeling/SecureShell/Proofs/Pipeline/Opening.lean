import SecureShell.Proofs.Pipeline.Sealing
import SecureShell.Proofs.Resumption

/-! What an opener makes of the bytes in front of it, whoever has sent them. It waits, it
takes a packet whose length can be accepted and whose tag is the one that its bytes call
for, or it fails; that it complains of the tag means that the tag is not that one. -/
namespace SecureShell

/-- An error that speaks of a packet that was changed on its way. -/
def Error.Tampered (error : Error) : Prop := ∃ fault, error = .integrity fault

namespace Protection

/-- The tag that a packet must have; without keys there is none. -/
def tagOf (keys : Option Protection) (sequence : UInt32) (packet : Bytes) : Bytes :=
  match keys with
  | none => []
  | some keys => keys.mac.tag sequence packet

/-- Its cipher, if there is one, deals in blocks of one length. -/
def Regular (keys : Option Protection) : Prop := ∀ found, keys = some found → found.cipher.Regular

/-- Keys of the same algorithms, with the same key for the tags. -/
structure Alike (keys after : Option Protection) : Prop where
  armed : after.isSome = keys.isSome
  blockSize : blockSize after = blockSize keys
  tagSize : tagSize after = tagSize keys
  tagOf : ∀ sequence packet, tagOf after sequence packet = tagOf keys sequence packet
  verify : ∀ sequence packet tag, verify after sequence packet tag = verify keys sequence packet tag

variable {keys between after : Option Protection} {data out first second head rest : Bytes}

theorem regular_none : Regular none := fun _ impossible => nomatch impossible

theorem create_regular {operation : Operation} {new : DirectionKeys} {protection : Protection}
    (created : create operation new = .ok protection) :
    Regular (some protection) ∧ protection.cipher.algorithm = new.cipher ∧
      protection.mac = ⟨new.mac, new.integrity⟩ := by
  obtain ⟨cipher, made, created⟩ := exceptBind_eq_ok_iff.1 created
  obtain ⟨mac, tagging, created⟩ := exceptBind_eq_ok_iff.1 created
  cases created
  obtain ⟨regular, algorithm⟩ := CipherContext.create_regular made
  refine ⟨?_, algorithm, ?_⟩
  · rintro found ⟨⟩
    exact regular
  · unfold MacKey.create at tagging
    split at tagging
    · exact (Except.ok.inj tagging).symm
    · cases tagging

theorem Alike.refl (keys : Option Protection) : Alike keys keys :=
  ⟨rfl, rfl, rfl, fun _ _ => rfl, fun _ _ _ => rfl⟩

theorem Alike.trans (first : Alike keys between) (second : Alike between after) :
    Alike keys after where
  armed := second.armed.trans first.armed
  blockSize := second.blockSize.trans first.blockSize
  tagSize := second.tagSize.trans first.tagSize
  tagOf sequence packet := (second.tagOf sequence packet).trans (first.tagOf sequence packet)
  verify sequence packet tag :=
    (second.verify sequence packet tag).trans (first.verify sequence packet tag)

@[simp] theorem length_tagOf (keys : Option Protection) (sequence : UInt32) (packet : Bytes) :
    (tagOf keys sequence packet).length = tagSize keys := by
  cases keys with
  | none => rfl
  | some keys => exact MacKey.length_tag ..

/-- Decrypting keeps lengths, and the keys but for the chain. -/
theorem decrypt_ok (regular : Regular keys) (h : decrypt keys data = .ok (out, after)) :
    out.length = data.length ∧ Regular after ∧ Alike keys after := by
  cases keys with
  | none =>
    cases h
    exact ⟨rfl, regular_none, .refl none⟩
  | some keys =>
    simp only [decrypt] at h
    split at h
    · rename_i decrypted cipher applied
      cases h
      obtain ⟨length, regularAfter, algorithm⟩ := (regular keys rfl).applied applied
      refine ⟨length, ?_, rfl, ?_, rfl, fun _ _ => rfl, fun _ _ _ => rfl⟩
      · rintro found ⟨⟩
        exact regularAfter
      · rw [blockSize_some, blockSize_some, CipherContext.blockSize, algorithm,
          CipherContext.blockSize]
    · cases h

theorem decrypt_total (data : Bytes) (regular : Regular keys)
    (aligned : data.length % blockSize keys = 0) :
    ∃ out after, decrypt keys data = .ok (out, after) := by
  cases keys with
  | none => exact ⟨data, none, rfl⟩
  | some keys =>
    rw [blockSize_some] at aligned
    obtain ⟨out, cipher, applied, -⟩ := (regular keys rfl).apply aligned
    refine ⟨out, some { keys with cipher }, ?_⟩
    simp only [decrypt, applied]

/-- A block and what follows it can be decrypted one after the other. -/
theorem decrypt_append (regular : Regular keys) (whole : first.length = blockSize keys)
    (hFirst : decrypt keys first = .ok (head, between))
    (hSecond : decrypt between second = .ok (rest, after)) :
    decrypt keys (first ++ second) = .ok (head ++ rest, after) := by
  cases keys with
  | none =>
    cases hFirst
    cases hSecond
    rfl
  | some keys =>
    rw [blockSize_some] at whole
    simp only [decrypt] at hFirst
    split at hFirst
    · rename_i decrypted cipher applied
      cases hFirst
      obtain ⟨-, -, algorithm⟩ := (regular keys rfl).applied applied
      simp only [decrypt] at hSecond
      split at hSecond
      · rename_i decryptedRest last appliedRest
        cases hSecond
        have aligned := CipherContext.aligned_of_apply appliedRest
        rw [CipherContext.blockSize, algorithm] at aligned
        simp only [decrypt, CipherContext.apply_append (CipherContext.aligned_block whole) applied
          aligned appliedRest]
      · cases hSecond
    · cases hFirst

/-- What can be decrypted as a whole can be decrypted in these two parts. -/
theorem decrypt_split (regular : Regular keys) (whole : first.length = blockSize keys)
    (h : decrypt keys (first ++ second) = .ok (out, after)) :
    ∃ head rest between, decrypt keys first = .ok (head, between) ∧
      decrypt between second = .ok (rest, after) ∧ out = head ++ rest := by
  have pos : 0 < blockSize keys := Nat.lt_of_lt_of_le (by decide) (blockSize_ge keys)
  obtain ⟨head, between, hFirst⟩ := decrypt_total first regular
    (by rw [whole, Nat.mod_self])
  obtain ⟨-, regularBetween, alike⟩ := decrypt_ok regular hFirst
  have further : ∃ rest last, decrypt between second = .ok (rest, last) := by
    cases keys with
    | none =>
      cases hFirst
      exact ⟨second, none, rfl⟩
    | some keys =>
      refine decrypt_total _ regularBetween ?_
      simp only [decrypt] at h
      split at h
      · rename_i applied
        have aligned := CipherContext.aligned_of_apply applied
        rwa [← blockSize_some, List.length_append, whole, Nat.add_mod_left, ← alike.blockSize]
          at aligned
      · cases h
  obtain ⟨rest, last, hSecond⟩ := further
  have together := decrypt_append regular whole hFirst hSecond
  rw [h] at together
  cases together
  exact ⟨head, rest, between, hFirst, hSecond, rfl⟩

/-- The tag is checked against the one that is called for. -/
theorem verify_cases (keys : Option Protection) (sequence : UInt32) (packet : Bytes) {tag : Bytes}
    (size : tag.length = tagSize keys) :
    (tag = tagOf keys sequence packet ∧ verify keys sequence packet tag = .ok ()) ∨
      (tag ≠ tagOf keys sequence packet ∧
        ∃ error, verify keys sequence packet tag = .error error ∧ error.Tampered) := by
  cases keys with
  | none => exact .inl ⟨List.length_eq_zero_iff.1 size, rfl⟩
  | some keys =>
    by_cases same : keys.mac.tag sequence packet = tag
    · exact .inl ⟨same.symm, if_pos same⟩
    · exact .inr ⟨fun equal => same equal.symm, _, if_neg same, _, rfl⟩

end Protection

namespace Packet

def declared (packet : Bytes) : Nat := Bytes.toNat (packet.take 4)

/-- A length that can be accepted: neither too small nor too large, and with keys a
packet of this length consists of whole blocks. -/
structure Acceptable (limit : Nat) (keys : Option Protection) (length : Nat) : Prop where
  least : 5 ≤ length
  most : length ≤ limit
  aligned : keys.isSome = true → (4 + length) % Protection.blockSize keys = 0

/-- The bytes of a packet on the wire, without its tag, and what they decrypt to. -/
structure Decrypts (limit : Nat) (keys : Option Protection) (body packet : Bytes)
    (after : Option Protection) : Prop where
  decrypted : Protection.decrypt keys body = .ok (packet, after)
  length : body.length = 4 + declared packet
  acceptable : Acceptable limit keys (declared packet)

/-- The next packet of a stream has a tag that its bytes do not call for. -/
def Forged (limit : Nat) (keys : Option Protection) (number : UInt32) (stream : Bytes) : Prop :=
  ∃ body tag later packet after, stream = body ++ (tag ++ later) ∧
    Decrypts limit keys body packet after ∧ tag.length = Protection.tagSize keys ∧
    tag ≠ Protection.tagOf keys number packet

/-- More bytes are needed before anything can be said of the next packet of a stream. -/
def Waits (limit : Nat) (keys : Option Protection) (stream : Bytes) : Prop :=
  stream.length < Protection.blockSize keys ∨
    ∃ head between,
      Protection.decrypt keys (stream.take (Protection.blockSize keys)) = .ok (head, between) ∧
      Acceptable limit keys (declared head) ∧
      stream.length < 4 + declared head + Protection.tagSize keys

variable {limit : Nat} {keys after : Option Protection} {number : UInt32}
  {body packet stream later : Bytes}

theorem Acceptable.alike {length : Nat} (acceptable : Acceptable limit after length)
    (alike : Protection.Alike keys after) : Acceptable limit keys length where
  least := acceptable.least
  most := acceptable.most
  aligned := by
    rw [← alike.armed, ← alike.blockSize]
    exact acceptable.aligned

/-- A packet has at least one block. -/
theorem Acceptable.blockSize_le {length : Nat} (acceptable : Acceptable limit keys length) :
    Protection.blockSize keys ≤ 4 + length := by
  have least := acceptable.least
  cases armed : keys with
  | none =>
    have eight : Protection.blockSize none = 8 := rfl
    omega
  | some found =>
    have aligned := acceptable.aligned (by rw [armed]; rfl)
    rw [armed] at aligned
    exact Nat.le_of_dvd (by omega) (Nat.dvd_of_mod_eq_zero aligned)

/-- The first block shows the length. -/
theorem Decrypts.head (regular : Protection.Regular keys)
    (decrypts : Decrypts limit keys body packet after) :
    Protection.blockSize keys ≤ body.length ∧
      ∃ head between,
        Protection.decrypt keys (body.take (Protection.blockSize keys)) = .ok (head, between) ∧
        declared head = declared packet := by
  have ge := Protection.blockSize_ge keys
  have enough : Protection.blockSize keys ≤ body.length := by
    rw [decrypts.length]
    exact decrypts.acceptable.blockSize_le
  have whole : (body.take (Protection.blockSize keys)).length = Protection.blockSize keys := by
    rw [List.length_take, Nat.min_eq_left enough]
  have decrypted := decrypts.decrypted
  rw [← List.take_append_drop (Protection.blockSize keys) body] at decrypted
  obtain ⟨head, rest, between, hFirst, -, rfl⟩ := Protection.decrypt_split regular whole decrypted
  have size := (Protection.decrypt_ok regular hFirst).1
  refine ⟨enough, head, between, hFirst, ?_⟩
  rw [declared, declared, List.take_append_of_le_length (by omega)]

/-- A stream begins with one packet at most. -/
theorem Decrypts.unique {body' packet' later' : Bytes} {after' : Option Protection}
    (regular : Protection.Regular keys) (first : Decrypts limit keys body packet after)
    (second : Decrypts limit keys body' packet' after') (same : body ++ later = body' ++ later') :
    body = body' ∧ packet = packet' ∧ later = later' := by
  obtain ⟨enough, head, between, hFirst, shown⟩ := first.head regular
  obtain ⟨enough', head', between', hSecond, shown'⟩ := second.head regular
  have front := congrArg (List.take (Protection.blockSize keys)) same
  rw [List.take_append_of_le_length enough, List.take_append_of_le_length enough'] at front
  rw [front, hSecond] at hFirst
  cases hFirst
  have size : body.length = body'.length := by rw [first.length, second.length, ← shown, ← shown']
  obtain ⟨rfl, rfl⟩ := List.append_inj same size
  have decrypted := first.decrypted
  rw [second.decrypted] at decrypted
  cases decrypted
  exact ⟨rfl, rfl, rfl⟩

theorem Decrypts.not_forged (regular : Protection.Regular keys)
    (decrypts : Decrypts limit keys body packet after) :
    ¬ Forged limit keys number (body ++ (Protection.tagOf keys number packet ++ later)) := by
  rintro ⟨body', tag', later', packet', after', same, decrypts', size, differs⟩
  obtain ⟨rfl, rfl, behind⟩ := decrypts.unique regular decrypts' same
  refine differs (List.append_inj behind ?_).1.symm
  rw [Protection.length_tagOf, size]

/-- A packet of a length that cannot be accepted is not forged. -/
theorem not_forged_of_length (regular : Protection.Regular keys) {head : Bytes}
    {between : Option Protection} (enough : Protection.blockSize keys ≤ stream.length)
    (hFirst : Protection.decrypt keys (stream.take (Protection.blockSize keys)) =
      .ok (head, between))
    (refused : ¬ Acceptable limit keys (declared head)) : ¬ Forged limit keys number stream := by
  rintro ⟨body, tag, later, packet, after, rfl, decrypts, -⟩
  obtain ⟨long, shown, between', hShown, same⟩ := decrypts.head regular
  rw [List.take_append_of_le_length long, hShown] at hFirst
  cases hFirst
  rw [same] at refused
  exact refused decrypts.acceptable

end Packet

namespace Opener

variable {opener opener' : Opener} {keys : Option Protection} {unread first : Bytes}
  {head : PacketHead}

/-- Has decrypted the first block of a packet, which was `first` on the wire. -/
structure Begun (opener : Opener) (keys : Option Protection) (first : Bytes) (head : PacketHead) :
    Prop where
  held : opener.head = some head
  block : first.length = Protection.blockSize keys
  decrypted : Protection.decrypt keys first = .ok (head.bytes, opener.keys)
  length : head.length = Packet.declared head.bytes
  acceptable : Packet.Acceptable opener.limit keys head.length

/-- The bytes in front of an opener as they arrived, and the keys for them. -/
inductive Holds (opener : Opener) : Option Protection → Bytes → Prop where
  | fresh : opener.head = none → Holds opener opener.keys opener.buffer
  | begun {keys : Option Protection} {first : Bytes} {head : PacketHead} :
      opener.Begun keys first head → Holds opener keys (first ++ opener.buffer)

theorem Holds.feed (holds : opener.Holds keys unread) (data : Bytes) :
    (opener.feed data).Holds keys (unread ++ data) := by
  cases holds with
  | fresh free => exact .fresh free
  | begun begun =>
    rw [List.append_assoc]
    exact .begun ⟨begun.held, begun.block, begun.decrypted, begun.length, begun.acceptable⟩

theorem checkLength_eq_ok_iff {length : Nat} :
    opener.checkLength length = .ok () ↔ Packet.Acceptable opener.limit opener.keys length := by
  have armed : opener.armed = opener.keys.isSome := rfl
  have size : opener.blockSize = Protection.blockSize opener.keys := rfl
  have small : 1 + Packet.minPadding = 5 := rfl
  simp only [checkLength, armed, size, small, bind, Except.bind, pure, Except.pure, throw, throwThe,
    MonadExceptOf.throw]
  constructor
  · intro passed
    split at passed
    · cases passed
    rename_i most
    split at passed
    · cases passed
    rename_i least
    split at passed
    · cases passed
    rename_i aligned
    refine ⟨by omega, by omega, ?_⟩
    intro some
    exact Decidable.byContradiction fun misaligned => aligned ⟨some, misaligned⟩
  · rintro ⟨least, most, aligned⟩
    rw [if_neg (by omega), if_neg (by omega), if_neg]
    rintro ⟨some, misaligned⟩
    exact misaligned (aligned some)

/-- All that can come of the first block. -/
theorem nextHead_cases (regular : Protection.Regular keys) (holds : opener.Holds keys unread) :
    (nextHead opener = .ok none opener ∧ unread.length < Protection.blockSize keys) ∨
      (∃ first head taken, nextHead opener = .ok (some head) taken ∧ taken.Begun keys first head ∧
        unread = first ++ taken.buffer ∧ taken.sequence = opener.sequence ∧
        taken.limit = opener.limit) ∨
      ∃ fault failed head between, nextHead opener = .error (.protocol fault) failed ∧
        opener.checkLength (Packet.declared head) = .error fault ∧
        Protection.blockSize keys ≤ unread.length ∧
        Protection.decrypt keys (unread.take (Protection.blockSize keys)) = .ok (head, between) ∧
        ¬ Packet.Acceptable opener.limit keys (Packet.declared head) := by
  cases holds with
  | begun begun => exact .inr (.inl ⟨_, _, opener, nextHead_held begun.held, begun, rfl, rfl, rfl⟩)
  | fresh free =>
    have size : opener.blockSize = Protection.blockSize opener.keys := rfl
    by_cases short : opener.buffer.length < opener.blockSize
    · exact .inl ⟨nextHead_short free short, short⟩
    have whole : (opener.buffer.take opener.blockSize).length = opener.blockSize := by
      rw [List.length_take, Nat.min_eq_left (Nat.not_lt.1 short)]
    obtain ⟨bytes, between, decrypted⟩ :=
      Protection.decrypt_total (opener.buffer.take opener.blockSize) regular
        (by rw [whole, size, Nat.mod_self])
    obtain ⟨-, -, alike⟩ := Protection.decrypt_ok regular decrypted
    cases checked : opener.checkLength (Bytes.toNat (bytes.take 4)) with
    | ok _ =>
      refine .inr (.inl ⟨opener.buffer.take opener.blockSize, ⟨bytes, Bytes.toNat (bytes.take 4)⟩,
        { opener with
          buffer := opener.buffer.drop opener.blockSize, keys := between
          head := some ⟨bytes, Bytes.toNat (bytes.take 4)⟩ }, ?_,
        ⟨rfl, whole, decrypted, rfl, checkLength_eq_ok_iff.1 checked⟩,
        (List.take_append_drop ..).symm, rfl, rfl⟩)
      simp only [nextHead, free, if_neg short, decrypted, checked]
    | error fault =>
      refine .inr (.inr ⟨fault, { opener with
        buffer := opener.buffer.drop opener.blockSize, keys := between }, bytes, between, ?_,
        checked, Nat.not_lt.1 short, decrypted, ?_⟩)
      · simp only [nextHead, free, if_neg short, decrypted, checked]
      · intro acceptable
        have passed : opener.checkLength (Bytes.toNat (bytes.take 4)) = .ok () :=
          checkLength_eq_ok_iff.2 acceptable
        rw [checked] at passed
        cases passed

/-- The rest of a packet that has arrived can be decrypted. -/
theorem Begun.rest (regular : Protection.Regular keys) (begun : opener.Begun keys first head)
    (arrived : 4 + head.length - head.bytes.length ≤ opener.buffer.length) :
    ∃ bytes after,
      Protection.decrypt opener.keys
        (opener.buffer.take (4 + head.length - head.bytes.length)) = .ok (bytes, after) ∧
      Packet.Decrypts opener.limit keys
        (first ++ opener.buffer.take (4 + head.length - head.bytes.length))
        (head.bytes ++ bytes) after ∧
      ∀ sequence packet tag, Protection.verify after sequence packet tag =
        Protection.verify keys sequence packet tag := by
  obtain ⟨-, block, decrypted, length, acceptable⟩ := begun
  obtain ⟨headLength, regularBetween, alike⟩ := Protection.decrypt_ok regular decrypted
  have ge := Protection.blockSize_ge keys
  have long := acceptable.blockSize_le
  have whole : (opener.buffer.take (4 + head.length - head.bytes.length)).length =
      4 + head.length - head.bytes.length := by
    rw [List.length_take, Nat.min_eq_left arrived]
  have rest : ∃ bytes after, Protection.decrypt opener.keys
      (opener.buffer.take (4 + head.length - head.bytes.length)) = .ok (bytes, after) := by
    cases armed : keys with
    | none =>
      rw [armed] at decrypted
      have unarmed : opener.keys = none := (congrArg Prod.snd (Except.ok.inj decrypted)).symm
      rw [unarmed]
      exact ⟨_, none, rfl⟩
    | some found =>
      refine Protection.decrypt_total _ regularBetween ?_
      have aligned := acceptable.aligned (by rw [armed]; rfl)
      have parts : 4 + head.length =
          Protection.blockSize keys + (4 + head.length - head.bytes.length) := by omega
      rwa [parts, Nat.add_mod_left, ← alike.blockSize, ← whole] at aligned
  obtain ⟨bytes, after, decryptedRest⟩ := rest
  obtain ⟨-, -, alikeAfter⟩ := Protection.decrypt_ok regularBetween decryptedRest
  have shown : Packet.declared (head.bytes ++ bytes) = head.length := by
    rw [length, Packet.declared, List.take_append_of_le_length (by omega), Packet.declared]
  refine ⟨bytes, after, decryptedRest,
    ⟨Protection.decrypt_append regular block decrypted decryptedRest, ?_, ?_⟩, ?_⟩
  · rw [shown, List.length_append, whole]
    omega
  · rw [shown]
    exact acceptable
  · intro sequence packet tag
    rw [alikeAfter.verify, alike.verify]

/-- All that can come of the rest of a packet. -/
theorem nextBody_cases (regular : Protection.Regular keys) (begun : opener.Begun keys first head) :
    (nextBody head opener = .ok none opener ∧
        (first ++ opener.buffer).length < 4 + head.length + Protection.tagSize keys) ∨
      ∃ body tag rest packet after,
        first ++ opener.buffer = body ++ (tag ++ rest) ∧
        Packet.Decrypts opener.limit keys body packet after ∧
        tag.length = Protection.tagSize keys ∧
        ((tag = Protection.tagOf keys opener.sequence packet ∧
            nextBody head opener = .ok (some packet) { opener with
              keys := after, sequence := opener.sequence + 1, head := none, buffer := rest }) ∨
          (tag ≠ Protection.tagOf keys opener.sequence packet ∧
            ∃ error failed, nextBody head opener = .error error failed ∧ error.Tampered)) := by
  obtain ⟨headLength, -, alike⟩ := Protection.decrypt_ok regular begun.decrypted
  have tagSize : opener.tagSize = Protection.tagSize keys := alike.tagSize
  have long := begun.acceptable.blockSize_le
  have block := begun.block
  by_cases short : opener.buffer.length < 4 + head.length - head.bytes.length + opener.tagSize
  · refine .inl ⟨nextBody_short short, ?_⟩
    rw [List.length_append]
    omega
  -- the packet is there: what is left of it is decrypted, and then the tag is looked at
  obtain ⟨bytes, after, decrypted, decrypts, checking⟩ := begun.rest regular (by omega)
  have size : ((opener.buffer.drop (4 + head.length - head.bytes.length)).take
      opener.tagSize).length = Protection.tagSize keys := by
    rw [List.length_take, List.length_drop, ← tagSize]
    exact Nat.min_eq_left (by omega)
  refine .inr ⟨_, (opener.buffer.drop (4 + head.length - head.bytes.length)).take opener.tagSize,
    (opener.buffer.drop (4 + head.length - head.bytes.length)).drop opener.tagSize, _, after, ?_,
    decrypts, size, ?_⟩
  · rw [List.take_append_drop, List.append_assoc, List.take_append_drop]
  rcases Protection.verify_cases keys opener.sequence (head.bytes ++ bytes) size with
    ⟨same, passed⟩ | ⟨differs, error, refused, tampered⟩
  · refine .inl ⟨same, ?_⟩
    rw [← checking] at passed
    simp only [nextBody, if_neg short, decrypted, passed]
  · rw [← checking] at refused
    refine .inr ⟨differs, error, { opener with
      keys := after, sequence := opener.sequence + 1, head := none
      buffer := (opener.buffer.drop (4 + head.length - head.bytes.length)).drop opener.tagSize },
      ?_, tampered⟩
    simp only [nextBody, if_neg short, decrypted, refused]

/-- All that can come of the bytes in front of an opener. -/
theorem next_cases (regular : Protection.Regular keys) (holds : opener.Holds keys unread) :
    (∃ stopped, next opener = .ok none stopped ∧ stopped.Holds keys unread ∧
        stopped.sequence = opener.sequence ∧ stopped.limit = opener.limit ∧
        Packet.Waits opener.limit keys unread) ∨
      (∃ body rest packet after taken,
        unread = body ++ (Protection.tagOf keys opener.sequence packet ++ rest) ∧
        Packet.Decrypts opener.limit keys body packet after ∧
        next opener = .ok (some packet) taken ∧
        taken = { opener with
          keys := after, sequence := opener.sequence + 1, head := none, buffer := rest }) ∨
      ∃ error failed, next opener = .error error failed ∧
        ∀ more, error.Tampered ↔
          Packet.Forged opener.limit keys opener.sequence (unread ++ more) := by
  rcases nextHead_cases regular holds with ⟨none, short⟩ |
    ⟨first, head, taken, some, begun, rfl, sequence, limit⟩ |
    ⟨fault, failed, head, between, refused, -, enough, decrypted, faulty⟩
  · refine .inl ⟨opener, ?_, holds, rfl, rfl, .inl short⟩
    simp only [next, bind_apply, none, pure_apply]
  · rw [next_of_head some, ← sequence, ← limit]
    rcases nextBody_cases regular begun with ⟨none, short⟩ |
      ⟨body, tag, rest, packet, after, split, decrypts, size, ⟨same, found⟩ |
        ⟨differs, error, failed, refused, tampered⟩⟩
    · refine .inl ⟨taken, none, .begun begun, rfl, rfl, .inr ⟨head.bytes, taken.keys, ?_, ?_, ?_⟩⟩
      · rw [← begun.block, List.take_left]
        exact begun.decrypted
      · rw [← begun.length]
        exact begun.acceptable
      · rw [← begun.length]
        exact short
    · refine .inr (.inl ⟨body, rest, packet, after, _, ?_, decrypts, found, ?_⟩)
      · rw [split, same]
      · rw [sequence, limit]
    · refine .inr (.inr ⟨error, failed, refused, ?_⟩)
      intro more
      refine ⟨fun _ => ⟨body, tag, rest ++ more, packet, after, ?_, decrypts, size, differs⟩,
        fun _ => tampered⟩
      rw [split, List.append_assoc, List.append_assoc]
  · refine .inr (.inr ⟨.protocol fault, failed, ?_, ?_⟩)
    · simp only [next, bind_apply, refused]
    · intro more
      constructor
      · rintro ⟨fault, impossible⟩
        cases impossible
      · intro forged
        have long : Protection.blockSize keys ≤ (unread ++ more).length := by
          rw [List.length_append]
          omega
        have same : (unread ++ more).take (Protection.blockSize keys) = _ :=
          List.take_append_of_le_length enough
        rw [← same] at decrypted
        exact absurd forged (Packet.not_forged_of_length regular long decrypted faulty)

/-- An opener that asks for more bytes has kept those it has. -/
theorem next_waits {stopped : Opener} (regular : Protection.Regular keys)
    (holds : opener.Holds keys unread) (found : next opener = .ok none stopped) :
    stopped.Holds keys unread ∧ stopped.sequence = opener.sequence ∧
      stopped.limit = opener.limit ∧ Packet.Waits opener.limit keys unread := by
  rcases next_cases regular holds with
    ⟨_, none, held⟩ | ⟨_, _, _, _, _, _, _, some, -⟩ | ⟨_, _, refused, -⟩
  · rw [none] at found
    cases found
    exact held
  · rw [some] at found
    cases found
  · rw [refused] at found
    cases found

/-- A packet that is taken stands at the front, with the tag that its bytes call for. -/
theorem next_takes {packet : Bytes} {taken : Opener} (regular : Protection.Regular keys)
    (holds : opener.Holds keys unread) (found : next opener = .ok (some packet) taken) :
    ∃ body rest after,
      unread = body ++ (Protection.tagOf keys opener.sequence packet ++ rest) ∧
      Packet.Decrypts opener.limit keys body packet after ∧
      taken = { opener with
        keys := after, sequence := opener.sequence + 1, head := none, buffer := rest } := by
  rcases next_cases regular holds with
    ⟨_, none, -⟩ | ⟨body, rest, _, after, _, split, decrypts, some, same⟩ | ⟨_, _, refused, -⟩
  · rw [none] at found
    cases found
  · rw [some] at found
    cases found
    exact ⟨body, rest, after, split, decrypts, same⟩
  · rw [refused] at found
    cases found

/-- An opener complains of the tag when the packet is forged, whatever follows it. -/
theorem next_refuses {error : Error} {failed : Opener} (regular : Protection.Regular keys)
    (holds : opener.Holds keys unread) (found : next opener = .error error failed) (more : Bytes) :
    error.Tampered ↔ Packet.Forged opener.limit keys opener.sequence (unread ++ more) := by
  rcases next_cases regular holds with
    ⟨_, none, -⟩ | ⟨_, _, _, _, _, _, _, some, -⟩ | ⟨_, _, refused, why⟩
  · rw [none] at found
    cases found
  · rw [some] at found
    cases found
  · rw [refused] at found
    cases found
    exact why more

/-- Behind a packet nothing of the next one has been taken. -/
theorem next_free {packet : Bytes} (h : next opener = .ok (some packet) opener') :
    opener'.head = none := by
  obtain ⟨found, taken, -, h⟩ := bind_eq_ok_iff.1 h
  cases found with
  | none => cases h
  | some head =>
    simp only [nextBody] at h
    split at h
    · cases h
    · split at h
      · cases h
      · split at h
        · cases h
        · cases h
          rfl

end Opener

namespace Inbound

variable {inbound after : Inbound} {packet payload : Bytes} {error : Error}

/-- Unpacking has nothing to do with what has arrived. -/
theorem unpack_opener (unpacked : unpack packet inbound = .ok payload after) :
    after.opener = inbound.opener := by
  obtain ⟨payloads, deframed, hDeframed, unpacked⟩ := bind_eq_ok_iff.1 unpacked
  obtain ⟨packets, between, hFed, hInflated⟩ := bind_eq_ok_iff.1 hDeframed
  obtain ⟨_, _, rfl⟩ := focus_eq_ok_iff.1 hFed
  obtain ⟨_, _, rfl⟩ := focus_eq_ok_iff.1 hInflated
  split at unpacked
  · obtain ⟨_, _, hGet, unpacked⟩ := bind_eq_ok_iff.1 unpacked
    cases hGet
    split at unpacked
    · cases unpacked
      rfl
    · cases unpacked
  · cases unpacked

theorem next_none (h : next inbound = .ok none after) :
    ∃ opener, Opener.next inbound.opener = .ok none opener ∧ after = { inbound with opener } := by
  obtain ⟨found, opened, hOpened, h⟩ := bind_eq_ok_iff.1 h
  obtain ⟨opener, hNext, rfl⟩ := focus_eq_ok_iff.1 hOpened
  cases found with
  | none =>
    cases h
    exact ⟨opener, hNext, rfl⟩
  | some packet =>
    obtain ⟨_, _, -, h⟩ := bind_eq_ok_iff.1 h
    cases h

theorem next_some (h : next inbound = .ok (some payload) after) :
    ∃ packet opener, Opener.next inbound.opener = .ok (some packet) opener ∧
      unpack packet { inbound with opener } = .ok payload after ∧ after.opener = opener := by
  obtain ⟨found, opened, hOpened, h⟩ := bind_eq_ok_iff.1 h
  obtain ⟨opener, hNext, rfl⟩ := focus_eq_ok_iff.1 hOpened
  cases found with
  | none => cases h
  | some packet =>
    obtain ⟨_, _, unpacked, h⟩ := bind_eq_ok_iff.1 h
    cases h
    exact ⟨packet, opener, hNext, unpacked, unpack_opener unpacked⟩

/-- A packet cannot be opened, or an opened packet not be unpacked. -/
theorem next_error (h : next inbound = .error error after) :
    (∃ opener, Opener.next inbound.opener = .error error opener) ∨
      ∃ packet opener failed, Opener.next inbound.opener = .ok (some packet) opener ∧
        unpack packet { inbound with opener } = .error error failed := by
  rcases bind_eq_error_iff.1 h with h | ⟨found, opened, hOpened, h⟩
  · obtain ⟨opener, hNext, -⟩ := focus_eq_error_iff.1 h
    exact .inl ⟨opener, hNext⟩
  · obtain ⟨opener, hNext, rfl⟩ := focus_eq_ok_iff.1 hOpened
    cases found with
    | none => cases h
    | some packet =>
      rcases bind_eq_error_iff.1 h with h | ⟨_, _, _, h⟩
      · exact .inr ⟨packet, opener, after, hNext, h⟩
      · cases h

/-- Keys that were accepted are those of the next packet, and nothing else changes. -/
theorem arm_ok {new : DirectionKeys} (armed : inbound.arm new = .ok after) :
    ∃ protection, Protection.create .decrypt new = .ok protection ∧
      after = { inbound with opener := { inbound.opener with keys := some protection } } := by
  obtain ⟨opener, arming, armed⟩ := exceptBind_eq_ok_iff.1 armed
  cases armed
  unfold Opener.arm at arming
  split at arming
  · cases arming
  · obtain ⟨protection, created, arming⟩ := exceptBind_eq_ok_iff.1 arming
    cases arming
    exact ⟨protection, created, rfl⟩

theorem arm_free {new : DirectionKeys} (armed : inbound.arm new = .ok after) :
    inbound.opener.head = none := by
  obtain ⟨opener, arming, -⟩ := exceptBind_eq_ok_iff.1 armed
  unfold Opener.arm at arming
  split at arming
  · cases arming
  · rename_i free
    exact Option.not_isSome_iff_eq_none.1 free

/-- Where more bytes are needed, asking again changes nothing. -/
theorem next_again (h : next inbound = .ok none after) : next after = .ok none after := by
  have again : next (inbound.feed []) = _ := next_feed []
  rw [h] at again
  simpa only [feed_nil, h] using again.symm

end Inbound

end SecureShell
