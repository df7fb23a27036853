import SecureShell.Compression
import SecureShell.Focus
import SecureShell.Proofs.Zlib.Inflater

/-! Inflating payloads through a buffer. Whether a payload is accepted, and what comes out of
it, is settled by the bytes of the stream and by the limit alone: the size of the buffer
shows nowhere. This is so for every library whose calls give nothing only where there is
nothing more to give, and for the one that is used. -/
namespace SecureShell

open Zlib

namespace Inflation

variable {σ : Type} {library : Inflation σ} {origin stream : σ}

/-- What a library is relied on for, from some state on. The bytes of a stream have a
meaning of their own; every call gives a next piece of it, and fails only at an error. A
call may give less than there is, but it gives nothing, or tells the end of the stream, only
where all of the input has been decoded without an error. -/
structure Contract (library : Inflation σ) (origin : σ) where
  /-- All that bytes decode to. -/
  output : Bytes → Bytes
  /-- Is there an error in the bytes? -/
  Corrupt : Bytes → Prop
  /-- What of the bytes lies behind the end of the stream. -/
  behind : Bytes → Bytes
  /-- So many of the bytes have been taken, and so much has been given. -/
  Within : σ → (taken : Bytes) → (given : Nat) → Prop
  within_origin : Within origin [] 0
  fails : ∀ {stream taken given space input after}, Within stream taken given → 0 < space →
    library.inflate stream space input = (none, after) → Corrupt (taken ++ input)
  gives : ∀ {stream taken given space input bytes rest after}, Within stream taken given →
    0 < space → library.inflate stream space input = (some (bytes, rest), after) →
    ∃ part, input = part ++ rest ∧ Within after (taken ++ part) (given + bytes.length) ∧
      bytes <+: (output (taken ++ input)).drop given ∧
      (bytes = [] ∨ library.ended after = true → ¬ Corrupt (taken ++ input) ∧
        (output (taken ++ input)).length = given + bytes.length ∧ behind (taken ++ input) = rest)

namespace Contract

/-- The bytes are accepted where so much has been given and there is room for so much more. -/
structure Admits (contract : library.Contract origin) (whole : Bytes) (given room : Nat) : Prop where
  healthy : ¬ contract.Corrupt whole
  fits : (contract.output whole).length ≤ given + room
  used : contract.behind whole = []

/-- A stream of which a call has just given the last there was, and taken the last. -/
def Rests (contract : library.Contract origin) (stream : σ) (whole : Bytes) : Prop :=
  ∃ before taken given space input bytes, contract.Within before taken given ∧ 0 < space ∧
    taken ++ input = whole ∧
    library.inflate before space input = (some (bytes, []), stream) ∧
    (bytes = [] ∨ library.ended stream = true)

/-- Collecting gives all that is still to come, exactly if that is accepted. -/
theorem gather_outcome (contract : library.Contract origin) (limit room : Nat) (input : Bytes)
    {scratch given : Nat} {taken : Bytes} (pos : 0 < scratch)
    (within : contract.Within stream taken given) :
    (contract.Admits (taken ++ input) given room ∧
      given ≤ (contract.output (taken ++ input)).length ∧
      ∃ after, Decompressor.gather library scratch limit room stream input =
          (.ok ((contract.output (taken ++ input)).drop given), after) ∧
        contract.Within after (taken ++ input) (contract.output (taken ++ input)).length ∧
        contract.Rests after (taken ++ input)) ∨
    (¬ contract.Admits (taken ++ input) given room ∧
      ∃ fault after, Decompressor.gather library scratch limit room stream input =
        (.error fault, after)) := by
  induction room using Nat.strongRecOn generalizing stream taken input given with
  | _ room ih =>
    rw [Decompressor.gather]
    cases called : library.inflate stream scratch input with
    | mk result after =>
      cases result with
      | none =>
        have corrupt := contract.fails within pos called
        exact .inr ⟨fun admits => admits.healthy corrupt, _, _, rfl⟩
      | some found =>
        obtain ⟨bytes, rest⟩ := found
        obtain ⟨part, rfl, next, ⟨more, piece⟩, last⟩ := contract.gives within pos called
        have total : (contract.output (taken ++ (part ++ rest))).length - given =
            bytes.length + more.length := by
          rw [← List.length_drop, ← piece, List.length_append]
        dsimp only
        by_cases large : room < bytes.length
        · rw [if_pos large]
          exact .inr ⟨fun admits => by have := admits.fits; omega, _, _, rfl⟩
        rw [if_neg large]
        by_cases stops : bytes.length = 0 ∨ library.ended after = true
        · rw [if_pos stops]
          have stops : bytes = [] ∨ library.ended after = true :=
            stops.imp_left List.length_eq_zero_iff.1
          obtain ⟨healthy, length, behind⟩ := last stops
          obtain rfl : more = [] := List.length_eq_zero_iff.1 (by omega)
          rw [List.append_nil] at piece
          cases rest with
          | nil =>
            refine .inl ⟨⟨healthy, by omega, behind⟩, by omega, after, ?_, ?_, ?_⟩
            · rw [← piece]
              rfl
            · rwa [length, List.append_nil]
            · exact ⟨stream, taken, given, scratch, _, bytes, within, pos, rfl, called, stops⟩
          | cons =>
            refine .inr ⟨fun admits => ?_, _, _, rfl⟩
            have used := admits.used
            rw [behind] at used
            cases used
        · rw [if_neg stops]
          obtain ⟨some, -⟩ := not_or.1 stops
          have whole : taken ++ (part ++ rest) = (taken ++ part) ++ rest := by simp
          have onwards : (contract.output (taken ++ (part ++ rest))).drop (given + bytes.length) =
              more := by
            rw [← List.drop_drop, ← piece, List.drop_left]
          have same : contract.Admits (taken ++ (part ++ rest)) (given + bytes.length)
              (room - bytes.length) ↔ contract.Admits (taken ++ (part ++ rest)) given room := by
            constructor
            · exact fun admits => ⟨admits.healthy, by have := admits.fits; omega, admits.used⟩
            · exact fun admits => ⟨admits.healthy, by have := admits.fits; omega, admits.used⟩
          have outcome := ih (room - bytes.length) (by omega) rest next
          rw [← whole, onwards, same] at outcome
          rcases outcome with ⟨admits, less, final, gathered, finalWithin, rests⟩ |
            ⟨refused, fault, final, gathered⟩
          · exact .inl ⟨admits, by omega, final, by rw [gathered, ← piece], finalWithin, rests⟩
          · exact .inr ⟨refused, fault, final, by rw [gathered]⟩

end Contract

end Inflation

namespace Decompressor

open Inflation

variable {σ : Type} {library : Inflation σ}

/-- What comes out of payloads up to the first that is refused, and the decompressor as it
was before that one. -/
def feed (library : Inflation σ) : (payloads : List Bytes) → Decompressor σ →
    List Bytes × Decompressor σ
  | [], d => ([], d)
  | payload :: rest, d =>
    match decompressWith library payload d with
    | .error _ _ => ([], d)
    | .ok bytes after => ((bytes :: (feed library rest after).1), (feed library rest after).2)

structure Within (contract : library.Contract library.start) (limit : Nat) (taken : Bytes)
    (given : Nat) (d : Decompressor σ) : Prop where
  scratch : 0 < d.scratch
  limit : d.limit = limit
  stream : ∃ stream, d.stream = some stream ∧ contract.Within stream taken given

theorem within_create (contract : library.Contract library.start) (scratch limit : Nat) :
    ((create scratch limit σ).activateWith library).Within contract limit [] 0 where
  scratch := Nat.lt_of_lt_of_le (by decide) (Nat.le_max_right scratch 64)
  limit := rfl
  stream := ⟨library.start, rfl, contract.within_origin⟩

section Feeding

variable {contract : library.Contract library.start} {limit given : Nat} {taken : Bytes}
  {d other : Decompressor σ}

/-- A payload is accepted, and inflated to what its bytes mean, exactly if the stream has no
error, does not end before its last byte, and stays within the limit. -/
theorem Within.decompress (within : d.Within contract limit taken given) (payload : Bytes) :
    (contract.Admits (taken ++ payload) given limit ∧
      ∃ bytes after, decompressWith library payload d = .ok bytes after ∧
        bytes = (contract.output (taken ++ payload)).drop given ∧ bytes.length ≤ limit ∧
        after.Within contract limit (taken ++ payload) (given + bytes.length)) ∨
    (¬ contract.Admits (taken ++ payload) given limit ∧
      ∃ fault after, decompressWith library payload d = .error (.protocol fault) after) := by
  obtain ⟨scratch, rfl, stream, running, streamWithin⟩ := within
  rcases contract.gather_outcome d.limit d.limit payload scratch streamWithin with
    ⟨admits, less, after, gathered, next, -⟩ | ⟨refused, fault, after, gathered⟩
  · have fits := admits.fits
    refine .inl ⟨admits, _, { d with stream := some after }, ?_, rfl, ?_, scratch, rfl, after, rfl, ?_⟩
    · simp only [decompressWith, bind_apply, get_apply, running, gathered, set_apply, pure_apply]
    · rw [List.length_drop]
      omega
    · rwa [List.length_drop, Nat.add_sub_cancel' less]
  · refine .inr ⟨refused, fault, { d with stream := some after }, ?_⟩
    simp only [decompressWith, bind_apply, get_apply, running, gathered, set_apply]
    rfl

/-- Two decompressors at the same place of the same stream give the same. -/
theorem Within.feed_eq (one : d.Within contract limit taken given)
    (two : other.Within contract limit taken given) (payloads : List Bytes) :
    (feed library payloads d).1 = (feed library payloads other).1 := by
  induction payloads generalizing d other taken given with
  | nil => rfl
  | cons payload rest ih =>
    rcases one.decompress payload with ⟨admits, bytes, after, done, value, -, next⟩ |
      ⟨refused, fault, after, failed⟩
    · rcases two.decompress payload with ⟨-, same, behind, doneToo, valueToo, -, nextToo⟩ |
        ⟨refused, -⟩
      · obtain rfl : bytes = same := value.trans valueToo.symm
        simp only [feed, done, doneToo, ih next nextToo]
      · exact absurd admits refused
    · rcases two.decompress payload with ⟨admits, -⟩ | ⟨-, faultToo, behind, failedToo⟩
      · exact absurd admits refused
      · simp only [feed, failed, failedToo]

/-- What is accepted stays within the limit, and has been taken to its last byte. -/
theorem Within.feed (within : d.Within contract limit taken given) (payloads : List Bytes) :
    (∀ bytes ∈ (feed library payloads d).1, bytes.length ≤ limit) ∧
      (feed library payloads d).2.Within contract limit
        (taken ++ (payloads.take (feed library payloads d).1.length).flatten)
        (given + (feed library payloads d).1.flatten.length) := by
  induction payloads generalizing d taken given with
  | nil =>
    refine ⟨nofun, ?_⟩
    simpa [feed] using within
  | cons payload rest ih =>
    rcases within.decompress payload with ⟨-, bytes, after, done, -, fits, next⟩ |
      ⟨-, fault, after, failed⟩
    · obtain ⟨bounds, last⟩ := ih next
      simp only [feed, done]
      refine ⟨?_, ?_⟩
      · intro piece member
        rcases List.mem_cons.1 member with rfl | later
        · exact fits
        · exact bounds piece later
      · simpa [Nat.add_assoc] using last
    · simp only [feed, failed]
      refine ⟨nofun, ?_⟩
      simpa using within

end Feeding

end Decompressor

namespace InflateStream

/-- What a call may give: nothing only for a corrupt stream; else the input is taken by the
byte, and no bytes come only if all there was has been delivered. -/
def Inflates (stream : InflateStream) (input : Bytes) :
    Option (Bytes × Bytes) × InflateStream → Prop
  | (none, _) => (stream.inflater.decoder.exhaust (stream.carry ++ toBits input)).1.isCorrupt = true
  | (some (bytes, rest), after) => ∃ taken part, input = part ++ rest ∧ after.carry.length < 8 ∧
      stream.carry ++ toBits part = taken ++ after.carry ∧
      stream.inflater.Gives taken bytes after.inflater ∧
      (bytes = [] → after.inflater.delivered = after.inflater.released ∧
        after.inflater.Settled (after.carry ++ toBits rest))

theorem inflates {stream : InflateStream} {space : Nat} (sound : stream.inflater.Sound)
    (few : stream.carry.length < 8) (pos : 0 < space) (input : Bytes) :
    stream.Inflates input (stream.inflate space input) := by
  rw [inflate]
  dsimp only
  split
  · rename_i corrupt
    rw [Inflates, Decoder.exhaust_stopped (.inr corrupt)]
    exact corrupt
  split
  · rename_i waiting
    obtain ⟨bytes, after, delivered, gives, -, -, length⟩ := sound.deliver space
    rw [delivered]
    refine ⟨[], [], rfl, few, by simp [toBits], gives, ?_⟩
    rintro rfl
    rw [List.length_nil] at length
    omega
  · rename_i caughtUp
    have filled := sound.fill (Nat.le_antisymm sound.delivered (Nat.not_lt.1 caughtUp)) pos []
      (stream.carry ++ toBits input)
    split
    · rename_i failed
      rw [failed] at filled
      exact filled
    · rename_i bytes inflater bits found
      rw [found] at filled
      obtain ⟨taken, given, rfl, split, gives, ended⟩ := filled
      obtain ⟨part, whole, front, back⟩ := exists_part few split
      refine ⟨taken, part, whole, ?_, front, gives, ?_⟩
      · exact Nat.lt_of_le_of_lt (List.length_take_le ..) (Nat.mod_lt _ (by decide))
      · rw [back, List.take_append_drop]
        exact ended

end InflateStream

namespace Zlib

/-- Has taken these bytes from where the decoder was `base`, and given so many of what they
decode to; the bits that it keeps are still to be decoded. -/
structure Within (base : Decoder) (stream : InflateStream) (taken : Bytes) (given : Nat) : Prop where
  sound : stream.inflater.Sound
  few : stream.carry.length < 8
  delivered : stream.inflater.delivered = base.output.size + given
  leads : ∀ more,
    base.exhaust (toBits taken ++ more) = stream.inflater.decoder.exhaust (stream.carry ++ more)

section Calling

variable {base : Decoder} {stream after : InflateStream} {taken part input bytes rest : Bytes}
  {given space : Nat}

theorem Within.exhaust (within : Within base stream taken given) (rest : Bytes) :
    base.exhaust (toBits (taken ++ rest)) =
      stream.inflater.decoder.exhaust (stream.carry ++ toBits rest) := by
  rw [toBits_append, within.leads]

theorem Within.inflate (within : Within base stream taken given) (pos : 0 < space)
    (called : stream.inflate space input = (some (bytes, rest), after)) :
    ∃ part, input = part ++ rest ∧ Within base after (taken ++ part) (given + bytes.length) ∧
      bytes <+: ((base.exhaust (toBits (taken ++ input))).1.output.toList.drop
        base.output.size).drop given ∧
      (bytes = [] ∨ after.inflater.ended = true →
        after.inflater.delivered = after.inflater.released ∧
          after.inflater.Settled (after.carry ++ toBits rest)) := by
  obtain ⟨sound, few, delivered, leads⟩ := within
  have inflates := InflateStream.inflates sound few pos input
  rw [called] at inflates
  obtain ⟨bits, part, rfl, fewer, front, gives, ended⟩ := inflates
  have next : Within base after (taken ++ part) (given + bytes.length) := by
    refine ⟨gives.sound, fewer, ?_, ?_⟩
    · rw [gives.delivered, delivered, Nat.add_assoc]
    · intro more
      rw [toBits_append, List.append_assoc, leads, ← List.append_assoc, front, List.append_assoc,
        gives.leads]
  have piece := gives.ahead _ (Decoder.grows_exhaust (after.carry ++ toBits rest))
  rw [← next.exhaust, List.append_assoc, Inflater.ahead, Inflater.ahead, delivered,
    ← List.drop_drop] at piece
  refine ⟨part, rfl, next, ⟨_, piece.symm⟩, ?_⟩
  rintro (none | atEnd)
  · exact ended none
  · exact gives.sound.settled_of_ended atEnd _

end Calling

/-- What the library that is used can be relied on for. -/
def contract (base : Decoder) : inflation.Contract ⟨.atEnd base, []⟩ where
  output whole := (base.exhaust (toBits whole)).1.output.toList.drop base.output.size
  Corrupt whole := (base.exhaust (toBits whole)).1.isCorrupt = true
  behind whole := whole.drop (whole.length - (base.exhaust (toBits whole)).2.length / 8)
  Within := Within base
  within_origin := ⟨Inflater.atEnd_sound base, Nat.zero_lt_succ 7, rfl, fun _ => rfl⟩
  fails := by
    intro stream taken given space input after within pos called
    have inflates := InflateStream.inflates within.sound within.few pos input
    rw [show stream.inflate space input = (none, after) from called] at inflates
    rw [within.exhaust]
    exact inflates
  gives := by
    intro stream taken given space input bytes rest after within pos called
    obtain ⟨part, rfl, next, piece, ended⟩ := within.inflate pos called
    refine ⟨part, rfl, next, piece, ?_⟩
    intro last
    obtain ⟨caughtUp, settled⟩ := ended last
    have all := next.delivered
    have few := next.few
    rw [← List.append_assoc, next.exhaust, settled.exhaust]
    refine ⟨?_, ?_, ?_⟩
    · rw [settled.healthy]
      decide
    · have released := settled.released
      rw [List.length_drop, Array.length_toList]
      dsimp only
      omega
    · have count : (taken ++ part ++ rest).length - (after.carry ++ toBits rest).length / 8 =
          (taken ++ part).length := by
        simp only [List.length_append, length_toBits]
        omega
      rw [count, List.drop_left]

/-- Short of the end of the stream, the decoder is where the bytes lead it, and no bits are
kept. -/
theorem eq_of_rests {base last : Decoder} {stream : InflateStream} {whole : Bytes}
    (rests : (contract base).Rests stream whole)
    (exhausted : base.exhaust (toBits whole) = (last, [])) (live : last.Live) :
    stream = ⟨.atEnd last, []⟩ := by
  obtain ⟨before, taken, given, space, input, bytes, within, pos, rfl, called, ended⟩ := rests
  obtain ⟨part, rfl, next, -, settles⟩ := Within.inflate within pos called
  obtain ⟨caughtUp, settled⟩ := settles ended
  rw [← List.append_assoc, next.exhaust, settled.exhaust] at exhausted
  obtain ⟨rfl, none⟩ := Prod.mk.inj exhausted
  obtain ⟨none, -⟩ := List.append_eq_nil_iff.1 none
  calc stream
      = ⟨⟨stream.inflater.decoder, stream.inflater.released, stream.inflater.delivered⟩,
          stream.carry⟩ := rfl
    _ = ⟨.atEnd stream.inflater.decoder, []⟩ := by rw [caughtUp, settled.released, none]; rfl

end Zlib

namespace Decompressor

open Inflation

variable {σ : Type} {library : Inflation σ}

/-- Fresh decompressors that are switched on and have the same limit give the same for the
same payloads, whatever the sizes of their steps: the same bytes up to the first payload that
is refused, and that is the same one. What is accepted stays within the limit and has been
taken to its last byte. -/
theorem feed_scratch (contract : library.Contract library.start) (limit : Nat)
    (payloads : List Bytes) (scratch other : Nat) :
    let opened := fun scratch => (create scratch limit σ).activateWith library
    let outputs := (feed library payloads (opened scratch)).1
    outputs = (feed library payloads (opened other)).1 ∧
      (∀ bytes ∈ outputs, bytes.length ≤ limit) ∧
      (feed library payloads (opened scratch)).2.Within contract limit
        (payloads.take outputs.length).flatten outputs.flatten.length := by
  intro opened outputs
  have within : (opened scratch).Within contract limit [] 0 := within_create contract scratch limit
  obtain ⟨bounds, last⟩ := within.feed payloads
  rw [List.nil_append, Nat.zero_add] at last
  exact ⟨within.feed_eq (within_create contract other limit) payloads, bounds, last⟩

/-- Two payloads of a stream, each longer than a step, the second longer than the limit, and
one that begins with an error. -/
theorem feed_scratch_long :
    let payloads :=
      [streamHeader ++ deflate (List.replicate 70 7), deflate (List.replicate 71 7), [0xff]]
    let outputs := fun scratch => (feed inflation payloads (create scratch 70).activate).1
    outputs 64 = outputs 67 ∧ outputs 67 = [List.replicate 70 7] :=
  ⟨(feed_scratch (Zlib.contract {}) 70 _ 64 67).1, by decide +kernel⟩

end Decompressor

end SecureShell
