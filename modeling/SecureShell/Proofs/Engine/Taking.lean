import SecureShell.Proofs.Engine.Performing
import SecureShell.Proofs.Pipeline.Opening

/-! Packets that a client has taken, one after the other: their bytes on the wire, what
these decrypt to, the payload that is unpacked, and what the caller hears of it. Each
packet was decrypted with the keys as the one before it has left them, and has passed
every check of its length and of its tag. -/
namespace SecureShell

open Packet (Decrypts Acceptable declared)

/-- A packet that was taken. -/
structure Take where
  /-- Its bytes on the wire, without the tag. -/
  body : Bytes
  tag : Bytes
  /-- What the bytes decrypt to. -/
  packet : Bytes
  payload : Bytes
  /-- What the caller hears of it. -/
  events : List Event

namespace Take

def wire (take : Take) : Bytes := take.body ++ take.tag

/-- What it brings to the handshake, and what comes of that. -/
def heard (take : Take) : Bytes × List Event := (take.payload, take.events)

/-- Packet number `number` has a length that can be accepted with some keys, and the tag
that they call for. -/
structure Fits (limit : Nat) (keys : Option Protection) (number : Nat) (take : Take) : Prop where
  acceptable : Acceptable limit keys (declared take.packet)
  length : take.body.length = 4 + declared take.packet
  tag : take.tag = Protection.tagOf keys (UInt32.ofNat number) take.packet

/-- Packet number `number` is one that whoever has the keys has sealed: it is as long as
its first four bytes say, fills whole blocks, and has the code of its number and bytes
behind it. -/
structure Genuine (limit : Nat) (keys : DirectionKeys) (number : Nat) (take : Take) : Prop where
  least : 5 ≤ declared take.packet
  most : declared take.packet ≤ limit
  aligned : (4 + declared take.packet) % keys.cipher.blockSize = 0
  length : take.body.length = 4 + declared take.packet
  tag : take.tag = MacKey.tag ⟨keys.mac, keys.integrity⟩ (UInt32.ofNat number) take.packet

end Take

/-- What is needed to take the next packet, apart from its bytes and its number. -/
structure Ear where
  keys : Option Protection
  deframer : Deframer
  decompressor : Decompressor

/-- An inbound side that takes packets with an ear, whatever has arrived. -/
def Ear.inbound (ear : Ear) (opener : Opener) : Inbound := ⟨opener, ear.deframer, ear.decompressor⟩

/-- Packets are taken one after the other, the first of them being number `first` of all;
in between compression may be switched on. -/
inductive Opens (limit first : Nat) (start : Ear) : List Take → Ear → Prop where
  | nil : Opens limit first start [] start
  | take {takes : List Take} {ear : Ear} {body packet payload : Bytes} {keys : Option Protection}
      {opener : Opener} {after : Inbound} (events : List Event) :
      Opens limit first start takes ear → Decrypts limit ear.keys body packet keys →
      Inbound.unpack packet (ear.inbound opener) = .ok payload after →
      Opens limit first start
        (takes ++ [{
          body, packet, payload, events
          tag := Protection.tagOf ear.keys (UInt32.ofNat (first + takes.length)) packet }])
        ⟨keys, after.deframer, after.decompressor⟩
  | compress {takes : List Take} {ear : Ear} : Opens limit first start takes ear →
      Opens limit first start takes { ear with decompressor := ear.decompressor.activate }

namespace Opens

variable {limit first : Nat} {start ear : Ear} {takes : List Take}

theorem alike (opens : Opens limit first start takes ear)
    (regular : Protection.Regular start.keys) :
    Protection.Regular ear.keys ∧ Protection.Alike start.keys ear.keys := by
  induction opens with
  | nil => exact ⟨regular, .refl _⟩
  | take _ _ decrypts _ ih =>
    obtain ⟨regular, alike⟩ := ih
    obtain ⟨-, regularAfter, alikeAfter⟩ := Protection.decrypt_ok regular decrypts.decrypted
    exact ⟨regularAfter, alike.trans alikeAfter⟩
  | compress _ ih => exact ih

/-- Every packet fits the keys of the first one, whose number it follows. -/
theorem fits (opens : Opens limit first start takes ear) (regular : Protection.Regular start.keys)
    {i : Nat} {take : Take} (found : takes[i]? = some take) :
    take.Fits limit start.keys (first + i) := by
  induction opens with
  | nil => cases found
  | @take takes ear body packet payload keys _ _ events opens decrypts _ ih =>
    obtain ⟨-, alike⟩ := opens.alike regular
    rcases Nat.lt_trichotomy i takes.length with earlier | rfl | later
    · rw [List.getElem?_append_left earlier] at found
      exact ih found
    · rw [List.getElem?_concat_length] at found
      cases found
      exact ⟨decrypts.acceptable.alike alike, decrypts.length, alike.tagOf _ _⟩
    · rw [List.getElem?_eq_none (by simp; omega)] at found
      cases found
  | compress _ ih => exact ih found

/-- With keys every packet is one that whoever has the keys has sealed. -/
theorem genuine {keys : DirectionKeys} {protection : Protection}
    (opens : Opens limit first { start with keys := some protection } takes ear)
    (created : Protection.create .decrypt keys = .ok protection) {i : Nat} {take : Take}
    (found : takes[i]? = some take) : take.Genuine limit keys (first + i) := by
  obtain ⟨regular, algorithm, mac⟩ := Protection.create_regular created
  obtain ⟨acceptable, length, tag⟩ := opens.fits regular found
  refine ⟨acceptable.least, acceptable.most, ?_, length, ?_⟩
  · have aligned := acceptable.aligned rfl
    rwa [Protection.blockSize_some, CipherContext.blockSize, algorithm] at aligned
  · rw [tag, ← mac]
    rfl

end Opens

/-- Actions that bring no keys for what is received leave it as it is, but for
compression. -/
theorem Engine.Performs.hears {supply : Supply} {actions : List Action} {engine after : Engine}
    {wires : List Bytes} {limit first : Nat} {start : Ear} {takes : List Take}
    {keys : Option Protection} (performs : Engine.Performs supply actions engine wires after)
    (stays : .closed ∉ actions) (kept : ∀ keys, .armInbound keys ∉ actions)
    (opens : Opens limit first start takes
      ⟨keys, engine.inbound.deframer, engine.inbound.decompressor⟩) :
    after.inbound.opener = engine.inbound.opener ∧
      Opens limit first start takes ⟨keys, after.inbound.deframer, after.inbound.decompressor⟩ := by
  induction performs with
  | nil => exact ⟨rfl, opens⟩
  | send _ _ ih | armOutbound _ _ ih | established _ ih | deliver _ ih =>
    exact ih (fun later => stays (.tail _ later)) (fun keys later => kept keys (.tail _ later))
      opens
  | armInbound => exact absurd (.head _) (kept _)
  | @compress _ inbound _ _ engine _ _ ih =>
    have rest := ih (fun later => stays (.tail _ later)) fun keys later => kept keys (.tail _ later)
    cases inbound with
    | true => exact rest opens.compress
    | false => exact rest opens
  | closed => exact absurd (.head _) stays

end SecureShell
