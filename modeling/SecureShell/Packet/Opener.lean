import SecureShell.Focus
import SecureShell.Packet.Protection

/-!
Opening of inbound packets. The first block of a packet is decrypted alone, for
the length; the others follow once they and the tag have arrived. One packet is
opened at a time, so that keys can change behind any of them. Main statement:
opening a packet uses up some of what has arrived.
-/
namespace SecureShell

/-- The first block of a packet that has not wholly arrived, decrypted. -/
structure PacketHead where
  bytes : Bytes
  /-- The value of the packet length field. -/
  length : Nat
  deriving DecidableEq

structure Opener where
  keys : Option Protection := none
  /-- The number of the next packet. -/
  sequence : UInt32 := 0
  /-- What has arrived and not been looked at. -/
  buffer : Bytes := []
  head : Option PacketHead := none
  /-- The largest acceptable value of a packet length field. -/
  limit : Nat
  deriving DecidableEq

namespace Opener

/-- Has keys for the packets to come, also for those that have arrived. -/
def arm (keys : DirectionKeys) (opener : Opener) : Except Error Opener := do
  if opener.head.isSome then throw (.protocol .armedMidPacket)
  return { opener with keys := some (← Protection.create .decrypt keys) }

def armed (opener : Opener) : Bool := opener.keys.isSome

def blockSize (opener : Opener) : Nat := Protection.blockSize opener.keys

def tagSize (opener : Opener) : Nat := Protection.tagSize opener.keys

def buffered (opener : Opener) : Nat :=
  opener.buffer.length + ((opener.head.map (·.bytes.length)).getD 0)

def feed (data : Bytes) (opener : Opener) : Opener :=
  { opener with buffer := opener.buffer ++ data }

def checkLength (opener : Opener) (length : Nat) : Except ProtocolFault Unit := do
  if length > opener.limit then throw (.packetTooLarge length opener.limit)
  if length < 1 + Packet.minPadding then throw (.packetTooSmall length)
  if opener.armed ∧ (4 + length) % opener.blockSize ≠ 0 then
    throw (.packetUnaligned length opener.blockSize)

/-- The first block of the next packet, taken off the buffer if it is there. A
refused length has been taken too. -/
def nextHead : EStateM Error Opener (Option PacketHead) := fun opener =>
  match opener.head with
  | some head => .ok (some head) opener
  | none =>
    if opener.buffer.length < opener.blockSize then .ok none opener
    else
      let behind := opener.buffer.drop opener.blockSize
      match Protection.decrypt opener.keys (opener.buffer.take opener.blockSize) with
      | .error error => .error error { opener with buffer := behind }
      | .ok (bytes, keys) =>
        let length := Bytes.toNat (bytes.take 4)
        match opener.checkLength length with
        | .error fault => .error (.protocol fault) { opener with buffer := behind, keys }
        | .ok () =>
          .ok (some ⟨bytes, length⟩)
            { opener with buffer := behind, keys, head := some ⟨bytes, length⟩ }

/-- The rest of a packet, taken off the buffer if it is there. A packet whose tag is
wrong is counted all the same. -/
def nextBody (head : PacketHead) : EStateM Error Opener (Option Bytes) := fun opener =>
  let remaining := 4 + head.length - head.bytes.length
  if opener.buffer.length < remaining + opener.tagSize then .ok none opener
  else
    let behind := opener.buffer.drop remaining
    let opened := { opener with
      head := none, sequence := opener.sequence + 1, buffer := behind.drop opener.tagSize }
    match Protection.decrypt opener.keys (opener.buffer.take remaining) with
    | .error error => .error error opened
    | .ok (bytes, keys) =>
      let packet := head.bytes ++ bytes
      match Protection.verify keys opener.sequence packet (behind.take opener.tagSize) with
      | .error error => .error error { opened with keys }
      | .ok () => .ok (some packet) { opened with keys }

def next : EStateM Error Opener (Option Bytes) := do
  match ← nextHead with
  | none => return none
  | some head => nextBody head

def backlog (opener : Opener) : Nat := 2 * opener.buffer.length + opener.head.isSome.toNat

theorem backlog_arm {keys : DirectionKeys} {opener opener' : Opener}
    (h : opener.arm keys = .ok opener') : opener'.backlog = opener.backlog := by
  cases held : opener.head with
  | some head =>
    simp only [arm, held, Option.isSome_some] at h
    cases h
  | none =>
    cases hKeys : Protection.create .decrypt keys with
    | error error =>
      simp only [arm, held, hKeys, Option.isSome_none, bind, Except.bind] at h
      cases h
    | ok protection =>
      simp only [arm, held, hKeys, Option.isSome_none, bind, Except.bind, pure, Except.pure] at h
      cases h
      simp only [backlog, held]

theorem backlog_nextHead {opener opener' : Opener} {head : PacketHead}
    (h : nextHead opener = .ok (some head) opener') :
    opener'.head.isSome = true ∧ opener'.backlog ≤ opener.backlog := by
  unfold nextHead at h
  split at h
  · rename_i held
    cases h
    simp [held]
  · rename_i free
    split at h
    · cases h
    · dsimp only at h
      split at h
      · cases h
      · split at h
        · cases h
        · cases h
          have : 8 ≤ opener.blockSize := Protection.blockSize_ge opener.keys
          refine ⟨rfl, ?_⟩
          simp only [backlog, List.length_drop, Option.isSome_some, Bool.toNat_true]
          omega

theorem backlog_nextBody {opener opener' : Opener} {head : PacketHead} {packet : Bytes}
    (held : opener.head.isSome = true) (h : nextBody head opener = .ok (some packet) opener') :
    opener'.backlog < opener.backlog := by
  unfold nextBody at h
  dsimp only at h
  split at h
  · cases h
  · split at h
    · cases h
    · split at h
      · cases h
      · cases h
        simp only [backlog, held, Option.isSome_none, Bool.toNat_true, Bool.toNat_false, List.length_drop]
        omega

theorem backlog_next {opener opener' : Opener} {packet : Bytes}
    (h : next opener = .ok (some packet) opener') : opener'.backlog < opener.backlog := by
  obtain ⟨found, taken, hTaken, h⟩ := bind_eq_ok_iff.1 h
  cases found with
  | none => cases h
  | some head =>
    have taking := backlog_nextHead hTaken
    exact Nat.lt_of_lt_of_le (backlog_nextBody taking.1 h) taking.2

end Opener

end SecureShell
