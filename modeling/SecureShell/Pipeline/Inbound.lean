import SecureShell.Compression
import SecureShell.Focus
import SecureShell.Packet.Deframer
import SecureShell.Packet.Opener

/-!
The way of a payload from the wire: a packet is opened, deframed and inflated.
Payloads are pulled one at a time.
-/
namespace SecureShell

structure Inbound where
  opener : Opener
  deframer : Deframer
  decompressor : Decompressor

namespace Inbound

/-- The limit holds for packets and for inflated payloads. -/
def create (limit inflateBuffer : Nat) : Inbound where
  opener := { limit }
  deframer := { limit }
  decompressor := .create inflateBuffer limit

def feed (data : Bytes) (inbound : Inbound) : Inbound :=
  { inbound with opener := inbound.opener.feed data }

def nextPacket : EStateM Error Inbound (Option Bytes) :=
  focus Inbound.opener (fun opener inbound => { inbound with opener }) Opener.next

/-- The payloads in the bytes of an opened packet. -/
def deframe (packet : Bytes) : EStateM Error Inbound (List Bytes) := do
  let packets ← focus Inbound.deframer (fun deframer inbound => { inbound with deframer })
    (Deframer.feed packet)
  focus Inbound.decompressor (fun decompressor inbound => { inbound with decompressor })
    (packets.mapM fun packet => Decompressor.decompress packet.payload)

/-- The one payload in the bytes of an opened packet. -/
def unpack (packet : Bytes) : EStateM Error Inbound Bytes := do
  match ← deframe packet with
  | [payload] =>
    if (← get).deframer.idle then return payload else throw (.protocol .notOnePayload)
  | _ => throw (.protocol .notOnePayload)

/-- The next payload, if its packet has wholly arrived. -/
def next : EStateM Error Inbound (Option Bytes) := do
  match ← nextPacket with
  | none => return none
  | some packet => return some (← unpack packet)

def arm (keys : DirectionKeys) (inbound : Inbound) : Except Error Inbound := do
  return { inbound with opener := (← inbound.opener.arm keys) }

def activateCompression (inbound : Inbound) : Inbound :=
  { inbound with decompressor := inbound.decompressor.activate }

def armed (inbound : Inbound) : Bool := inbound.opener.armed

def compressing (inbound : Inbound) : Bool := inbound.decompressor.active

def sequence (inbound : Inbound) : UInt32 := inbound.opener.sequence

def buffered (inbound : Inbound) : Nat := inbound.opener.buffered

def backlog (inbound : Inbound) : Nat := inbound.opener.backlog

theorem backlog_arm {keys : DirectionKeys} {inbound inbound' : Inbound}
    (h : inbound.arm keys = .ok inbound') : inbound'.backlog = inbound.backlog := by
  cases hArm : inbound.opener.arm keys with
  | error error =>
    simp only [arm, hArm, bind, Except.bind] at h
    cases h
  | ok opener =>
    simp only [arm, hArm, bind, Except.bind, pure, Except.pure] at h
    cases h
    exact Opener.backlog_arm hArm

theorem backlog_deframe {inbound inbound' : Inbound} {packet : Bytes} {payloads : List Bytes}
    (h : deframe packet inbound = .ok payloads inbound') : inbound'.backlog = inbound.backlog := by
  obtain ⟨packets, deframed, hDeframed, hInflated⟩ := bind_eq_ok_iff.1 h
  obtain ⟨_, _, rfl⟩ := focus_eq_ok_iff.1 hDeframed
  obtain ⟨_, _, rfl⟩ := focus_eq_ok_iff.1 hInflated
  rfl

theorem backlog_unpack {inbound inbound' : Inbound} {packet payload : Bytes}
    (h : unpack packet inbound = .ok payload inbound') : inbound'.backlog = inbound.backlog := by
  obtain ⟨payloads, deframed, hDeframed, h⟩ := bind_eq_ok_iff.1 h
  rw [← backlog_deframe hDeframed]
  split at h
  · obtain ⟨now, same, hGet, h⟩ := bind_eq_ok_iff.1 h
    cases hGet
    split at h
    · cases h
      rfl
    · cases h
  · cases h

/-- Taking a payload leaves less to be opened. -/
theorem backlog_next {inbound inbound' : Inbound} {payload : Bytes}
    (h : next inbound = .ok (some payload) inbound') : inbound'.backlog < inbound.backlog := by
  obtain ⟨found, opened, hOpened, h⟩ := bind_eq_ok_iff.1 h
  obtain ⟨opener, hNext, rfl⟩ := focus_eq_ok_iff.1 hOpened
  cases found with
  | none => cases h
  | some packet =>
    obtain ⟨taken, unpacked, hUnpacked, h⟩ := bind_eq_ok_iff.1 h
    cases h
    have less : Inbound.backlog { inbound with opener } < inbound.backlog :=
      Opener.backlog_next hNext
    rwa [← backlog_unpack hUnpacked] at less

end Inbound

end SecureShell
