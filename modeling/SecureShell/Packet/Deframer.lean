import SecureShell.Packet.Frame

/-!
Packets cut out of a stream that arrives in arbitrary pieces. What has arrived of
the next packet is kept as it came; a length or padding that cannot be accepted
is refused at the byte that shows it, and then only the length field is kept.
-/
namespace SecureShell

structure Deframer where
  /-- The largest acceptable value of a packet length field. -/
  limit : Nat
  pending : Bytes := []

namespace Deframer

/-- What the front of a stream shows. -/
inductive Scan where
  | incomplete
  | packet (packet : Packet) (rest : Bytes)
  | refused (fault : ProtocolFault) (kept : Bytes)

def lengthFault (limit length : Nat) : Option ProtocolFault :=
  if length > limit then some (.packetTooLarge length limit)
  else if length < 1 + Packet.minPadding then some (.packetTooSmall length)
  else none

def scan (limit : Nat) (stream : Bytes) : Scan :=
  match stream with
  | a :: b :: c :: d :: body =>
    let length := Bytes.toNat [a, b, c, d]
    match lengthFault limit length with
    | some fault => .refused fault [a, b, c, d]
    | none =>
      match body with
      | [] => .incomplete
      | padding :: body =>
        match Packet.paddingFault length padding.toNat with
        | some fault => .refused fault [a, b, c, d]
        | none =>
          if body.length < length - 1 then .incomplete
          else
            let payloadLength := length - 1 - padding.toNat
            .packet ⟨body.take payloadLength, (body.drop payloadLength).take padding.toNat⟩
              (body.drop (length - 1))
  | _ => .incomplete

theorem scan_packet_length {limit : Nat} {stream rest : Bytes} {packet : Packet}
    (h : scan limit stream = .packet packet rest) : rest.length < stream.length := by
  unfold scan at h
  split at h
  · dsimp only at h
    split at h
    · contradiction
    · split at h
      · contradiction
      · split at h
        · contradiction
        · split at h
          · contradiction
          · cases h
            simp only [List.length_drop, List.length_cons]
            omega
  · contradiction

/-- Takes all complete packets off a stream, behind those in `done`, last first. -/
def drain (limit : Nat) (done : List Packet) (stream : Bytes) :
    Except (ProtocolFault × Bytes) (List Packet × Bytes) :=
  match _ : scan limit stream with
  | .incomplete => .ok (done.reverse, stream)
  | .packet packet rest => drain limit (packet :: done) rest
  | .refused fault kept => .error (fault, kept)
  termination_by stream.length
  decreasing_by exact scan_packet_length ‹_›

/-- Takes bytes and gives the packets that they complete, in order. -/
def feed (data : Bytes) : EStateM Error Deframer (List Packet) := do
  if data.isEmpty then return []
  let deframer ← get
  match drain deframer.limit [] (deframer.pending ++ data) with
  | .ok (packets, rest) =>
    set { deframer with pending := rest }
    return packets
  | .error (fault, kept) =>
    set { deframer with pending := kept }
    throw (.protocol fault)

/-- The part of a packet that comes next. -/
inductive Awaiting where
  | length
  | paddingLength
  | payload
  | padding
  deriving DecidableEq

def awaiting (deframer : Deframer) : Awaiting :=
  let length := Bytes.toNat (deframer.pending.take 4)
  match deframer.pending.drop 4 with
  | [] =>
    if deframer.pending.length = 4 ∧ (lengthFault deframer.limit length).isNone
    then .paddingLength else .length
  | padding :: body =>
    if body.length < length - 1 - padding.toNat then .payload else .padding

def idle (deframer : Deframer) : Bool := deframer.pending.isEmpty

end Deframer

end SecureShell
