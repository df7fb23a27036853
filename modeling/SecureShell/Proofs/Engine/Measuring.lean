import Mathlib.Algebra.Group.Defs
import SecureShell.Proofs.Engine.Script
import SecureShell.Proofs.Pipeline.Aligning
import SecureShell.Proofs.Pipeline.Compressing
import SecureShell.Proofs.Pipeline.Parsing

/-! The lengths that an established engine writes with its data. The string of a message is
never too long for its length field, since the peer's limit fits one. The packet around it can
be: header and padding add at least nine bytes, and the length field does not say so where
they do not fit. A limit of 2^32 - 9 bytes is the first for which every length is true. -/
namespace SecureShell

namespace Packet

variable {packet : Packet} {entropy : Entropy} {payload : Bytes} {blockSize : Nat}

def Measured (packet : Packet) : Prop :=
  declaredLength packet.toBytes = some (packet.toBytes.drop 4).length

theorem measured_iff : packet.Measured ↔ packet.bodyLength < 2 ^ 32 := by
  have behind : (packet.toBytes.drop 4).length = packet.bodyLength := by
    rw [List.length_drop, length_toBytes, wireLength_eq, Nat.add_sub_cancel_left]
  rw [Measured, behind, toBytes, declaredLength_wide, Option.some.injEq,
    Nat.mod_eq_iff_lt (by decide)]

/-- Where whole blocks come to 2^32 bytes, only the least padding can fill up to there. -/
theorem bodyLength_frame_lt_iff (blocks : max blockSize defaultBlockSize ∣ 16) :
    (frame entropy blockSize payload).bodyLength < 2 ^ 32 ↔ payload.length + 9 ≤ 2 ^ 32 := by
  obtain ⟨least, most, fills⟩ :=
    paddingLength_eq_iff.1 (rfl : paddingLength payload.length blockSize = _)
  have large : defaultBlockSize ≤ max blockSize defaultBlockSize := Nat.le_max_right ..
  have whole : max blockSize defaultBlockSize ∣ 2 ^ 32 := Nat.dvd_trans blocks (by decide)
  have beyond := Nat.dvd_sub fills whole
  simp only [headerLength, minPadding, defaultBlockSize] at least most beyond large
  simp only [bodyLength, frame, entropy.length_bytes]
  constructor
  · intro small
    have none := Nat.eq_zero_of_dvd_of_lt beyond (by omega)
    omega
  · intro small
    have none := Nat.eq_zero_of_dvd_of_lt beyond (by omega)
    omega

/-- Padded for a cipher whose blocks come to 16 bytes. -/
def Padded (packet : Packet) : Prop :=
  ∃ entropy blockSize, max blockSize defaultBlockSize ∣ 16 ∧
    packet = frame entropy blockSize packet.payload

theorem Padded.measured_iff (padded : packet.Padded) :
    packet.Measured ↔ packet.payload.length + 9 ≤ 2 ^ 32 := by
  obtain ⟨entropy, blockSize, blocks, same⟩ := padded
  rw [Packet.measured_iff, same]
  exact bodyLength_frame_lt_iff blocks

theorem Padded.writable (padded : packet.Padded) (measured : packet.Measured) :
    packet.Writable := by
  obtain ⟨entropy, blockSize, blocks, same⟩ := padded
  have few : max blockSize defaultBlockSize ≤ 16 := Nat.le_of_dvd (by decide) blocks
  obtain ⟨least, most, -⟩ := frame_spec entropy few packet.payload
  rw [← same] at least most
  exact ⟨least, most, Packet.measured_iff.1 measured⟩

end Packet

theorem Protection.blockSize_dvd (keys : Option Protection) :
    max (Protection.blockSize keys) Packet.defaultBlockSize ∣ 16 := by
  cases keys with
  | none => decide
  | some keys =>
    rw [Protection.blockSize_some, CipherContext.blockSize]
    cases keys.cipher.algorithm <;> decide

theorem Outbound.Ready.framed_padded {outbound : Outbound} (ready : outbound.Ready)
    (entropy : Entropy) (payload : Bytes) : (outbound.framed entropy payload).Padded := by
  refine ⟨entropy, outbound.framer.blockSize, ?_, rfl⟩
  rw [ready.framer]
  exact Protection.blockSize_dvd outbound.sealer.keys

inductive Sealer.Protects : Sealer → List Packet → List Bytes → Sealer → Prop where
  | nil {sealer : Sealer} : Protects sealer [] [] sealer
  | cons {sealer next after : Sealer} {packet : Packet} {wire : Bytes} {packets : List Packet}
      {wires : List Bytes} : Sealer.protect packet.toBytes sealer = .ok wire next →
      Protects next packets wires after →
      Protects sealer (packet :: packets) (wire :: wires) after

theorem Wire.declaredLength_string {data : Bytes} (fits : data.length < 2 ^ 32) :
    Packet.declaredLength (string data) = some ((string data).drop 4).length := by
  have behind : ((string data).drop 4).length = data.length := by
    rw [List.length_drop, length_string, Nat.add_sub_cancel_left]
  rw [behind, string, uint32, Bytes.ofUInt32, Packet.declaredLength_wide, UInt32.toNat_ofNat',
    Nat.mod_mod, Nat.mod_eq_of_lt fits]

namespace SessionChannel

variable {channel : SessionChannel} {data : Bytes} {messages : List Bytes}

/-- No piece is too long for the length field of its string. -/
theorem dataMessages_measured (written : channel.dataMessages data = .ok messages) :
    ∀ message ∈ messages,
      Packet.declaredLength (message.drop 5) = some (message.drop 9).length := by
  obtain ⟨-, rfl⟩ := dataMessages_eq_ok_iff.1 written
  rw [List.forall_mem_map]
  intro piece cut
  have string : (DataMessage.toBytes ⟨channel.remoteId, piece⟩).drop 5 = Wire.string piece :=
    List.drop_left' (by rw [List.length_cons, Wire.length_uint32])
  rw [show 9 = 5 + 4 from rfl, ← List.drop_drop, string]
  exact Wire.declaredLength_string
    (Nat.lt_of_le_of_lt (Bytes.length_le_of_mem_pieces cut) channel.pieceSize_lt)

end SessionChannel

namespace Engine

open Handshake

variable {supply : Supply} {engine after : Engine} {wires messages : List Bytes} {data : Bytes}
  {trace : Trace} {config : Config} {entropy : Entropy}

/-- An engine that does not compress puts each payload into a packet as it is. -/
theorem Performs.protects (performs : Performs supply (messages.map .send) engine wires after)
    (ready : engine.outbound.Ready) (plain : engine.outbound.compressing = false) :
    ∃ packets, Sealer.Protects engine.outbound.sealer packets wires after.outbound.sealer ∧
      packets.map (·.payload) = messages ∧ ∀ packet ∈ packets, packet.Padded := by
  induction messages generalizing engine wires with
  | nil =>
    cases performs
    exact ⟨[], .nil, rfl, nofun⟩
  | cons message messages ih =>
    cases performs with
    | send sent performs =>
      have untouched := Compressor.compress_inert plain message
      obtain ⟨_, _, sending, readyLeft⟩ := ready.send (supply.source engine.drawn) message
      rw [sent] at sending
      cases sending
      have padded := ready.framed_padded (supply.source engine.drawn) message
      have payload : (engine.outbound.framed (supply.source engine.drawn) message).payload =
          message := congrArg Prod.fst untouched
      obtain ⟨sealer, protects, rfl⟩ := Outbound.send_ok sent
      obtain ⟨packets, sealing, payloads, others⟩ := ih performs readyLeft
        (by simp only [Outbound.compressing, untouched]; exact plain)
      refine ⟨_ :: packets, .cons protects sealing, ?_, ?_⟩
      · rw [List.map_cons, payload, payloads]
      · exact List.forall_mem_cons.2 ⟨padded, others⟩

/-- An engine that has ended has no session. -/
theorem Step.ended (step : Step engine trace after) (running : engine.finished = false)
    (ended : after.finished = true) : after.handshake.phase = .closed := by
  have stays {start : Engine} {wires : List Bytes} (carries : Carries start wires after)
      (same : start.finished = engine.finished) : after.handshake.phase = .closed := by
    rw [carries.finished, same, running] at ended
    cases ended
  cases step with
  | introduced | listened | fed | waited =>
    have same : engine.finished = true := ended
    rw [running] at same
    cases same
  | met _ _ _ _ performs =>
    have same := (performs.carries (by simp)).finished
    exact absurd (same.symm.trans ended) (by simp [running])
  | handled _ _ still performs => exact stays (performs.carries still) rfl
  | wrote _ performs => exact stays (performs.carries sends_stay) rfl
  | parted | refused | departed | lost => rfl

theorem Path.ended (path : Path engine trace after) (running : engine.finished = false)
    (ended : after.finished = true) : after.handshake.phase = .closed := by
  induction path with
  | refl =>
    rw [running] at ended
    cases ended
  | next _ running step => exact step.ended running ended
  | took _ ih => exact ih ended

/-- A session that is established goes on: it takes all data and puts it into packets. -/
theorem run_writes (created : Engine.create entropy config = .ok engine)
    (calls : List (Supply × Call)) (established : (run calls engine).engine.isEstablished = true)
    (plain : (run calls engine).engine.outbound.compressing = false) (supply : Supply)
    (data : Bytes) :
    ∃ messages packets wires after,
      (run calls engine).engine.handshake.channel.dataMessages data = .ok messages ∧
      write supply data (run calls engine).engine = .ok () after ∧
      after.queue.reverse = (run calls engine).engine.queue.reverse ++ wires ∧
      Sealer.Protects (run calls engine).engine.outbound.sealer packets wires
        after.outbound.sealer ∧
      packets.map (·.payload) = messages ∧ ∀ packet ∈ packets, packet.Padded := by
  obtain ⟨_, _, _, -, -, -, ⟨_, _, path⟩, -⟩ :=
    run_unfolds calls (create_sound created) (create_drained created)
  have fresh : engine.finished = false := by
    obtain rfl := create_eq created
    rfl
  generalize (run calls engine).engine = last at established plain path ⊢
  have phase : last.handshake.phase = .established := of_decide_eq_true established
  have running : last.finished = false := by
    rcases Bool.eq_false_or_eq_true last.finished with ended | running
    · rw [path.ended fresh ended] at phase
      cases phase
    · exact running
  have ready := (path.sound (create_sound created)).ready
  obtain ⟨opened, -⟩ := (path.connectionInvariant created running).opened phase
  obtain ⟨messages, taken⟩ : ∃ messages, last.handshake.channel.dataMessages data = .ok messages :=
    ⟨_, SessionChannel.dataMessages_eq opened data⟩
  have written : last.handshake.write data = .ok messages := by
    rw [Handshake.write, phase]
    exact taken
  obtain ⟨wires, after, performs⟩ := performs_sends supply last ready messages
  obtain ⟨packets, protects, payloads, padded⟩ := performs.protects ready plain
  refine ⟨messages, packets, wires, after, taken, ?_, (performs.carries sends_stay).queue,
    protects, payloads, padded⟩
  simp only [write, running, written, performs.sendAll, Bool.false_eq_true, if_false]

/-- How much may be written before a length field is too short: all of it, if the peer's limit
leaves room for header and padding. -/
def Measurable (limit : UInt32) (data : Bytes) : Prop :=
  data.length + 18 ≤ 2 ^ 32 ∨ limit.toNat + 9 ≤ 2 ^ 32

theorem measured_iff_measurable {channel : SessionChannel} {packets : List Packet}
    (written : channel.dataMessages data = .ok (packets.map (·.payload)))
    (padded : ∀ packet ∈ packets, packet.Padded) :
    (∀ packet ∈ packets, packet.Measured) ↔ Measurable channel.remoteMaxPacket data := by
  have short := SessionChannel.dataMessages_length_le_iff written (2 ^ 32 - 9)
  rw [List.forall_mem_map, SessionChannel.dataOverhead] at short
  have fits : (∀ packet ∈ packets, packet.Measured) ↔
      ∀ packet ∈ packets, packet.payload.length ≤ 2 ^ 32 - 9 := by
    refine forall₂_congr fun packet member => ?_
    rw [(padded packet member).measured_iff]
    omega
  rw [fits, short, Measurable, ← List.length_eq_zero_iff]
  omega

/-- Whoever has established a session without compression, and whatever limit the peer has
confirmed it with, all that is written goes out in packets, and every string states its
length. Every packet states its own exactly where the data or the limit leaves room for what
is added to a message; then the peer reads every packet, and takes all of them off a stream. -/
theorem run_measures (created : Engine.create entropy config = .ok engine)
    (calls : List (Supply × Call)) (established : (run calls engine).engine.isEstablished = true)
    (plain : (run calls engine).engine.outbound.compressing = false) (supply : Supply)
    (data : Bytes) :
    ∃ packets wires after,
      write supply data (run calls engine).engine = .ok () after ∧
      after.queue.reverse = (run calls engine).engine.queue.reverse ++ wires ∧
      Sealer.Protects (run calls engine).engine.outbound.sealer packets wires
        after.outbound.sealer ∧
      Conveys (run calls engine).engine.handshake.channel.remoteId data
        (packets.map (·.payload)) ∧
      (∀ packet ∈ packets, Packet.declaredLength (packet.payload.drop 5) =
        some (packet.payload.drop 9).length) ∧
      ((∀ packet ∈ packets, packet.Measured) ↔
        Measurable (run calls engine).engine.handshake.channel.remoteMaxPacket data) ∧
      (Measurable (run calls engine).engine.handshake.channel.remoteMaxPacket data →
        (∀ packet ∈ packets, Packet.parse packet.toBytes = .ok packet) ∧
        ∀ limit, 2 ^ 32 - 1 ≤ limit →
          Deframer.feed (packets.flatMap Packet.toBytes) { limit } = .ok packets { limit }) := by
  obtain ⟨messages, packets, wires, after, taken, written, queued, protects, rfl, padded⟩ :=
    run_writes created calls established plain supply data
  have strings := SessionChannel.dataMessages_measured taken
  rw [List.forall_mem_map] at strings
  have measures := measured_iff_measurable taken padded
  refine ⟨packets, wires, after, written, queued, protects,
    SessionChannel.dataMessages_conveys taken, strings, measures, ?_⟩
  intro measurable
  have writable (packet : Packet) (member : packet ∈ packets) : packet.Writable :=
    (padded packet member).writable (measures.2 measurable packet member)
  refine ⟨fun packet member => Packet.parse_of_writable (writable packet member), ?_⟩
  intro limit large
  refine Deframer.feed_ok (Deframer.settled_fresh limit) (Deframer.drain_flatMap_toBytes ?_)
  intro packet member
  have small := Nat.le_sub_one_of_lt (writable packet member).field
  exact (writable packet member).fits (Nat.le_trans small large)

section Boundless

def plainspokenClient : Config :=
  { smallClient with preferences := { smallClient.preferences with compression := ["none"] } }

/-- A server with the proposal of this client that sets no limit to a packet. -/
def boundlessServer : ServerMessages :=
  { smallServer with
    proposal := (Proposal.ofPreferences zeros plainspokenClient.preferences).toBytes
    confirmation := ChannelConfirmation.toBytes ⟨SessionChannel.localId, 17, 1024, 4294967295⟩ }

def plainspokenAgreement : Negotiated :=
  { smallAgreement with compressionOut := .none, compressionIn := .none }

def plainspokenEngine : Engine :=
  { handshake := .create zeros plainspokenClient, inbound := freshInbound plainspokenClient }

theorem plainspoken_created : Engine.create zeros plainspokenClient = .ok plainspokenEngine := by
  rfl

theorem boundless_honest : Honest plainspokenClient
    (Handshake.create zeros plainspokenClient).clientProposal plainspokenAgreement zeros
    boundlessServer smallView where
  group := .fixed rfl
  heard := small_honest.heard
  inRange := small_honest.inRange
  hostKey := small_honest.hostKey
  algorithm := rfl
  trusted := rfl
  replyCode := rfl
  reply := ⟨smallReply, KexReply.parse_toBytes (by decide) (by decide) (by decide), rfl,
    by decide +kernel, small_verify _⟩
  newKeys := rfl
  serviceAccept := small_honest.serviceAccept
  failure := small_honest.failure
  keyAccepted := rfl
  success := rfl
  confirmation := ⟨_, ChannelConfirmation.parse_toBytes _, rfl, by decide⟩

/-- The two establish a session. -/
theorem plainspoken_established :
    ∃ calls : List (Supply × Call),
      (run calls plainspokenEngine).engine.isEstablished = true ∧
      (run calls plainspokenEngine).engine.outbound.compressing = false ∧
      (run calls plainspokenEngine).engine.handshake.channel.remoteMaxPacket = 4294967295 := by
  have line : LineReader.feed boundlessServer.version.toBytes {} =
    .ok (some (boundlessServer.version, [])) {} := by rfl
  have checked : plainspokenClient.check = .ok () := by rfl
  have parsed : Proposal.parse boundlessServer.proposal =
      .ok (.ofPreferences zeros plainspokenClient.preferences) :=
    parse_ofPreferences (Config.check_ok checked) (by decide)
  have agreed : negotiate (.ofPreferences zeros plainspokenClient.preferences)
      (.ofPreferences zeros plainspokenClient.preferences) = .ok plainspokenAgreement := by rfl
  have fits : ∀ payload ∈ boundlessServer.payloads,
      Packet.Carries plainspokenClient.maxPacketLength payload := by decide +kernel
  obtain ⟨wires, h, heard, -, listens, plain, established, confirmation, before, parsed,
    confirmed⟩ :=
    run_honest plainspoken_created trivial (by decide) line parsed rfl agreed boundless_honest
      fits (by decide)
  refine ⟨receives zeros wires, ?_, plain, ?_⟩
  · rw [Engine.isEstablished, listens.handshake, established]
    rfl
  · obtain ⟨-, -, -, taken⟩ := SessionChannel.confirm_eq_ok_iff.1 confirmed
    have said : Except.ok confirmation = .ok _ :=
      parsed.symm.trans (ChannelConfirmation.parse_toBytes _)
    cases said
    rw [listens.handshake, taken]

/-- In this session one byte goes out in a packet that states its length. -/
theorem run_measures_plainspoken :
    ∃ calls : List (Supply × Call),
      Engine.create zeros plainspokenClient = .ok plainspokenEngine ∧
      (run calls plainspokenEngine).engine.isEstablished = true ∧
      (run calls plainspokenEngine).engine.outbound.compressing = false ∧
      ∃ packets wires after,
        write zeros [65] (run calls plainspokenEngine).engine = .ok () after ∧
        after.queue.reverse = (run calls plainspokenEngine).engine.queue.reverse ++ wires ∧
        Sealer.Protects (run calls plainspokenEngine).engine.outbound.sealer packets wires
          after.outbound.sealer ∧
        Conveys (run calls plainspokenEngine).engine.handshake.channel.remoteId [65]
          (packets.map (·.payload)) ∧
        (∀ packet ∈ packets, Packet.declaredLength (packet.payload.drop 5) =
          some (packet.payload.drop 9).length) ∧
        ((∀ packet ∈ packets, packet.Measured) ↔
          Measurable (run calls plainspokenEngine).engine.handshake.channel.remoteMaxPacket
            [65]) ∧
        (Measurable (run calls plainspokenEngine).engine.handshake.channel.remoteMaxPacket [65] →
          (∀ packet ∈ packets, Packet.parse packet.toBytes = .ok packet) ∧
          ∀ limit, 2 ^ 32 - 1 ≤ limit →
            Deframer.feed (packets.flatMap Packet.toBytes) { limit } =
              .ok packets { limit }) := by
  obtain ⟨calls, established, plain, -⟩ := plainspoken_established
  exact ⟨calls, plainspoken_created, established, plain,
    run_measures plainspoken_created calls established plain zeros [65]⟩

/-- Data that fills a message up to a limit of 2^32 - 1 bytes goes out in a packet that does
not state its length. -/
theorem run_measures_boundless :
    ∃ calls : List (Supply × Call),
      Engine.create zeros plainspokenClient = .ok plainspokenEngine ∧
      (run calls plainspokenEngine).engine.isEstablished = true ∧
      (run calls plainspokenEngine).engine.outbound.compressing = false ∧
      ∃ packets wires after,
        write zeros (List.replicate (2 ^ 32 - 10) 0) (run calls plainspokenEngine).engine =
          .ok () after ∧
        after.queue.reverse = (run calls plainspokenEngine).engine.queue.reverse ++ wires ∧
        Sealer.Protects (run calls plainspokenEngine).engine.outbound.sealer packets wires
          after.outbound.sealer ∧
        ∃ packet ∈ packets, Packet.declaredLength packet.toBytes ≠
          some (packet.toBytes.drop 4).length := by
  obtain ⟨calls, established, plain, limit⟩ := plainspoken_established
  obtain ⟨messages, packets, wires, after, taken, written, queued, protects, rfl, padded⟩ :=
    run_writes plainspoken_created calls established plain zeros (List.replicate (2 ^ 32 - 10) 0)
  refine ⟨calls, plainspoken_created, established, plain, packets, wires, after, written, queued,
    protects, ?_⟩
  have unmeasured : ¬ ∀ packet ∈ packets, packet.Measured := by
    rw [measured_iff_measurable taken padded, limit, Measurable, List.length_replicate]
    decide
  obtain ⟨packet, missed⟩ := Classical.not_forall.1 unmeasured
  obtain ⟨member, unstated⟩ := Classical.not_imp.1 missed
  exact ⟨packet, member, unstated⟩

end Boundless

end Engine

end SecureShell
