import SecureShell.Proofs.Compression
import SecureShell.Proofs.Zlib.Deflater

/-! Payloads that go through a compressor and a decompressor, each one as soon as it has
been compressed, come out as they were, whichever deflate stream compresses them. -/
namespace SecureShell

open Zlib

namespace Zlib

/-- The stream of the compressor, with what has been written and waits for room. -/
structure Plain where
  begun : Bool := false
  pending : Bytes := []
  /-- Did the last call fill its room, so that the next one goes on with the flush? -/
  full : Bool := false

def Plain.queue (plain : Plain) (data : Bytes) : Bytes :=
  plain.pending ++
    if plain.full ∧ data = [] then []
    else (if plain.begun then [] else streamHeader) ++ deflate data

theorem Plain.queue_full (begun : Bool) (pending : Bytes) :
    Plain.queue ⟨begun, pending, true⟩ [] = pending := by
  simp [Plain.queue]

/-- The pieces of data as the compressor writes them, handed out as there is room. -/
def plain : Deflater where
  State := Plain
  fresh := {}
  flush data space before :=
    let queue := before.queue data
    .ok ⟨data.length, queue.take space⟩ ⟨true, queue.drop space, space ≤ queue.length⟩
  bound before data := (before.queue data).length
  fits called := by
    cases called
    exact List.length_take_le _ _
  takes called room := by
    cases called
    exact Nat.le_refl _
  bounded called enough := by
    cases called
    rw [List.length_take]
    omega
  steady {data space before flushed after} called full := by
    cases called
    rw [List.length_take] at full
    have within : space ≤ (Plain.queue before data).length := by omega
    simp only [decide_eq_true within, List.drop_length, Plain.queue_full, List.length_drop]
    exact Nat.sub_le _ _

section Plain

variable {given written data : Bytes} {state : Plain}

/-- Where the decoder comes to with what is written and what waits to be. -/
structure Plain.Holds (given written : Bytes) (state : Plain) : Prop where
  decoder : (if state.begun then
      (Decoder.steps {} (toBits (written ++ state.pending))).Rests
    else written ++ state.pending = [] ∧ state.full = false)
  output : (Decoder.steps {} (toBits (written ++ state.pending))).output.toList = given

theorem Plain.Holds.queue (holds : Holds given written state) (data : Bytes) :
    (Decoder.steps {} (toBits (written ++ state.queue data))).output.toList = given ++ data ∧
      (Decoder.steps {} (toBits (written ++ state.queue data))).Rests := by
  obtain ⟨decoder, output⟩ := holds
  rw [Plain.queue, ← List.append_assoc, toBits_append, Decoder.steps_append]
  cases begun : state.begun with
  | false =>
    rw [begun] at decoder
    obtain ⟨none, room⟩ := decoder
    have rests := Decoder.steps_streamHeader
    have deflated := Decoder.steps_deflate rests.1 data
    rw [rests.2] at deflated
    rw [none] at output ⊢
    obtain rfl : [] = given := output
    simp only [room, Bool.false_eq_true, false_and, if_false, toBits_append, Decoder.steps_append]
    exact ⟨by rw [show toBits [] = [] from rfl, Decoder.steps_nil, deflated.2]; simp, deflated.1⟩
  | true =>
    rw [begun] at decoder
    by_cases same : state.full ∧ data = []
    · rw [if_pos same, same.2, List.append_nil]
      exact ⟨output, decoder⟩
    · have deflated := Decoder.steps_deflate decoder data
      simp only [same, if_false, if_true, List.nil_append]
      exact ⟨by rw [deflated.2, ← output]; simp, deflated.1⟩

theorem Plain.holds_of_history {state : plain.State}
    (history : Deflater.History plain given written state) : Plain.Holds given written state := by
  induction history with
  | fresh => exact ⟨⟨rfl, rfl⟩, rfl⟩
  | @flush given written data space before after flushed history called ih =>
    cases called
    obtain ⟨output, rests⟩ := ih.queue data
    have all : written ++ (before.queue data).take space ++ (before.queue data).drop space =
        written ++ before.queue data := by
      rw [List.append_assoc, List.take_append_drop]
    constructor
    · dsimp only
      rw [all]
      exact rests
    · dsimp only
      rw [all, List.take_length, output]

theorem plain_lawful : plain.Lawful where
  works data space history some := ⟨_, _, rfl⟩
  decodable {given written data space before flushed after} history called room := by
    cases called
    rw [List.length_take] at room
    obtain ⟨output, rests⟩ := (Plain.holds_of_history history).queue data
    rw [List.take_of_length_le (by omega)]
    exact ⟨Decompressor.live_of_rests rests, output⟩

/-- However the room grows, what is collected is what there is to write. -/
theorem collect_plain (growth : Growth) {data out : Bytes} {capacity : Nat}
    (room : out.length < capacity) :
    plain.collect growth state data out capacity =
      .ok (out ++ state.queue data) ({ begun := true } : Plain) := by
  induction left : (state.queue data).length using Nat.strongRecOn generalizing state data out
    capacity with
  | _ left ih =>
    have called : plain.flush data (capacity - out.length) state = .ok _ _ := rfl
    rw [Deflater.collect_flush growth called]
    simp only [List.drop_length, true_and, List.length_append, List.length_take]
    by_cases complete : (state.queue data).length < capacity - out.length
    · rw [if_pos (by omega), List.take_of_length_le (by omega), List.drop_of_length_le (by omega),
        decide_eq_false (by omega)]
    · have full : out.length + min (capacity - out.length) (state.queue data).length = capacity := by
        omega
      have more := Deflater.reserve_full growth (Nat.le_refl capacity)
      have further : (out ++ (state.queue data).take (capacity - out.length)).length <
          growth.reserve capacity capacity (max capacity 256) := by
        rw [List.length_append, List.length_take, full]
        omega
      have rest := ih ((state.queue data).drop (capacity - out.length)).length
        (by rw [List.length_drop]; omega) further
        (congrArg List.length
          (Plain.queue_full true ((state.queue data).drop (capacity - out.length))))
      rw [if_neg (by omega), full, decide_eq_true (by omega)]
      rw [Plain.queue_full, List.append_assoc, List.take_append_drop] at rest
      exact rest

end Plain

end Zlib

section Instance

/-- A compressor whose stream is called with buffers. -/
def Compressor.buffered (c : Compressor) : StreamCompressor plain :=
  ⟨if c.active then some ({ begun := c.begun } : Plain) else none⟩

/-- Called through buffers that grow, the stream writes what the compressor writes. -/
theorem Compressor.compress_buffered (growth : Growth) (c : Compressor) (payload : Bytes) :
    StreamCompressor.compress growth payload c.buffered =
      .ok (c.compress payload).1 (c.compress payload).2.buffered := by
  cases on : c.active with
  | false => simp [Compressor.buffered, StreamCompressor.compress, Compressor.compress, on]
  | true =>
    have room : ([] : Bytes).length < growth.room (payload.length / 2 + 64) :=
      Nat.lt_of_lt_of_le (Nat.succ_pos _) (growth.enough (payload.length / 2 + 64))
    simp [Compressor.buffered, StreamCompressor.compress, Compressor.compress, on,
      collect_plain growth room, Plain.queue]

end Instance

section Relaying

variable {σ : Type}

/-- Sends payloads through a compressor and a decompressor, each one as soon as it has
been compressed. -/
def relay (compress : Bytes → EStateM Error σ Bytes) :
    List Bytes → EStateM Error (σ × Decompressor) (List Bytes)
  | [] => pure []
  | payload :: payloads => do
    let wire ← focus Prod.fst (fun c s => (c, s.2)) (compress payload)
    let received ← focus Prod.snd (fun d s => (s.1, d)) (Decompressor.decompress wire)
    return received :: (← relay compress payloads)

/-- A payload that comes out as it went in leaves the rest to be sent. -/
theorem relay_cons {compress : Bytes → EStateM Error σ Bytes} {c c' : σ} {d d' : Decompressor}
    {payload wire : Bytes} {payloads received : List Bytes} {after : σ × Decompressor}
    (compressed : compress payload c = .ok wire c')
    (decompressed : Decompressor.decompress wire d = .ok payload d')
    (others : relay compress payloads (c', d') = .ok received after) :
    relay compress (payload :: payloads) (c, d) = .ok (payload :: received) after := by
  rw [relay, bind_eq_ok_iff]
  refine ⟨wire, (c', d), focus_eq_ok_iff.2 ⟨c', compressed, rfl⟩, ?_⟩
  rw [bind_eq_ok_iff]
  refine ⟨payload, (c', d'), focus_eq_ok_iff.2 ⟨d', decompressed, rfl⟩, ?_⟩
  rw [bind_eq_ok_iff]
  exact ⟨received, after, others, rfl⟩

/-- Where a decompressor stands that has taken all that was written to it. -/
structure Decompressor.Decoded (d : Decompressor) (limit : Nat) (given written : Bytes) : Prop where
  scratch : 0 < d.scratch
  limit : d.limit = limit
  stream : d.stream = some ⟨.atEnd (Decoder.steps {} (toBits written)), []⟩
  output : (Decoder.steps {} (toBits written)).output.toList = given

/-- What follows on a stream that is decoded so far comes out as it was given. -/
theorem Decompressor.Decoded.decompress {d : Decompressor} {limit : Nat}
    {given written wire payload : Bytes} (decoded : d.Decoded limit given written)
    (decodes : Decodes (written ++ wire) (given ++ payload)) (fits : payload.length ≤ limit) :
    ∃ after, Decompressor.decompress wire d = .ok payload after ∧
      after.Decoded limit (given ++ payload) (written ++ wire) := by
  obtain ⟨live, output⟩ := decodes
  rw [toBits_append, Decoder.steps_append] at live output
  have received := Decompressor.decompress_steps decoded.scratch decoded.stream rfl live
    (by rw [output, decoded.output]) (decoded.limit.symm ▸ fits)
  refine ⟨_, received, decoded.scratch, decoded.limit, ?_, ?_⟩
  · rw [toBits_append, Decoder.steps_append]
  · rw [toBits_append, Decoder.steps_append, output]

theorem relay_lawful {deflater : Deflater} (lawful : deflater.Lawful) (growth : Growth)
    {limit : Nat} {payloads : List Bytes} (fits : ∀ payload ∈ payloads, payload.length ≤ limit)
    {state : deflater.State} {d : Decompressor} {given written : Bytes}
    (history : Deflater.History deflater given written state)
    (decoded : d.Decoded limit given written) :
    ∃ after, relay (StreamCompressor.compress growth) payloads
      ((⟨some state⟩ : StreamCompressor deflater), d) = .ok payloads after := by
  induction payloads generalizing state d given written with
  | nil => exact ⟨_, rfl⟩
  | cons payload payloads ih =>
    have room : ([] : Bytes).length < growth.room (payload.length / 2 + 64) :=
      Nat.lt_of_lt_of_le (Nat.succ_pos _) (growth.enough (payload.length / 2 + 64))
    obtain ⟨wire, after, collected, reached, decodes⟩ :=
      Deflater.collect_ok lawful growth history payload room
    obtain ⟨d', received, follows⟩ := decoded.decompress decodes (fits payload (by simp))
    obtain ⟨last, others⟩ := ih (fun other among => fits other (by simp [among])) reached follows
    have compressed : StreamCompressor.compress growth payload ⟨some state⟩ =
        .ok wire ⟨some after⟩ := by
      simp only [StreamCompressor.compress, collected, List.nil_append]
    exact ⟨last, relay_cons compressed received others⟩

theorem relay_follows {payloads : List Bytes} {c : Compressor} {d : Decompressor}
    (follows : d.Follows c) (fits : ∀ payload ∈ payloads, payload.length ≤ d.limit) :
    ∃ after, relay Compressor.step payloads (c, d) = .ok payloads after := by
  induction payloads generalizing c d with
  | nil => exact ⟨_, rfl⟩
  | cons payload payloads ih =>
    obtain ⟨after, received, next, limit⟩ := follows.decompress (fits payload (by simp))
    obtain ⟨last, others⟩ := ih next fun other among => limit ▸ fits other (by simp [among])
    exact ⟨last, relay_cons rfl received others⟩

/-- Payloads that are no larger than the decompressor accepts come out of the two streams
as they went in, each one before the next one is compressed, empty ones included. This
holds of the compressor and of every other deflate stream that does not fail, through
whatever buffers it is called. While both sides are inert nothing is changed. -/
theorem relay_payloads (scratch limit : Nat) :
    (∀ payload : Bytes,
      Compressor.step payload {} = .ok payload {} ∧
      (∀ (deflater : Deflater) (growth : Growth),
        StreamCompressor.compress growth payload ({} : StreamCompressor deflater) =
          .ok payload {}) ∧
      Decompressor.decompress payload (.create scratch limit) =
        .ok payload (.create scratch limit)) ∧
    ∀ payloads : List Bytes, (∀ payload ∈ payloads, payload.length ≤ limit) →
      (∃ after, relay Compressor.step payloads
        (Compressor.activate {}, (Decompressor.create scratch limit).activate) =
          .ok payloads after) ∧
      ∀ (deflater : Deflater) (growth : Growth), deflater.Lawful →
        ∃ after, relay (StreamCompressor.compress growth) payloads
          (StreamCompressor.activate ({} : StreamCompressor deflater),
            (Decompressor.create scratch limit).activate) = .ok payloads after := by
  constructor
  · intro payload
    exact ⟨rfl, fun deflater growth => rfl, rfl⟩
  · intro payloads fits
    constructor
    · exact relay_follows (Decompressor.create_follows scratch limit).activate fits
    · intro deflater growth lawful
      refine relay_lawful lawful growth fits Deflater.History.fresh ?_
      exact ⟨(Decompressor.create_follows scratch limit).scratch, rfl, rfl, rfl⟩

/-- The payloads of a connection, through the compressor's own stream and buffers that
never have more room than was asked for. -/
theorem relay_payloads_plain :
    (∀ payload ∈ ([[1, 1, 1, 1, 1], [], [2]] : List Bytes), payload.length ≤ 5) ∧
      plain.Lawful ∧
      ∃ after, relay (StreamCompressor.compress ⟨id, Nat.le_refl⟩) [[1, 1, 1, 1, 1], [], [2]]
        (StreamCompressor.activate ({} : StreamCompressor plain),
          (Decompressor.create 1 5).activate) = .ok [[1, 1, 1, 1, 1], [], [2]] after := by
  have fits : ∀ payload ∈ ([[1, 1, 1, 1, 1], [], [2]] : List Bytes), payload.length ≤ 5 := by decide
  exact ⟨fits, plain_lawful, ((relay_payloads 1 5).2 _ fits).2 plain ⟨id, Nat.le_refl⟩ plain_lawful⟩

end Relaying

end SecureShell
