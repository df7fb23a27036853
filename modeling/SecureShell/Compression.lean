import SecureShell.Error
import SecureShell.Zlib.Deflate
import SecureShell.Zlib.Deflater
import SecureShell.Zlib.Inflater

/-!
Compression of payloads. Each direction is one stream that begins when
compression is switched on; before that payloads pass as they are. Every payload
is flushed, so it can be inflated without the next one.
-/
namespace SecureShell

/-- The states of an outbound side, over some library that deflates and may fail. Nothing is
deflated before the side is switched on. -/
class Deflation (σ : Type) where
  inert : σ
  active : σ → Bool
  /-- Switches compression on; a stream that runs goes on. -/
  activate : σ → σ
  compress (payload : Bytes) : EStateM Error σ Bytes
  active_inert : active inert = false
  active_activate (c : σ) : active (activate c) = true
  compress_inert {c : σ} (payload : Bytes) : active c = false → compress payload c = .ok payload c

/-- The outbound side over this library's own stream, which does not fail. -/
structure Compressor where
  active : Bool := false
  /-- Has the beginning of the stream been written? -/
  begun : Bool := false
  deriving DecidableEq

namespace Compressor

/-- Switches compression on; a stream that runs goes on. -/
def activate (c : Compressor) : Compressor := { c with active := true }

def compress (c : Compressor) (payload : Bytes) : Bytes × Compressor :=
  if c.active then
    ((if c.begun then [] else Zlib.streamHeader) ++ Zlib.deflate payload, { c with begun := true })
  else (payload, c)

/-- Compresses one payload, as a step that could fail. -/
def step (payload : Bytes) : EStateM Error Compressor Bytes := fun c =>
  .ok (c.compress payload).1 (c.compress payload).2

instance : Deflation Compressor where
  inert := {}
  active := active
  activate := activate
  compress := step
  active_inert := rfl
  active_activate _ := rfl
  compress_inert payload inert := by
    simp only [step, compress, inert, Bool.false_eq_true, if_false]

def summary (c : Compressor) : String := "Compressor \x7b active: " ++ toString c.active ++ " \x7d"

end Compressor

/-- The outbound side over a given deflate stream, which runs once it is active. -/
structure StreamCompressor (deflater : Zlib.Deflater) where
  stream : Option deflater.State := none

namespace StreamCompressor

variable {deflater : Zlib.Deflater}

def activate (c : StreamCompressor deflater) : StreamCompressor deflater :=
  ⟨some (c.stream.getD deflater.fresh)⟩

/-- Compresses one payload, or passes it on while inert. -/
def compress (growth : Zlib.Growth) (payload : Bytes) :
    EStateM Error (StreamCompressor deflater) Bytes := fun c =>
  match c.stream with
  | none => .ok payload c
  | some state =>
    match deflater.collect growth state payload [] (growth.room (payload.length / 2 + 64)) with
    | .ok out after => .ok out ⟨some after⟩
    | .error error after => .error error ⟨some after⟩

/-- Such a side, with buffers that grow in this way. -/
@[reducible]
def deflation (deflater : Zlib.Deflater) (growth : Zlib.Growth) :
    Deflation (StreamCompressor deflater) where
  inert := {}
  active c := c.stream.isSome
  activate := activate
  compress := compress growth
  active_inert := rfl
  active_activate _ := rfl
  compress_inert {c} payload inert := by
    have none : c.stream = .none := by simpa using inert
    simp only [compress, none]

end StreamCompressor

/-- A library that inflates streams by the piece. -/
structure Inflation (σ : Type) where
  /-- The beginning of a stream. -/
  start : σ
  /-- Takes input, and gives at most `space` bytes and what is left of the input; nothing
  where the stream is corrupt. -/
  inflate : σ → (space : Nat) → (input : Bytes) → Option (Bytes × Bytes) × σ
  /-- Has the stream ended, with all of its output given? -/
  ended : σ → Bool

structure InflateStream where
  inflater : Zlib.Inflater := {}
  /-- The bits of a byte that has been taken in part. -/
  carry : List Bool := []

namespace InflateStream

/-- Gives bytes that wait. Where none do, it takes input and decodes it: of a byte that is
taken in part, the other bits wait for more. -/
def inflate (stream : InflateStream) (space : Nat) (input : Bytes) :
    Option (Bytes × Bytes) × InflateStream :=
  let inflater := stream.inflater
  if inflater.decoder.isCorrupt then (none, stream)
  else if inflater.delivered < inflater.released then
    let (bytes, inflater) := inflater.deliver space
    (some (bytes, input), { stream with inflater })
  else
    match inflater.fill space [] (stream.carry ++ Zlib.toBits input) with
    | none => (none, ⟨{ inflater with decoder := inflater.decoder.fail }, []⟩)
    | some (bytes, inflater, bits) =>
      (some (bytes, input.drop (input.length - bits.length / 8)),
        ⟨inflater, bits.take (bits.length % 8)⟩)

end InflateStream

def Zlib.inflation : Inflation InflateStream where
  start := {}
  inflate := InflateStream.inflate
  ended stream := stream.inflater.ended

structure Decompressor (σ : Type := InflateStream) where
  stream : Option σ := none
  /-- How much is inflated in one step. -/
  scratch : Nat
  /-- The largest inflated payload that is accepted. -/
  limit : Nat

namespace Decompressor

def create (scratch limit : Nat) (σ : Type := InflateStream) : Decompressor σ :=
  { scratch := max scratch 64, limit }

section Library

variable {σ : Type} (library : Inflation σ)

def active (d : Decompressor σ) : Bool := d.stream.isSome

def activateWith (d : Decompressor σ) : Decompressor σ :=
  { d with stream := some (d.stream.getD library.start) }

/-- Collects at most `room` bytes of output, step by step. -/
def gather (scratch limit room : Nat) (stream : σ) (input : Bytes) :
    Except ProtocolFault Bytes × σ :=
  match library.inflate stream scratch input with
  | (none, stream) => (.error .inflateFailed, stream)
  | (some (bytes, rest), stream) =>
    if room < bytes.length then (.error (.inflatedTooLarge limit), stream)
    else if bytes.length = 0 ∨ library.ended stream then
      (if rest.isEmpty then .ok bytes else .error .trailingData, stream)
    else
      match gather scratch limit (room - bytes.length) stream rest with
      | (.ok more, stream) => (.ok (bytes ++ more), stream)
      | (.error fault, stream) => (.error fault, stream)
  termination_by room

/-- Inflates one payload, or passes it on while inert. -/
def decompressWith (payload : Bytes) : EStateM Error (Decompressor σ) Bytes := do
  let d ← get
  match d.stream with
  | none => return payload
  | some stream =>
    let (result, stream) := gather library d.scratch d.limit d.limit stream payload
    set { d with stream := some stream }
    match result with
    | .ok bytes => return bytes
    | .error fault => throw (.protocol fault)

end Library

def activate (d : Decompressor) : Decompressor := d.activateWith Zlib.inflation

def decompress (payload : Bytes) : EStateM Error Decompressor Bytes :=
  decompressWith Zlib.inflation payload

def summary (d : Decompressor) : String :=
  "Decompressor \x7b active: " ++ toString d.active ++ ", scratch_size: " ++ toString d.scratch ++
    " \x7d"

end Decompressor

end SecureShell
