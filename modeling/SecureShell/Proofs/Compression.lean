import SecureShell.Compression
import SecureShell.Focus
import SecureShell.Proofs.Inflation
import SecureShell.Proofs.Zlib.Deflate

/-! A decompressor that has taken all payloads of a compressor takes the next one, and
is again where the compressor is, whether compression is on or not. -/
namespace SecureShell

def Deflation.Fails (σ : Type) [Deflation σ] (error : Error) : Prop :=
  ∃ (running after : σ) (payload : Bytes), Deflation.active running = true ∧
    Deflation.compress payload running = .error error after

theorem Deflation.fails_of_compress {σ : Type} [Deflation σ] {compressor after : σ}
    {payload : Bytes} {error : Error}
    (failed : Deflation.compress payload compressor = .error error after) :
    Deflation.active compressor = true ∧ Deflation.Fails σ error := by
  cases running : Deflation.active compressor with
  | true => exact ⟨rfl, compressor, after, payload, running, failed⟩
  | false =>
    rw [Deflation.compress_inert payload running] at failed
    cases failed

theorem Compressor.not_fails (error : Error) : ¬ Deflation.Fails Compressor error := by
  rintro ⟨running, after, payload, -, failed⟩
  cases failed

open Zlib

namespace Decompressor

/-- Of a stream that is decoded up to its end, what is written next comes out at once. -/
theorem decompress_steps {d : Decompressor} {decoder last : Decoder} {wire payload : Bytes}
    (pos : 0 < d.scratch) (held : d.stream = some ⟨.atEnd decoder, []⟩)
    (steps : decoder.steps (toBits wire) = last) (live : last.Live)
    (output : last.output.toList = decoder.output.toList ++ payload)
    (fits : payload.length ≤ d.limit) :
    decompress wire d = .ok payload { d with stream := some ⟨.atEnd last, []⟩ } := by
  have exhausted : decoder.exhaust (toBits wire) = (last, []) :=
    steps ▸ Decoder.exhaust_of_live _ (steps.symm ▸ live)
  have meaning : (contract decoder).output wire = payload := by
    simp only [contract, exhausted, output]
    rw [← Array.length_toList, List.drop_left]
  have admits : (contract decoder).Admits wire 0 d.limit := by
    refine ⟨?_, ?_, ?_⟩
    · simp only [contract, exhausted, live.2]
      decide
    · rwa [meaning, Nat.zero_add]
    · simp only [contract, exhausted]
      simp
  rcases (contract decoder).gather_outcome d.limit d.limit wire pos
    (contract decoder).within_origin with ⟨-, -, after, gathered, -, rests⟩ | ⟨refused, -⟩
  · obtain rfl := eq_of_rests rests exhausted live
    rw [List.nil_append, meaning, List.drop_zero] at gathered
    simp only [decompress, decompressWith, bind_apply, get_apply, held, gathered, set_apply,
      pure_apply]
  · exact absurd admits refused

end Decompressor

/-- Has delivered all there was and waits for the next payload, or for the beginning of
the stream. -/
structure InflateStream.Waits (stream : InflateStream) (begun : Bool) : Prop where
  delivered : stream = ⟨.atEnd stream.inflater.decoder, []⟩
  decoder : if begun then stream.inflater.decoder.Rests else stream.inflater.decoder = {}

/-- Where a decompressor stands that has taken all that a compressor has written. -/
structure Decompressor.Follows (d : Decompressor) (c : Compressor) : Prop where
  scratch : 0 < d.scratch
  active : d.active = c.active
  inert : c.active = false → c.begun = false
  waits : ∀ stream, d.stream = some stream → stream.Waits c.begun

namespace Decompressor

theorem create_follows (scratch limit : Nat) : (create scratch limit).Follows {} where
  scratch := by
    simp only [create]
    omega
  active := rfl
  inert _ := rfl
  waits stream none := by cases none

variable {d : Decompressor} {c : Compressor}

theorem Follows.activate (follows : d.Follows c) : d.activate.Follows c.activate where
  scratch := follows.scratch
  active := rfl
  inert off := by cases off
  waits stream running := by
    cases held : d.stream with
    | some before =>
      obtain rfl : before = stream := by simpa [Decompressor.activate, activateWith, held] using running
      exact follows.waits before held
    | none =>
      have off : c.active = false := by rw [← follows.active, Decompressor.active, held, Option.isSome_none]
      obtain rfl : inflation.start = stream := by
        simpa [Decompressor.activate, activateWith, held] using running
      refine ⟨rfl, ?_⟩
      have fresh : c.activate.begun = false := follows.inert off
      rw [fresh]
      rfl

/-- Where the stream of a payload leads a waiting decoder. -/
theorem steps_compress (on : c.active = true) {decoder : Decoder}
    (waits : if c.begun then decoder.Rests else decoder = {}) (payload : Bytes) :
    (decoder.steps (toBits (c.compress payload).1)).Rests ∧
      (decoder.steps (toBits (c.compress payload).1)).output = decoder.output ++ payload.toArray := by
  rw [Compressor.compress, if_pos on]
  cases begun : c.begun with
  | true =>
    rw [begun] at waits
    exact Decoder.steps_deflate waits payload
  | false =>
    rw [begun] at waits
    obtain rfl : decoder = {} := waits
    have rests := Decoder.steps_streamHeader
    have deflated := Decoder.steps_deflate rests.1 payload
    rw [rests.2] at deflated
    simp only [Bool.false_eq_true, if_false, toBits_append, Decoder.steps_append]
    exact deflated

theorem live_of_rests {decoder : Decoder} (rests : decoder.Rests) : decoder.Live := by
  simp [Decoder.Live, Decoder.isFinished, Decoder.isCorrupt, rests.stage]

/-- Decompressing undoes compressing. -/
theorem Follows.decompress (follows : d.Follows c) {payload : Bytes}
    (fits : payload.length ≤ d.limit) :
    ∃ after, Decompressor.decompress (c.compress payload).1 d = .ok payload after ∧
      after.Follows (c.compress payload).2 ∧ after.limit = d.limit := by
  cases held : d.stream with
  | none =>
    have off : c.active = false := by
      rw [← follows.active, Decompressor.active, held, Option.isSome_none]
    have inert : c.compress payload = (payload, c) := by simp [Compressor.compress, off]
    rw [inert]
    refine ⟨d, ?_, follows, rfl⟩
    simp only [Decompressor.decompress, decompressWith, bind_apply, get_apply, held, pure_apply]
  | some stream =>
    have on : c.active = true := by
      rw [← follows.active, Decompressor.active, held, Option.isSome_some]
    obtain ⟨delivered, waits⟩ := follows.waits stream held
    generalize stream.inflater.decoder = decoder at delivered waits
    subst delivered
    obtain ⟨rests, output⟩ := steps_compress on waits payload
    generalize reached : decoder.steps (toBits (c.compress payload).1) = last at rests output
    have begun : (c.compress payload).2 = { c with begun := true } := by
      rw [Compressor.compress, if_pos on]
    refine ⟨{ d with stream := some ⟨.atEnd last, []⟩ }, ?_, ?_, rfl⟩
    · exact decompress_steps follows.scratch held reached (live_of_rests rests) (by simp [output]) fits
    · rw [begun]
      refine ⟨follows.scratch, on.symm, ?_, ?_⟩
      · intro off
        rw [on] at off
        cases off
      · intro stream running
        cases running
        exact ⟨rfl, rests⟩

end Decompressor

end SecureShell
