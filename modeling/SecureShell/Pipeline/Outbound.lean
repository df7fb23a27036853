import SecureShell.Compression
import SecureShell.Focus
import SecureShell.Packet.Sealer

/-!
The way of a payload to the wire: it is compressed, framed and sealed.
-/
namespace SecureShell

structure Framer where
  blockSize : Nat := Packet.defaultBlockSize
  deriving DecidableEq

def Framer.frame (framer : Framer) (entropy : Entropy) (payload : Bytes) : Bytes :=
  (Packet.frame entropy framer.blockSize payload).toBytes

structure Outbound (σ : Type := Compressor) [Deflation σ] where
  compressor : σ := Deflation.inert
  framer : Framer := {}
  sealer : Sealer := {}
  deriving DecidableEq

namespace Outbound

variable {σ : Type} [Deflation σ]

def send (entropy : Entropy) (payload : Bytes) : EStateM Error (Outbound σ) Bytes := do
  let compressed ← focus Outbound.compressor
    (fun compressor outbound => { outbound with compressor }) (Deflation.compress payload)
  let framer := (← get).framer
  focus Outbound.sealer (fun sealer outbound => { outbound with sealer })
    (Sealer.protect (framer.frame entropy compressed))

theorem send_of_compress {entropy : Entropy} {payload compressed : Bytes} {outbound : Outbound σ}
    {compressor : σ}
    (deflated : Deflation.compress payload outbound.compressor = .ok compressed compressor) :
    send entropy payload outbound =
      focus Outbound.sealer (fun sealer outbound => { outbound with sealer })
        (Sealer.protect (outbound.framer.frame entropy compressed))
        { outbound with compressor } := by
  simp only [send, focus, bind_apply, get_apply, deflated]

theorem send_of_compress_error {entropy : Entropy} {payload : Bytes} {outbound : Outbound σ}
    {compressor : σ} {error : Error}
    (failed : Deflation.compress payload outbound.compressor = .error error compressor) :
    send entropy payload outbound = .error error { outbound with compressor } := by
  simp only [send, focus, bind_apply, failed]

/-- Has keys, and the block size that goes with them, for the payloads to come. -/
def arm (keys : DirectionKeys) (outbound : Outbound σ) : Except Error (Outbound σ) := do
  let sealer ← outbound.sealer.arm keys
  return { outbound with sealer, framer := ⟨sealer.blockSize⟩ }

def activateCompression (outbound : Outbound σ) : Outbound σ :=
  { outbound with compressor := Deflation.activate outbound.compressor }

def armed (outbound : Outbound σ) : Bool := outbound.sealer.armed

def compressing (outbound : Outbound σ) : Bool := Deflation.active outbound.compressor

def sequence (outbound : Outbound σ) : UInt32 := outbound.sealer.sequence

end Outbound

end SecureShell
