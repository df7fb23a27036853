import SecureShell.Zlib.Decoder

/-!
Inflating by the piece: a caller asks for at most so many bytes. Output is
released one window at a time; as long as released bytes wait to be delivered, no
more bits are taken.
-/
namespace SecureShell.Zlib

structure Inflater where
  decoder : Decoder := {}
  /-- How much of the output has been released. -/
  released : Nat := 0
  /-- How much of the output has been delivered. -/
  delivered : Nat := 0

namespace Inflater

/-- Has the stream ended, with all of its output delivered? -/
def ended (i : Inflater) : Bool := i.decoder.isFinished && i.delivered == i.released

/-- Decodes up to the end of the current window. -/
def advance (i : Inflater) (bits : List Bool) : Inflater × List Bool :=
  let room := (i.released / windowSize + 1) * windowSize
  let (decoder, rest) := i.decoder.run room bits
  ({ i with decoder, released := min decoder.output.size room }, rest)

/-- Hands out at most `space` of the released bytes. -/
def deliver (i : Inflater) (space : Nat) : List UInt8 × Inflater :=
  let stop := i.delivered + min space (i.released - i.delivered)
  ((i.decoder.output.extract i.delivered stop).toList, { i with delivered := stop })

/-- Is there no whole byte among the bits? -/
def lacksByte (bits : List Bool) : Bool := (bits.drop 7).isEmpty

/-- Decodes window after window until the space is full or the bits are used up.
Gives nothing if the stream is corrupt. -/
def fill (i : Inflater) (space : Nat) (done : Bytes) (bits : List Bool) :
    Option (Bytes × Inflater × List Bool) :=
  match i.advance bits with
  | (i, rest) =>
    if i.decoder.isCorrupt then none
    else
      match i.deliver space with
      | (bytes, i) =>
        if _ : bytes.length = 0 ∨ space ≤ bytes.length ∨ i.delivered < i.released ∨ i.ended ∨
            lacksByte rest then
          some (done ++ bytes, i, rest)
        else i.fill (space - bytes.length) (done ++ bytes) rest
  termination_by space
  decreasing_by omega

end Inflater

end SecureShell.Zlib
