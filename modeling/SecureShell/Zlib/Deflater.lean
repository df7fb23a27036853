import SecureShell.Bytes
import SecureShell.Error

/-!
Deflating through a buffer. A deflate stream takes bytes off the front of what it is
given and fills the room that it is offered; whether a flush is complete shows only
in the room that it leaves. The stream itself is a parameter.
-/
namespace SecureShell.Zlib

structure Flushed where
  /-- How many bytes of the data were taken. -/
  taken : Nat
  written : Bytes

/-- A deflate stream, called for a sync flush with data and an amount of room. A flush
goes on until the room is full, or all data is taken and everything is written. What it
still has to write is bounded, also where a call had too little room for all of it. -/
structure Deflater where
  State : Type
  fresh : State
  flush : (data : Bytes) → (space : Nat) → EStateM String State Flushed
  bound : State → (data : Bytes) → Nat
  fits : ∀ {data space before flushed after}, flush data space before = .ok flushed after →
    flushed.written.length ≤ space
  takes : ∀ {data space before flushed after}, flush data space before = .ok flushed after →
    flushed.written.length < space → data.length ≤ flushed.taken
  bounded : ∀ {data space before flushed after}, flush data space before = .ok flushed after →
    bound before data < space → flushed.written.length < space
  steady : ∀ {data space before flushed after}, flush data space before = .ok flushed after →
    flushed.written.length = space → bound after (data.drop flushed.taken) ≤ bound before data

/-- How much room a buffer gets that asks for some. -/
structure Growth where
  room : Nat → Nat
  enough : ∀ least, least ≤ room least

def Growth.reserve (growth : Growth) (length capacity additional : Nat) : Nat :=
  if additional ≤ capacity - length then capacity else growth.room (length + additional)

namespace Deflater

variable {deflater : Deflater} {before after : deflater.State} {data out : Bytes}
  {space capacity : Nat} {flushed : Flushed}

/-- A call that does not end a flush fills the room that it has, which is within the bound. -/
theorem fills (called : deflater.flush data space before = .ok flushed after)
    (unfinished : ¬(data.drop flushed.taken = [] ∧ flushed.written.length < space)) :
    flushed.written.length = space ∧ space ≤ deflater.bound before data := by
  by_cases left : flushed.written.length < space
  · exact absurd ⟨List.drop_of_length_le (deflater.takes called left), left⟩ unfinished
  · have := deflater.fits called
    exact ⟨by omega, Nat.not_lt.1 fun enough => left (deflater.bounded called enough)⟩

/-- A buffer that is full gets as much room again as it has capacity, at least. -/
theorem reserve_full (growth : Growth) {length : Nat} (full : capacity ≤ length) :
    length + max capacity 256 ≤ growth.reserve length capacity (max capacity 256) := by
  rw [Growth.reserve, if_neg (by omega)]
  exact growth.enough _

/-- How far a flush into a buffer is from its end: there is more room for what is bound to
come with every call, except behind the first one. -/
def remaining (deflater : Deflater) (state : deflater.State) (data out : Bytes) (capacity : Nat) :
    Nat :=
  2 * (deflater.bound state data + 1 - (capacity - out.length)) + if out = [] then 1 else 0

theorem remaining_lt (growth : Growth)
    (called : deflater.flush data (capacity - out.length) before = .ok flushed after)
    (unfinished : ¬(data.drop flushed.taken = [] ∧ flushed.written.length < capacity - out.length)) :
    deflater.remaining after (data.drop flushed.taken) (out ++ flushed.written)
        (growth.reserve (out ++ flushed.written).length capacity (max capacity 256)) <
      deflater.remaining before data out capacity := by
  obtain ⟨full, within⟩ := fills called unfinished
  have steady := deflater.steady called full
  have length : (out ++ flushed.written).length = out.length + (capacity - out.length) := by
    rw [List.length_append, full]
  have more := reserve_full growth (show capacity ≤ (out ++ flushed.written).length by omega)
  rw [remaining, remaining]
  by_cases empty : out = []
  · have zero : out.length = 0 := by rw [empty, List.length_nil]
    by_cases none : out ++ flushed.written = []
    · rw [none, List.length_nil] at length more ⊢
      rw [if_pos empty, if_pos rfl]
      omega
    · rw [if_pos empty, if_neg none]
      omega
  · have some := List.length_pos_iff.2 empty
    rw [if_neg empty, if_neg (by simp [empty])]
    omega

/-- Calls the stream until all data is taken and room is left, with more room each time. -/
def collect (deflater : Deflater) (growth : Growth) (state : deflater.State)
    (data out : Bytes) (capacity : Nat) : EStateM.Result Error deflater.State Bytes :=
  match _ : deflater.flush data (capacity - out.length) state with
  | .error reason after => .error (.protocol (.other ("Deflate failed: " ++ reason))) after
  | .ok flushed after =>
    let rest := data.drop flushed.taken
    let out' := out ++ flushed.written
    if _ : rest = [] ∧ out'.length < capacity then .ok out' after
    else
      deflater.collect growth after rest out'
        (growth.reserve out'.length capacity (max capacity 256))
  termination_by deflater.remaining state data out capacity
  decreasing_by
    refine remaining_lt growth ‹_› fun done => ‹¬(rest = [] ∧ out'.length < capacity)› ⟨done.1, ?_⟩
    have := done.2
    rw [List.length_append]
    omega

end Deflater

end SecureShell.Zlib
