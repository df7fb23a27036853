import SecureShell.Bytes

/-!
Random bytes as a value: a source answers a request for `n` bytes with `n` bytes,
and a supply holds a source for every request of a connection. Nothing else is
assumed of them, so what is proved holds whatever the bytes are.
-/
namespace SecureShell

structure Entropy where
  bytes : Nat → Bytes
  length_bytes : ∀ n, (bytes n).length = n

/-- A source that answers every request from the start of one repeated pattern. -/
def Entropy.repeating (pattern : Bytes) : Entropy :=
  let cells := pattern.toArray
  ⟨fun n => (List.range n).map fun i => cells.getD (i % cells.size) 0, by simp⟩

/-- The sources that a connection uses one after the other. -/
structure Supply where
  source : Nat → Entropy

/-- A source that is used for every request. -/
instance : Coe Entropy Supply := ⟨fun entropy => ⟨fun _ => entropy⟩⟩

end SecureShell
