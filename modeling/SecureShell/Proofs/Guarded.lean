import SecureShell.Proofs.DiffieHellman

/-! Arithmetic with guards: a difference below zero, a draw where there is nothing to draw
from and a remainder modulo zero have no result. The steps of an exchange are written down
once more with these operations, in their order, and have the results of the plain ones for
whatever numbers a server chooses; so none of them is asked for what it does not have. -/
namespace SecureShell.Guarded

def sub (a b : Nat) : Option Nat := if b ≤ a then some (a - b) else none

/-- A random number from `low` up to, but not including, `high`. -/
def draw (entropy : Entropy) (low high : Nat) : Option Nat :=
  if low < high then
    some (low + DhExchange.randomNumber entropy (high - low) % (high - low))
  else none

/-- The remainder of a power. -/
def power (base exponent modulus : Nat) : Option Nat :=
  if modulus = 0 then none else some (powMod base exponent modulus)

/-- The check of a group that a server has chosen. -/
def check (bounds : GroupBounds) (modulus generator : Nat) : Option (Except Error DhGroup) :=
  let bits := bitLength modulus
  if bits < bounds.least.toNat ∨ bounds.most.toNat < bits then
    some (.error (.crypto (.groupSize bits bounds.least bounds.most)))
  else if modulus % 2 = 0 then some (.error (.crypto .evenModulus))
  else do
    let last ← sub modulus 1
    if generator ≤ 1 ∨ last ≤ generator then return .error (.crypto .generatorOutOfRange)
    return .ok ⟨modulus, generator⟩

/-- A new exchange and its public value. -/
def create (entropy : Entropy) (group : DhGroup) : Option (DhExchange × Nat) := do
  let last ← sub group.modulus 1
  let exponent ← draw entropy 2 last
  let publicValue ← power group.generator exponent group.modulus
  return (⟨group, exponent⟩, publicValue)

/-- A new exchange in a group that a server has chosen. -/
def join (entropy : Entropy) (bounds : GroupBounds) (modulus generator : Nat) :
    Option (Except Error (DhExchange × Nat)) := do
  match ← check bounds modulus generator with
  | .error error => return .error error
  | .ok group => return .ok (← create entropy group)

/-- The secret that follows from a peer's value. -/
def sharedSecret (dh : DhExchange) (peer : Bytes) : Option (Except Error Bytes) := do
  let value := Bytes.toNat peer
  let last ← sub dh.group.modulus 1
  if value ≤ 1 ∨ last ≤ value then return .error (.crypto .peerOutOfRange)
  let secret ← power value dh.exponent dh.group.modulus
  return .ok (Bytes.ofNatNonempty secret)

theorem sub_eq_some {a b : Nat} (le : b ≤ a) : sub a b = some (a - b) := if_pos le

/-- A draw has a result where there is something to draw from, and it is in range. -/
theorem draw_spec (entropy : Entropy) (low high : Nat) :
    (draw entropy low high = none ↔ high ≤ low) ∧
    ∀ n ∈ draw entropy low high, low ≤ n ∧ n < high := by
  by_cases room : low < high
  · have below : DhExchange.randomNumber entropy (high - low) % (high - low) < high - low :=
      Nat.mod_lt _ (Nat.sub_pos_of_lt room)
    rw [draw, if_pos room]
    constructor
    · exact ⟨nofun, fun le => absurd room (Nat.not_lt.2 le)⟩
    · rintro n ⟨⟩
      omega
  · rw [draw, if_neg room]
    exact ⟨⟨fun _ => Nat.not_lt.1 room, fun _ => rfl⟩, nofun⟩

theorem power_eq_some {base exponent modulus : Nat} (nonzero : modulus ≠ 0) :
    power base exponent modulus = some (powMod base exponent modulus) := if_neg nonzero

/-- The check has a result for all numbers: what is even is refused before one is taken from
it, and what is not is no zero. -/
theorem check_eq (bounds : GroupBounds) (modulus generator : Nat) :
    check bounds modulus generator = some (DhGroup.check bounds modulus generator) := by
  unfold check DhGroup.check
  dsimp only
  split
  · rfl
  split
  · rfl
  · -- an odd modulus is at least 1, whatever the bounds let through
    rename_i odd
    rw [sub_eq_some (by omega)]
    by_cases outside : generator ≤ 1 ∨ modulus - 1 ≤ generator
    · simp only [Option.bind_eq_bind, Option.bind_some, if_pos outside]
      rfl
    · simp only [Option.bind_eq_bind, Option.bind_some, if_neg outside]
      rfl

/-- An exchange can be begun exactly in the groups that have an exponent for it. -/
theorem create_eq (entropy : Entropy) (group : DhGroup) :
    create entropy group = if group.modulus < 4 then none else
      some (DhExchange.create entropy group, (DhExchange.create entropy group).publicValue) := by
  unfold create
  by_cases small : group.modulus < 4
  · rw [if_pos small]
    by_cases zero : group.modulus = 0
    · rw [zero]
      rfl
    · have nothing : draw entropy 2 (group.modulus - 1) = none := (draw_spec ..).1.2 (by omega)
      rw [sub_eq_some (by omega), Option.bind_eq_bind, Option.bind_some, nothing]
      rfl
  · have drawn : draw entropy 2 (group.modulus - 1) =
        some (DhExchange.create entropy group).exponent := if_pos (by omega)
    rw [if_neg small, sub_eq_some (by omega), Option.bind_eq_bind, Option.bind_some, drawn,
      Option.bind_some, power_eq_some (by omega)]
    rfl

/-- Whatever a server chooses, joining its group has a result. -/
theorem join_eq (entropy : Entropy) (bounds : GroupBounds) (modulus generator : Nat) :
    join entropy bounds modulus generator =
      some ((DhGroup.check bounds modulus generator).map fun group =>
        (DhExchange.create entropy group, (DhExchange.create entropy group).publicValue)) := by
  rw [join, check_eq, Option.bind_eq_bind, Option.bind_some]
  cases checked : DhGroup.check bounds modulus generator with
  | error error => rfl
  | ok group =>
    have large : 5 ≤ group.modulus := (DhGroup.Admitted.chosen checked).sound.five_le
    simp only [create_eq, if_neg (show ¬ group.modulus < 4 by omega)]
    rfl

/-- A peer's value can be dealt with unless the modulus is zero. -/
theorem sharedSecret_eq (dh : DhExchange) (peer : Bytes) :
    sharedSecret dh peer =
      if dh.group.modulus = 0 then none else some (dh.sharedSecret peer) := by
  unfold sharedSecret DhExchange.sharedSecret
  by_cases zero : dh.group.modulus = 0
  · rw [if_pos zero, zero]
    rfl
  · dsimp only
    rw [if_neg zero, sub_eq_some (by omega), Option.bind_eq_bind, Option.bind_some]
    split
    · rfl
    · rw [power_eq_some zero]
      rfl

theorem sharedSecret_admitted {dh : DhExchange} (admitted : dh.group.Admitted) (peer : Bytes) :
    sharedSecret dh peer = some (dh.sharedSecret peer) := by
  have large : 5 ≤ dh.group.modulus := admitted.sound.five_le
  rw [sharedSecret_eq, if_neg (by omega)]

end SecureShell.Guarded
