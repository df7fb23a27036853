/-!
Inverses modulo a number, by Euclid's algorithm with one coefficient carried along.
-/
namespace SecureShell

/-- The greatest common divisor of two numbers, and by how much the first of a pair
must be multiplied to give it; `s` and `t` are those multiples for `a` and `b`. -/
def divisorWithMultiple (a b : Nat) (s t : Int) : Nat × Int :=
  if _ : b = 0 then (a, s) else divisorWithMultiple b (a % b) t (s - (a / b : Nat) * t)
  termination_by b
  decreasing_by exact Nat.mod_lt _ (Nat.pos_of_ne_zero ‹_›)

def inverseMod (a m : Nat) : Option Nat :=
  let (divisor, multiple) := divisorWithMultiple a m 1 0
  if divisor = 1 then some (multiple % (m : Int)).toNat else none

end SecureShell
