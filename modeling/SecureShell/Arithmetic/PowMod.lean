import SecureShell.Bytes

/-!
Powers modulo a number, by repeated squaring. Main statement: `powMod` is the
power's remainder, whatever the modulus.
-/
namespace SecureShell

/-- Multiplies `acc` by the power of `base` to the low `bits` digits of `exponent`. -/
def powModOnto (modulus : Nat) : (bits base exponent acc : Nat) → Nat
  | 0, _, _, acc => acc
  | bits + 1, base, exponent, acc =>
    powModOnto modulus bits (base * base % modulus) (exponent / 2)
      (if exponent % 2 = 1 then acc * base % modulus else acc)

def powMod (base exponent modulus : Nat) : Nat :=
  powModOnto modulus (bitLength exponent) (base % modulus) exponent (1 % modulus)

theorem lt_two_pow_bitLength (n : Nat) : n < 2 ^ bitLength n := by
  unfold bitLength
  split
  · simp_all
  · exact Nat.lt_log2_self

theorem powModOnto_mod (modulus bits base exponent acc : Nat) (h : exponent < 2 ^ bits) :
    powModOnto modulus bits base exponent acc % modulus = acc * base ^ exponent % modulus := by
  induction bits generalizing base exponent acc with
  | zero =>
    obtain rfl : exponent = 0 := by simpa using h
    simp [powModOnto]
  | succ bits ih =>
    have half : exponent / 2 < 2 ^ bits := by
      rw [Nat.pow_succ] at h
      omega
    have split : base ^ exponent = (base * base) ^ (exponent / 2) * base ^ (exponent % 2) := by
      rw [← Nat.pow_two, ← Nat.pow_mul, ← Nat.pow_add, Nat.div_add_mod]
    rw [powModOnto, ih _ _ _ half, Nat.mul_mod, Nat.pow_mod (base * base % modulus), Nat.mod_mod,
      ← Nat.pow_mod, split]
    by_cases odd : exponent % 2 = 1
    · rw [if_pos odd, odd, Nat.pow_one, Nat.mod_mod, ← Nat.mul_mod]
      congr 1
      rw [Nat.mul_assoc, Nat.mul_comm base]
    · have even : exponent % 2 = 0 := by omega
      rw [if_neg odd, even, Nat.pow_zero, Nat.mul_one, ← Nat.mul_mod]

theorem powModOnto_lt (modulus bits base exponent acc : Nat) (h : acc < modulus) :
    powModOnto modulus bits base exponent acc < modulus := by
  induction bits generalizing base exponent acc with
  | zero => exact h
  | succ bits ih =>
    apply ih
    split
    · exact Nat.mod_lt _ (by omega)
    · exact h

theorem powMod_eq (base exponent modulus : Nat) :
    powMod base exponent modulus = base ^ exponent % modulus := by
  have h := powModOnto_mod modulus _ (base % modulus) exponent (1 % modulus)
    (lt_two_pow_bitLength exponent)
  have value : powMod base exponent modulus % modulus = base ^ exponent % modulus := by
    rw [powMod, h, Nat.mul_mod, Nat.mod_mod, ← Nat.mul_mod, Nat.one_mul, ← Nat.pow_mod]
  rcases Nat.eq_zero_or_pos modulus with rfl | pos
  · simpa using value
  · rw [← value, Nat.mod_eq_of_lt]
    exact powModOnto_lt _ _ _ _ _ (Nat.mod_lt _ pos)

end SecureShell
