import SecureShell.Bytes

/-!
Bit strings in the order of a compressed stream: the lowest bit of a byte, or of a
number, comes first.
-/
namespace SecureShell.Zlib

/-- The low `width` bits of a number, the lowest first. -/
def lowBits (width n : Nat) : List Bool := (List.range width).map n.testBit

def bitsValue (bits : List Bool) : Nat := bits.foldr (fun bit n => bit.toNat + 2 * n) 0

def toBits (bytes : Bytes) : List Bool := bytes.flatMap fun b => lowBits 8 b.toNat

def packOnto (done : Bytes) (bits : List Bool) : Bytes :=
  if _ : bits = [] then done.reverse
  else packOnto (UInt8.ofNat (bitsValue (bits.take 8)) :: done) (bits.drop 8)
  termination_by bits.length
  decreasing_by
    have := List.length_pos_iff.2 ‹bits ≠ []›
    simp only [List.length_drop]
    omega

/-- Packs bits into bytes; what is missing of the last byte is zero. -/
def pack (bits : List Bool) : Bytes := packOnto [] bits

@[simp] theorem length_lowBits (width n : Nat) : (lowBits width n).length = width := by
  simp [lowBits]

theorem lowBits_succ (width n : Nat) :
    lowBits (width + 1) n = n.testBit 0 :: lowBits width (n / 2) := by
  simp [lowBits, List.range_succ_eq_map, Function.comp_def, Nat.testBit_succ]

theorem bitsValue_lowBits (width n : Nat) : bitsValue (lowBits width n) = n % 2 ^ width := by
  induction width generalizing n with
  | zero => simp [lowBits, bitsValue, Nat.mod_one]
  | succ w ih =>
    rw [lowBits_succ, bitsValue, List.foldr_cons, ← bitsValue, ih, Nat.pow_succ, Nat.mul_comm (2 ^ w),
      Nat.mod_mul, Nat.testBit_zero]
    rcases Nat.mod_two_eq_zero_or_one n with h | h <;> simp [h]

end SecureShell.Zlib
