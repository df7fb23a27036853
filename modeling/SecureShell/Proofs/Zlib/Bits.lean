import SecureShell.Zlib.Bits

/-! Bit strings and the numbers they denote, in both directions, and how bits that are
packed into bytes come out of them again. -/
namespace SecureShell.Zlib

theorem lowBits_none (n : Nat) : lowBits 0 n = [] := rfl

theorem lowBits_zero (width : Nat) : lowBits width 0 = List.replicate width false := by
  induction width with
  | zero => rfl
  | succ w ih => rw [lowBits_succ, Nat.zero_testBit, Nat.zero_div, ih, List.replicate_succ]

@[simp] theorem bitsValue_nil : bitsValue [] = 0 := rfl

theorem bitsValue_cons (bit : Bool) (bits : List Bool) :
    bitsValue (bit :: bits) = bit.toNat + 2 * bitsValue bits := rfl

theorem bitsValue_append (a b : List Bool) :
    bitsValue (a ++ b) = bitsValue a + 2 ^ a.length * bitsValue b := by
  induction a with
  | nil => simp
  | cons bit rest ih =>
    rw [List.cons_append, bitsValue_cons, bitsValue_cons, ih, List.length_cons, Nat.pow_succ,
      Nat.mul_add, Nat.add_assoc, Nat.mul_comm (2 ^ _) 2, Nat.mul_assoc]

@[simp] theorem bitsValue_zeros (count : Nat) : bitsValue (List.replicate count false) = 0 := by
  induction count with
  | zero => rfl
  | succ n ih => simp [List.replicate_succ, bitsValue_cons, ih]

/-- The bits of a number, up to a width that is not too small, followed by zeros. -/
theorem lowBits_bitsValue (bits : List Bool) (more : Nat) :
    lowBits (bits.length + more) (bitsValue bits) = bits ++ List.replicate more false := by
  induction bits with
  | nil => rw [List.length_nil, Nat.zero_add, bitsValue_nil, lowBits_zero, List.nil_append]
  | cons bit rest ih =>
    have odd : (bit.toNat + 2 * bitsValue rest).testBit 0 = bit := by
      cases bit <;> simp [Nat.testBit_zero]
    have half : (bit.toNat + 2 * bitsValue rest) / 2 = bitsValue rest := by
      cases bit with
      | false => simp
      | true =>
        simp only [Bool.toNat_true]
        omega
    rw [List.length_cons, Nat.succ_add, lowBits_succ, bitsValue_cons, odd, half, ih,
      List.cons_append]

theorem bitsValue_lt (bits : List Bool) : bitsValue bits < 2 ^ bits.length := by
  induction bits with
  | nil => simp
  | cons bit rest ih =>
    have := bit.toNat_lt
    rw [bitsValue_cons, List.length_cons, Nat.pow_succ]
    omega

@[simp] theorem toBits_append (a b : Bytes) : toBits (a ++ b) = toBits a ++ toBits b := by
  simp [toBits]

@[simp] theorem length_toBits (bytes : Bytes) : (toBits bytes).length = 8 * bytes.length := by
  induction bytes with
  | nil => rfl
  | cons b rest ih =>
    rw [← List.singleton_append, toBits_append, List.length_append, ih]
    simp [toBits]
    omega

/-- Where bits have been taken from the front, behind those of a byte taken in part, the
others are the rest of a byte and whole bytes. -/
theorem exists_part {carry taken more : List Bool} {input : Bytes} (few : carry.length < 8)
    (split : carry ++ toBits input = taken ++ more) :
    ∃ part, input = part ++ input.drop (input.length - more.length / 8) ∧
      carry ++ toBits part = taken ++ more.take (more.length % 8) ∧
      toBits (input.drop (input.length - more.length / 8)) = more.drop (more.length % 8) := by
  generalize count : input.length - more.length / 8 = n
  have cut : (carry ++ toBits (input.take n)) ++ toBits (input.drop n) =
      (taken ++ more.take (more.length % 8)) ++ more.drop (more.length % 8) := by
    rw [List.append_assoc, ← toBits_append, List.take_append_drop, split, List.append_assoc,
      List.take_append_drop]
  have fits : carry.length + 8 * input.length = taken.length + more.length := by
    have := congrArg List.length split
    rwa [List.length_append, List.length_append, length_toBits] at this
  have length : (toBits (input.drop n)).length = (more.drop (more.length % 8)).length := by
    rw [length_toBits, List.length_drop, List.length_drop]
    omega
  obtain ⟨front, back⟩ := List.append_inj' cut length
  exact ⟨input.take n, (List.take_append_drop n input).symm, front, back⟩

def lacking (length : Nat) : Nat := (8 - length % 8) % 8

theorem toBits_byte {bits : List Bool} (few : bits.length ≤ 8) :
    toBits [UInt8.ofNat (bitsValue bits)] = bits ++ List.replicate (8 - bits.length) false := by
  have small : bitsValue bits < 256 :=
    Nat.lt_of_lt_of_le (bitsValue_lt bits) (Nat.pow_le_pow_right (by decide) few)
  have back := lowBits_bitsValue bits (8 - bits.length)
  rw [Nat.add_sub_cancel' few] at back
  simp only [toBits, List.flatMap_cons, List.flatMap_nil, List.append_nil, UInt8.toNat_ofNat',
    Nat.mod_eq_of_lt small, back]

theorem toBits_packOnto (done : Bytes) (bits : List Bool) :
    toBits (packOnto done bits) =
      toBits done.reverse ++ bits ++ List.replicate (lacking bits.length) false := by
  fun_induction packOnto done bits with
  | case1 done => simp [lacking]
  | case2 done bits more ih =>
    rw [ih, List.reverse_cons, toBits_append]
    by_cases last : bits.length ≤ 8
    · have pos := List.length_pos_iff.2 more
      have all : bits.take 8 = bits := List.take_of_length_le last
      have none : bits.drop 8 = [] := List.drop_of_length_le last
      have lacks : lacking bits.length = 8 - bits.length := by
        rw [lacking]
        omega
      rw [all, none, toBits_byte last, lacks]
      simp [lacking]
    · have eight : (bits.take 8).length = 8 := by
        rw [List.length_take]
        omega
      have lacks : lacking (bits.drop 8).length = lacking bits.length := by
        rw [lacking, lacking, List.length_drop]
        omega
      rw [toBits_byte (Nat.le_of_eq eight), eight, lacks]
      simp

/-- Packed bits come out again, followed by the zeros that fill the last byte. -/
theorem toBits_pack (bits : List Bool) :
    toBits (pack bits) = bits ++ List.replicate (lacking bits.length) false := by
  rw [pack, toBits_packOnto]
  rfl

end SecureShell.Zlib
