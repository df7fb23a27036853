import SecureShell.Proofs.Wire

/-! Integers on the wire are in two's complement, and one that is not negative has a single
written form: the shortest one. Zeros in front of a magnitude are lost on the way out and
on the way in, so that equal numbers have equal encodings. -/
namespace SecureShell

namespace Bytes

/-- The integer that a byte string denotes in two's complement, where the first bit says
whether it is negative; the empty string denotes zero. -/
def toInt (bytes : Bytes) : Int :=
  if bytes.headD 0 < 0x80 then bytes.toNat else bytes.toNat - (256 ^ bytes.length : Nat)

theorem toInt_of_positive {bytes : Bytes} (positive : bytes.headD 0 < 0x80) :
    bytes.toInt = bytes.toNat :=
  if_pos positive

theorem toInt_of_negative {bytes : Bytes} (negative : ¬ bytes.headD 0 < 0x80) : bytes.toInt < 0 := by
  have below := toNat_lt bytes
  rw [toInt, if_neg negative]
  omega

/-- A form of a natural number has its sign bit clear. -/
theorem toInt_eq_natCast_iff {bytes : Bytes} {n : Nat} :
    bytes.toInt = n ↔ bytes.headD 0 < 0x80 ∧ bytes.toNat = n := by
  by_cases positive : bytes.headD 0 < 0x80
  · rw [toInt_of_positive positive, Int.ofNat_inj]
    exact (and_iff_right positive).symm
  · have below := toInt_of_negative positive
    constructor
    · intro same
      omega
    · intro form
      exact absurd form.1 positive

end Bytes

namespace Wire

/-- The shortest two's complement form of a natural number: the sign bit is clear, a zero
byte in front is there for the sign bit alone, and every other form is longer. -/
structure Shortest (n : Nat) (body : Bytes) : Prop where
  value : body.toInt = n
  positive : body.headD 0 < 0x80
  needed : ∀ tail, body = 0 :: tail → 0x80 ≤ tail.headD 0
  least : ∀ other : Bytes, other.toInt = n → other ≠ body → body.length < other.length

theorem mpintBody_needed {magnitude tail : Bytes} (zero : mpintBody magnitude = 0 :: tail) :
    0x80 ≤ tail.headD 0 := by
  rw [mpintBody_eq] at zero
  split at zero
  · exact absurd rfl (Bytes.head_trimZeros zero)
  · rename_i negative
    cases zero
    exact UInt8.not_lt.1 negative

/-- Besides the value, a clear sign bit and no needless zero in front determine a form. -/
theorem eq_mpintBody {body magnitude : Bytes} (positive : body.headD 0 < 0x80)
    (needed : ∀ tail, body = 0 :: tail → 0x80 ≤ tail.headD 0)
    (same : body.toNat = magnitude.toNat) : body = mpintBody magnitude := by
  rw [mpintBody_eq, ← Bytes.trimZeros_congr same]
  rcases body with _ | ⟨first, tail⟩
  · rfl
  · by_cases zero : first = 0
    · subst zero
      have negative : ¬ tail.headD 0 < 0x80 := UInt8.not_lt.2 (needed tail rfl)
      have trimmed : Bytes.trimZeros (0 :: tail) = tail := by
        rcases tail with _ | ⟨second, rest⟩
        · rfl
        · have nonzero : second ≠ 0 := by
            rintro rfl
            exact negative (show (0 : UInt8) < 0x80 by decide)
          rw [Bytes.trimZeros_cons_zero, Bytes.trimZeros_cons nonzero]
      rw [trimmed, if_neg negative]
    · rw [Bytes.trimZeros_cons zero, if_pos positive]

/-- No form of a natural number is shorter than the one that is written. -/
theorem length_mpintBody_le_of_toInt {magnitude other : Bytes}
    (same : other.toInt = magnitude.toNat) : (mpintBody magnitude).length ≤ other.length := by
  obtain ⟨positive, same⟩ := Bytes.toInt_eq_natCast_iff.1 same
  have trimmed : (Bytes.trimZeros magnitude).length ≤ other.length :=
    Bytes.length_trimZeros_le (Nat.le_of_eq same.symm)
  rw [mpintBody_eq]
  split
  · exact trimmed
  · rename_i negative
    -- a form of the length of the magnitude would be the magnitude, and begin with its first bit
    refine Nat.lt_of_le_of_ne trimmed fun length => negative ?_
    rw [Bytes.eq_of_toNat_eq length ((Bytes.toNat_trimZeros magnitude).trans same.symm)]
    exact positive

theorem shortest_mpintBody (magnitude : Bytes) : Shortest magnitude.toNat (mpintBody magnitude) where
  value := Bytes.toInt_eq_natCast_iff.2 ⟨headD_mpintBody_lt magnitude, toNat_mpintBody magnitude⟩
  positive := headD_mpintBody_lt magnitude
  needed _ := mpintBody_needed
  least other same different := by
    have value : other.toNat = magnitude.toNat := (Bytes.toInt_eq_natCast_iff.1 same).2
    refine Nat.lt_of_le_of_ne (length_mpintBody_le_of_toInt same) fun length => different ?_
    exact Bytes.eq_of_toNat_eq length.symm (value.trans (toNat_mpintBody magnitude).symm)

/-- A written integer is determined by its value, and determines it, however long it is. -/
theorem mpint_eq_iff {a b : Bytes} : mpint a = mpint b ↔ a.toNat = b.toNat := by
  constructor
  · intro same
    have bodies : mpintBody a = mpintBody b :=
      (List.append_inj same (by rw [length_uint32, length_uint32])).2
    rw [← toNat_mpintBody a, ← toNat_mpintBody b, bodies]
  · exact mpint_congr

theorem mpint_string {body : Bytes} (fits : body.length < 2 ^ 32) (rest : Bytes) :
    Reader.mpint (string body ++ rest) =
      if body.headD 0 < 0x80 then .ok (Bytes.trimZeros body) rest
      else .error (.protocol .negativeMpint) rest := by
  simp only [Reader.mpint, bind_apply, reads_string fits rest]
  by_cases positive : body.headD 0 < 0x80
  · rw [if_neg (UInt8.not_le.2 positive), if_pos positive]
    rfl
  · rw [if_pos (UInt8.not_lt.1 positive), if_neg positive]
    rfl

/-- Integers have one written form each: what is written is read back without leading zeros
and up to its end; it is the shortest form, and no other number has it. Of all strings
those are read as integers that are empty or have a clear sign bit, as the number that they
denote. -/
theorem mpint_canonical (magnitude other body rest : Bytes) :
    (magnitude.length < 2 ^ 32 - 1 →
      Reader.mpint (mpint magnitude ++ rest) = .ok (Bytes.trimZeros magnitude) rest ∧
      ∃ written, mpint magnitude = string written ∧ written.length < 2 ^ 32 ∧
        Shortest magnitude.toNat written) ∧
    (mpint magnitude = mpint other ↔ magnitude.toNat = other.toNat) ∧
    (body.length < 2 ^ 32 →
      ((∃ value left, Reader.mpint (string body ++ rest) = .ok value left) ↔
        body = [] ∨ body.headD 0 < 0x80) ∧
      ∀ value left, Reader.mpint (string body ++ rest) = .ok value left →
        left = rest ∧ value = Bytes.trimZeros body ∧ (value.toNat : Int) = body.toInt) := by
  refine ⟨fun fits => ?_, mpint_eq_iff, fun fits => ?_⟩
  · have room : magnitude.length + 1 < 2 ^ 32 := by omega
    exact ⟨reads_mpint room rest, mpintBody magnitude, rfl, (numeral_mpintBody room).fits,
      shortest_mpintBody magnitude⟩
  · rw [mpint_string fits rest]
    by_cases positive : body.headD 0 < 0x80
    · rw [if_pos positive]
      refine ⟨iff_of_true ⟨_, _, rfl⟩ (.inr positive), ?_⟩
      intro value left read
      cases read
      exact ⟨rfl, rfl, by rw [Bytes.toNat_trimZeros, Bytes.toInt_of_positive positive]⟩
    · have some : body ≠ [] := by
        rintro rfl
        exact positive (by decide)
      rw [if_neg positive]
      exact ⟨iff_of_false nofun (not_or.2 ⟨some, positive⟩), nofun⟩

/-- A number whose first bit is set is written behind a zero, whatever zeros it is held
with; without that zero the string is refused. -/
theorem mpint_canonical_padded :
    let magnitude : Bytes := [0, 0, 0x80, 0x01]
    magnitude.length < 2 ^ 32 - 1 ∧
    Reader.mpint (mpint magnitude ++ [7]) = .ok [0x80, 0x01] [7] ∧
    mpint magnitude = mpint [0x80, 0x01] ∧
    (∃ written, mpint magnitude = string written ∧ Shortest 0x8001 written) ∧
    [(0x80 : UInt8), 0x01].length < 2 ^ 32 ∧
    ¬ ∃ value left, Reader.mpint (string [0x80, 0x01] ++ [7]) = .ok value left := by
  intro magnitude
  have fits : magnitude.length < 2 ^ 32 - 1 := by decide
  have short : [(0x80 : UInt8), 0x01].length < 2 ^ 32 := by decide
  obtain ⟨written, same, field⟩ := mpint_canonical magnitude [0x80, 0x01] [0x80, 0x01] [7]
  obtain ⟨read, form, spelled, -, shortest⟩ := written fits
  exact ⟨fits, read, same.2 (by decide), ⟨form, spelled, shortest⟩, short,
    fun accepted => absurd ((field short).1.1 accepted) (by decide)⟩

end Wire

end SecureShell
