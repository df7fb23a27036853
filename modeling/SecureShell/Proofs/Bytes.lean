import SecureShell.Arithmetic.PowMod

/-! Byte strings and the numbers that they denote, in both directions: a string is
given by its length and its number, and one without leading zeros by its number alone. -/
namespace SecureShell

theorem exists_concat_of_length {α : Type} {list : List α} {n : Nat} (length : list.length = n + 1) :
    ∃ front last, list = front ++ [last] ∧ front.length = n := by
  have some := List.ne_nil_of_length_eq_add_one length
  refine ⟨list.dropLast, list.getLast some, (List.dropLast_concat_getLast some).symm, ?_⟩
  rw [List.length_dropLast, length, Nat.add_sub_cancel]

theorem bitLength_le {n width : Nat} (h : n < 2 ^ width) : bitLength n ≤ width := by
  unfold bitLength
  split
  · exact Nat.zero_le _
  · rename_i nonzero
    exact (Nat.log2_lt nonzero).2 h

namespace Bytes

theorem toNat_lt (bytes : Bytes) : bytes.toNat < 256 ^ bytes.length := by
  induction bytes with
  | nil => simp [toNat]
  | cons b rest ih =>
    have split := toNat_append [b] rest
    have small : toNat [b] < 256 := by simpa [toNat] using b.toNat_lt
    rw [List.singleton_append] at split
    rw [split, List.length_cons, Nat.pow_succ]
    calc toNat [b] * 256 ^ rest.length + toNat rest
        < toNat [b] * 256 ^ rest.length + 256 ^ rest.length := by omega
      _ = (toNat [b] + 1) * 256 ^ rest.length := (Nat.succ_mul ..).symm
      _ ≤ 256 * 256 ^ rest.length := Nat.mul_le_mul_right _ small
      _ = 256 ^ rest.length * 256 := Nat.mul_comm ..

/-- A string is given by its length and its number. -/
theorem wide_toNat (bytes : Bytes) : wide bytes.length bytes.toNat = bytes := by
  induction size : bytes.length generalizing bytes with
  | zero =>
    rw [List.length_eq_zero_iff.1 size]
    rfl
  | succ n ih =>
    obtain ⟨front, last, rfl, shorter⟩ := exists_concat_of_length size
    have high : (toNat front * 256 + last.toNat) / 256 = toNat front := by
      have := last.toNat_lt
      omega
    have low : UInt8.ofNat (toNat front * 256 + last.toNat) = last := by
      apply UInt8.toNat.inj
      have := last.toNat_lt
      simp only [UInt8.toNat_ofNat']
      omega
    rw [wide_succ, toNat_concat, high, low, ih front shorter]

theorem eq_of_toNat_eq {a b : Bytes} (length : a.length = b.length) (same : a.toNat = b.toNat) :
    a = b := by
  rw [← wide_toNat a, ← wide_toNat b, length, same]

theorem trimZeros_cons_zero (rest : Bytes) : trimZeros (0 :: rest) = trimZeros rest :=
  List.dropWhile_cons_of_pos rfl

theorem trimZeros_cons {b : UInt8} (nonzero : b ≠ 0) (rest : Bytes) :
    trimZeros (b :: rest) = b :: rest :=
  List.dropWhile_cons_of_neg (by simpa using nonzero)

@[simp] theorem toNat_trimZeros (bytes : Bytes) : (trimZeros bytes).toNat = bytes.toNat := by
  induction bytes with
  | nil => rfl
  | cons b rest ih =>
    by_cases zero : b = 0
    · subst zero
      rw [trimZeros_cons_zero]
      exact ih
    · rw [trimZeros_cons zero]

theorem head_trimZeros {bytes rest : Bytes} {b : UInt8} (h : trimZeros bytes = b :: rest) : b ≠ 0 := by
  have last := List.head?_dropWhile_not (· == (0 : UInt8)) bytes
  rw [trimZeros] at h
  rw [h] at last
  simpa using last

/-- A string without leading zeros needs all of its bytes. -/
theorem pow_le_toNat {b : UInt8} {rest : Bytes} (first : b ≠ 0) :
    256 ^ rest.length ≤ toNat (b :: rest) := by
  have split := toNat_append [b] rest
  have pos : 0 < toNat [b] := by
    have nonzero : b.toNat ≠ 0 := fun zero => first (UInt8.toNat.inj (by simpa using zero))
    simp [toNat]
    omega
  rw [List.singleton_append] at split
  rw [split]
  calc 256 ^ rest.length = 1 * 256 ^ rest.length := (Nat.one_mul _).symm
    _ ≤ toNat [b] * 256 ^ rest.length := Nat.mul_le_mul_right _ pos
    _ ≤ _ := Nat.le_add_right ..

@[simp] theorem toNat_zeros (count : Nat) : toNat (List.replicate count 0) = 0 := by
  induction count with
  | zero => rfl
  | succ count ih =>
    rw [List.replicate_succ', toNat_concat, ih]
    rfl

@[simp] theorem toNat_zeros_append (count : Nat) (bytes : Bytes) :
    toNat (List.replicate count 0 ++ bytes) = toNat bytes := by
  rw [toNat_append, toNat_zeros, Nat.zero_mul, Nat.zero_add]

/-- No string for a number is shorter than the one without leading zeros. -/
theorem length_trimZeros_le {a b : Bytes} (le : toNat a ≤ toNat b) :
    (trimZeros a).length ≤ b.length := by
  cases trimmed : trimZeros a with
  | nil => exact Nat.zero_le _
  | cons first rest =>
    have least : 256 ^ rest.length ≤ toNat (trimZeros a) :=
      trimmed ▸ pow_le_toNat (head_trimZeros trimmed)
    rw [toNat_trimZeros] at least
    have shorter : 256 ^ rest.length < 256 ^ b.length :=
      Nat.lt_of_le_of_lt (Nat.le_trans least le) (toNat_lt b)
    exact (Nat.pow_lt_pow_iff_right (by decide)).1 shorter

theorem trimZeros_congr {a b : Bytes} (same : toNat a = toNat b) : trimZeros a = trimZeros b := by
  apply eq_of_toNat_eq
  · apply Nat.le_antisymm
    · exact length_trimZeros_le (by simp [same])
    · exact length_trimZeros_le (by simp [same])
  · simpa using same

theorem lt_pow_bytes (n : Nat) : n < 256 ^ ((bitLength n + 7) / 8) := by
  calc n < 2 ^ bitLength n := lt_two_pow_bitLength n
    _ ≤ 2 ^ (8 * ((bitLength n + 7) / 8)) := Nat.pow_le_pow_right (by decide) (by omega)
    _ = 256 ^ ((bitLength n + 7) / 8) := Nat.pow_mul 2 8 _

@[simp] theorem toNat_ofNat (n : Nat) : (ofNat n).toNat = n := by
  rw [ofNat, toNat_wide, Nat.mod_eq_of_lt (lt_pow_bytes n)]

@[simp] theorem toNat_ofNatNonempty (n : Nat) : (ofNatNonempty n).toNat = n := by
  unfold ofNatNonempty
  split
  · rename_i zero
    rw [zero]
    rfl
  · exact toNat_ofNat n

theorem ofUInt32_toUInt32 {bytes : Bytes} (four : bytes.length = 4) :
    ofUInt32 (toUInt32 bytes) = bytes := by
  have small := toNat_lt bytes
  rw [four] at small
  rw [ofUInt32, toUInt32, UInt32.toNat_ofNat_of_lt' small, ← four, wide_toNat]

section Pieces

theorem flatten_piecesOnto {size : Nat} (pos : 0 < size) (done : List Bytes) (bytes : Bytes) :
    (piecesOnto size done bytes).flatten = done.reverse.flatten ++ bytes := by
  fun_induction piecesOnto size done bytes with
  | case1 done bytes stop =>
    obtain rfl : bytes = [] := stop.resolve_left (Nat.ne_of_gt pos)
    rw [List.append_nil]
  | case2 done bytes more ih =>
    rw [ih, List.reverse_cons, List.flatten_append, List.flatten_singleton, List.append_assoc,
      List.take_append_drop]

theorem flatten_pieces {size : Nat} (pos : 0 < size) (bytes : Bytes) :
    (pieces size bytes).flatten = bytes :=
  flatten_piecesOnto pos [] bytes

/-- What holds of the front of every rest holds of every piece. -/
theorem forall_mem_pieces {size : Nat} (good : Bytes → Prop)
    (front : ∀ rest ≠ [], 0 < size → good (rest.take size)) (bytes : Bytes) :
    ∀ piece ∈ pieces size bytes, good piece := by
  have behind (done : List Bytes) (bytes : Bytes) (earlier : ∀ piece ∈ done, good piece) :
      ∀ piece ∈ piecesOnto size done bytes, good piece := by
    fun_induction piecesOnto size done bytes with
    | case1 done bytes stop => exact fun piece member => earlier piece (List.mem_reverse.1 member)
    | case2 done bytes more ih =>
      obtain ⟨nonzero, some⟩ := not_or.1 more
      refine ih ?_
      intro piece member
      rcases List.mem_cons.1 member with rfl | member
      · exact front bytes some (Nat.pos_of_ne_zero nonzero)
      · exact earlier piece member
  exact behind [] bytes nofun

theorem length_le_of_mem_pieces {size : Nat} {bytes piece : Bytes} (cut : piece ∈ pieces size bytes) :
    piece.length ≤ size :=
  forall_mem_pieces (·.length ≤ size) (fun rest _ _ => List.length_take_le size rest)
    bytes piece cut

theorem nil_notMem_pieces (size : Nat) (bytes : Bytes) : [] ∉ pieces size bytes := by
  intro member
  refine forall_mem_pieces (· ≠ []) ?_ bytes [] member rfl
  intro rest some pos none
  rcases List.take_eq_nil_iff.1 none with zero | empty
  · exact Nat.ne_of_gt pos zero
  · exact some empty

theorem piecesOnto_append (size : Nat) (done before : List Bytes) (bytes : Bytes) :
    piecesOnto size (done ++ before) bytes = before.reverse ++ piecesOnto size done bytes := by
  fun_induction piecesOnto size done bytes with
  | case1 done bytes none =>
    rw [piecesOnto, dif_pos none, List.reverse_append]
  | case2 done bytes more ih =>
    rw [piecesOnto, dif_neg more]
    exact ih

theorem pieces_nil (size : Nat) : pieces size [] = [] := by
  rw [pieces, piecesOnto, dif_pos (.inr rfl)]
  rfl

theorem pieces_cons {size : Nat} (pos : 0 < size) {bytes : Bytes} (some : bytes ≠ []) :
    pieces size bytes = bytes.take size :: pieces size (bytes.drop size) := by
  rw [pieces, piecesOnto, dif_neg (not_or.2 ⟨Nat.ne_of_gt pos, some⟩)]
  exact piecesOnto_append size [] [bytes.take size] (bytes.drop size)

theorem pieces_append {size : Nat} (pos : 0 < size) {block : Bytes} (whole : block.length = size)
    (rest : Bytes) : pieces size (block ++ rest) = block :: pieces size rest := by
  have some : block ++ rest ≠ [] := by
    intro none
    rw [(List.append_eq_nil_iff.1 none).1] at whole
    exact Nat.ne_of_gt pos whole.symm
  rw [pieces_cons pos some, List.take_left' whole, List.drop_left' whole]

end Pieces

end Bytes

end SecureShell
