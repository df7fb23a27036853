import SecureShell.Cipher.TripleDes
import SecureShell.Proofs.Bytes
import SecureShell.Proofs.Cipher.Feistel

/-! DES and its threefold use take their blocks back: the positions picked last undo
those picked first, and in between stands a network that exchanges its halves. -/
namespace SecureShell.Des

def bit (x : UInt64) (i : Nat) : Bool := x.toNat.testBit i

theorem eq_of_bit {x y : UInt64} (same : ∀ i < 64, bit x i = bit y i) : x = y := by
  apply UInt64.toNat.inj
  apply Nat.eq_of_testBit_eq
  intro i
  by_cases inside : i < 64
  · exact same i inside
  · have bound : 2 ^ 64 ≤ 2 ^ i := Nat.pow_le_pow_right (by decide) (Nat.not_lt.1 inside)
    rw [Nat.testBit_lt_two_pow (Nat.lt_of_lt_of_le x.toNat_lt bound),
      Nat.testBit_lt_two_pow (Nat.lt_of_lt_of_le y.toNat_lt bound)]

theorem bit_shifted (y b : UInt64) {i : Nat} (inside : i < 64) :
    bit ((y <<< 1) ||| (b &&& 1)) i = if i = 0 then bit b 0 else bit y (i - 1) := by
  simp only [bit, UInt64.toNat_or, UInt64.toNat_and, UInt64.toNat_shiftLeft, Nat.testBit_or,
    Nat.testBit_and, Nat.testBit_mod_two_pow, Nat.testBit_shiftLeft]
  cases i with
  | zero => simp
  | succ i =>
    have single : Nat.testBit 1 (i + 1) = false := by simp [Nat.testBit_succ]
    simp [inside, single]

theorem bit_shiftRight (x k : UInt64) (i : Nat) :
    bit (x >>> k) i = bit x (k.toNat % 64 + i) := by
  simp [bit]

/-- Where the bit of a picked word comes from, counted from the least significant. -/
def source (width : UInt64) (positions : List UInt64) (i : Nat) : Nat :=
  (width - positions.reverse.getD i 0).toNat % 64

theorem pick_concat (width : UInt64) (positions : List UInt64) (p x : UInt64) :
    pick width (positions ++ [p]) x =
      (pick width positions x <<< 1) ||| ((x >>> (width - p)) &&& 1) := by
  rw [pick, List.foldl_append, List.foldl_cons, List.foldl_nil, ← pick]

theorem bit_pick (width : UInt64) {positions : List UInt64} (x : UInt64) {i : Nat}
    (inside : i < positions.length) (fits : i < 64) :
    bit (pick width positions x) i = bit x (source width positions i) := by
  -- the position picked last gives the lowest bit, so the list is taken apart from its end
  induction size : positions.length generalizing positions i with
  | zero => omega
  | succ n ih =>
    obtain ⟨front, last, rfl, shorter⟩ := exists_concat_of_length size
    rw [pick_concat, bit_shifted _ _ fits]
    cases i with
    | zero => simp [source, bit_shiftRight]
    | succ i =>
      have earlier : i < front.length := by
        rw [List.length_append] at inside
        simpa using inside
      rw [if_neg (Nat.succ_ne_zero i), Nat.add_sub_cancel, ih earlier (by omega) shorter]
      simp [source]

theorem pick_pick {front back : List UInt64} (frontLength : front.length = 64)
    (backLength : back.length = 64)
    (inverse : ∀ i < 64, source 64 front (source 64 back i) = i) (x : UInt64) :
    pick 64 back (pick 64 front x) = x := by
  apply eq_of_bit
  intro i inside
  have source_lt : source 64 back i < 64 := Nat.mod_lt _ (by decide)
  rw [bit_pick _ _ (by omega) inside, bit_pick _ _ (by omega) source_lt, inverse i inside]

theorem final_initial (x : UInt64) : pick 64 finalPositions (pick 64 initialPositions x) = x :=
  pick_pick rfl rfl (by decide +kernel) x

theorem initial_final (x : UInt64) : pick 64 initialPositions (pick 64 finalPositions x) = x :=
  pick_pick rfl rfl (by decide +kernel) x

def Halves.join (h : Halves) : UInt64 := (h.left.toUInt64 <<< 32) ||| h.right.toUInt64

def Halves.split (x : UInt64) : Halves := ⟨(x >>> 32).toUInt32, x.toUInt32⟩

theorem toNat_join (h : Halves) : h.join.toNat = h.left.toNat * 2 ^ 32 + h.right.toNat := by
  have left := h.left.toNat_lt
  have right := h.right.toNat_lt
  have fits : h.left.toNat <<< 32 < 2 ^ 64 := by
    rw [Nat.shiftLeft_eq]
    omega
  have disjoint := Nat.shiftLeft_add_eq_or_of_lt right h.left.toNat
  simp only [Halves.join, UInt64.toNat_or, UInt64.toNat_shiftLeft, UInt32.toNat_toUInt64]
  rw [show (32 : UInt64).toNat % 64 = 32 from rfl, Nat.mod_eq_of_lt fits, ← disjoint,
    Nat.shiftLeft_eq]

theorem toNat_split (x : UInt64) :
    (Halves.split x).left.toNat = x.toNat / 2 ^ 32 ∧ (Halves.split x).right.toNat = x.toNat % 2 ^ 32 := by
  have bound := x.toNat_lt
  refine ⟨?_, UInt64.toNat_toUInt32 x⟩
  simp only [Halves.split, UInt64.toNat_toUInt32, UInt64.toNat_shiftRight]
  rw [show (32 : UInt64).toNat % 64 = 32 from rfl, Nat.shiftRight_eq_div_pow]
  omega

theorem join_split (x : UInt64) : (Halves.split x).join = x := by
  apply UInt64.toNat.inj
  have := toNat_split x
  rw [toNat_join]
  omega

theorem split_join (h : Halves) : Halves.split h.join = h := by
  have parts := toNat_split h.join
  have right := h.right.toNat_lt
  rw [toNat_join] at parts
  have leftSame : (Halves.split h.join).left = h.left := UInt32.toNat.inj (by omega)
  have rightSame : (Halves.split h.join).right = h.right := UInt32.toNat.inj (by omega)
  cases h
  simp_all [Halves.split]

theorem round_undo (h : Halves) (key : RoundKey) : round (round h key).swap key = h.swap := by
  simp only [round, Halves.swap, UInt32.xor_assoc, UInt32.xor_self, UInt32.xor_zero]

theorem crypt_eq (keys : List RoundKey) (block : UInt64) :
    crypt keys block = pick 64 finalPositions
      (keys.foldl round (.split (pick 64 initialPositions block))).swap.join := rfl

theorem crypt_reverse (keys : List RoundKey) (block : UInt64) :
    crypt keys.reverse (crypt keys block) = block := by
  have back := Feistel.foldl_reverse round_undo keys (.split (pick 64 initialPositions block))
  rw [crypt_eq, crypt_eq keys, initial_final, split_join, back, Halves.swap, Halves.swap,
    join_split, final_initial]

theorem crypt_of_reverse (keys : List RoundKey) (block : UInt64) :
    crypt keys (crypt keys.reverse block) = block := by
  have back := crypt_reverse keys.reverse block
  rwa [List.reverse_reverse] at back

@[simp] theorem length_encrypt (keys : Schedule) (block : Bytes) :
    (encrypt keys block).length = 8 := Bytes.length_wide 8 _

@[simp] theorem length_decrypt (keys : Schedule) (block : Bytes) :
    (decrypt keys block).length = 8 := Bytes.length_wide 8 _

theorem ofNat_toNat_wide (x : UInt64) : UInt64.ofNat (Bytes.wide 8 x.toNat).toNat = x := by
  rw [Bytes.toNat_wide, Nat.mod_eq_of_lt (show x.toNat < 256 ^ 8 from x.toNat_lt),
    UInt64.ofNat_toNat]

theorem wide_toNat_ofNat {block : Bytes} (eight : block.length = 8) :
    Bytes.wide 8 (UInt64.ofNat block.toNat).toNat = block := by
  have small := Bytes.toNat_lt block
  rw [eight] at small
  rw [UInt64.toNat_ofNat_of_lt' small, ← eight, Bytes.wide_toNat]

theorem decrypt_encrypt (keys : Schedule) {block : Bytes} (eight : block.length = 8) :
    decrypt keys (encrypt keys block) = block := by
  simp only [decrypt, encrypt, ofNat_toNat_wide, crypt_reverse, crypt_of_reverse,
    wide_toNat_ofNat eight]

end SecureShell.Des
