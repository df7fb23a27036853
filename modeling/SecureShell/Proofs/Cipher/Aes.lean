import SecureShell.Cipher.Aes

/-! AES takes its blocks back: every step of a round has its inverse, and the steps of
the inverse cipher undo those of the cipher in the opposite order. -/
namespace SecureShell.Aes

theorem substitution_inverse :
    substitution.toList.map (fun s => substitutionInverse.toList.getD s.toNat 0) =
      (List.range 256).map UInt8.ofNat := by
  decide +kernel

theorem unsubstitute_substitute (b : UInt8) : unsubstitute (substitute b) = b := by
  have entry := congrArg (·[b.toNat]?) substitution_inverse
  have index : (List.range 256)[b.toNat]? = some b.toNat :=
    List.getElem?_range b.toNat_lt
  simp only [List.getElem?_map, index, Option.map_some, UInt8.ofNat_toNat, Option.map_eq_some_iff] at entry
  obtain ⟨s, found, back⟩ := entry
  have first : substitute b = s := by
    rw [substitute, Array.getD_eq_getD_getElem?, ← Array.getElem?_toList, found, Option.getD_some]
  rw [first, unsubstitute, Array.getD_eq_getD_getElem?, ← Array.getElem?_toList,
    ← List.getD_eq_getElem?_getD, back]

theorem xor_cancel (a b : UInt8) : a ^^^ (a ^^^ b) = b := by
  rw [← UInt8.xor_assoc, UInt8.xor_self, UInt8.zero_xor]

theorem xor_left_comm (a b c : UInt8) : a ^^^ (b ^^^ c) = b ^^^ (a ^^^ c) := by
  rw [← UInt8.xor_assoc, UInt8.xor_comm a b, UInt8.xor_assoc]

namespace Column

@[ext]
theorem ext {a b : Column} (r0 : a.r0 = b.r0) (r1 : a.r1 = b.r1) (r2 : a.r2 = b.r2)
    (r3 : a.r3 = b.r3) : a = b := by
  cases a
  cases b
  simp_all

theorem xor_xor_same (a b : Column) : (a.xor b).xor b = a := by
  simp only [xor, UInt8.xor_assoc, UInt8.xor_self, UInt8.xor_zero]

theorem double_eq (b : UInt8) :
    double b = (b <<< 1) ^^^ (if b.toBitVec.msb then 0x1b else 0) := by
  have high : b < 0x80 ↔ b.toBitVec.msb = false := by
    rw [BitVec.msb_eq_decide, decide_eq_false_iff_not, UInt8.lt_iff_toNat_lt]
    simp
  rw [double]
  cases top : b.toBitVec.msb with
  | true => simp [high, top]
  | false => simp [high, top]

theorem double_xor (a b : UInt8) : double (a ^^^ b) = double a ^^^ double b := by
  rw [double_eq, double_eq, double_eq, UInt8.shiftLeft_xor, UInt8.toBitVec_xor, BitVec.msb_xor]
  cases a.toBitVec.msb <;> cases b.toBitVec.msb <;>
    simp [UInt8.xor_assoc, UInt8.xor_comm, xor_left_comm]

def sum (c : Column) : UInt8 := c.r0 ^^^ c.r1 ^^^ c.r2 ^^^ c.r3

theorem mix_eq (c : Column) : c.mix =
    ⟨c.r0 ^^^ c.sum ^^^ double (c.r0 ^^^ c.r1), c.r1 ^^^ c.sum ^^^ double (c.r1 ^^^ c.r2),
      c.r2 ^^^ c.sum ^^^ double (c.r2 ^^^ c.r3), c.r3 ^^^ c.sum ^^^ double (c.r3 ^^^ c.r0)⟩ := by
  ext <;> simp only [mix, map, sum, double_xor] <;>
    simp only [UInt8.xor_assoc, UInt8.xor_comm, xor_left_comm, xor_cancel]

/-- Unmixing is mixing, and four times and eight times what the column sums up to. -/
theorem unmix_eq (c : Column) : c.unmix =
    let even := double (double (double c.sum ^^^ (c.r0 ^^^ c.r2)))
    let odd := double (double (double c.sum ^^^ (c.r1 ^^^ c.r3)))
    c.mix.xor ⟨even, odd, even, odd⟩ := by
  ext <;> simp only [unmix, mix, map, xor, sum, double_xor] <;>
    simp only [UInt8.xor_assoc, UInt8.xor_comm, xor_left_comm]

theorem sum_mix (c : Column) : c.mix.sum = c.sum := by
  simp only [mix_eq, sum, double_xor]
  simp only [UInt8.xor_assoc, UInt8.xor_comm, xor_left_comm, xor_cancel, UInt8.xor_self,
    UInt8.xor_zero]

/-- Mixing twice adds four times the sum of every other row. -/
theorem mix_mix (c : Column) : c.mix.mix =
    let even := double (double (c.r0 ^^^ c.r2))
    let odd := double (double (c.r1 ^^^ c.r3))
    c.xor ⟨even, odd, even, odd⟩ := by
  rw [mix_eq c.mix, sum_mix]
  simp only [mix_eq c]
  ext <;> simp only [xor, double_xor] <;>
    simp only [UInt8.xor_assoc, UInt8.xor_comm, xor_left_comm, xor_cancel, UInt8.xor_self]

theorem unmix_mix (c : Column) : c.mix.unmix = c := by
  rw [unmix_eq, sum_mix, mix_mix]
  simp only [mix_eq c]
  ext <;> simp only [xor, sum, double_xor] <;>
    simp only [UInt8.xor_assoc, UInt8.xor_comm, xor_left_comm, xor_cancel, UInt8.xor_self,
      UInt8.xor_zero]

theorem toBytes_ofBytes {bytes : Bytes} (four : 4 ≤ bytes.length) :
    (ofBytes bytes).toBytes = bytes.take 4 := by
  match bytes, four with
  | _ :: _ :: _ :: _ :: _, _ => rfl

end Column

namespace Block

theorem xor_xor_same (a b : Block) : (a.xor b).xor b = a := by
  simp only [xor, Column.xor_xor_same]

theorem unsubstitute_substitute (b : Block) : b.substitute.unsubstitute = b := by
  simp only [substitute, unsubstitute, map, Column.map, Aes.unsubstitute_substitute]

theorem unmix_mix (b : Block) : (b.map (·.mix)).map (·.unmix) = b := by
  simp only [map, Column.unmix_mix]

theorem unshiftRows_shiftRows (b : Block) : b.shiftRows.unshiftRows = b := rfl

theorem ofBytes_toBytes (b : Block) : ofBytes b.toBytes = b := rfl

theorem toBytes_ofBytes {bytes : Bytes} (sixteen : bytes.length = 16) :
    (ofBytes bytes).toBytes = bytes := by
  have c0 : (Column.ofBytes bytes).toBytes = _ := Column.toBytes_ofBytes (by omega)
  have c1 : (Column.ofBytes (bytes.drop 4)).toBytes = _ := Column.toBytes_ofBytes (by simp [sixteen])
  have c2 : (Column.ofBytes (bytes.drop 8)).toBytes = _ := Column.toBytes_ofBytes (by simp [sixteen])
  have c3 : (Column.ofBytes (bytes.drop 12)).toBytes = _ := Column.toBytes_ofBytes (by simp [sixteen])
  rw [toBytes, ofBytes, c0, c1, c2, c3, ← List.take_add, ← List.take_add, ← List.take_add,
    List.take_of_length_le (Nat.le_of_eq sixteen)]

end Block

theorem unround_round (b key : Block) : unround (round b key) key = b := by
  rw [unround, round, Block.xor_xor_same, Block.unmix_mix, Block.unshiftRows_shiftRows,
    Block.unsubstitute_substitute]

theorem foldr_unround (keys : List Block) (b : Block) :
    keys.foldr (fun key b => unround b key) (keys.foldl round b) = b := by
  induction keys generalizing b with
  | nil => rfl
  | cons key rest ih => rw [List.foldr_cons, List.foldl_cons, ih, unround_round]

@[simp] theorem length_encrypt (keys : Schedule) (block : Bytes) :
    (encrypt keys block).length = 16 := length_toBytes _

@[simp] theorem length_decrypt (keys : Schedule) (block : Bytes) :
    (decrypt keys block).length = 16 := length_toBytes _

theorem decrypt_encrypt (keys : Schedule) {block : Bytes} (sixteen : block.length = 16) :
    decrypt keys (encrypt keys block) = block := by
  simp only [decrypt, encrypt, Block.ofBytes_toBytes, Block.xor_xor_same,
    Block.unshiftRows_shiftRows, Block.unsubstitute_substitute, foldr_unround,
    Block.toBytes_ofBytes sixteen]

end SecureShell.Aes
