import SecureShell.Cipher.Blowfish
import SecureShell.Proofs.Bytes
import SecureShell.Proofs.Cipher.Feistel

/-! Blowfish takes its blocks back. Between the key that is added first and the one
that is added last, the rounds are those of a network that exchanges the halves after
every key. -/
namespace SecureShell.Blowfish

def Halves.swap (h : Halves) : Halves := ⟨h.right, h.left⟩

def laterRound (boxes : Array UInt32) (h : Halves) (subkey : UInt32) : Halves :=
  ⟨h.right, h.left ^^^ mangle boxes h.right ^^^ subkey⟩

theorem xor_xor_same (a b : UInt32) : a ^^^ b ^^^ b = a := by
  rw [UInt32.xor_assoc, UInt32.xor_self, UInt32.xor_zero]

theorem laterRound_undo (boxes : Array UInt32) (h : Halves) (subkey : UInt32) :
    laterRound boxes (laterRound boxes h subkey).swap subkey = h.swap := by
  simp only [laterRound, Halves.swap, Halves.mk.injEq, true_and]
  rw [UInt32.xor_assoc (h.left ^^^ _), UInt32.xor_comm subkey, ← UInt32.xor_assoc, xor_xor_same,
    xor_xor_same]

/-- Rounds, and a key added behind them, are rounds with the keys taken behind them. -/
theorem foldl_round (boxes : Array UInt32) (first last : UInt32) (keys : List UInt32) (h : Halves) :
    (keys ++ [last]).foldl (laterRound boxes) ⟨h.right, h.left ^^^ first⟩ =
      ⟨((first :: keys).foldl (round boxes) h).right,
        ((first :: keys).foldl (round boxes) h).left ^^^ last⟩ := by
  induction keys generalizing first h with
  | nil => simp [laterRound, round]
  | cons key rest ih =>
    rw [List.cons_append, List.foldl_cons, List.foldl_cons (l := key :: rest), ← ih]
    rfl

theorem crypt_eq (boxes : Array UInt32) {first last : UInt32} {middle : List UInt32}
    (sixteen : middle.length = 16) (h : Halves) :
    crypt boxes (first :: middle ++ [last]) h =
      let after := middle.foldl (laterRound boxes) ⟨h.right, h.left ^^^ first⟩
      ⟨after.left ^^^ last, after.right⟩ := by
  obtain ⟨front, back, rfl, fifteen⟩ := exists_concat_of_length sixteen
  have rounds : (first :: (front ++ [back]) ++ [last]).take 16 = first :: front := by
    simp [fifteen]
  have added : (first :: (front ++ [back]) ++ [last]).getD 16 0 = back := by
    simp [List.getD_eq_getElem?_getD, fifteen]
  have final : (first :: (front ++ [back]) ++ [last]).getD 17 0 = last := by
    simp [List.getD_eq_getElem?_getD, fifteen]
  simp only [crypt, rounds, added, final, foldl_round]

/-- The rounds with the subkeys reversed take a block back. -/
theorem crypt_reverse (boxes : Array UInt32) {subkeys : List UInt32}
    (eighteen : subkeys.length = 18) (h : Halves) :
    crypt boxes subkeys.reverse (crypt boxes subkeys h) = h := by
  obtain ⟨first, rest, rfl⟩ := List.exists_cons_of_length_eq_add_one eighteen
  have seventeen : rest.length = 16 + 1 := by simpa using eighteen
  obtain ⟨middle, last, rfl, sixteen⟩ := exists_concat_of_length seventeen
  have reversed : (first :: middle ++ [last]).reverse = last :: middle.reverse ++ [first] := by simp
  have back := Feistel.foldl_reverse (laterRound_undo boxes) middle ⟨h.right, h.left ^^^ first⟩
  simp only [Halves.swap] at back
  rw [← List.cons_append, reversed, crypt_eq boxes sixteen,
    crypt_eq boxes (by rw [List.length_reverse, sixteen])]
  simp only [xor_xor_same, back]

theorem length_initial : initial.subkeys.length = 18 := by
  simp [initial, piWords]

theorem length_refillSubkeys (boxes : Array UInt32) (state : List UInt32 × Halves) (i : Nat) :
    (refillSubkeys boxes state i).1.length = state.1.length := by
  simp [refillSubkeys]

theorem length_foldl_refillSubkeys (boxes : Array UInt32) (indices : List Nat)
    (state : List UInt32 × Halves) :
    (indices.foldl (refillSubkeys boxes) state).1.length = state.1.length := by
  induction indices generalizing state with
  | nil => rfl
  | cons i rest ih => rw [List.foldl_cons, ih, length_refillSubkeys]

theorem length_subkeys (key : Bytes) : (schedule key).subkeys.length = 18 := by
  simp only [schedule, length_foldl_refillSubkeys, List.length_zipWith, length_initial, keyWords,
    List.length_map, List.length_range, Nat.min_self]

@[simp] theorem length_toBytes (h : Halves) : h.toBytes.length = 8 := by
  simp [Halves.toBytes, Bytes.ofUInt32]

theorem ofBytes_toBytes (h : Halves) : Halves.ofBytes h.toBytes = h := by
  have left : (Bytes.ofUInt32 h.left).length = 4 := by simp [Bytes.ofUInt32]
  simp only [Halves.ofBytes, Halves.toBytes, List.take_left' left, List.drop_left' left,
    Bytes.toUInt32_ofUInt32]

theorem toBytes_ofBytes {block : Bytes} (eight : block.length = 8) :
    (Halves.ofBytes block).toBytes = block := by
  have left : (block.take 4).length = 4 := by simp [eight]
  have right : (block.drop 4).length = 4 := by simp [eight]
  rw [Halves.toBytes, Halves.ofBytes, Bytes.ofUInt32_toUInt32 left, Bytes.ofUInt32_toUInt32 right,
    List.take_append_drop]

@[simp] theorem length_encrypt (keys : Schedule) (block : Bytes) :
    (encrypt keys block).length = 8 := length_toBytes _

@[simp] theorem length_decrypt (keys : Schedule) (block : Bytes) :
    (decrypt keys block).length = 8 := length_toBytes _

theorem decrypt_encrypt {keys : Schedule} (eighteen : keys.subkeys.length = 18) {block : Bytes}
    (eight : block.length = 8) : decrypt keys (encrypt keys block) = block := by
  rw [decrypt, encrypt, ofBytes_toBytes, crypt_reverse keys.boxes eighteen, toBytes_ofBytes eight]

end SecureShell.Blowfish
