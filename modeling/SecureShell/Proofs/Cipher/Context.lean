import SecureShell.Cipher.Context
import SecureShell.Focus
import SecureShell.Proofs.Bytes
import SecureShell.Proofs.Cipher.Aes
import SecureShell.Proofs.Cipher.Blowfish
import SecureShell.Proofs.Cipher.TripleDes

/-! What a cipher context encrypts, the context that decrypts from the same chaining
block takes back, and both chains stand at the same block afterwards. This holds of
data that is handed over in pieces, the first of which is one block. -/
namespace SecureShell

namespace Bytes

theorem xor_xor_same {a b : Bytes} (long : a.length ≤ b.length) : xor (xor a b) b = a := by
  induction a generalizing b with
  | nil => rfl
  | cons x xs ih =>
    cases b with
    | nil => cases long
    | cons y ys =>
      have rest := ih (Nat.le_of_succ_le_succ long)
      simp only [xor] at rest
      simp only [xor, List.zipWith_cons_cons, rest, UInt8.xor_assoc, UInt8.xor_self, UInt8.xor_zero]

theorem take_drop_aligned {size : Nat} {bytes : Bytes} (enough : size ≤ bytes.length)
    (aligned : bytes.length % size = 0) :
    (bytes.take size).length = size ∧ (bytes.drop size).length % size = 0 := by
  constructor
  · rw [List.length_take, Nat.min_eq_left enough]
  · rw [List.length_drop, ← Nat.mod_eq_sub_mod enough, aligned]

/-- A cut behind whole blocks cuts no block. -/
theorem pieces_append_aligned {size : Nat} (pos : 0 < size) {front : Bytes}
    (aligned : front.length % size = 0) (rest : Bytes) :
    pieces size (front ++ rest) = pieces size front ++ pieces size rest := by
  induction length : front.length using Nat.strongRecOn generalizing front with
  | _ n ih =>
    by_cases none : front = []
    · rw [none, pieces_nil, List.nil_append, List.nil_append]
    · have some := List.length_pos_iff.2 none
      have enough : size ≤ front.length := Nat.le_of_dvd some (Nat.dvd_of_mod_eq_zero aligned)
      obtain ⟨whole, later⟩ := take_drop_aligned enough aligned
      have shorter : (front.drop size).length < n := by
        rw [List.length_drop]
        omega
      have split : front.take size ++ front.drop size ++ rest =
          front.take size ++ (front.drop size ++ rest) := List.append_assoc ..
      rw [pieces_cons pos none, List.cons_append, ← ih _ shorter later rfl,
        ← pieces_append pos whole, ← split, List.take_append_drop]

@[simp] theorem length_xor (a b : Bytes) : (xor a b).length = min a.length b.length :=
  List.length_zipWith

end Bytes

/-- Takes blocks of `size` bytes to blocks of `size` bytes, and back. -/
structure BlockCipher.Reversible (cipher : BlockCipher) (size : Nat) : Prop where
  length_encrypt : ∀ block, (cipher.encrypt block).length = size
  decrypt_encrypt : ∀ block, block.length = size → cipher.decrypt (cipher.encrypt block) = block

namespace CipherContext

theorem expandKey_reversible (algorithm : CipherAlgorithm) (key : Bytes) :
    (expandKey algorithm key).Reversible algorithm.blockSize := by
  cases algorithm with
  | aes128Ctr | aes128Cbc => exact ⟨Aes.length_encrypt _, fun _ => Aes.decrypt_encrypt _⟩
  | tripleDesCtr | tripleDesCbc => exact ⟨Des.length_encrypt _, fun _ => Des.decrypt_encrypt _⟩
  | blowfishCbc =>
    exact ⟨Blowfish.length_encrypt _, fun _ => Blowfish.decrypt_encrypt (Blowfish.length_subkeys key)⟩

structure Encrypts (context : CipherContext) : Prop where
  mode : context.mode = modeOf context.algorithm .encrypt
  chain : context.chain.length = context.blockSize
  reversible : context.cipher.Reversible context.blockSize

def decrypting (context : CipherContext) : CipherContext :=
  { context with mode := modeOf context.algorithm .decrypt }

/-- A context writes `data` as `out` and becomes `after`; its opposite reads it back. -/
structure Writes (context : CipherContext) (data out : Bytes) (after : CipherContext) : Prop where
  applied : apply data context = .ok out after
  taken : apply out context.decrypting = .ok data after.decrypting
  length : out.length = data.length
  algorithm : after.algorithm = context.algorithm
  encrypts : after.Encrypts

section Blocks

variable {context after last : CipherContext} {block piece data first rest out : Bytes}

theorem apply_aligned (aligned : data.length % context.blockSize = 0) :
    apply data context =
      let run := run context.cipher context.mode context.chain (Bytes.pieces context.blockSize data)
      .ok run.1.reverse.flatten { context with chain := run.2 } := by
  simp only [apply, bind_apply, get_apply, set_apply, pure_apply, aligned, ne_eq, not_true_eq_false,
    if_false]

theorem foldl_run (cipher : BlockCipher) (mode : Mode) (done : List Bytes) (chain : Bytes)
    (blocks : List Bytes) :
    blocks.foldl
      (fun (done, chain) block =>
        let (out, chain) := step cipher mode chain block
        (out :: done, chain)) (done, chain) =
      ((run cipher mode chain blocks).1 ++ done, (run cipher mode chain blocks).2) := by
  induction blocks generalizing done chain with
  | nil => rfl
  | cons block blocks ih =>
    simp only [run, List.foldl_cons]
    rw [ih, ih [_]]
    simp

theorem run_cons (cipher : BlockCipher) (mode : Mode) (chain block : Bytes) (blocks : List Bytes) :
    run cipher mode chain (block :: blocks) =
      let stepped := step cipher mode chain block
      let later := run cipher mode stepped.2 blocks
      (later.1 ++ [stepped.1], later.2) := by
  rw [run, List.foldl_cons]
  exact foldl_run ..

theorem run_append (cipher : BlockCipher) (mode : Mode) (chain : Bytes) (blocks later : List Bytes) :
    run cipher mode chain (blocks ++ later) =
      let first := run cipher mode chain blocks
      let second := run cipher mode first.2 later
      (second.1 ++ first.1, second.2) := by
  rw [run, List.foldl_append]
  exact foldl_run ..

theorem blockSize_pos (context : CipherContext) : 0 < context.blockSize :=
  context.algorithm.blockSize_pos

theorem apply_nil : apply [] context = .ok [] context := by
  rw [apply_aligned (Nat.zero_mod _), Bytes.pieces_nil]
  rfl

theorem aligned_block (whole : block.length = context.blockSize) :
    block.length % context.blockSize = 0 := by
  rw [whole, Nat.mod_self]

theorem apply_block (whole : block.length = context.blockSize) :
    apply block context =
      let stepped := step context.cipher context.mode context.chain block
      .ok stepped.1 { context with chain := stepped.2 } := by
  have one : Bytes.pieces context.blockSize block = [block] := by
    have pieces := Bytes.pieces_append context.blockSize_pos whole []
    rwa [List.append_nil, Bytes.pieces_nil] at pieces
  rw [apply_aligned (aligned_block whole), one, run_cons]
  simp [run]

/-- Whole blocks can be handed over in two pieces. -/
theorem apply_append (front : piece.length % context.blockSize = 0)
    (hFirst : apply piece context = .ok first after) (aligned : data.length % context.blockSize = 0)
    (hRest : apply data after = .ok rest last) :
    apply (piece ++ data) context = .ok (first ++ rest) last := by
  have together : (piece ++ data).length % context.blockSize = 0 := by
    rw [List.length_append, Nat.add_mod, front, aligned, Nat.zero_mod]
  rw [apply_aligned front] at hFirst
  cases hFirst
  have later : data.length % blockSize { context with
      chain := (run context.cipher context.mode context.chain
        (Bytes.pieces context.blockSize piece)).2 } = 0 := aligned
  rw [apply_aligned later] at hRest
  cases hRest
  rw [apply_aligned together, Bytes.pieces_append_aligned context.blockSize_pos front, run_append]
  simp [blockSize]

/-- One step of a decrypting context undoes that of an encrypting one. -/
theorem Encrypts.step (encrypts : context.Encrypts) (whole : block.length = context.blockSize) :
    let stepped := CipherContext.step context.cipher context.mode context.chain block
    let back := CipherContext.step context.cipher context.decrypting.mode context.chain stepped.1
    stepped.1.length = context.blockSize ∧ stepped.2.length = context.blockSize ∧
      back = (block, stepped.2) := by
  obtain ⟨mode, chain, reversible⟩ := encrypts
  have mixed : (Bytes.xor block context.chain).length = context.blockSize := by
    rw [Bytes.length_xor, whole, chain, Nat.min_self]
  have counter : (Bytes.xor block (context.cipher.encrypt context.chain)).length = context.blockSize := by
    rw [Bytes.length_xor, whole, reversible.length_encrypt, Nat.min_self]
  rw [mode, decrypting]
  -- a counter encrypts the chain both ways, and only a chained block needs the inverse cipher
  cases context.algorithm with
  | aes128Ctr | tripleDesCtr =>
    refine ⟨counter, by simp [modeOf, CipherContext.step, chain], ?_⟩
    simp only [modeOf, CipherContext.step]
    rw [Bytes.xor_xor_same (Nat.le_of_eq (whole.trans (reversible.length_encrypt _).symm))]
  | aes128Cbc | tripleDesCbc | blowfishCbc =>
    refine ⟨reversible.length_encrypt _, reversible.length_encrypt _, ?_⟩
    simp only [modeOf, CipherContext.step, reversible.decrypt_encrypt _ mixed]
    rw [Bytes.xor_xor_same (Nat.le_of_eq (whole.trans chain.symm))]

theorem Encrypts.writes_nil (encrypts : context.Encrypts) : context.Writes [] [] context where
  applied := apply_nil
  taken := apply_nil
  length := rfl
  algorithm := rfl
  encrypts := encrypts

theorem Encrypts.writes_block (encrypts : context.Encrypts)
    (whole : block.length = context.blockSize) :
    ∃ out after, context.Writes block out after := by
  obtain ⟨outLength, chainLength, back⟩ := encrypts.step whole
  refine ⟨_, _, apply_block whole, ?_, outLength.trans whole.symm, rfl, encrypts.mode, chainLength,
    encrypts.reversible⟩
  have opposite : (CipherContext.step context.cipher context.mode context.chain block).1.length =
      context.decrypting.blockSize := outLength
  have chains : context.decrypting.chain = context.chain := rfl
  have ciphers : context.decrypting.cipher = context.cipher := rfl
  rw [apply_block opposite, chains, ciphers, back]
  rfl

/-- What is written in two pieces is read in the same two. -/
theorem Writes.append {outFirst outRest : Bytes} (hFirst : context.Writes block outFirst after)
    (whole : block.length = context.blockSize) (hRest : after.Writes data outRest last)
    (aligned : data.length % context.blockSize = 0) :
    context.Writes (block ++ data) (outFirst ++ outRest) last where
  applied := apply_append (aligned_block whole) hFirst.applied aligned hRest.applied
  taken :=
    apply_append (aligned_block (hFirst.length.trans whole)) hFirst.taken
      (by rw [hRest.length]; exact aligned) hRest.taken
  length := by rw [List.length_append, List.length_append, hFirst.length, hRest.length]
  algorithm := hRest.algorithm.trans hFirst.algorithm
  encrypts := hRest.encrypts

/-- Whatever consists of whole blocks can be written. -/
theorem Encrypts.writes (encrypts : context.Encrypts)
    (aligned : data.length % context.blockSize = 0) :
    ∃ out after, context.Writes data out after := by
  induction size : data.length using Nat.strongRecOn generalizing data context with
  | _ n ih =>
    by_cases none : data = []
    · subst none
      exact ⟨[], context, encrypts.writes_nil⟩
    · have pos := List.length_pos_iff.2 none
      have blockPos := context.blockSize_pos
      have enough : context.blockSize ≤ data.length :=
        Nat.le_of_dvd pos (Nat.dvd_of_mod_eq_zero aligned)
      obtain ⟨whole, rest⟩ := Bytes.take_drop_aligned enough aligned
      have shorter : (data.drop context.blockSize).length < n := by
        rw [List.length_drop]
        omega
      obtain ⟨outFirst, after, hFirst⟩ := encrypts.writes_block whole
      have same : after.blockSize = context.blockSize := by rw [blockSize, hFirst.algorithm, blockSize]
      obtain ⟨outRest, last, hRest⟩ := ih _ shorter hFirst.encrypts (by rw [same]; exact rest) rfl
      refine ⟨outFirst ++ outRest, last, ?_⟩
      rw [← List.take_append_drop context.blockSize data]
      exact hFirst.append whole hRest rest

theorem create_opposites {algorithm : CipherAlgorithm} {key iv : Bytes}
    (accepted : acceptsKey algorithm key.length = true) (ivLength : iv.length = algorithm.blockSize) :
    ∃ context, create algorithm .encrypt key iv = .ok context ∧
      create algorithm .decrypt key iv = .ok context.decrypting ∧ context.Encrypts ∧
      context.algorithm = algorithm := by
  refine ⟨_, if_pos ⟨accepted, ivLength⟩, if_pos ⟨accepted, ivLength⟩, ⟨rfl, ivLength, ?_⟩, rfl⟩
  exact expandKey_reversible algorithm key

theorem create_encrypts {algorithm : CipherAlgorithm} {key iv : Bytes}
    (keyLength : key.length = algorithm.keySize) (ivLength : iv.length = algorithm.blockSize) :
    ∃ context, create algorithm .encrypt key iv = .ok context ∧
      create algorithm .decrypt key iv = .ok context.decrypting ∧ context.Encrypts ∧
      context.algorithm = algorithm := by
  have accepted : acceptsKey algorithm key.length = true := by
    rw [keyLength]
    cases algorithm <;> rfl
  exact create_opposites accepted ivLength

/-- Deals in blocks of one length, whichever way it is used. -/
structure Regular (context : CipherContext) : Prop where
  chain : context.chain.length = context.blockSize
  encrypt : ∀ block, (context.cipher.encrypt block).length = context.blockSize
  decrypt : ∀ block, (context.cipher.decrypt block).length = context.blockSize

theorem create_regular {algorithm : CipherAlgorithm} {operation : Operation} {key iv : Bytes}
    (created : create algorithm operation key iv = .ok context) :
    context.Regular ∧ context.algorithm = algorithm := by
  unfold create at created
  split at created
  · rename_i accepted
    cases created
    refine ⟨⟨accepted.2, ?_, ?_⟩, rfl⟩
    · intro block
      cases algorithm <;> simp [expandKey, BlockCipher.encrypt, blockSize, CipherAlgorithm.blockSize]
    · intro block
      cases algorithm <;> simp [expandKey, BlockCipher.decrypt, blockSize, CipherAlgorithm.blockSize]
  · cases created

theorem Regular.step (regular : context.Regular) (whole : block.length = context.blockSize) :
    (CipherContext.step context.cipher context.mode context.chain block).1.length =
        context.blockSize ∧
      (CipherContext.step context.cipher context.mode context.chain block).2.length =
        context.blockSize := by
  obtain ⟨chain, encrypt, decrypt⟩ := regular
  cases context.mode with
  | counter => simp [CipherContext.step, encrypt, chain, whole]
  | chaining operation =>
    cases operation with
    | encrypt => simp [CipherContext.step, encrypt]
    | decrypt => simp [CipherContext.step, decrypt, chain, whole]

theorem aligned_of_apply (applied : apply data context = .ok out after) :
    data.length % context.blockSize = 0 := by
  simp only [apply, bind_apply, get_apply] at applied
  split at applied
  · cases applied
  · rename_i whole
    exact Decidable.not_not.1 whole

/-- Whole blocks are taken to as many blocks. -/
theorem Regular.apply (regular : context.Regular)
    (aligned : data.length % context.blockSize = 0) :
    ∃ out after, CipherContext.apply data context = .ok out after ∧ out.length = data.length ∧
      after.Regular ∧ after.algorithm = context.algorithm := by
  induction size : data.length using Nat.strongRecOn generalizing data context with
  | _ n ih =>
    by_cases none : data = []
    · subst none
      exact ⟨[], context, apply_nil, size, regular, rfl⟩
    · have pos := List.length_pos_iff.2 none
      have blockPos := context.blockSize_pos
      have enough : context.blockSize ≤ data.length :=
        Nat.le_of_dvd pos (Nat.dvd_of_mod_eq_zero aligned)
      obtain ⟨whole, rest⟩ := Bytes.take_drop_aligned enough aligned
      have shorter : (data.drop context.blockSize).length < n := by
        rw [List.length_drop]
        omega
      obtain ⟨outLength, chainLength⟩ := regular.step whole
      have applied := apply_block whole
      let next : CipherContext := { context with
        chain := (CipherContext.step context.cipher context.mode context.chain
          (data.take context.blockSize)).2 }
      have regularNext : next.Regular := ⟨chainLength, regular.encrypt, regular.decrypt⟩
      obtain ⟨outRest, last, appliedRest, restLength, lastRegular, lastAlgorithm⟩ :=
        ih _ shorter regularNext rest rfl
      have together := apply_append (aligned_block whole) applied rest appliedRest
      rw [List.take_append_drop] at together
      refine ⟨_, last, together, ?_, lastRegular, lastAlgorithm⟩
      rw [List.length_append, outLength, restLength, List.length_drop]
      omega

theorem Regular.applied (regular : context.Regular)
    (applied : CipherContext.apply data context = .ok out after) :
    out.length = data.length ∧ after.Regular ∧ after.algorithm = context.algorithm := by
  obtain ⟨found, last, same, length, lastRegular, algorithm⟩ :=
    regular.apply (aligned_of_apply applied)
  rw [applied] at same
  cases same
  exact ⟨length, lastRegular, algorithm⟩

end Blocks

end CipherContext

end SecureShell
