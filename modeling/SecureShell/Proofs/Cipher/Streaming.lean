import SecureShell.Proofs.Cipher.Context

/-! Cipher contexts and streams. Whole blocks may be handed over in any pieces: the same
bytes come out and the same context is left. So whoever decrypts may cut a stream in other
places than whoever encrypted it. -/
namespace SecureShell

def WholeBlocks (size : Nat) (pieces : List Bytes) : Prop :=
  ∀ piece ∈ pieces, piece.length % size = 0

instance (size : Nat) (pieces : List Bytes) : Decidable (WholeBlocks size pieces) :=
  inferInstanceAs (Decidable (∀ piece ∈ pieces, _))

theorem WholeBlocks.flatten {size : Nat} {pieces : List Bytes} (whole : WholeBlocks size pieces) :
    pieces.flatten.length % size = 0 := by
  induction pieces with
  | nil => exact Nat.zero_mod size
  | cons piece rest ih =>
    have first := whole piece (by simp)
    have others := ih fun other among => whole other (by simp [among])
    rw [List.flatten_cons, List.length_append, Nat.add_mod, first, others, Nat.zero_mod]

namespace CipherContext

variable {context : CipherContext}

def applyAll : List Bytes → EStateM Error CipherContext (List Bytes)
  | [] => return []
  | piece :: pieces => do
    let out ← apply piece
    return out :: (← applyAll pieces)

/-- Data that is no whole number of blocks is refused, and nothing is lost by it. -/
theorem apply_unaligned {data : Bytes} (uneven : data.length % context.blockSize ≠ 0) :
    apply data context =
      .error (.crypto (.unaligned data.length context.blockSize)) context := by
  simp only [apply, bind_apply, get_apply, uneven, ne_eq, not_false_eq_true, if_true]
  rfl

/-- Pieces of whole blocks come to what the whole comes to. -/
theorem applyAll_whole {pieces : List Bytes} (whole : WholeBlocks context.blockSize pieces) :
    ∃ outs after, applyAll pieces context = .ok outs after ∧
      apply pieces.flatten context = .ok outs.flatten after := by
  induction pieces generalizing context with
  | nil => exact ⟨[], context, rfl, apply_nil⟩
  | cons piece rest ih =>
    have front := whole piece (by simp)
    have behind : WholeBlocks context.blockSize rest := fun other among => whole other (by simp [among])
    have applied := apply_aligned front
    obtain ⟨outs, after, appliedAll, together⟩ := @ih { context with
      chain := (run context.cipher context.mode context.chain
        (Bytes.pieces context.blockSize piece)).2 } behind
    refine ⟨_ :: outs, after, ?_, apply_append front applied behind.flatten together⟩
    rw [applyAll, bind_apply, applied]
    simp only [bind_apply, appliedAll, pure_apply]

/-- The two contexts of a key and an initial vector of accepted lengths treat data as a
stream. However whole blocks are cut, the encrypting context gives the same bytes and is
left in the same state; the decrypting one takes the data back from any other cutting and
ends at the same chaining block. Data of another length is refused at any point of a
stream, and the chaining block stays where it was. -/
theorem create_streams {algorithm : CipherAlgorithm} {key iv : Bytes}
    (accepted : acceptsKey algorithm key.length = true) (ivLength : iv.length = algorithm.blockSize) :
    ∃ encryptor decryptor, create algorithm .encrypt key iv = .ok encryptor ∧
      create algorithm .decrypt key iv = .ok decryptor ∧
      (∀ pieces, WholeBlocks algorithm.blockSize pieces → ∃ outs after,
        applyAll pieces encryptor = .ok outs after ∧
        apply pieces.flatten encryptor = .ok outs.flatten after ∧
        outs.flatten.length = pieces.flatten.length ∧
        ∀ cuts, WholeBlocks algorithm.blockSize cuts → cuts.flatten = outs.flatten →
          ∃ found last, applyAll cuts decryptor = .ok found last ∧
            found.flatten = pieces.flatten ∧ last.chain = after.chain) ∧
      ∀ context : CipherContext, context.algorithm = algorithm →
        ∀ data, data.length % algorithm.blockSize ≠ 0 →
          apply data context =
            .error (.crypto (.unaligned data.length algorithm.blockSize)) context := by
  obtain ⟨encryptor, encrypts, decrypts, encrypting, rfl⟩ := create_opposites accepted ivLength
  refine ⟨encryptor, encryptor.decrypting, encrypts, decrypts, ?_, ?_⟩
  · intro pieces whole
    have wholePieces : WholeBlocks encryptor.blockSize pieces := whole
    obtain ⟨outs, after, appliedAll, applied⟩ := applyAll_whole wholePieces
    obtain ⟨out, final, writes⟩ := encrypting.writes whole.flatten
    obtain ⟨rfl, rfl⟩ : out = outs.flatten ∧ final = after := by
      have same := writes.applied.symm.trans applied
      cases same
      exact ⟨rfl, rfl⟩
    refine ⟨outs, final, appliedAll, applied, writes.length, ?_⟩
    intro cuts wholeCuts same
    have wholeBack : WholeBlocks encryptor.decrypting.blockSize cuts := wholeCuts
    obtain ⟨found, last, takenAll, taken⟩ := applyAll_whole wholeBack
    obtain ⟨data, rfl⟩ : found.flatten = pieces.flatten ∧ last = final.decrypting := by
      have back := taken.symm.trans (same ▸ writes.taken)
      injection back with data state
      exact ⟨data, state⟩
    exact ⟨found, _, takenAll, data, rfl⟩
  · intro context same data uneven
    rw [← same] at uneven ⊢
    exact apply_unaligned uneven

/-- Two blocks and none and then one, under a counter that wraps around; they are taken
back one and two at a time. -/
theorem create_streams_wrapping :
    let pieces := [List.replicate 16 7, [], List.replicate 8 9]
    acceptsKey .tripleDesCtr (List.replicate 24 1).length = true ∧
      (List.replicate 8 255).length = CipherAlgorithm.blockSize .tripleDesCtr ∧
      WholeBlocks 8 pieces ∧
      ∃ encryptor decryptor outs after,
        create .tripleDesCtr .encrypt (List.replicate 24 1) (List.replicate 8 255) = .ok encryptor ∧
        create .tripleDesCtr .decrypt (List.replicate 24 1) (List.replicate 8 255) = .ok decryptor ∧
        applyAll pieces encryptor = .ok outs after ∧
        apply pieces.flatten encryptor = .ok outs.flatten after ∧
        ∃ found last,
          applyAll [outs.flatten.take 8, outs.flatten.drop 8] decryptor = .ok found last ∧
          found.flatten = pieces.flatten ∧ last.chain = after.chain ∧
          apply [1, 2, 3] decryptor = .error (.crypto (.unaligned 3 8)) decryptor := by
  intro pieces
  have accepted : acceptsKey .tripleDesCtr (List.replicate 24 1).length = true := by decide
  have ivLength : (List.replicate 8 255).length = CipherAlgorithm.blockSize .tripleDesCtr := by decide
  have whole : WholeBlocks 8 pieces := by decide
  obtain ⟨encryptor, decryptor, encrypts, decrypts, streams, refuses⟩ :=
    @create_streams .tripleDesCtr (List.replicate 24 1) (List.replicate 8 255) accepted ivLength
  obtain ⟨outs, after, appliedAll, applied, length, takes⟩ := streams pieces whole
  have length : outs.flatten.length = 24 := length
  have cuts : WholeBlocks 8 [outs.flatten.take 8, outs.flatten.drop 8] := by
    intro piece among
    simp only [List.mem_cons, List.not_mem_nil, or_false] at among
    rcases among with rfl | rfl
    · rw [List.length_take, length]
      rfl
    · rw [List.length_drop, length]
  have joined : [outs.flatten.take 8, outs.flatten.drop 8].flatten = outs.flatten := by simp
  obtain ⟨found, last, taken, data, chain⟩ := takes _ cuts joined
  have refused := refuses decryptor (create_regular decrypts).2 [1, 2, 3] (by decide)
  exact ⟨accepted, ivLength, whole, encryptor, decryptor, outs, after, encrypts, decrypts,
    appliedAll, applied, found, last, taken, data, chain, refused⟩

end CipherContext

end SecureShell
