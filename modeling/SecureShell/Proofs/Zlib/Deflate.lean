import SecureShell.Zlib.Deflate
import SecureShell.Proofs.Zlib.Stepping

/-! A decoder that stands between two pieces of data takes the next piece as it was
deflated: its output grows by exactly that piece, and it stands between two pieces
again. -/
namespace SecureShell.Zlib

theorem fixedWords_walk :
    (PrefixCode.words fixedLiteralLengths).all (fun word =>
      word.2 ≠ [] && BlockCodes.fixed.literal.follow word.2 = .leaf word.1) = true := by
  decide +kernel

theorem fixedWords_symbols : (PrefixCode.words fixedLiteralLengths).map Prod.fst =
    List.range' 256 24 ++ List.range' 0 144 ++ List.range' 280 8 ++ List.range' 144 112 := by
  decide +kernel

theorem length_fixedLiteralLengths : fixedLiteralLengths.length = 288 := by
  simp only [fixedLiteralLengths, List.length_append, List.length_replicate]

/-- Every symbol of the fixed code has a word, and the word leads to it. -/
theorem fixedWord_walk {symbol : Nat} (inside : symbol < 288) :
    fixedWord symbol ≠ [] ∧ BlockCodes.fixed.literal.follow (fixedWord symbol) = .leaf symbol := by
  have listed : symbol ∈ (PrefixCode.words fixedLiteralLengths).map Prod.fst := by
    rw [fixedWords_symbols]
    simp only [List.mem_append, List.mem_range'_1]
    omega
  obtain ⟨word, found⟩ : ∃ word, (PrefixCode.words fixedLiteralLengths).lookup symbol = some word := by
    rw [← Option.isSome_iff_exists, List.lookup_isSome_iff]
    obtain ⟨entry, member, rfl⟩ := List.mem_map.1 listed
    exact ⟨entry, member, beq_self_eq_true _⟩
  -- only the table as a whole is evaluated: its entry for the symbol is a member of it
  obtain ⟨before, behind, split, -⟩ := List.lookup_eq_some_iff.1 found
  have same : fixedWord symbol = word := by
    have index : (List.range fixedLiteralLengths.length)[symbol]? = some symbol := by
      rw [length_fixedLiteralLengths]
      exact List.getElem?_range inside
    rw [fixedWord, fixedWords, Array.getD_eq_getD_getElem?, List.getElem?_toArray,
      List.getElem?_map, index, Option.map_some, found, Option.getD_some, Option.getD_some]
  have walk := List.all_eq_true.1 fixedWords_walk (symbol, word) (by simp [split])
  rw [same]
  simpa using walk

theorem fixedDistance_walk :
    BlockCodes.fixed.distance.follow (List.replicate 5 false) = .leaf 0 := by
  decide +kernel

theorem lengthRanges_index : ∀ length < 259, 3 ≤ length →
    let range := lengthRanges.getD (lengthIndex length) (0, 0)
    firstLength + lengthIndex length < 288 ∧ lengthRanges[lengthIndex length]? = some range ∧
      range.1 ≤ length ∧ length < range.1 + 2 ^ range.2 := by
  decide +kernel

theorem length_range {length : Nat} (least : 3 ≤ length) (most : length ≤ 258) :
    ∃ base extra, lengthRanges.getD (lengthIndex length) (0, 0) = (base, extra) ∧
      lengthRanges[lengthIndex length]? = some (base, extra) ∧
      firstLength + lengthIndex length < 288 ∧ base ≤ length ∧ length < base + 2 ^ extra := by
  obtain ⟨symbol, entry, low, high⟩ := lengthRanges_index length (Nat.lt_succ_of_le most) least
  exact ⟨_, _, rfl, entry, symbol, low, high⟩

namespace Decoder

variable {d : Decoder}

def extend (d : Decoder) (bytes : Bytes) : Decoder :=
  { d with output := d.output ++ bytes.toArray }

@[simp] theorem extend_nil : d.extend [] = d := by
  simp [extend]

theorem extend_extend (a b : Bytes) : (d.extend a).extend b = d.extend (a ++ b) := by
  simp [extend, Array.append_assoc]

theorem write_eq (b : UInt8) : d.write b = d.extend [b] := by
  simp [write, extend]

theorem lookBack_one {b : UInt8} (last : d.output.back? = some b) : d.lookBack 1 = b := by
  have found : d.output[d.output.size - 1]? = some b := by rwa [← Array.back?_eq_getElem?]
  have pos : 1 ≤ d.output.size := by
    rcases Nat.eq_zero_or_pos d.output.size with zero | pos
    · rw [Array.getElem?_eq_none (by omega)] at found
      cases found
    · exact pos
  rw [lookBack, if_pos pos, Array.getD_eq_getD_getElem?, found, Option.getD_some]

/-- Copies from the distance of one repeat the last byte. -/
theorem copy_one {b : UInt8} (last : d.output.back? = some b) (length : Nat) :
    d.copy 1 length = d.extend (List.replicate length b) := by
  induction length generalizing d with
  | zero => simp [copy]
  | succ n ih =>
    have again : (d.write b).output.back? = some b := by simp [write]
    rw [copy, lookBack_one last, ih again, write_eq, extend_extend, List.replicate_succ,
      List.singleton_append]

/-- In a block of the fixed code, `bits` stand for `bytes`. -/
def Spells (d : Decoder) (bits : List Bool) (bytes : Bytes) : Prop :=
  (d.nextLiteral .fixed).steps bits = ((d.skip bits.length).extend bytes).nextLiteral .fixed

theorem Spells.nil : d.Spells [] [] := by
  simp [Spells, skip]

theorem Spells.append {a b : List Bool} {x y : Bytes} (first : d.Spells a x)
    (second : ((d.skip a.length).extend x).Spells b y) : d.Spells (a ++ b) (x ++ y) := by
  simp only [Spells] at first second ⊢
  rw [steps_append, first, second, ← extend_extend, List.length_append, ← skip_skip]
  rfl

theorem steps_fixedWord {symbol : Nat} (inside : symbol < 288) :
    (d.nextLiteral .fixed).steps (fixedWord symbol) =
      (d.skip (fixedWord symbol).length).takeSymbol (.literal .fixed) symbol :=
  steps_word (.literal .fixed) (fixedWord_walk inside).1 (fixedWord_walk inside).2

theorem spells_literal (b : UInt8) : d.Spells (Token.literal b).bits [b] := by
  have small : b.toNat < endOfBlock := b.toNat_lt
  have inside : b.toNat < 288 := Nat.lt_trans small (by decide)
  rw [Spells, Token.bits, steps_fixedWord inside, takeSymbol, if_pos small, UInt8.ofNat_toNat,
    write_eq]

/-- The symbol of a length, with its extra bits. -/
theorem steps_length {index least extra length : Nat} (symbol : firstLength + index < 288)
    (entry : lengthRanges[index]? = some (least, extra)) (low : least ≤ length)
    (high : length < least + 2 ^ extra) :
    (d.nextLiteral .fixed).steps
        (fixedWord (firstLength + index) ++ lowBits extra (length - least)) =
      (d.skip ((fixedWord (firstLength + index)).length + extra)).nextDistance .fixed length := by
  have notLiteral : ¬ firstLength + index < endOfBlock := by
    rw [firstLength, endOfBlock]
    omega
  have notEnd : ¬ firstLength + index = endOfBlock := by
    rw [firstLength, endOfBlock]
    omega
  rw [steps_append, steps_fixedWord symbol, takeSymbol, if_neg notLiteral, if_neg notEnd,
    Nat.add_sub_cancel_left, entry]
  cases extra with
  | zero =>
    have same : least = length := by omega
    simp only [same, lowBits_none, steps_nil, Nat.add_zero]
  | succ extra =>
    have value : (length - least) % 2 ^ (extra + 1) = length - least :=
      Nat.mod_eq_of_lt (by omega)
    simp only
    rw [steps_lowBits _ (Nat.succ_pos extra), takeNumber, value, Nat.add_sub_cancel' low, skip_skip]

theorem steps_distance {b : UInt8} (last : d.output.back? = some b) (length : Nat) :
    (d.nextDistance .fixed length).steps (List.replicate 5 false) =
      ((d.skip 5).extend (List.replicate length b)).nextLiteral .fixed := by
  have some : List.replicate 5 false ≠ [] := by simp
  have word := steps_word (d := d) (.distance .fixed length) some fixedDistance_walk
  have again : (d.skip 5).output.back? = .some b := last
  rw [← copy_one again]
  exact word

theorem spells_again {b : UInt8} (last : d.output.back? = some b) {length : Nat}
    (least : 3 ≤ length) (most : length ≤ 258) :
    d.Spells (Token.again length).bits (List.replicate length b) := by
  obtain ⟨base, extra, range, entry, symbol, low, high⟩ := length_range least most
  have measured := steps_length (d := d) symbol entry low high
  have still : ∀ count, (d.skip count).output.back? = some b := fun _ => last
  simp only [Spells, Token.bits, range]
  rw [steps_append, measured, steps_distance (still _), skip_skip, List.length_append,
    List.length_append, length_lowBits, List.length_replicate]

theorem extend_last {b : UInt8} {count : Nat} (pos : 0 < count) :
    (d.extend (List.replicate count b)).output.back? = some b := by
  obtain ⟨n, rfl⟩ := Nat.exists_eq_add_one.2 pos
  simp [extend, List.replicate_succ']

/-- Copies and literals that repeat the last byte. -/
theorem spells_repeat {b : UInt8} (count : Nat) (last : d.output.back? = some b) :
    d.Spells ((repeatTokens b count).flatMap Token.bits) (List.replicate count b) := by
  fun_induction repeatTokens b count generalizing d with
  | case1 count few =>
    clear few
    induction count generalizing d with
    | zero => exact .nil
    | succ n ih =>
      rw [List.replicate_succ, List.flatMap_cons, List.replicate_succ (a := b)]
      exact (spells_literal b).append (y := List.replicate n b) (ih (extend_last Nat.one_pos))
  | case2 count many ih =>
    have pieces : List.replicate count b =
        List.replicate (min count 258) b ++ List.replicate (count - min count 258) b := by
      rw [List.replicate_append_replicate]
      congr 1
      omega
    rw [List.flatMap_cons, pieces]
    exact (spells_again last (by omega) (by omega)).append (ih (extend_last (by omega)))

theorem spells_run (run : UInt8 × Nat) :
    d.Spells ((runTokens run).flatMap Token.bits) (List.replicate run.2 run.1) := by
  obtain ⟨b, count⟩ := run
  cases count with
  | zero => exact .nil
  | succ n =>
    rw [runTokens, List.flatMap_cons, List.replicate_succ]
    exact (spells_literal b).append (spells_repeat n (extend_last Nat.one_pos))

theorem spells_runs (runs : List (UInt8 × Nat)) :
    d.Spells ((runs.flatMap runTokens).flatMap Token.bits)
      (runs.flatMap fun run => List.replicate run.2 run.1) := by
  induction runs generalizing d with
  | nil => exact .nil
  | cons run rest ih =>
    rw [List.flatMap_cons, List.flatMap_append, List.flatMap_cons]
    exact (spells_run run).append ih

end Decoder

theorem expand_addToRuns (b : UInt8) (runs : List (UInt8 × Nat)) :
    (addToRuns b runs).flatMap (fun run => List.replicate run.2 run.1) =
      b :: runs.flatMap fun run => List.replicate run.2 run.1 := by
  cases runs with
  | nil => rfl
  | cons run more =>
    rw [addToRuns]
    split
    · rename_i same
      rw [List.flatMap_cons, List.flatMap_cons, List.replicate_succ, same, List.cons_append]
    · rfl

theorem expand_runs (data : Bytes) :
    (runs data).flatMap (fun run => List.replicate run.2 run.1) = data := by
  induction data with
  | nil => rfl
  | cons b rest ih => rw [runs, List.foldr_cons, ← runs, expand_addToRuns, ih]

namespace Decoder

variable {d : Decoder}

theorem spells_tokens (data : Bytes) : d.Spells ((tokens data).flatMap Token.bits) data := by
  have spelled := spells_runs (d := d) (runs data)
  rwa [expand_runs] at spelled

theorem steps_fixedHeader (more : d.lastBlock = false) :
    (d.read .blockHeader 3).steps (lowBits 3 2) = (d.skip 3).nextLiteral .fixed := by
  rw [steps_lowBits _ (by decide)]
  simp [takeNumber, startBlock, nextLiteral, skip, more]

theorem takeSymbol_endOfBlock (more : d.lastBlock = false) (codes : BlockCodes) :
    d.takeSymbol (.literal codes) endOfBlock = d.read .blockHeader 3 := by
  simp [takeSymbol, nextBlock, more]

/-- A block in the fixed code, from its header to the next one. -/
theorem steps_blockBits (more : d.lastBlock = false) (data : Bytes) :
    (d.read .blockHeader 3).steps (blockBits data) =
      ((d.skip (blockBits data).length).extend data).read .blockHeader 3 := by
  have still : ∀ a b c, (((d.skip a).skip b).extend data |>.skip c).lastBlock = false :=
    fun _ _ _ => more
  rw [blockBits, steps_append, steps_append, steps_fixedHeader more, spells_tokens data,
    steps_fixedWord (by decide), takeSymbol_endOfBlock (still ..), List.length_append,
    List.length_append, length_lowBits, ← skip_skip, ← skip_skip]
  rfl

theorem steps_storedHeader (more : d.lastBlock = false) :
    (d.read .blockHeader 3).steps (lowBits 3 0) =
      (d.skip 3).read (.storedSize (d.skip 3).skipped) ((d.skip 3).skipped + 32) := by
  rw [steps_lowBits _ (by decide)]
  simp [takeNumber, startBlock, skipped, skip, Decoder.read, more]

/-- The sizes of an empty stored block, behind what fills up a byte. -/
theorem steps_noSize (more : d.lastBlock = false) (filling : Nat) :
    (d.read (.storedSize filling) (filling + 32)).steps
        (List.replicate filling false ++ toBits [0, 0, 0xff, 0xff]) =
      (d.skip (filling + 32)).read .blockHeader 3 := by
  have length : (List.replicate filling false ++ toBits [0, 0, 0xff, 0xff]).length = filling + 32 := by
    simp
  have some : List.replicate filling false ++ toBits [0, 0, 0xff, 0xff] ≠ [] := by
    intro none
    rw [none] at length
    simp at length
  have value : bitsValue (List.replicate filling false ++ toBits [0, 0, 0xff, 0xff]) =
      2 ^ filling * 0xffff0000 := by
    rw [bitsValue_append, bitsValue_zeros, Nat.zero_add, List.length_replicate]
    rfl
  have steps := steps_read (d := d) (.storedSize filling) some
  rw [length, value] at steps
  rw [steps, takeNumber, Nat.mul_div_cancel_left _ (Nat.two_pow_pos filling)]
  simp [nextStored, nextBlock, skip, more]

/-- Stands between two pieces of data. -/
structure Rests (d : Decoder) : Prop where
  stage : d.stage = .number .blockHeader 3 0 0
  more : d.lastBlock = false
  aligned : d.position % 8 = 0

theorem Rests.read (rests : d.Rests) : d.read .blockHeader 3 = d := by
  rw [Decoder.read, ← rests.stage]

/-- Whatever has been taken since the last rest, the flush after it leads to the next. -/
theorem steps_flushed {before : List Bool} {data : Bytes} (rests : d.Rests)
    (taken : d.steps before = ((d.skip before.length).extend data).read .blockHeader 3) :
    (d.steps (toBits (flushed before))).Rests ∧
      (d.steps (toBits (flushed before))).output = d.output ++ data.toArray := by
  have bits : toBits (flushed before) = before ++ lowBits 3 0 ++
      (List.replicate (lacking (before.length + 3)) false ++ toBits [0, 0, 0xff, 0xff]) := by
    rw [flushed, toBits_append, toBits_pack, List.length_append, length_lowBits, List.append_assoc]
  have more : ((d.skip before.length).extend data).lastBlock = false := rests.more
  have later : (((d.skip before.length).extend data).skip 3).lastBlock = false := rests.more
  have filling : (((d.skip before.length).extend data).skip 3).skipped = lacking (before.length + 3) := by
    have := rests.aligned
    simp only [skipped, skip, extend, lacking]
    omega
  have result : d.steps (toBits (flushed before)) =
      ((((d.skip before.length).extend data).skip 3).skip
        (lacking (before.length + 3) + 32)).read .blockHeader 3 := by
    rw [bits, steps_append (before ++ lowBits 3 0), steps_append before, taken,
      steps_storedHeader more, filling, steps_noSize later]
  rw [result]
  refine ⟨⟨rfl, rests.more, ?_⟩, rfl⟩
  have := rests.aligned
  simp only [Decoder.read, skip, extend, lacking]
  omega

/-- Inflating undoes deflating, from rest to rest. -/
theorem steps_deflate (rests : d.Rests) (data : Bytes) :
    (d.steps (toBits (deflate data))).Rests ∧
      (d.steps (toBits (deflate data))).output = d.output ++ data.toArray := by
  rw [deflate]
  split
  · rename_i empty
    obtain rfl := List.isEmpty_iff.1 empty
    refine steps_flushed rests ?_
    rw [extend_nil]
    exact rests.read.symm
  · refine steps_flushed rests ?_
    have block := steps_blockBits rests.more data
    rwa [rests.read] at block

/-- The beginning of a stream leads to the first rest, with nothing written. -/
theorem steps_streamHeader :
    (Decoder.steps {} (toBits streamHeader)).Rests ∧
      (Decoder.steps {} (toBits streamHeader)).output = #[] :=
  ⟨⟨rfl, rfl, rfl⟩, rfl⟩

end Decoder

end SecureShell.Zlib
