import SecureShell.Zlib.Decoder
import SecureShell.Proofs.Zlib.Bits

/-! How a decoder takes the bits of a whole number or of a whole code word: it does
what they stand for, as if they had come at once. -/
namespace SecureShell.Zlib

namespace PrefixCode

def follow (tree : PrefixCode) (word : List Bool) : PrefixCode := word.foldl child tree

theorem follow_vacant (word : List Bool) : follow .vacant word = .vacant := by
  induction word with
  | nil => rfl
  | cons bit rest ih => exact ih

theorem follow_leaf {symbol found : Nat} {word : List Bool}
    (h : follow (.leaf symbol) word = .leaf found) : word = [] ∧ symbol = found := by
  cases word with
  | nil =>
    cases h
    exact ⟨rfl, rfl⟩
  | cons bit rest =>
    have lost : follow .vacant rest = .leaf found := h
    rw [follow_vacant] at lost
    cases lost

end PrefixCode

namespace Decoder

variable {d : Decoder}

def steps (d : Decoder) (bits : List Bool) : Decoder := bits.foldl step d

@[simp] theorem steps_nil : d.steps [] = d := rfl

theorem steps_append (a b : List Bool) : d.steps (a ++ b) = (d.steps a).steps b :=
  List.foldl_append

def skip (d : Decoder) (count : Nat) : Decoder := { d with position := d.position + count }

def wait (d : Decoder) (stage : Stage) : Decoder := { d with stage }

theorem skip_skip (a b : Nat) : (d.skip a).skip b = d.skip (a + b) := by
  simp only [skip, Nat.add_assoc]

section Waiting

variable (stage : Stage)

@[simp] theorem fail_wait : (d.wait stage).fail = d.fail := rfl

@[simp] theorem read_wait (what : Number) (width : Nat) :
    (d.wait stage).read what width = d.read what width := rfl

@[simp] theorem write_wait (b : UInt8) : (d.wait stage).write b = (d.write b).wait stage := rfl

@[simp] theorem nextLiteral_wait (codes : BlockCodes) :
    (d.wait stage).nextLiteral codes = d.nextLiteral codes := rfl

@[simp] theorem nextDistance_wait (codes : BlockCodes) (length : Nat) :
    (d.wait stage).nextDistance codes length = d.nextDistance codes length := rfl

@[simp] theorem nextBlock_wait : (d.wait stage).nextBlock = d.nextBlock := rfl

@[simp] theorem nextStored_wait (left : Nat) :
    (d.wait stage).nextStored left = d.nextStored left := rfl

@[simp] theorem nextCodeLength_wait (sizes : TableSizes) (code : PrefixCode) (lengths : List Nat) :
    (d.wait stage).nextCodeLength sizes code lengths = d.nextCodeLength sizes code lengths := rfl

@[simp] theorem nextMetaLength_wait (sizes : TableSizes) (left : Nat) (lengths : List Nat) :
    (d.wait stage).nextMetaLength sizes left lengths = d.nextMetaLength sizes left lengths := by
  simp only [nextMetaLength, fail_wait, read_wait, nextCodeLength_wait]

@[simp] theorem startBlock_wait (header : Nat) :
    (d.wait stage).startBlock header = d.startBlock header := rfl

@[simp] theorem copy_wait (distance length : Nat) :
    (d.wait stage).copy distance length = (d.copy distance length).wait stage := by
  induction length generalizing d with
  | zero => rfl
  | succ n ih => exact ih (d := d.write (d.lookBack distance))

/-- What a number stands for does not depend on the stage. -/
theorem takeNumber_wait (what : Number) (value : Nat) :
    (d.wait stage).takeNumber what value = d.takeNumber what value := by
  cases what <;> simp only [takeNumber, fail_wait, nextBlock_wait, startBlock_wait, nextStored_wait,
    write_wait, nextMetaLength_wait, nextCodeLength_wait, nextDistance_wait, copy_wait,
    nextLiteral_wait]
  rfl

theorem takeSymbol_wait (what : Word) (symbol : Nat) :
    (d.wait stage).takeSymbol what symbol = d.takeSymbol what symbol := by
  cases what <;> simp only [takeSymbol, fail_wait, read_wait, write_wait, nextBlock_wait,
    nextCodeLength_wait, nextDistance_wait, copy_wait, nextLiteral_wait]

end Waiting

theorem step_number (what : Number) (width got value : Nat) (bit : Bool) :
    (d.wait (.number what width got value)).step bit =
      if got + 1 < width then
        (d.skip 1).wait (.number what width (got + 1) (value + bit.toNat * 2 ^ got))
      else (d.skip 1).takeNumber what (value + bit.toNat * 2 ^ got) := by
  rw [← takeNumber_wait (.number what width got value)]
  rfl

/-- The last bit of a number carries out what it stands for. -/
theorem steps_number (what : Number) (got value : Nat) {bits : List Bool} (some : bits ≠ []) :
    (d.wait (.number what (got + bits.length) got value)).steps bits =
      (d.skip bits.length).takeNumber what (value + 2 ^ got * bitsValue bits) := by
  induction bits generalizing d got value with
  | nil => exact absurd rfl some
  | cons bit rest ih =>
    rw [steps, List.foldl_cons, ← steps, step_number]
    cases rest with
    | nil =>
      rw [if_neg (by simp)]
      simp [bitsValue_cons, Nat.mul_comm]
    | cons next more =>
      have early : got + 1 < got + (bit :: next :: more).length := by simp
      have width : got + (bit :: next :: more).length = got + 1 + (next :: more).length := by
        simp only [List.length_cons]
        omega
      rw [if_pos early, width, ih (got + 1) _ (List.cons_ne_nil _ _), skip_skip,
        Nat.add_comm 1, ← List.length_cons, bitsValue_cons bit, Nat.pow_succ, Nat.mul_add,
        Nat.mul_assoc, Nat.add_assoc, Nat.mul_comm bit.toNat]

theorem steps_read (what : Number) {bits : List Bool} (some : bits ≠ []) :
    (d.read what bits.length).steps bits = (d.skip bits.length).takeNumber what (bitsValue bits) := by
  have steps := steps_number (d := d) what 0 0 some
  rwa [Nat.zero_add, Nat.zero_add, Nat.pow_zero, Nat.one_mul] at steps

theorem steps_lowBits (what : Number) {width : Nat} (pos : 0 < width) (n : Nat) :
    (d.read what width).steps (lowBits width n) =
      (d.skip width).takeNumber what (n % 2 ^ width) := by
  have some : lowBits width n ≠ [] := by
    intro none
    have := length_lowBits width n
    rw [none] at this
    exact absurd this (Nat.ne_of_lt pos)
  have steps := steps_read (d := d) what some
  rwa [length_lowBits, bitsValue_lowBits] at steps

theorem step_leaf (what : Word) {tree : PrefixCode} {bit : Bool} {symbol : Nat}
    (below : tree.child bit = .leaf symbol) :
    (d.wait (.word what tree)).step bit = (d.skip 1).takeSymbol what symbol := by
  rw [← takeSymbol_wait (.word what tree)]
  simp only [step, wait, below]
  rfl

theorem step_fork (what : Word) {tree zero one : PrefixCode} {bit : Bool}
    (below : tree.child bit = .fork zero one) :
    (d.wait (.word what tree)).step bit = (d.skip 1).wait (.word what (.fork zero one)) := by
  simp only [step, wait, below]
  rfl

/-- The last bit of a word carries out what its symbol stands for. -/
theorem steps_word (what : Word) {tree : PrefixCode} {word : List Bool} {symbol : Nat}
    (some : word ≠ []) (found : tree.follow word = .leaf symbol) :
    (d.wait (.word what tree)).steps word = (d.skip word.length).takeSymbol what symbol := by
  induction word generalizing d tree with
  | nil => exact absurd rfl some
  | cons bit rest ih =>
    have walked : (tree.child bit).follow rest = .leaf symbol := found
    rw [steps, List.foldl_cons, ← steps]
    cases below : tree.child bit with
    | vacant =>
      rw [below, PrefixCode.follow_vacant] at walked
      cases walked
    | leaf symbol =>
      rw [below] at walked
      obtain ⟨rfl, rfl⟩ := PrefixCode.follow_leaf walked
      exact step_leaf what below
    | fork zero one =>
      rw [below] at walked
      have more : rest ≠ [] := by
        rintro rfl
        cases walked
      rw [step_fork what below, ih more walked, skip_skip, Nat.add_comm, List.length_cons]

end Decoder

end SecureShell.Zlib
