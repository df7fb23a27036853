import SecureShell.Zlib.Bits

/-!
Prefix codes as binary trees. A code is given by the length of each symbol's
word: shorter words come before longer ones, and words of one length follow the
order of their symbols. A walk from the root along the bits of a word ends at
its symbol; a walk that leaves the tree follows no word.
-/
namespace SecureShell.Zlib

inductive PrefixCode where
  | vacant
  | leaf (symbol : Nat)
  | fork (zero one : PrefixCode)
  deriving DecidableEq

namespace PrefixCode

/-- No word is longer. -/
def maxLength : Nat := 15

/-- Gives each of the symbols, paired with their lengths in order, the next word. -/
def assign : (next width : Nat) → List (Nat × Nat) → List (Nat × List Bool)
  | _, _, [] => []
  | next, width, (length, symbol) :: rest =>
    let word := next * 2 ^ (length - width)
    (symbol, (lowBits length word).reverse) :: assign (word + 1) length rest

/-- The word of every symbol that has one; length zero stands for none. -/
def words (lengths : List Nat) : List (Nat × List Bool) :=
  assign 0 0 ((List.range' 1 maxLength).flatMap fun length =>
    lengths.zipIdx.filter (·.1 == length))

/-- The tree behind one bit. -/
def child : PrefixCode → Bool → PrefixCode
  | .fork zero one, bit => if bit then one else zero
  | _, _ => .vacant

/-- Adds a word that no other word begins with. -/
def insert (symbol : Nat) : List Bool → PrefixCode → PrefixCode
  | [], _ => .leaf symbol
  | bit :: rest, tree =>
    let below := insert symbol rest (tree.child bit)
    if bit then .fork (tree.child false) below else .fork below (tree.child true)

def ofLengths (lengths : List Nat) : PrefixCode :=
  (words lengths).foldl (fun tree (symbol, word) => tree.insert symbol word) .vacant

/-- The share of all bit strings that begin with a word, in units of `2⁻¹⁶`. -/
def coverage (lengths : List Nat) : Nat :=
  lengths.foldl (fun sum length => if length = 0 then sum else sum + 2 ^ (16 - length)) 0

/-- Does every long enough bit string begin with exactly one word? -/
def isComplete (lengths : List Nat) : Bool := coverage lengths == 2 ^ 16

/-- The code of the given lengths if it is complete. -/
def complete? (lengths : List Nat) : Option PrefixCode :=
  if isComplete lengths then some (ofLengths lengths) else none

/-- Like `complete?`, but a code of at most one word need not be complete. -/
def lenient? (lengths : List Nat) : Option PrefixCode :=
  if isComplete lengths || (lengths.filter (· != 0)).length ≤ 1 then some (ofLengths lengths)
  else none

end PrefixCode

end SecureShell.Zlib
