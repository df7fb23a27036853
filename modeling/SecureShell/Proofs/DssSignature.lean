import SecureShell.Proofs.TwosComplement
import SecureShell.Signature.Dsa

/-! Signatures of two numbers in the distinguished encoding. A strict reader of a pair of
numbers takes what is written for a raw signature, and nothing else, for the numbers that
its halves denote, so that a signature may be checked by way of its encoding. -/
namespace SecureShell

namespace Der

/-- Takes an element with a certain tag off the front: one byte for the length of the
contents, less than 128, and the contents. -/
def element? (tag : UInt8) : Bytes → Option (Bytes × Bytes)
  | found :: length :: rest =>
    if found = tag ∧ length < 0x80 ∧ length.toNat ≤ rest.length then
      some (rest.take length.toNat, rest.drop length.toNat)
    else none
  | _ => none

/-- The contents of an integer that is not negative, in as few bytes as possible: there is
one at least, the sign bit is clear, and a zero in front of others is there for the sign
bit alone. -/
def Minimal (content : Bytes) : Prop :=
  content ≠ [] ∧ content.headD 0 < 0x80 ∧
    (content.headD 0 = 0 → content.tail ≠ [] → 0x80 ≤ content.tail.headD 0)

instance (content : Bytes) : Decidable (Minimal content) := inferInstanceAs (Decidable (_ ∧ _))

def number? (content : Bytes) : Option Nat := if Minimal content then some content.toNat else none

def integer? (bytes : Bytes) : Option (Nat × Bytes) := do
  let (content, rest) ← element? 0x02 bytes
  return (← number? content, rest)

/-- Reads a sequence of two integers. Nothing may follow the second one in the sequence, or
the sequence itself. -/
def pair? (bytes : Bytes) : Option (Nat × Nat) := do
  let (content, behind) ← element? 0x30 bytes
  let (first, more) ← integer? content
  let (second, rest) ← integer? more
  if behind = [] ∧ rest = [] then some (first, second) else none

/-- An element is read exactly where it is written with a length of one byte. -/
theorem element?_eq_some_iff {tag : UInt8} {bytes content rest : Bytes} :
    element? tag bytes = some (content, rest) ↔
      content.length < 0x80 ∧
        bytes = tag :: UInt8.ofNat content.length :: (content ++ rest) := by
  constructor
  · intro read
    unfold element? at read
    split at read
    · rename_i found length behind
      split at read
      · rename_i whole
        obtain ⟨rfl, short, enough⟩ := whole
        cases read
        rw [List.length_take_of_le enough, List.take_append_drop, UInt8.ofNat_toNat]
        exact ⟨UInt8.lt_iff_toNat_lt.1 short, rfl⟩
      · cases read
    · cases read
  · rintro ⟨short, rfl⟩
    have length : (UInt8.ofNat content.length).toNat = content.length :=
      UInt8.toNat_ofNat_of_lt' (by simp only [UInt8.size]; omega)
    have whole : tag = tag ∧ UInt8.ofNat content.length < 0x80 ∧
        (UInt8.ofNat content.length).toNat ≤ (content ++ rest).length := by
      refine ⟨rfl, ?_, ?_⟩
      · rw [UInt8.lt_iff_toNat_lt, length]
        exact short
      · rw [length, List.length_append]
        exact Nat.le_add_right ..
    rw [element?, if_pos whole, length, List.take_left, List.drop_left]

/-- The contents of an integer: as on the wire, except that zero is one byte. -/
def contents (magnitude : Bytes) : Bytes :=
  if Wire.mpintBody magnitude = [] then [0] else Wire.mpintBody magnitude

theorem integer_eq (magnitude : Bytes) :
    integer magnitude =
      0x02 :: UInt8.ofNat (contents magnitude).length :: contents magnitude := by
  unfold integer contents Wire.mpintBody
  cases Bytes.trimZeros magnitude with
  | nil => rfl
  | cons first rest => by_cases positive : first < 0x80 <;> simp [positive]

theorem length_contents_le (magnitude : Bytes) :
    (contents magnitude).length ≤ magnitude.length + 1 := by
  unfold contents
  split
  · exact Nat.le_add_left 1 _
  · exact Wire.length_mpintBody_le magnitude

theorem length_integer (magnitude : Bytes) :
    (integer magnitude).length = (contents magnitude).length + 2 := by
  rw [integer_eq]
  rfl

theorem minimal_contents (magnitude : Bytes) : Minimal (contents magnitude) := by
  unfold contents
  split
  · decide
  · rename_i some
    refine ⟨some, Wire.headD_mpintBody_lt magnitude, ?_⟩
    intro zero _
    obtain ⟨first, tail, body⟩ := List.exists_cons_of_ne_nil some
    rw [body] at zero ⊢
    obtain rfl : first = 0 := zero
    exact Wire.mpintBody_needed body

theorem toNat_contents (magnitude : Bytes) : (contents magnitude).toNat = magnitude.toNat := by
  rw [← Wire.toNat_mpintBody magnitude, contents]
  split
  · rename_i none
    rw [none]
    rfl
  · rfl

/-- Contents that are as short as possible are the ones that are written for their number. -/
theorem Minimal.eq_contents {content magnitude : Bytes} (minimal : Minimal content)
    (same : content.toNat = magnitude.toNat) : content = contents magnitude := by
  obtain ⟨some, positive, needed⟩ := minimal
  -- zero is the one number whose contents are not its body on the wire, which is empty
  by_cases zero : content = [0]
  · have empty : [] = Wire.mpintBody magnitude :=
      Wire.eq_mpintBody (by decide) nofun (by rw [← same, zero]; rfl)
    rw [contents, if_pos empty.symm, zero]
  · have body : content = Wire.mpintBody magnitude := by
      refine Wire.eq_mpintBody positive ?_ same
      rintro tail rfl
      exact needed rfl fun alone => zero (by rw [show tail = [] from alone])
    rw [contents, if_neg (body ▸ some), body]

theorem number?_eq_some_iff {content magnitude : Bytes} :
    number? content = some magnitude.toNat ↔ content = contents magnitude := by
  constructor
  · intro read
    unfold number? at read
    split at read
    · rename_i minimal
      exact minimal.eq_contents (Option.some.inj read)
    · cases read
  · rintro rfl
    rw [number?, if_pos (minimal_contents magnitude), toNat_contents]

/-- An integer is read exactly where it is written. -/
theorem integer?_eq_some_iff {bytes magnitude rest : Bytes} :
    integer? bytes = some (magnitude.toNat, rest) ↔
      (contents magnitude).length < 0x80 ∧ bytes = integer magnitude ++ rest := by
  rw [integer_eq, List.cons_append, List.cons_append, ← element?_eq_some_iff]
  constructor
  · intro read
    obtain ⟨⟨content, behind⟩, element, read⟩ := Option.bind_eq_some_iff.1 read
    obtain ⟨number, known, same⟩ := Option.bind_eq_some_iff.1 read
    cases same
    rw [element, number?_eq_some_iff.1 known]
  · intro element
    have known : number? (contents magnitude) = some magnitude.toNat := number?_eq_some_iff.2 rfl
    simp only [integer?, element, known, Option.bind_eq_bind, Option.bind_some, Option.pure_def]

/-- A pair is read exactly where its numbers are written in a sequence with a length of one
byte. -/
theorem pair?_eq_some_iff {bytes first second : Bytes} :
    pair? bytes = some (first.toNat, second.toNat) ↔
      (integer first ++ integer second).length < 0x80 ∧
        bytes = sequence (integer first ++ integer second) := by
  constructor
  · intro read
    obtain ⟨⟨content, behind⟩, element, inside⟩ := Option.bind_eq_some_iff.1 read
    obtain ⟨⟨one, more⟩, front, further⟩ := Option.bind_eq_some_iff.1 inside
    obtain ⟨⟨two, rest⟩, back, ended⟩ := Option.bind_eq_some_iff.1 further
    dsimp only at front back ended
    split at ended
    · rename_i nothing
      obtain ⟨rfl, rfl⟩ := nothing
      obtain ⟨rfl, rfl⟩ : one = first.toNat ∧ two = second.toNat :=
        Prod.mk.inj (Option.some.inj ended)
      obtain ⟨-, rfl⟩ := integer?_eq_some_iff.1 front
      obtain ⟨-, rfl⟩ := integer?_eq_some_iff.1 back
      rw [List.append_nil] at element
      obtain ⟨short, rfl⟩ := element?_eq_some_iff.1 element
      rw [List.append_nil]
      exact ⟨short, rfl⟩
    · cases ended
  · rintro ⟨short, rfl⟩
    have element : element? 0x30 (sequence (integer first ++ integer second)) =
        some (integer first ++ integer second, []) :=
      element?_eq_some_iff.2 ⟨short, by rw [List.append_nil, sequence]⟩
    rw [List.length_append, length_integer, length_integer] at short
    have front : integer? (integer first ++ integer second) =
        some (first.toNat, integer second) :=
      integer?_eq_some_iff.2 ⟨by omega, rfl⟩
    have back : integer? (integer second) = some (second.toNat, []) :=
      integer?_eq_some_iff.2 ⟨by omega, (List.append_nil _).symm⟩
    simp only [pair?, element, front, back, Option.bind_eq_bind, Option.bind_some]
    rfl

example : pair? [0x30, 6, 0x02, 1, 0, 0x02, 1, 5] = some (0, 5) := by decide

-- a zero in front of the 5 is not needed
example : pair? [0x30, 7, 0x02, 1, 0, 0x02, 2, 0, 5] = none := by decide

theorem length_pair_lt {raw : Bytes} (whole : raw.length = 40) :
    (integer (raw.take 20) ++ integer (raw.drop 20)).length < 0x80 := by
  have front := length_contents_le (raw.take 20)
  have back := length_contents_le (raw.drop 20)
  rw [List.length_take, whole] at front
  rw [List.length_drop, whole] at back
  rw [List.length_append, length_integer, length_integer]
  omega

theorem ofDssSignature_eq_ok_iff {raw der : Bytes} :
    ofDssSignature raw = .ok der ↔
      raw.length = 40 ∧ der = sequence (integer (raw.take 20) ++ integer (raw.drop 20)) := by
  unfold ofDssSignature
  by_cases whole : raw.length = dssLength
  · rw [if_pos whole, Except.ok.injEq]
    exact ⟨fun same => ⟨whole, same.symm⟩, fun same => same.2.symm⟩
  · rw [if_neg whole]
    exact ⟨nofun, fun same => absurd same.1 whole⟩

theorem pair?_ofDssSignature {raw der : Bytes} (written : ofDssSignature raw = .ok der)
    (other : Bytes) :
    pair? other = some (Bytes.toNat (raw.take 20), Bytes.toNat (raw.drop 20)) ↔ other = der := by
  obtain ⟨whole, rfl⟩ := ofDssSignature_eq_ok_iff.1 written
  rw [pair?_eq_some_iff]
  exact and_iff_right (length_pair_lt whole)

/-- The numbers of its halves determine a raw signature. -/
theorem ofDssSignature_injective {a b der : Bytes} (first : ofDssSignature a = .ok der)
    (second : ofDssSignature b = .ok der) : a = b := by
  have aWhole := (ofDssSignature_eq_ok_iff.1 first).1
  have bWhole := (ofDssSignature_eq_ok_iff.1 second).1
  have pairs := (pair?_ofDssSignature first der).2 rfl
  rw [(pair?_ofDssSignature second der).2 rfl, Option.some.injEq, Prod.mk.injEq] at pairs
  have front : a.take 20 = b.take 20 :=
    Bytes.eq_of_toNat_eq (by simp [aWhole, bWhole]) pairs.1.symm
  have back : a.drop 20 = b.drop 20 :=
    Bytes.eq_of_toNat_eq (by simp [aWhole, bWhole]) pairs.2.symm
  rw [← List.take_append_drop 20 a, front, back, List.take_append_drop]

/-- A raw signature of 40 bytes has one strict encoding as a pair, the one that is written
for it, and no other raw signature shares it. Of another length there is none. -/
theorem ofDssSignature_canonical (raw : Bytes) :
    (raw.length = 40 → ∃ der, ofDssSignature raw = .ok der ∧
      (∀ other, pair? other = some (Bytes.toNat (raw.take 20), Bytes.toNat (raw.drop 20)) ↔
        other = der) ∧
      ∀ raw', ofDssSignature raw' = .ok der → raw' = raw) ∧
    (raw.length ≠ 40 → ofDssSignature raw = .error (.hostKey (.dssLength raw.length))) := by
  constructor
  · intro whole
    have written := ofDssSignature_eq_ok_iff.2 ⟨whole, rfl⟩
    exact ⟨_, written, pair?_ofDssSignature written,
      fun raw' same => ofDssSignature_injective same written⟩
  · exact fun partly => if_neg partly

/-- A zero takes one byte and a number of 160 bits takes 21. -/
theorem ofDssSignature_canonical_uneven :
    let raw : Bytes := List.replicate 20 0 ++ 0x80 :: List.replicate 19 0
    raw.length = 40 ∧
    (∃ der, ofDssSignature raw = .ok der ∧ der.length = 28 ∧ pair? der = some (0, 2 ^ 159) ∧
      ∀ raw', ofDssSignature raw' = .ok der → raw' = raw) ∧
    (raw.drop 1).length ≠ 40 ∧ ofDssSignature (raw.drop 1) = .error (.hostKey (.dssLength 39)) := by
  intro raw
  have whole : raw.length = 40 := by decide
  have partly : (raw.drop 1).length ≠ 40 := by decide
  obtain ⟨der, written, read, alone⟩ := (ofDssSignature_canonical raw).1 whole
  have numbers : (Bytes.toNat (raw.take 20), Bytes.toNat (raw.drop 20)) = (0, 2 ^ 159) := by decide
  have length : der.length = 28 := by
    rw [(ofDssSignature_eq_ok_iff.1 written).2]
    decide
  refine ⟨whole, ⟨der, written, length, ?_, alone⟩, partly,
    (ofDssSignature_canonical (raw.drop 1)).2 partly⟩
  rw [← numbers]
  exact (read der).2 rfl

end Der

namespace Dsa.PublicKey

/-- A raw signature may be checked by way of its encoding: what is judged is the pair that a
strict reader finds there. -/
theorem verify_eq_pair (key : PublicKey) (data signature : Bytes) :
    key.verify data signature = do
      if !key.domainValid then throw (.hostKey .dsaDomain)
      if !key.valueValid then throw (.hostKey .dsaPublicKey)
      let der ← Der.ofDssSignature signature
      return (Der.pair? der).any fun (r, s) => key.admits data r s := by
  unfold verify
  by_cases whole : signature.length = 40
  · have written := Der.ofDssSignature_eq_ok_iff.2 ⟨whole, rfl⟩
    have read := (Der.pair?_ofDssSignature written _).2 rfl
    have any : (Der.pair? (Der.sequence (Der.integer (signature.take 20) ++
        Der.integer (signature.drop 20)))).any (fun (r, s) => key.admits data r s) =
        key.admits data (Bytes.toNat (signature.take 20)) (Bytes.toNat (signature.drop 20)) := by
      rw [read, Option.any_some]
    simp only [written, whole, Der.dssLength, ne_eq, not_true_eq_false, if_false, ← any]
    rfl
  · have refused : Der.ofDssSignature signature =
        .error (.hostKey (.dssLength signature.length)) := if_neg whole
    simp only [refused, Der.dssLength, ne_eq, whole, not_false_eq_true, if_true]
    rfl

end Dsa.PublicKey

end SecureShell
