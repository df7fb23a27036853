import Mathlib.Data.List.TakeDrop
import Mathlib.Data.List.TakeWhile
import SecureShell.Identification
import SecureShell.Proofs.Yields

/-! What a line of identification says. The grammar is given by how a line is put together
from its parts; a line is accepted exactly when it is put together like that, and then its
parts are the ones that are found in it. -/
namespace SecureShell

section Classes

variable {inClass : Char → Bool} {cs front tail : List Char}

namespace Text

theorem dropWhile_front (all : ∀ c ∈ front, inClass c = true)
    (other : ∀ c ∈ tail.head?, inClass c = false) : (front ++ tail).dropWhile inClass = tail := by
  rw [List.dropWhile_append_of_pos all]
  cases tail with
  | nil => rfl
  | cons first rest => exact List.dropWhile_cons_of_neg (by simp [other first rfl])

theorem head_dropWhile (inClass : Char → Bool) (cs : List Char) :
    ∀ c ∈ (cs.dropWhile inClass).head?, inClass c = false := by
  intro c first
  have stopped := List.head?_dropWhile_not inClass cs
  rw [first] at stopped
  exact stopped

/-- The end that is removed consists of members of the class, and none is left there. -/
theorem stripEnd_eq_iff : stripEnd inClass cs = front ↔
    (∀ c ∈ front.getLast?, inClass c = false) ∧
      ∃ tail, cs = front ++ tail ∧ ∀ c ∈ tail, inClass c = true := by
  unfold stripEnd
  constructor
  · rintro rfl
    constructor
    · rw [List.getLast?_reverse]
      exact head_dropWhile inClass cs.reverse
    · refine ⟨(cs.reverse.takeWhile inClass).reverse, ?_, ?_⟩
      · rw [← List.reverse_append, List.takeWhile_append_dropWhile, List.reverse_reverse]
      · intro c among
        exact List.mem_takeWhile_imp (List.mem_reverse.1 among)
  · rintro ⟨other, tail, rfl, all⟩
    have behind : ∀ c ∈ tail.reverse, inClass c = true := fun c among =>
      all c (List.mem_reverse.1 among)
    rw [List.reverse_append, dropWhile_front behind (by rwa [List.head?_reverse]),
      List.reverse_reverse]

/-- A text without the blanks around it. -/
structure Trims (text trimmed : String) : Prop where
  around : ∃ before after, text.toList = before ++ trimmed.toList ++ after ∧
    ∀ c ∈ before ++ after, isBlank c = true
  first : ∀ c ∈ trimmed.toList.head?, isBlank c = false
  last : ∀ c ∈ trimmed.toList.getLast?, isBlank c = false

theorem trim_eq_iff {text trimmed : String} : trim text = trimmed ↔ Trims text trimmed := by
  have whole : trim text = trimmed ↔
      stripEnd isBlank (text.toList.dropWhile isBlank) = trimmed.toList := by
    rw [← String.toList_inj, trim, String.toList_ofList]
    rfl
  rw [whole, stripEnd_eq_iff]
  constructor
  · rintro ⟨last, after, rest, blank⟩
    have split := List.takeWhile_append_dropWhile (p := isBlank) (l := text.toList)
    refine ⟨⟨text.toList.takeWhile isBlank, after, ?_, ?_⟩, ?_, last⟩
    · rw [List.append_assoc, ← rest, split]
    · intro c among
      rcases List.mem_append.1 among with front | back
      · exact List.mem_takeWhile_imp front
      · exact blank c back
    · have stopped := head_dropWhile isBlank text.toList
      rw [rest] at stopped
      intro c first
      exact stopped c (by rw [Option.mem_def] at first ⊢; simp [List.head?_append, first])
  · rintro ⟨⟨before, after, form, blank⟩, first, last⟩
    have front : ∀ c ∈ before, isBlank c = true := fun c among => blank c (by simp [among])
    have back : ∀ c ∈ after, isBlank c = true := fun c among => blank c (by simp [among])
    refine ⟨last, ?_⟩
    by_cases none : trimmed.toList = []
    · refine ⟨[], ?_, nofun⟩
      rw [form, none, List.append_nil, List.append_nil, List.dropWhile_eq_nil_iff]
      exact blank
    · refine ⟨after, ?_, back⟩
      have other : ∀ c ∈ (trimmed.toList ++ after).head?, isBlank c = false := by
        rwa [List.head?_append, Option.or_of_isSome (List.isSome_head?.2 none)]
      rw [form, List.append_assoc, dropWhile_front front other]

end Text

end Classes

namespace Identification

section Parts

variable {c : Char} {cs marker before after rest : List Char}

theorem afterMarker_eq_some_iff : afterMarker marker cs = some rest ↔ cs = marker ++ rest := by
  unfold afterMarker
  rw [ite_eq_iff]
  simp only [List.isPrefixOf_iff_prefix, Option.some.injEq, reduceCtorEq, and_false, or_false]
  constructor
  · rintro ⟨⟨tail, rfl⟩, rfl⟩
    rw [List.drop_left]
  · rintro rfl
    exact ⟨List.prefix_append .., List.drop_left ..⟩

theorem forall_mem_bne_iff : (∀ other ∈ cs, (other != c) = true) ↔ c ∉ cs := by
  simp only [bne_iff_ne, ne_eq, List.forall_mem_ne']

theorem splitOnce_eq_some_iff :
    splitOnce c cs = some (before, after) ↔ cs = before ++ c :: after ∧ c ∉ before := by
  have split := List.takeWhile_append_dropWhile (p := (· != c)) (l := cs)
  have first := Text.head_dropWhile (· != c) cs
  unfold splitOnce
  rw [List.span_eq_takeWhile_dropWhile]
  constructor
  · intro found
    cases rest : cs.dropWhile (· != c) with
    | nil => simp [rest] at found
    | cons other rest =>
      rw [‹cs.dropWhile (· != c) = _›] at first split found
      cases found
      obtain rfl : other = c := by simpa using first other rfl
      exact ⟨split.symm, forall_mem_bne_iff.1 fun _ among =>
        List.mem_takeWhile_imp (p := (· != other)) among⟩
  · rintro ⟨rfl, absent⟩
    have skipped := forall_mem_bne_iff.2 absent
    rw [List.takeWhile_append_of_pos skipped, List.dropWhile_append_of_pos skipped]
    simp

theorem splitOnce_eq_none_iff : splitOnce c cs = none ↔ c ∉ cs := by
  unfold splitOnce
  rw [List.span_eq_takeWhile_dropWhile]
  constructor
  · intro nothing among
    have some : cs.dropWhile (· != c) ≠ [] := by
      rw [ne_eq, List.dropWhile_eq_nil_iff, forall_mem_bne_iff, not_not]
      exact among
    cases rest : cs.dropWhile (· != c) with
    | nil => exact some rest
    | cons => simp [rest] at nothing
  · intro absent
    rw [List.dropWhile_eq_nil_iff.2 (forall_mem_bne_iff.2 absent)]

end Parts

section Lines

/-- The software ends at the first space; what follows that space are the comments,
without the blanks around them. -/
inductive Divides : (said software : String) → (comments : Option String) → Prop where
  | alone {software : String} : ' ' ∉ software.toList → Divides software software none
  | commented {software raw comments : String} : ' ' ∉ software.toList →
      Text.Trims raw comments → Divides (software ++ " " ++ raw) software (some comments)

/-- An identification whose line is legal and whose parts are the parts of its line. -/
structure Legible (identification : Identification) : Prop where
  short : (Bytes.ofText identification.line).length ≤ maxLength
  noNul : '\x00' ∉ identification.line.toList
  protocol : identification.protocol = "2.0" ∨ identification.protocol = "1.99"
  spelled : ∃ said, identification.line = "SSH-" ++ identification.protocol ++ "-" ++ said ∧
    Divides said identification.software identification.comments

variable {text : String} {identification : Identification}

theorem divides_iff {said software : String} {comments : Option String} :
    Divides said software comments ↔
      match splitOnce ' ' said.toList with
      | some (front, raw) =>
        software = String.ofList front ∧ comments = some (Text.trim (String.ofList raw))
      | none => software = said ∧ comments = none := by
  constructor
  · intro divides
    cases divides with
    | alone absent =>
      rw [splitOnce_eq_none_iff.2 absent]
      exact ⟨rfl, rfl⟩
    | commented absent trims =>
      rename_i raw comments
      have form : (software ++ " " ++ raw).toList = software.toList ++ ' ' :: raw.toList := by
        rw [String.toList_append, String.toList_append, List.append_assoc]
        rfl
      rw [splitOnce_eq_some_iff.2 ⟨form, absent⟩]
      refine ⟨String.ofList_toList.symm, ?_⟩
      rw [String.ofList_toList, Text.trim_eq_iff.2 trims]
  · cases found : splitOnce ' ' said.toList with
    | none =>
      rintro ⟨rfl, rfl⟩
      exact .alone (splitOnce_eq_none_iff.1 found)
    | some parts =>
      obtain ⟨form, absent⟩ := splitOnce_eq_some_iff.1 found
      rintro ⟨rfl, rfl⟩
      have joined : said = String.ofList parts.1 ++ " " ++ String.ofList parts.2 := by
        rw [← String.toList_inj, form, String.toList_append, String.toList_append]
        simp
      rw [joined]
      exact .commented (by rwa [String.toList_ofList]) (Text.trim_eq_iff.1 rfl)

theorem length_ofText (text : String) : (Bytes.ofText text).length = text.utf8ByteSize :=
  Array.length_toList

theorem ofList_line (protocol said : List Char) :
    String.ofList ("SSH-".toList ++ (protocol ++ '-' :: said)) =
      "SSH-" ++ String.ofList protocol ++ "-" ++ String.ofList said := by
  rw [← String.toList_inj]
  simp

/-- What is accepted is a legal line, beside its ending. -/
theorem legible_of_parse (parsed : parse text = .ok identification) : identification.Legible ∧
    Text.stripEnd (· == '\r') (Text.stripEnd (· == '\n') text.toList) =
      identification.line.toList := by
  unfold parse at parsed
  dsimp only at parsed
  generalize Text.stripEnd (· == '\r') (Text.stripEnd (· == '\n') text.toList) = cs at parsed ⊢
  -- one check after the other; each that fails is no success
  split at parsed
  · cases parsed
  rename_i short
  split at parsed
  · cases parsed
  rename_i noNul
  split at parsed
  · rename_i rest marked
    split at parsed
    · rename_i protocol said divided
      split at parsed
      · cases parsed
      rename_i supported
      obtain ⟨software, comments, divides, rfl⟩ : ∃ software comments,
          Divides (String.ofList said) software comments ∧ identification =
            ⟨String.ofList protocol, software, comments, String.ofList cs⟩ := by
        split at parsed <;>
        · rename_i found
          cases parsed
          refine ⟨_, _, divides_iff.2 ?_, rfl⟩
          rw [String.toList_ofList, found]
          exact ⟨rfl, rfl⟩
      obtain rfl := afterMarker_eq_some_iff.1 marked
      obtain ⟨rfl, absent⟩ := splitOnce_eq_some_iff.1 divided
      refine ⟨⟨?_, ?_, ?_, String.ofList said, ofList_line protocol said, divides⟩,
        String.toList_ofList.symm⟩
      · rw [length_ofText]
        exact Nat.not_lt.1 short
      · rwa [String.toList_ofList]
      · exact (Decidable.not_and_iff_not_or_not.1 supported).imp Decidable.not_not.1
          Decidable.not_not.1
    · cases parsed
  · cases parsed

/-- A legal line is accepted, and its parts are found. -/
theorem parse_of_legible (legible : identification.Legible)
    (line : Text.stripEnd (· == '\r') (Text.stripEnd (· == '\n') text.toList) =
      identification.line.toList) : parse text = .ok identification := by
  obtain ⟨said, form, divides⟩ := legible.spelled
  have form : identification.line.toList =
      "SSH-".toList ++ (identification.protocol.toList ++ '-' :: said.toList) := by
    rw [form]
    simp
  have whole : '-' ∉ identification.protocol.toList := by
    rcases legible.protocol with named | named <;> (rw [named]; decide)
  have supported : ¬(identification.protocol ≠ "2.0" ∧ identification.protocol ≠ "1.99") :=
    Decidable.not_and_iff_not_or_not.2
      (legible.protocol.imp Decidable.not_not.2 Decidable.not_not.2)
  have short : ¬identification.line.utf8ByteSize > maxLength := by
    rw [← length_ofText]
    exact Nat.not_lt.2 legible.short
  have divided := divides_iff.1 divides
  unfold parse
  dsimp only
  rw [line, String.ofList_toList, if_neg short, if_neg legible.noNul]
  simp only [afterMarker_eq_some_iff.2 form, splitOnce_eq_some_iff.2 ⟨rfl, whole⟩,
    String.ofList_toList, supported, if_false]
  cases found : splitOnce ' ' said.toList with
  | none =>
    rw [found] at divided
    obtain ⟨software, comments⟩ := divided
    rw [← software, ← comments]
    rfl
  | some parts =>
    rw [found] at divided
    obtain ⟨software, comments⟩ := divided
    dsimp only
    rw [← software, ← comments]
    rfl

theorem stripEnd_returns_iff {line : String} :
    Text.stripEnd (· == '\r') text.toList = line.toList ↔ line.toList.getLast? ≠ some '\r' ∧
      ∃ returns, text = line ++ String.ofList (List.replicate returns '\r') := by
  rw [Text.stripEnd_eq_iff]
  refine and_congr ?_ ?_
  · constructor
    · intro other last
      exact absurd (other '\r' last) (by decide)
    · intro other c last
      rw [beq_eq_false_iff_ne]
      rintro rfl
      exact other last
  · constructor
    · rintro ⟨tail, form, returns⟩
      have all : tail = List.replicate tail.length '\r' :=
        List.eq_replicate_iff.2 ⟨rfl, fun c among => by simpa using returns c among⟩
      refine ⟨tail.length, ?_⟩
      rw [← String.toList_inj, String.toList_append, String.toList_ofList, ← all, form]
    · rintro ⟨returns, rfl⟩
      refine ⟨List.replicate returns '\r', ?_, ?_⟩
      · rw [String.toList_append, String.toList_ofList]
      · intro c among
        rw [List.eq_of_mem_replicate among]
        rfl

/-- A line without its line feed is accepted exactly when it is legal, carriage returns at
its end aside. -/
theorem parse_eq_ok_iff (unbroken : '\n' ∉ text.toList) : parse text = .ok identification ↔
    identification.Legible ∧ identification.line.toList.getLast? ≠ some '\r' ∧
      ∃ returns, text = identification.line ++ String.ofList (List.replicate returns '\r') := by
  have whole : Text.stripEnd (· == '\n') text.toList = text.toList := by
    refine Text.stripEnd_eq_iff.2 ⟨?_, [], (List.append_nil _).symm, nofun⟩
    intro c last
    rw [beq_eq_false_iff_ne]
    rintro rfl
    exact unbroken (List.mem_of_getLast? last)
  rw [← stripEnd_returns_iff, ← congrArg (Text.stripEnd (· == '\r')) whole]
  exact ⟨legible_of_parse, fun ⟨legible, line⟩ => parse_of_legible legible line⟩

end Lines

end Identification

namespace Bytes

@[simp] theorem ofText_append (a b : String) : ofText (a ++ b) = ofText a ++ ofText b := by
  simp [ofText, String.toByteArray_append]

theorem ofText_eq_flatMap (text : String) :
    ofText text = text.toList.flatMap String.utf8EncodeChar := by
  have whole : text.toByteArray = text.toList.utf8Encode := by
    rw [← String.toByteArray_ofList, String.ofList_toList]
  rw [ofText, whole, List.utf8Encode, List.data_toByteArray]

theorem ofText_replicate {c : Char} {byte : UInt8} (single : String.utf8EncodeChar c = [byte])
    (count : Nat) : ofText (String.ofList (List.replicate count c)) = List.replicate count byte := by
  rw [ofText_eq_flatMap, String.toList_ofList, List.flatMap_replicate, single,
    List.flatten_replicate_singleton]

theorem ofText_returns (count : Nat) :
    ofText (String.ofList (List.replicate count '\r')) = List.replicate count 0x0d :=
  ofText_replicate (by decide) count

theorem eq_newline_of_mem {c : Char} (among : 0x0a ∈ String.utf8EncodeChar c) : c = '\n' := by
  have low {n : Nat} (same : (0x0a : UInt8) = UInt8.ofNat n) : n % 256 = 10 := by
    simpa using (congrArg UInt8.toNat same).symm
  unfold String.utf8EncodeChar at among
  dsimp only at among
  split at among
  · have value := low (List.mem_singleton.1 among)
    rw [Nat.mod_eq_of_lt (by omega)] at value
    exact Char.ext (UInt32.toNat.inj value)
  · -- no byte of a longer form is an ASCII one
    exfalso
    split at among
    · simp only [List.mem_cons, List.not_mem_nil, or_false] at among
      rcases among with same | same <;> have := low same <;> omega
    · split at among
      · simp only [List.mem_cons, List.not_mem_nil, or_false] at among
        rcases among with same | same | same <;> have := low same <;> omega
      · simp only [List.mem_cons, List.not_mem_nil, or_false] at among
        rcases among with same | same | same | same <;> have := low same <;> omega

theorem newline_mem_ofText_iff {text : String} : 0x0a ∈ ofText text ↔ '\n' ∈ text.toList := by
  rw [ofText_eq_flatMap, List.mem_flatMap]
  constructor
  · rintro ⟨c, among, written⟩
    exact eq_newline_of_mem written ▸ among
  · intro among
    exact ⟨'\n', among, by decide⟩

end Bytes

namespace Identification

/-- Bytes that make up the line of an identification, carriage returns at its end aside. -/
structure Names (line : Bytes) (identification : Identification) : Prop where
  legible : identification.Legible
  bare : identification.line.toList.getLast? ≠ some '\r'
  written : ∃ returns, line = Bytes.ofText identification.line ++ List.replicate returns 0x0d

theorem names_iff {line : Bytes} {identification : Identification} (unbroken : 0x0a ∉ line) :
    Names line identification ↔
      ∃ text, Bytes.toText? line = some text ∧ parse text = .ok identification := by
  constructor
  · rintro ⟨legible, bare, returns, rfl⟩
    have joined : Bytes.ofText
        (identification.line ++ String.ofList (List.replicate returns '\r')) =
          Bytes.ofText identification.line ++ List.replicate returns 0x0d := by
      rw [Bytes.ofText_append, Bytes.ofText_returns]
    rw [← joined] at unbroken ⊢
    have single := fun among => unbroken (Bytes.newline_mem_ofText_iff.2 among)
    exact ⟨_, Bytes.toText?_ofText _, (parse_eq_ok_iff single).2 ⟨legible, bare, returns, rfl⟩⟩
  · rintro ⟨text, valid, parsed⟩
    obtain rfl := Bytes.ofText_of_toText? valid
    have single := fun among => unbroken (Bytes.newline_mem_ofText_iff.2 among)
    obtain ⟨legible, bare, returns, rfl⟩ := (parse_eq_ok_iff single).1 parsed
    refine ⟨legible, bare, returns, ?_⟩
    rw [Bytes.ofText_append, Bytes.ofText_returns]

/-- The bytes tell which line they are, and how many carriage returns stand behind it. -/
theorem Names.line_eq {line : String} {returns : Nat} {identification : Identification}
    (names : Names (Bytes.ofText line ++ List.replicate returns 0x0d) identification)
    (bare : line.toList.getLast? ≠ some '\r') : identification.line = line := by
  obtain ⟨-, stripped, others, written⟩ := names
  have same : line ++ String.ofList (List.replicate returns '\r') =
      identification.line ++ String.ofList (List.replicate others '\r') := by
    rw [← Option.some.injEq, ← Bytes.toText?_ofText, ← Bytes.toText?_ofText, Bytes.ofText_append,
      Bytes.ofText_append, Bytes.ofText_returns, Bytes.ofText_returns, written]
  have found := stripEnd_returns_iff.2 ⟨stripped, others, same⟩
  have given := stripEnd_returns_iff.2 ⟨bare, returns, rfl⟩
  exact String.toList_inj.1 (found.symm.trans given)

section Own

variable {software : String}

theorem line_ofSoftware (software : String) : (ofSoftware software none).line = "SSH-2.0-" ++ software :=
  rfl

theorem length_line (software : String) :
    (Bytes.ofText (ofSoftware software none).line).length = 8 + (Bytes.ofText software).length := by
  rw [line_ofSoftware, Bytes.ofText_append, List.length_append]
  rfl

/-- A program with a name in one word, and not too long a one, introduces itself legally. -/
theorem legible_ofSoftware (single : ' ' ∉ software.toList) (noNul : '\x00' ∉ software.toList)
    (short : (Bytes.ofText software).length ≤ 247) : (ofSoftware software none).Legible where
  short := by
    rw [length_line]
    exact Nat.add_le_add_left short 8
  noNul := by
    rw [line_ofSoftware, String.toList_append, List.mem_append, not_or]
    exact ⟨by decide, noNul⟩
  protocol := .inl rfl
  spelled := ⟨software, rfl, .alone single⟩

theorem bare_ofSoftware (bare : '\r' ∉ software.toList) :
    (ofSoftware software none).line.toList.getLast? ≠ some '\r' := by
  intro last
  have among := List.mem_of_getLast? last
  rw [line_ofSoftware, String.toList_append, List.mem_append] at among
  rcases among with front | named
  · exact absurd front (by decide)
  · exact bare named

end Own

end Identification

end SecureShell
