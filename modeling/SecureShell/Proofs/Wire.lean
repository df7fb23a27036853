import SecureShell.Focus
import SecureShell.Proofs.Bytes
import SecureShell.Wire.Reader
import SecureShell.Wire.Writer

/-! What was written is read back. A reader reads a value from a wire form if it takes
just this form from the front of any bytes; readers in sequence read forms that follow
each other. Lengths have to fit their four bytes. -/
namespace SecureShell

variable {α β : Type}

/-- A reader takes a wire form, whatever follows it, for a value. -/
def Reads (reader : Reader α) (wire : Bytes) (value : α) : Prop :=
  ∀ rest, reader (wire ++ rest) = .ok value rest

namespace Reads

theorem pure (value : α) : Reads (pure value) [] value := fun _ => rfl

theorem bind {first : Reader α} {next : α → Reader β} {wire more : Bytes} {a : α} {b : β}
    (hFirst : Reads first wire a) (hNext : Reads (next a) more b) :
    Reads (first >>= next) (wire ++ more) b := by
  intro rest
  rw [List.append_assoc]
  simp only [bind_apply, hFirst (more ++ rest), hNext rest]

theorem map {reader : Reader α} {wire : Bytes} {a : α} (f : α → β) (h : Reads reader wire a) :
    Reads (do return f (← reader)) wire (f a) := by
  intro rest
  simp only [bind_apply, h rest]
  rfl

theorem parse_front {reader : Reader α} {wire payload rest : Bytes} {a : α}
    (h : Reads reader wire a) (front : payload = wire ++ rest) :
    Reader.parse reader payload = .ok a := by
  rw [Reader.parse, front, h rest]

theorem parse_eq {reader : Reader α} {wire payload : Bytes} {a : α} (h : Reads reader wire a)
    (same : payload = wire) : Reader.parse reader payload = .ok a :=
  h.parse_front (same.trans (List.append_nil wire).symm)

theorem parse {reader : Reader α} {wire : Bytes} {a : α} (h : Reads reader wire a) :
    Reader.parse reader wire = .ok a :=
  h.parse_eq rfl

end Reads

def ReadsAll (reader : Reader α) (wire : Bytes) (value : α) : Prop :=
  ∃ rest, reader wire = .ok value rest

theorem Reads.all {reader : Reader α} {wire : Bytes} {a : α} (h : Reads reader wire a) :
    ReadsAll reader wire a :=
  ⟨[], List.append_nil wire ▸ h []⟩

theorem Reads.bind_all {first : Reader α} {next : α → Reader β} {wire more : Bytes} {a : α} {b : β}
    (hFirst : Reads first wire a) (hNext : ReadsAll (next a) more b) :
    ReadsAll (first >>= next) (wire ++ more) b := by
  obtain ⟨rest, read⟩ := hNext
  refine ⟨rest, ?_⟩
  simp only [bind_apply, hFirst more, read]

theorem ReadsAll.map {reader : Reader α} {wire : Bytes} {a : α} (f : α → β)
    (h : ReadsAll reader wire a) : ReadsAll (do return f (← reader)) wire (f a) := by
  obtain ⟨rest, read⟩ := h
  refine ⟨rest, ?_⟩
  simp only [bind_apply, read]
  rfl

theorem ReadsAll.parse {reader : Reader α} {wire payload : Bytes} {a : α}
    (h : ReadsAll reader wire a) (same : payload = wire) : Reader.parse reader payload = .ok a := by
  obtain ⟨rest, read⟩ := h
  rw [Reader.parse, same, read]

namespace Wire

theorem length_uint32 (value : UInt32) : (uint32 value).length = 4 := Bytes.length_wide 4 _

theorem length_string (data : Bytes) : (string data).length = 4 + data.length := by
  rw [string, List.length_append, length_uint32]

theorem reads_exactly {count : Nat} {field : Field} {data : Bytes} (length : data.length = count) :
    Reads (Reader.exactly count field) data ⟨data, length⟩ := by
  intro rest
  subst length
  have enough : ¬ (data ++ rest).length < data.length := by simp
  simp only [Reader.exactly, dif_neg enough, List.take_left, List.drop_left]

theorem reads_take {count : Nat} {field : Field} {data : Bytes} (length : data.length = count) :
    Reads (Reader.take count field) data data :=
  (reads_exactly length).map Subtype.val

theorem reads_byte (byte : UInt8) : Reads Reader.byte [byte] byte :=
  have read : Reads (Reader.take 1 .byte) [byte] [byte] := reads_take rfl
  read.map (List.headD · 0)

theorem reads_bool (value : Bool) : Reads Reader.bool (bool value) value := by
  have read := (reads_byte (if value then 1 else 0)).map (· != 0)
  cases value <;> exact read

theorem reads_uint32 (value : UInt32) : Reads Reader.uint32 (uint32 value) value := by
  have read : Reads Reader.uint32 (uint32 value) (Bytes.toUInt32 (uint32 value)) :=
    (reads_take (Bytes.length_wide 4 value.toNat)).map Bytes.toUInt32
  rwa [uint32, Bytes.toUInt32_ofUInt32] at read

theorem reads_string {data : Bytes} (fits : data.length < 2 ^ 32) :
    Reads Reader.string (string data) data := by
  refine (reads_uint32 (.ofNat data.length)).bind (reads_take ?_)
  rw [UInt32.toNat_ofNat', Nat.mod_eq_of_lt fits]

theorem reads_text {value : String} (fits : (Bytes.ofText value).length < 2 ^ 32) :
    Reads Reader.text (text value) value := by
  intro rest
  simp only [Reader.text, bind_apply, text, reads_string fits rest, Bytes.toText?_ofText]
  rfl

def Listable (name : String) : Prop := name ≠ "" ∧ ',' ∉ name.toList

instance (name : String) : Decidable (Listable name) := inferInstanceAs (Decidable (_ ∧ _))

/-- Names that can be told apart where they stand between commas: no text stands for the
list of the empty name alone. -/
structure Separable (names : List String) : Prop where
  apart : ∀ name ∈ names, ',' ∉ name.toList
  told : names ≠ [""]

theorem separable_of_listable {names : List String} (listable : ∀ name ∈ names, Listable name) :
    Separable names where
  apart name among := (listable name among).2
  told := by
    rintro rfl
    exact (listable "" (by simp)).1 rfl

/-- The names of a list are found again between the commas. -/
theorem splitNames_intercalate {names : List String} (separable : Separable names) :
    Reader.splitNames (String.intercalate "," names) = names := by
  obtain ⟨apart, told⟩ := separable
  match names, apart, told with
  | [], _, _ => rfl
  | first :: rest, apart, told =>
    have present : (String.intercalate "," (first :: rest)).isEmpty = false := by
      cases rest with
      | nil =>
        have named : first ≠ "" := fun none => told (by rw [none])
        simpa using named
      | cons second rest => simp
    have apart : ∀ l ∈ (first :: rest).map String.toList, ',' ∉ l := by
      intro l member
      obtain ⟨name, listed, rfl⟩ := List.mem_map.1 member
      exact apart name listed
    have split := List.splitOn_intercalate ',' apart (by simp)
    simp only [Reader.splitNames, present, Bool.false_eq_true, if_false, String.toList_intercalate]
    rw [show ",".toList = [','] from rfl, split]
    simp

theorem reads_names {names : List String} (separable : Separable names)
    (fits : (Bytes.ofText (String.intercalate "," names)).length < 2 ^ 32) :
    Reads Reader.nameList (nameList names) names := by
  intro rest
  simp only [Reader.nameList, bind_apply, nameList, text, reads_string fits rest,
    Bytes.toText?_ofText, splitNames_intercalate separable]
  rfl

theorem reads_nameList {names : List String} (listable : ∀ name ∈ names, Listable name)
    (fits : (Bytes.ofText (String.intercalate "," names)).length < 2 ^ 32) :
    Reads Reader.nameList (nameList names) names :=
  reads_names (separable_of_listable listable) fits

/-- A zero byte stands in front of the magnitude where its first bit is set. -/
theorem mpintBody_eq (magnitude : Bytes) :
    mpintBody magnitude =
      if (Bytes.trimZeros magnitude).headD 0 < 0x80 then Bytes.trimZeros magnitude
      else 0 :: Bytes.trimZeros magnitude := by
  unfold mpintBody
  cases Bytes.trimZeros magnitude <;> rfl

theorem length_mpintBody_le (magnitude : Bytes) :
    (mpintBody magnitude).length ≤ magnitude.length + 1 := by
  have shorter : (Bytes.trimZeros magnitude).length ≤ magnitude.length :=
    Bytes.length_trimZeros_le (Nat.le_refl _)
  rw [mpintBody_eq]
  split
  · exact Nat.le_succ_of_le shorter
  · exact Nat.succ_le_succ shorter

@[simp] theorem toNat_mpintBody (magnitude : Bytes) :
    Bytes.toNat (mpintBody magnitude) = Bytes.toNat magnitude := by
  rw [mpintBody_eq, ← Bytes.toNat_trimZeros magnitude]
  split
  · rfl
  · exact Bytes.toNat_zeros_append 1 _

theorem headD_mpintBody_lt (magnitude : Bytes) : (mpintBody magnitude).headD 0 < 0x80 := by
  rw [mpintBody_eq]
  split
  · assumption
  · exact show (0 : UInt8) < 0x80 by decide

/-- A string that can be read as a certain number: it is not negative, and zeros in front of
the magnitude do not count. -/
structure Numeral (n : Nat) (body : Bytes) : Prop where
  value : Bytes.toNat body = n
  positive : body.headD 0 < 0x80
  fits : body.length < 2 ^ 32

theorem Numeral.reads {n : Nat} {body : Bytes} (numeral : Numeral n body) :
    Reads Reader.mpint (string body) (Bytes.trimZeros body) := by
  intro rest
  have positive : ¬ body.headD 0 ≥ 0x80 := UInt8.not_le.2 numeral.positive
  simp only [Reader.mpint, bind_apply, reads_string numeral.fits rest, if_neg positive]
  rfl

theorem numeral_mpintBody {magnitude : Bytes} (fits : magnitude.length + 1 < 2 ^ 32) :
    Numeral (Bytes.toNat magnitude) (mpintBody magnitude) where
  value := toNat_mpintBody magnitude
  positive := headD_mpintBody_lt magnitude
  fits := Nat.lt_of_le_of_lt (length_mpintBody_le magnitude) fits

theorem reads_mpint {magnitude : Bytes} (fits : magnitude.length + 1 < 2 ^ 32) :
    Reads Reader.mpint (mpint magnitude) (Bytes.trimZeros magnitude) := by
  have numeral := numeral_mpintBody fits
  rw [← Bytes.trimZeros_congr numeral.value]
  exact numeral.reads

theorem mpint_congr {a b : Bytes} (same : Bytes.toNat a = Bytes.toNat b) : mpint a = mpint b := by
  rw [mpint, mpint, mpintBody, mpintBody, Bytes.trimZeros_congr same]

end Wire

end SecureShell
