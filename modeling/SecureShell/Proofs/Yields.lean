import SecureShell.Proofs.Wire

/-! What readers give can be written again: a string that was read fits the four bytes of
its length, and the names of a list can be told apart between commas. And readers give no
more than they take. -/
namespace SecureShell

variable {α β : Type}

/-- Whatever a reader gives has a property. -/
def Yields (reader : Reader α) (good : α → Prop) : Prop :=
  ∀ unread value rest, reader unread = .ok value rest → good value

namespace Yields

variable {good : α → Prop}

theorem pure {value : α} (holds : good value) : Yields (pure value) good := by
  intro unread found rest same
  cases same
  exact holds

theorem throw (error : Error) : Yields (throw error : Reader α) good := by
  intro unread found rest impossible
  cases impossible

theorem bind {first : Reader α} {next : α → Reader β} {better : β → Prop} (hFirst : Yields first good)
    (hNext : ∀ a, good a → Yields (next a) better) : Yields (first >>= next) better := by
  intro unread value rest ran
  obtain ⟨a, between, read, ran⟩ := bind_eq_ok_iff.1 ran
  exact hNext a (hFirst unread a between read) between value rest ran

theorem seq {first : Reader α} {next : α → Reader β} {better : β → Prop}
    (hNext : ∀ a, Yields (next a) better) : Yields (first >>= next) better := by
  have known : Yields first fun _ => True := fun _ _ _ _ => trivial
  exact known.bind fun a _ => hNext a

theorem refused {next : β → Reader α} (error : Error) :
    Yields ((MonadExcept.throw error : Reader β) >>= next) good := by
  have never : Yields (MonadExcept.throw error : Reader β) fun _ => False := throw error
  exact never.bind fun _ impossible => impossible.elim

theorem weaken {better : α → Prop} {reader : Reader α} (h : Yields reader good)
    (implies : ∀ a, good a → better a) : Yields reader better :=
  fun unread value rest read => implies value (h unread value rest read)

theorem parse {reader : Reader α} {payload : Bytes} {value : α} (h : Yields reader good)
    (accepted : Reader.parse reader payload = .ok value) : good value := by
  rw [Reader.parse] at accepted
  split at accepted
  · rename_i read
    cases accepted
    exact h payload value _ read
  · cases accepted

end Yields

/-- A reader gives no more of a size than it takes of the unread bytes. -/
def Within (reader : Reader α) (size : α → Nat) : Prop :=
  ∀ unread value rest, reader unread = .ok value rest → size value + rest.length ≤ unread.length

namespace Within

variable {size : α → Nat}

theorem pure {value : α} (none : size value = 0) : Within (pure value) size := by
  intro unread found rest same
  cases same
  exact Nat.le_of_eq (by rw [none, Nat.zero_add])

theorem throw (error : Error) : Within (throw error : Reader α) size := by
  intro unread found rest impossible
  cases impossible

theorem bind {first : Reader β} {next : β → Reader α} (hFirst : Within first fun _ => 0)
    (hNext : ∀ b, Within (next b) size) : Within (first >>= next) size := by
  intro unread value rest ran
  obtain ⟨b, between, read, ran⟩ := bind_eq_ok_iff.1 ran
  have taken := hFirst unread b between read
  have left := hNext b between value rest ran
  omega

theorem map {reader : Reader β} {sizeOf : β → Nat} (h : Within reader sizeOf) (f : β → α)
    (same : ∀ b, size (f b) = sizeOf b) : Within (do return f (← reader)) size := by
  intro unread value rest ran
  obtain ⟨b, between, read, given⟩ := bind_eq_ok_iff.1 ran
  have taken := h unread b between read
  cases given
  rwa [same]

theorem take (count : Nat) (field : Field) : Within (Reader.take count field) fun _ => 0 := by
  refine bind ?_ fun taken => pure rfl
  intro unread value rest read
  unfold Reader.exactly at read
  split at read
  · cases read
  · cases read
    rw [List.length_drop, Nat.zero_add]
    exact Nat.sub_le ..

theorem byte : Within Reader.byte fun _ => 0 := (take 1 .byte).bind fun _ => pure rfl

theorem bool : Within Reader.bool fun _ => 0 := byte.bind fun _ => pure rfl

theorem uint32 : Within Reader.uint32 fun _ => 0 := (take 4 .uint32).bind fun _ => pure rfl

theorem string : Within Reader.string fun _ => 0 :=
  uint32.bind fun length => take length.toNat .string

theorem text : Within Reader.text fun _ => 0 := by
  refine string.bind fun data => ?_
  split
  · exact pure rfl
  · exact throw _

theorem expect (code : MessageCode) : Within (Reader.expect code) fun _ => 0 := by
  refine byte.bind fun got => ?_
  split
  · exact throw _
  · exact pure rfl

theorem rest : Within Reader.rest List.length := by
  intro unread value left read
  cases read
  exact Nat.le_refl _

theorem parse {reader : Reader α} {payload : Bytes} {value : α} (h : Within reader size)
    (accepted : Reader.parse reader payload = .ok value) : size value ≤ payload.length := by
  rw [Reader.parse] at accepted
  split at accepted
  · rename_i left read
    cases accepted
    have := h payload value left read
    omega
  · cases accepted

end Within

namespace Bytes

theorem ofText_of_toText? {bytes : Bytes} {text : String} (valid : toText? bytes = some text) :
    ofText text = bytes := by
  unfold toText? String.fromUTF8? at valid
  split at valid
  · cases valid
    rfl
  · cases valid

end Bytes

namespace Wire

def Fits (data : Bytes) : Prop := data.length < 2 ^ 32

instance (data : Bytes) : Decidable (Fits data) := inferInstanceAs (Decidable (_ < _))

def TextFits (text : String) : Prop := Fits (Bytes.ofText text)

instance (text : String) : Decidable (TextFits text) := inferInstanceAs (Decidable (Fits _))

/-- A list of names that is read as it was written. -/
structure NamesFit (names : List String) : Prop where
  separable : Separable names
  text : TextFits (String.intercalate "," names)

theorem yields_exactly (count : Nat) (field : Field) :
    Yields (Reader.take count field) fun data => data.length = count := by
  refine .seq fun taken => .pure taken.2

theorem yields_string : Yields Reader.string Fits := by
  refine .seq fun length => (yields_exactly length.toNat .string).weaken ?_
  intro data same
  rw [Fits, same]
  exact length.toNat_lt

theorem yields_text : Yields Reader.text TextFits := by
  refine yields_string.bind fun data fits => ?_
  split
  · rename_i text valid
    refine .pure ?_
    rw [TextFits, Bytes.ofText_of_toText? valid]
    exact fits
  · exact .throw _

/-- No comma is left in what stands between two of them. -/
theorem not_mem_of_mem_splitOn {c : Char} {text piece : List Char} (among : piece ∈ text.splitOn c) :
    c ∉ piece := by
  induction text generalizing piece with
  | nil =>
    rw [List.splitOn_nil, List.mem_singleton] at among
    rw [among]
    exact List.not_mem_nil
  | cons first rest ih =>
    rw [List.splitOn, List.splitOnP_cons_eq_if_modifyHead] at among
    split at among
    · rcases List.mem_cons.1 among with rfl | later
      · exact List.not_mem_nil
      · exact ih later
    · rename_i other
      cases split : rest.splitOnP (· == c) with
      | nil => exact absurd split (List.splitOnP_ne_nil _ rest)
      | cons head tail =>
        have pieces : ∀ piece ∈ head :: tail, c ∉ piece := fun piece member =>
          ih (show piece ∈ rest.splitOnP (· == c) from split ▸ member)
        rw [split, List.modifyHead_cons] at among
        rcases List.mem_cons.1 among with rfl | later
        · have apart : c ≠ first := fun same => other (by simp [same])
          simp [apart, pieces head (by simp)]
        · exact pieces piece (by simp [later])

/-- Names that were found between the commas of a text can be told apart, and stand for
that text. -/
theorem splitNames_spec (text : String) :
    Separable (Reader.splitNames text) ∧
      String.intercalate "," (Reader.splitNames text) = text := by
  unfold Reader.splitNames
  split
  · rename_i empty
    exact ⟨⟨nofun, nofun⟩, (String.isEmpty_iff.1 empty).symm⟩
  · rename_i some
    have whole : String.intercalate "," ((text.toList.splitOn ',').map String.ofList) = text := by
      apply String.toList_injective
      rw [String.toList_intercalate, List.map_map]
      have pieces : (text.toList.splitOn ',').map (String.toList ∘ String.ofList) =
          text.toList.splitOn ',' := by
        simp [Function.comp_def]
      rw [pieces]
      exact List.intercalate_splitOn ','
    refine ⟨⟨?_, ?_⟩, whole⟩
    · intro name among
      obtain ⟨piece, found, rfl⟩ := List.mem_map.1 among
      rw [String.toList_ofList]
      exact not_mem_of_mem_splitOn found
    · intro only
      rw [only] at whole
      exact some (by rw [← whole]; rfl)

theorem yields_nameList : Yields Reader.nameList NamesFit := by
  refine yields_string.bind fun data fits => ?_
  split
  · rename_i text valid
    obtain ⟨separable, whole⟩ := splitNames_spec text
    refine .pure ⟨separable, ?_⟩
    rw [whole, TextFits, Bytes.ofText_of_toText? valid]
    exact fits
  · exact .throw _

end Wire

end SecureShell
