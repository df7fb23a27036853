import SecureShell.Proofs.KeyExchange

/-! What the bytes behind an exchange hash say. A reader that knows whether a group was
chosen takes everything back from them but the zeros in front of numbers, so two exchanges
that are encoded alike are the same exchange, whatever was said in them. -/
namespace SecureShell.Transcript

/-- What was said: texts and strings as they are, numbers by their values. -/
structure Meaning where
  clientVersion : String
  serverVersion : String
  clientProposal : Bytes
  serverProposal : Bytes
  hostKey : Bytes
  /-- Bounds, modulus and generator of a group that the server chose. -/
  group : Option (GroupBounds × Nat × Nat)
  clientPublic : Nat
  serverPublic : Nat
  secret : Nat
  deriving DecidableEq

def groupMeaning (group : ChosenGroup) : GroupBounds × Nat × Nat :=
  (group.bounds, Bytes.toNat group.modulus, Bytes.toNat group.generator)

def meaning (t : Transcript) : Meaning where
  clientVersion := t.clientVersion
  serverVersion := t.serverVersion
  clientProposal := t.clientProposal
  serverProposal := t.serverProposal
  hostKey := t.hostKey
  group := t.group.map groupMeaning
  clientPublic := Bytes.toNat t.clientPublic
  serverPublic := Bytes.toNat t.serverPublic
  secret := Bytes.toNat t.secret

/-- All byte strings of a transcript, numbers included. -/
def strings (t : Transcript) : List Bytes :=
  [Bytes.ofText t.clientVersion, Bytes.ofText t.serverVersion, t.clientProposal,
    t.serverProposal, t.hostKey, t.clientPublic, t.serverPublic, t.secret] ++
    t.group.toList.flatMap fun group => [group.modulus, group.generator]

/-- Every string fits its length field, also with a zero byte in front. -/
def Fits (t : Transcript) : Prop := ∀ string ∈ t.strings, string.length < 2 ^ 32 - 1

instance (t : Transcript) : Decidable t.Fits := inferInstanceAs (Decidable (∀ _ ∈ _, _))

section Reading

def numberReader : Reader Nat := return Bytes.toNat (← Reader.mpint)

def groupReader : Reader (GroupBounds × Nat × Nat) := do
  let least ← Reader.uint32
  let preferred ← Reader.uint32
  let most ← Reader.uint32
  let modulus ← numberReader
  let generator ← numberReader
  return (⟨least, preferred, most⟩, modulus, generator)

def chosenReader : (chosen : Bool) → Reader (Option (GroupBounds × Nat × Nat))
  | true => return some (← groupReader)
  | false => return none

/-- Reads a transcript of an exchange in which a group was chosen, or was not. -/
def reader (chosen : Bool) : Reader Meaning := do
  let clientVersion ← Reader.text
  let serverVersion ← Reader.text
  let clientProposal ← Reader.string
  let serverProposal ← Reader.string
  let hostKey ← Reader.string
  let group ← chosenReader chosen
  let clientPublic ← numberReader
  let serverPublic ← numberReader
  let secret ← numberReader
  return ⟨clientVersion, serverVersion, clientProposal, serverProposal, hostKey, group,
    clientPublic, serverPublic, secret⟩

theorem reads_number {magnitude : Bytes} (fits : magnitude.length < 2 ^ 32 - 1) :
    Reads numberReader (Wire.mpint magnitude) (Bytes.toNat magnitude) := by
  have read := (Wire.reads_mpint (Nat.add_lt_of_lt_sub fits)).map Bytes.toNat
  rwa [Bytes.toNat_trimZeros] at read

theorem reads_group {group : ChosenGroup} (modulus : group.modulus.length < 2 ^ 32 - 1)
    (generator : group.generator.length < 2 ^ 32 - 1) :
    Reads groupReader (encodeGroup group) (groupMeaning group) := by
  rw [encodeGroup, List.append_assoc, List.append_assoc, List.append_assoc]
  exact (Wire.reads_uint32 _).bind ((Wire.reads_uint32 _).bind ((Wire.reads_uint32 _).bind
    ((reads_number modulus).bind ((reads_number generator).map _))))

theorem reads_chosen {group : Option ChosenGroup}
    (fits : ∀ chosen ∈ group, chosen.modulus.length < 2 ^ 32 - 1 ∧
      chosen.generator.length < 2 ^ 32 - 1) :
    Reads (chosenReader group.isSome) ((group.map encodeGroup).getD [])
      (group.map groupMeaning) := by
  cases group with
  | none => exact .pure _
  | some chosen =>
    obtain ⟨modulus, generator⟩ := fits chosen rfl
    exact (reads_group modulus generator).map some

/-- A transcript is read as what it means. -/
theorem reads_encode {t : Transcript} (fits : t.Fits) :
    Reads (reader t.group.isSome) t.encode t.meaning := by
  have short : ∀ string ∈ t.strings, string.length < 2 ^ 32 := fun string member =>
    Nat.lt_of_lt_of_le (fits string member) (Nat.sub_le ..)
  have group : ∀ chosen ∈ t.group, chosen.modulus.length < 2 ^ 32 - 1 ∧
      chosen.generator.length < 2 ^ 32 - 1 := by
    intro chosen held
    constructor
    all_goals
      apply fits
      simp [strings, Option.mem_def.1 held]
  simp only [encode, List.append_assoc]
  refine .bind (Wire.reads_text (short _ (by simp [strings]))) ?_
  refine .bind (Wire.reads_text (short _ (by simp [strings]))) ?_
  refine .bind (Wire.reads_string (short _ (by simp [strings]))) ?_
  refine .bind (Wire.reads_string (short _ (by simp [strings]))) ?_
  refine .bind (Wire.reads_string (short _ (by simp [strings]))) ?_
  refine .bind (reads_chosen group) ?_
  refine .bind (reads_number (fits _ (by simp [strings]))) ?_
  refine .bind (reads_number (fits _ (by simp [strings]))) ?_
  exact .map _ (reads_number (fits _ (by simp [strings])))

end Reading

theorem meaning_eq_of_encode_eq {t u : Transcript} (alike : t.group.isSome = u.group.isSome)
    (tFits : t.Fits) (uFits : u.Fits) (same : t.encode = u.encode) : t.meaning = u.meaning := by
  -- one reader reads both, since both or neither hold a group
  have first : Reader.parse (reader t.group.isSome) t.encode = .ok t.meaning :=
    (reads_encode tFits).parse
  have second : Reader.parse (reader t.group.isSome) t.encode = .ok u.meaning := by
    rw [alike]
    exact (reads_encode uFits).parse_eq same
  exact Except.ok.inj (first.symm.trans second)

/-- The encoding says no more than the transcript means. -/
theorem encode_eq_of_meaning_eq {t u : Transcript} (same : t.meaning = u.meaning) :
    t.encode = u.encode := by
  have groups : t.group.map groupMeaning = u.group.map groupMeaning := congrArg Meaning.group same
  apply encode_congr
  · exact congrArg Meaning.clientVersion same
  · exact congrArg Meaning.serverVersion same
  · exact congrArg Meaning.clientProposal same
  · exact congrArg Meaning.serverProposal same
  · exact congrArg Meaning.hostKey same
  · cases chosen : t.group with
    | none =>
      rw [chosen] at groups
      rw [Option.map_eq_none_iff.1 groups.symm]
    | some group =>
      rw [chosen] at groups
      obtain ⟨other, held, alike⟩ := Option.map_eq_some_iff.1 groups.symm
      obtain ⟨bounds, modulus, generator⟩ : other.bounds = group.bounds ∧
          Bytes.toNat other.modulus = Bytes.toNat group.modulus ∧
          Bytes.toNat other.generator = Bytes.toNat group.generator := by
        simpa [groupMeaning] using alike
      rw [held, Option.map_some, Option.map_some, encodeGroup_congr bounds modulus generator]
  · exact congrArg Meaning.clientPublic same
  · exact congrArg Meaning.serverPublic same
  · exact congrArg Meaning.secret same

/-- How many zero bytes to write in front of each number of a transcript. -/
structure Zeros where
  modulus : Nat
  generator : Nat
  clientPublic : Nat
  serverPublic : Nat
  secret : Nat

def widen (zeros : Zeros) (t : Transcript) : Transcript :=
  { t with
    group := t.group.map fun group =>
      { group with
        modulus := .replicate zeros.modulus 0 ++ group.modulus
        generator := .replicate zeros.generator 0 ++ group.generator }
    clientPublic := .replicate zeros.clientPublic 0 ++ t.clientPublic
    serverPublic := .replicate zeros.serverPublic 0 ++ t.serverPublic
    secret := .replicate zeros.secret 0 ++ t.secret }

theorem meaning_widen (zeros : Zeros) (t : Transcript) : (t.widen zeros).meaning = t.meaning := by
  cases chosen : t.group <;> simp [meaning, widen, groupMeaning, chosen]

/-- Of what is hashed nothing can be mistaken: transcripts with the same encoding mean the
same, if both or neither hold a group and all strings fit. Zeros in front of numbers never
change the encoding. -/
theorem encode_unambiguous (t u : Transcript) :
    (t.group.isSome = u.group.isSome → t.Fits → u.Fits → t.encode = u.encode →
      t.meaning = u.meaning) ∧
    ∀ zeros, (t.widen zeros).encode = t.encode := by
  constructor
  · intro alike tFits uFits same
    exact meaning_eq_of_encode_eq alike tFits uFits same
  · intro zeros
    exact encode_eq_of_meaning_eq (meaning_widen zeros t)

def sampleTranscript : Transcript where
  clientVersion := "SSH-2.0-c"
  serverVersion := "SSH-2.0-s"
  clientProposal := [20, 1]
  serverProposal := [20, 2]
  hostKey := [9]
  group := some { bounds := {}, modulus := [0x17], generator := [0x05] }
  clientPublic := [0x80]
  serverPublic := [0x01]
  secret := [0x02]

/-- The same exchange with numbers that are held in more bytes is encoded alike, and means
the same. -/
theorem encode_unambiguous_sample :
    let wide := sampleTranscript.widen ⟨1, 2, 3, 4, 5⟩
    wide ≠ sampleTranscript ∧ wide.group.isSome = sampleTranscript.group.isSome ∧ wide.Fits ∧
    sampleTranscript.Fits ∧ wide.encode = sampleTranscript.encode ∧
    wide.meaning = sampleTranscript.meaning := by
  intro wide
  have other : wide ≠ sampleTranscript := by decide
  have wideFits : wide.Fits := by decide
  have fits : sampleTranscript.Fits := by decide
  have same : wide.encode = sampleTranscript.encode := by decide
  exact ⟨other, rfl, wideFits, fits, same,
    (encode_unambiguous wide sampleTranscript).1 rfl wideFits fits same⟩

end SecureShell.Transcript
