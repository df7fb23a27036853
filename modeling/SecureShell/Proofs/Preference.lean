import SecureShell.Proofs.Negotiation

/-! The client's preference decides. In every slot the earliest name of its own list wins
that the server lists too, in whatever order the server lists them; the first slot without
such a name ends the negotiation. Every slot is looked up in its own pair of lists. -/
namespace SecureShell

namespace Slot

/-- Every slot, in the order in which they are tried. -/
def all : List Slot :=
  [.kex, .hostKey, .cipherOut, .cipherIn, .macOut, .macIn, .compressionOut, .compressionIn]

/-- The list from which a slot is filled; one list serves both directions. -/
def preferred (slot : Slot) (preferences : Preferences) : List String :=
  match slot with
  | .kex => preferences.kex
  | .hostKey => preferences.hostKey
  | .cipherOut | .cipherIn => preferences.ciphers
  | .macOut | .macIn => preferences.macs
  | .compressionOut | .compressionIn => preferences.compression

def chosen (slot : Slot) (negotiated : Negotiated) : String :=
  match slot with
  | .kex => negotiated.kex.name
  | .hostKey => negotiated.hostKey.name
  | .cipherOut => negotiated.cipherOut.name
  | .cipherIn => negotiated.cipherIn.name
  | .macOut => negotiated.macOut.name
  | .macIn => negotiated.macIn.name
  | .compressionOut => negotiated.compressionOut.name
  | .compressionIn => negotiated.compressionIn.name

end Slot

/-- Nothing is proposed that is not supported: the default preferences list all that is. -/
def Proposal.Supported (p : Proposal) : Prop :=
  ∀ slot : Slot, ∀ name ∈ slot.names p, name ∈ slot.preferred {}

theorem Config.supported_of_check {config : Config} (checked : config.check = .ok ())
    (entropy : Entropy) : (Proposal.ofPreferences entropy config.preferences).Supported := by
  have supported := Config.check_ok checked
  intro slot
  cases slot with
  | kex => exact supported.kex
  | hostKey => exact supported.hostKey
  | cipherOut | cipherIn => exact supported.ciphers
  | macOut | macIn => exact supported.macs
  | compressionOut | compressionIn => exact supported.compression

namespace Negotiation

variable {α β : Type} {client server : Proposal} {ours theirs : List String} {name : String}

section Lists

/-- A name is the earliest of ours that they list. -/
def Earliest (ours theirs : List String) (name : String) : Prop :=
  ∃ before after, ours = before ++ name :: after ∧ name ∈ theirs ∧ ∀ other ∈ before, other ∉ theirs

/-- What is made of two lists that may have nothing in common. -/
def Agreed (ours theirs : List String) : Option String → Prop
  | some name => Earliest ours theirs name
  | none => ∀ name ∈ ours, name ∉ theirs

theorem common_agreed (ours theirs : List String) : Agreed ours theirs (common ours theirs) := by
  cases found : common ours theirs with
  | none =>
    intro name listed
    simpa using List.find?_eq_none.1 found name listed
  | some name =>
    obtain ⟨shared, before, after, split, others⟩ := List.find?_eq_some_iff_append.1 found
    refine ⟨before, after, split, by simpa using shared, ?_⟩
    intro other earlier
    simpa using others other earlier

theorem Earliest.head (earliest : Earliest ours theirs name) {front : String}
    (first : ours.head? = some front) (listed : front ∈ theirs) : name = front := by
  obtain ⟨before, after, rfl, -, others⟩ := earliest
  cases before with
  | nil => exact Option.some.inj first
  | cons other rest =>
    obtain rfl : other = front := Option.some.inj first
    exact absurd listed (others other (.head _))

end Lists

theorem shared_of_earliest {slot : Slot}
    (earliest : Earliest (slot.names client) (slot.names server) name) :
    Shared slot client server := by
  obtain ⟨before, after, split, listed, -⟩ := earliest
  exact ⟨name, split ▸ List.mem_append_right before (.head _), listed⟩

/-- A slot has a winner, or there is no name that both sides list. -/
theorem slot_cases (slot : Slot) (client server : Proposal) :
    (∃ name, Earliest (slot.names client) (slot.names server) name ∧
      Negotiation.slot slot client server = .ok name) ∨
    (¬ Shared slot client server ∧ Negotiation.slot slot client server =
      .error (.negotiation slot.label (slot.names client) (slot.names server))) := by
  have agreed := common_agreed (slot.names client) (slot.names server)
  unfold Negotiation.slot choose
  cases found : common (slot.names client) (slot.names server) with
  | some name =>
    rw [found] at agreed
    exact .inl ⟨name, agreed, rfl⟩
  | none =>
    rw [found] at agreed
    refine .inr ⟨?_, rfl⟩
    rintro ⟨name, listed, known⟩
    exact agreed name listed known

section Verdicts

/-- The first of some slots in which the two sides share nothing. -/
structure Misses (client server : Proposal) (slots : List Slot) (slot : Slot) : Prop where
  first : ∃ before after, slots = before ++ slot :: after ∧
    ∀ other ∈ before, Shared other client server
  missing : ¬ Shared slot client server

/-- How it ends when some slots are tried in turn. -/
inductive Verdict (client server : Proposal) (slots : List Slot) (good : α → Prop) :
    Except Error α → Prop where
  | agreed {a : α} : good a → Verdict client server slots good (.ok a)
  | missed {slot : Slot} : Misses client server slots slot → Verdict client server slots good
      (.error (.negotiation slot.label (slot.names client) (slot.names server)))

variable {slots : List Slot} {good : α → Prop}

/-- A slot is filled by a name that stands for something, or it ends the negotiation. -/
theorem Verdict.slot {slot : Slot} {nameOf : β → String} {all : List β}
    {rest : String → Except Error α}
    (supported : ∀ name ∈ slot.names client, name ∈ all.map nameOf)
    (hRest : ∀ b, Earliest (slot.names client) (slot.names server) (nameOf b) →
      Verdict client server slots good (rest (nameOf b))) :
    Verdict client server (slot :: slots) good (Negotiation.slot slot client server >>= rest) := by
  rcases slot_cases slot client server with ⟨name, earliest, wins⟩ | ⟨missing, fails⟩
  · rw [wins]
    have shared := shared_of_earliest earliest
    obtain ⟨b, -, rfl⟩ := List.mem_map.1 (supported name (mem_of_slot wins))
    have later := hRest b earliest
    change Verdict client server (slot :: slots) good (rest (nameOf b))
    generalize rest (nameOf b) = result at later
    cases later with
    | agreed holds => exact .agreed holds
    | missed misses =>
      obtain ⟨⟨before, after, split, others⟩, missing⟩ := misses
      refine .missed ⟨⟨slot :: before, after, congrArg (slot :: ·) split, ?_⟩, missing⟩
      exact List.forall_mem_cons.2 ⟨shared, others⟩
  · rw [fails]
    exact .missed ⟨⟨[], slots, rfl, by simp⟩, missing⟩

theorem Verdict.resolve {nameOf : β → String} {ofName? : String → Option β} {kind : AlgorithmKind}
    {b : β} {rest : β → Except Error α} (inverts : ∀ b, ofName? (nameOf b) = some b)
    (hRest : Verdict client server slots good (rest b)) :
    Verdict client server slots good (Negotiation.resolve kind ofName? (nameOf b) >>= rest) := by
  simp only [Negotiation.resolve, inverts]
  exact hRest

end Verdicts

/-- What two proposals lead to is what the client prefers. -/
structure Preferred (client server : Proposal) (negotiated : Negotiated) : Prop where
  slots : ∀ slot : Slot,
    Earliest (slot.names client) (slot.names server) (slot.chosen negotiated)
  languageOut : Agreed client.languageOut server.languageOut negotiated.languageOut
  languageIn : Agreed client.languageIn server.languageIn negotiated.languageIn

/-- Every slot is tried in its turn. -/
theorem negotiate_verdict (supported : client.Supported) (server : Proposal) :
    Verdict client server Slot.all (Preferred client server) (negotiate client server) := by
  unfold negotiate Slot.all
  apply Verdict.slot (supported .kex)
  intro kex hKex
  apply Verdict.slot (supported .hostKey)
  intro hostKey hHostKey
  apply Verdict.resolve KexMethod.ofName?_name
  apply Verdict.resolve HostKeyAlgorithm.ofName?_name
  apply Verdict.slot (supported .cipherOut)
  intro cipherOut hCipherOut
  apply Verdict.resolve CipherAlgorithm.ofName?_name
  apply Verdict.slot (supported .cipherIn)
  intro cipherIn hCipherIn
  apply Verdict.resolve CipherAlgorithm.ofName?_name
  apply Verdict.slot (supported .macOut)
  intro macOut hMacOut
  apply Verdict.resolve MacAlgorithm.ofName?_name
  apply Verdict.slot (supported .macIn)
  intro macIn hMacIn
  apply Verdict.resolve MacAlgorithm.ofName?_name
  apply Verdict.slot (supported .compressionOut)
  intro compressionOut hCompressionOut
  apply Verdict.resolve CompressionMethod.ofName?_name
  apply Verdict.slot (supported .compressionIn)
  intro compressionIn hCompressionIn
  apply Verdict.resolve CompressionMethod.ofName?_name
  refine .agreed ⟨?_, common_agreed _ _, common_agreed _ _⟩
  intro slot
  cases slot with
  | kex => exact hKex
  | hostKey => exact hHostKey
  | cipherOut => exact hCipherOut
  | cipherIn => exact hCipherIn
  | macOut => exact hMacOut
  | macIn => exact hMacIn
  | compressionOut => exact hCompressionOut
  | compressionIn => exact hCompressionIn

/-- Two proposals lead to an agreement just if they share a name in every slot. Each slot is
then filled by the earliest name of the client's that the server lists; otherwise the first
slot that cannot be filled is reported with its two lists. -/
theorem negotiate_prefers (supported : client.Supported) (server : Proposal) :
    ((∃ negotiated, negotiate client server = .ok negotiated) ↔
      ∀ slot, Shared slot client server) ∧
    (∀ negotiated, negotiate client server = .ok negotiated →
      Preferred client server negotiated) ∧
    ∀ error, negotiate client server = .error error → ∃ slot,
      Misses client server Slot.all slot ∧
      error = .negotiation slot.label (slot.names client) (slot.names server) := by
  have verdict := negotiate_verdict supported server
  generalize negotiate client server = result at verdict
  cases verdict with
  | @agreed negotiated preferred =>
    refine ⟨?_, ?_, nofun⟩
    · constructor
      · exact fun _ slot => shared_of_earliest (preferred.slots slot)
      · exact fun _ => ⟨negotiated, rfl⟩
    · rintro found ⟨⟩
      exact preferred
  | missed misses =>
    refine ⟨?_, ?_, ?_⟩
    · constructor
      · exact fun ⟨_, impossible⟩ => nomatch impossible
      · exact fun shared => absurd (shared _) misses.missing
    · exact fun _ impossible => nomatch impossible
    · rintro error ⟨⟩
      exact ⟨_, misses, rfl⟩

/-- A client with the default preferences. -/
def lavishClient : Config where
  software := "client"
  username := "user"
  credential := .password "secret"

theorem lavish_checked : lavishClient.check = .ok () := by
  rfl

def lavish : Proposal := .ofPreferences (.repeating [0]) lavishClient.preferences

/-- A server that prefers everything the other way round, and is not to be spoken to with
all ciphers. -/
def contrary : Proposal :=
  { lavish with
    kex := lavish.kex.reverse
    hostKey := lavish.hostKey.reverse
    cipherOut := ["blowfish-cbc", "3des-ctr"]
    cipherIn := ["3des-cbc", "aes128-cbc"] }

/-- The client has its way in each direction. -/
theorem negotiate_prefers_contrary :
    lavish.Supported ∧ ∃ negotiated, negotiate lavish contrary = .ok negotiated ∧
      Preferred lavish contrary negotiated ∧ negotiated.kex = .groupExchange ∧
      negotiated.cipherOut = .tripleDesCtr ∧ negotiated.cipherIn = .aes128Cbc := by
  have supported : lavish.Supported := Config.supported_of_check lavish_checked _
  have agreed : negotiate lavish contrary = .ok
    { kex := .groupExchange, hostKey := .rsa, cipherOut := .tripleDesCtr, cipherIn := .aes128Cbc
      macOut := .md5, macIn := .md5, compressionOut := .zlibDelayed
      compressionIn := .zlibDelayed, languageOut := none, languageIn := none
      discardGuess := false } := rfl
  have preferred := (negotiate_prefers supported contrary).2.1 _ agreed
  exact ⟨supported, _, agreed, preferred, rfl, rfl, rfl⟩

section Guesses

/-- The server's guess is the outcome: the names that it lists first have won. -/
def GuessRight (server : Proposal) (negotiated : Negotiated) : Prop :=
  server.kex.head? = some negotiated.kex.name ∧
    server.hostKey.head? = some negotiated.hostKey.name

/-- A name that is looked up is the name of what is found. -/
theorem name_of_resolve {kind : AlgorithmKind} {nameOf : β → String} {all : List β} {b : β}
    (found : resolve kind (fun text => all.find? (nameOf · == text)) name = .ok b) :
    nameOf b = name := by
  unfold resolve at found
  dsimp only at found
  split at found
  · rename_i known
    cases found
    have same := List.find?_some known
    exact eq_of_beq same
  · cases found

/-- What the guess is about, and what becomes of it. -/
theorem guess_of_negotiate {negotiated : Negotiated}
    (agreed : negotiate client server = .ok negotiated) :
    Negotiation.slot .kex client server = .ok negotiated.kex.name ∧
      Negotiation.slot .hostKey client server = .ok negotiated.hostKey.name ∧
      negotiated.discardGuess = (server.guessFollows &&
        !guessRight server negotiated.kex.name negotiated.hostKey.name) := by
  unfold negotiate at agreed
  obtain ⟨kexName, kexWins, agreed⟩ := exceptBind_eq_ok_iff.1 agreed
  obtain ⟨hostKeyName, hostKeyWins, agreed⟩ := exceptBind_eq_ok_iff.1 agreed
  obtain ⟨kex, kexKnown, agreed⟩ := exceptBind_eq_ok_iff.1 agreed
  obtain ⟨hostKey, hostKeyKnown, agreed⟩ := exceptBind_eq_ok_iff.1 agreed
  -- the six other slots with their algorithms
  iterate 12 obtain ⟨_, -, agreed⟩ := exceptBind_eq_ok_iff.1 agreed
  cases agreed
  obtain rfl : kex.name = kexName := name_of_resolve kexKnown
  obtain rfl : hostKey.name = hostKeyName := name_of_resolve hostKeyKnown
  exact ⟨kexWins, hostKeyWins, rfl⟩

/-- A guess is dropped if it was announced and is not the outcome. -/
theorem discardGuess_iff {negotiated : Negotiated}
    (agreed : negotiate client server = .ok negotiated) :
    negotiated.discardGuess = true ↔ server.guessFollows = true ∧ ¬ GuessRight server negotiated := by
  obtain ⟨-, -, discards⟩ := guess_of_negotiate agreed
  rw [discards]
  simp only [GuessRight, guessRight, Bool.and_eq_true, Bool.not_eq_true', ← Bool.not_eq_true,
    beq_iff_eq]

/-- What both sides list first wins. -/
theorem wins_of_alike (slot : Slot)
    (alike : (slot.names client).head? = (slot.names server).head?)
    (wins : Negotiation.slot slot client server = .ok name) :
    (slot.names server).head? = some name := by
  rcases slot_cases slot client server with ⟨winner, earliest, chosen⟩ | ⟨-, fails⟩
  · rw [wins] at chosen
    cases chosen
    cases first : (slot.names server).head? with
    | some front =>
      rw [earliest.head (alike.trans first) (List.mem_of_head? first)]
    | none =>
      obtain ⟨before, after, -, listed, -⟩ := earliest
      rw [List.head?_eq_none_iff.1 first] at listed
      cases listed
  · rw [wins] at fails
    cases fails

theorem guessRight_of_alike {negotiated : Negotiated}
    (agreed : negotiate client server = .ok negotiated)
    (kex : client.kex.head? = server.kex.head?)
    (hostKey : client.hostKey.head? = server.hostKey.head?) : GuessRight server negotiated := by
  obtain ⟨kexWins, hostKeyWins, -⟩ := guess_of_negotiate agreed
  exact ⟨wins_of_alike .kex kex kexWins, wins_of_alike .hostKey hostKey hostKeyWins⟩

/-- A server whose only method is the client's last. -/
def modest : Proposal :=
  { lavish with kex := ["diffie-hellman-group1-sha1"], guessFollows := true }

/-- A guess can be right though the first names are not the same. -/
theorem guess_kept_unlike : ∃ negotiated, negotiate lavish modest = .ok negotiated ∧
    modest.guessFollows = true ∧ lavish.kex.head? ≠ modest.kex.head? ∧
    negotiated.discardGuess = false := by
  have agreed : negotiate lavish modest = .ok
    { kex := .group1, hostKey := .rsa, cipherOut := .aes128Ctr, cipherIn := .aes128Ctr
      macOut := .md5, macIn := .md5, compressionOut := .zlibDelayed
      compressionIn := .zlibDelayed, languageOut := none, languageIn := none
      discardGuess := false } := rfl
  exact ⟨_, agreed, rfl, by decide, rfl⟩

end Guesses

end Negotiation

end SecureShell
