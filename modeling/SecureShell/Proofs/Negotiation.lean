import SecureShell.Config
import SecureShell.Focus
import SecureShell.KeyExchange.Negotiation
import SecureShell.Proofs.Wire

/-! Proposals are read as they were written, and two proposals with a common name in
every slot agree. What a client proposes after its configuration was checked is
supported, so a name that wins stands for an algorithm. -/
namespace SecureShell

namespace Proposal

/-- Can a list be written so that it is read back? -/
structure Writable (names : List String) : Prop where
  listable : ∀ name ∈ names, Wire.Listable name
  fits : (Bytes.ofText (String.intercalate "," names)).length < 2 ^ 32

def lists (p : Proposal) : List (List String) :=
  [p.kex, p.hostKey, p.cipherOut, p.cipherIn, p.macOut, p.macIn, p.compressionOut,
    p.compressionIn, p.languageOut, p.languageIn]

/-- A proposal is read as it was written, if its lists are. -/
theorem parse_lists {p : Proposal}
    (read : ∀ names ∈ p.lists, Reads Reader.nameList (Wire.nameList names) names) :
    parse p.toBytes = .ok p := by
  have code (rest : Bytes) : Reader.byte (MessageCode.kexInit.toByte :: rest) = .ok _ rest :=
    Wire.reads_byte _ rest
  have cookie : Reads (Reader.exactly 16 .raw) p.cookie ⟨p.cookie, p.length_cookie⟩ :=
    Wire.reads_exactly p.length_cookie
  have kex := read p.kex (by simp [lists])
  have hostKey := read p.hostKey (by simp [lists])
  have cipherOut := read p.cipherOut (by simp [lists])
  have cipherIn := read p.cipherIn (by simp [lists])
  have macOut := read p.macOut (by simp [lists])
  have macIn := read p.macIn (by simp [lists])
  have compressionOut := read p.compressionOut (by simp [lists])
  have compressionIn := read p.compressionIn (by simp [lists])
  have languageOut := read p.languageOut (by simp [lists])
  have languageIn := read p.languageIn (by simp [lists])
  have guess := Wire.reads_bool p.guessFollows
  have reserved : Reader.uint32 (Wire.uint32 0) = .ok 0 [] := Wire.reads_uint32 0 []
  simp only [parse, Reader.parse, reader, toBytes, List.append_assoc, List.cons_append, bind_apply,
    code _, ne_eq, not_true_eq_false, if_false, cookie _, kex _, hostKey _, cipherOut _, cipherIn _,
    macOut _, macIn _, compressionOut _, compressionIn _, languageOut _, languageIn _, guess _,
    reserved, pure_apply]

theorem parse_toBytes {p : Proposal} (writable : ∀ names ∈ p.lists, Writable names) :
    parse p.toBytes = .ok p :=
  parse_lists fun names listed =>
    Wire.reads_nameList (writable names listed).listable (writable names listed).fits

end Proposal

namespace Config

theorem checkNames_ok {kind : AlgorithmKind} {supported names : List String}
    (h : checkNames kind supported names = .ok ()) : ∀ name ∈ names, name ∈ supported := by
  unfold checkNames at h
  split at h
  · cases h
  · split at h
    · cases h
    · rename_i none
      intro name member
      have found := List.find?_eq_none.1 none name member
      simpa using found

/-- Every name that a client prefers is supported. -/
structure Supported (p : Preferences) : Prop where
  kex : ∀ name ∈ p.kex, name ∈ KexMethod.all.map (·.name)
  hostKey : ∀ name ∈ p.hostKey, name ∈ HostKeyAlgorithm.all.map (·.name)
  ciphers : ∀ name ∈ p.ciphers, name ∈ CipherAlgorithm.all.map (·.name)
  macs : ∀ name ∈ p.macs, name ∈ MacAlgorithm.all.map (·.name)
  compression : ∀ name ∈ p.compression, name ∈ CompressionMethod.all.map (·.name)

theorem checkPreferences_ok {p : Preferences} (h : checkPreferences p = .ok ()) : Supported p := by
  unfold checkPreferences at h
  obtain ⟨_, kex, h⟩ := exceptBind_eq_ok_iff.1 h
  obtain ⟨_, hostKey, h⟩ := exceptBind_eq_ok_iff.1 h
  obtain ⟨_, ciphers, h⟩ := exceptBind_eq_ok_iff.1 h
  obtain ⟨_, macs, h⟩ := exceptBind_eq_ok_iff.1 h
  exact ⟨checkNames_ok kex, checkNames_ok hostKey, checkNames_ok ciphers, checkNames_ok macs,
    checkNames_ok h⟩

theorem passed {failing : Prop} [Decidable failing] {error : Error} {rest : Except Error Unit}
    (h : (if failing then .error error else rest) = .ok ()) : ¬ failing ∧ rest = .ok () := by
  split at h
  · cases h
  · exact ⟨‹_›, h⟩

theorem check_passed {config : Config} (h : config.check = .ok ()) :
    1024 ≤ config.maxPacketLength ∧ checkPreferences config.preferences = .ok () := by
  unfold check at h
  obtain ⟨-, h⟩ := passed h
  obtain ⟨-, h⟩ := passed h
  obtain ⟨-, h⟩ := passed h
  obtain ⟨-, h⟩ := passed h
  obtain ⟨large, h⟩ := passed h
  obtain ⟨-, h⟩ := passed h
  exact ⟨Nat.not_lt.1 large, h⟩

theorem check_ok {config : Config} (h : config.check = .ok ()) : Supported config.preferences :=
  checkPreferences_ok (check_passed h).2

end Config

namespace Negotiation

variable {client server : Proposal}

/-- The two sides list a common name. -/
def Shared (slot : Slot) (client server : Proposal) : Prop :=
  ∃ name ∈ slot.names client, name ∈ slot.names server

theorem slot_ok {slot : Slot} (shared : Shared slot client server) :
    ∃ name ∈ slot.names client, Negotiation.slot slot client server = .ok name := by
  obtain ⟨name, ours, theirs⟩ := shared
  cases found : common (slot.names client) (slot.names server) with
  | none =>
    have missing := List.find?_eq_none.1 found name ours
    simp [theirs] at missing
  | some winner =>
    refine ⟨winner, List.mem_of_find?_eq_some found, ?_⟩
    simp only [Negotiation.slot, choose, found]

theorem mem_of_slot {slot : Slot} {name : String}
    (wins : Negotiation.slot slot client server = .ok name) : name ∈ slot.names client := by
  unfold Negotiation.slot choose at wins
  split at wins
  · rename_i found
    cases wins
    exact List.mem_of_find?_eq_some found
  · cases wins

theorem resolve_ok {α : Type} {ofName? : String → Option α} {nameOf : α → String} {all : List α}
    (kind : AlgorithmKind) {slot : Slot} (shared : Shared slot client server)
    (inverts : ∀ a, ofName? (nameOf a) = some a)
    (supported : ∀ name ∈ slot.names client, name ∈ all.map nameOf) :
    ∃ name a, Negotiation.slot slot client server = .ok name ∧
      resolve kind ofName? name = .ok a := by
  obtain ⟨name, listed, wins⟩ := slot_ok shared
  obtain ⟨a, -, rfl⟩ := List.mem_map.1 (supported name listed)
  exact ⟨nameOf a, a, wins, by simp only [resolve, inverts]⟩

end Negotiation

open Negotiation in
/-- With a common name in every slot, and with nothing proposed that is not supported,
the two sides agree. -/
theorem negotiate_ok {entropy : Entropy} {preferences : Preferences} {server : Proposal}
    (supported : Config.Supported preferences)
    (shared : ∀ slot, Shared slot (.ofPreferences entropy preferences) server) :
    ∃ negotiated, negotiate (.ofPreferences entropy preferences) server = .ok negotiated := by
  obtain ⟨_, kex, kexWins, kexKnown⟩ :=
    resolve_ok .kex (shared .kex) KexMethod.ofName?_name supported.kex
  obtain ⟨_, hostKey, hostKeyWins, hostKeyKnown⟩ :=
    resolve_ok .hostKey (shared .hostKey) HostKeyAlgorithm.ofName?_name supported.hostKey
  obtain ⟨_, cipherOut, cipherOutWins, cipherOutKnown⟩ :=
    resolve_ok .cipher (shared .cipherOut) CipherAlgorithm.ofName?_name supported.ciphers
  obtain ⟨_, cipherIn, cipherInWins, cipherInKnown⟩ :=
    resolve_ok .cipher (shared .cipherIn) CipherAlgorithm.ofName?_name supported.ciphers
  obtain ⟨_, macOut, macOutWins, macOutKnown⟩ :=
    resolve_ok .mac (shared .macOut) MacAlgorithm.ofName?_name supported.macs
  obtain ⟨_, macIn, macInWins, macInKnown⟩ :=
    resolve_ok .mac (shared .macIn) MacAlgorithm.ofName?_name supported.macs
  obtain ⟨_, compressionOut, compressionOutWins, compressionOutKnown⟩ :=
    resolve_ok .compression (shared .compressionOut) CompressionMethod.ofName?_name supported.compression
  obtain ⟨_, compressionIn, compressionInWins, compressionInKnown⟩ :=
    resolve_ok .compression (shared .compressionIn) CompressionMethod.ofName?_name supported.compression
  simp only [negotiate, bind, Except.bind, kexWins, kexKnown, hostKeyWins, hostKeyKnown,
    cipherOutWins, cipherOutKnown, cipherInWins, cipherInKnown, macOutWins, macOutKnown,
    macInWins, macInKnown, compressionOutWins, compressionOutKnown, compressionInWins,
    compressionInKnown, pure, Except.pure]
  exact ⟨_, rfl⟩

/-- No guess of the server is dropped unless it has announced one. -/
theorem discardGuess_of_negotiate {client server : Proposal} {negotiated : Negotiated}
    (h : negotiate client server = .ok negotiated) (unguessed : server.guessFollows = false) :
    negotiated.discardGuess = false := by
  unfold negotiate at h
  -- two slots, their algorithms, and six slots with their algorithms
  iterate 16 obtain ⟨_, -, h⟩ := exceptBind_eq_ok_iff.1 h
  cases h
  simp only [unguessed, Bool.false_and]

/-- The client has listed the code that it will use. -/
theorem macOut_of_negotiate {client server : Proposal} {negotiated : Negotiated}
    (h : negotiate client server = .ok negotiated) :
    ∃ name ∈ client.macOut, MacAlgorithm.ofName? name = some negotiated.macOut := by
  unfold negotiate at h
  -- two slots, their algorithms, and the two ciphers with theirs
  iterate 8 obtain ⟨_, -, h⟩ := exceptBind_eq_ok_iff.1 h
  obtain ⟨name, wins, h⟩ := exceptBind_eq_ok_iff.1 h
  obtain ⟨mac, known, h⟩ := exceptBind_eq_ok_iff.1 h
  iterate 6 obtain ⟨_, -, h⟩ := exceptBind_eq_ok_iff.1 h
  cases h
  refine ⟨name, Negotiation.mem_of_slot wins, ?_⟩
  unfold Negotiation.resolve at known
  split at known
  · rename_i found
    cases known
    exact found
  · cases known

/-- Every list of names is as short as its length field can say. -/
def Preferences.Fits (preferences : Preferences) : Prop :=
  ∀ names ∈ [preferences.kex, preferences.hostKey, preferences.ciphers, preferences.macs,
    preferences.compression], (Bytes.ofText (String.intercalate "," names)).length < UInt32.size

instance (preferences : Preferences) : Decidable preferences.Fits :=
  inferInstanceAs (Decidable (∀ _ ∈ _, _))

/-- A client's own proposal is read as it was meant. -/
theorem parse_ofPreferences {entropy : Entropy} {preferences : Preferences}
    (supported : Config.Supported preferences) (fits : preferences.Fits) :
    Proposal.parse (Proposal.ofPreferences entropy preferences).toBytes =
      .ok (.ofPreferences entropy preferences) := by
  have writable {all names : List String} (listed : names ∈ [preferences.kex, preferences.hostKey,
      preferences.ciphers, preferences.macs, preferences.compression])
      (known : ∀ name ∈ names, name ∈ all) (listable : ∀ name ∈ all, Wire.Listable name) :
      Proposal.Writable names :=
    ⟨fun name member => listable name (known name member), fits names listed⟩
  have kex := writable (by simp) supported.kex (by decide)
  have hostKey := writable (by simp) supported.hostKey (by decide)
  have ciphers := writable (by simp) supported.ciphers (by decide)
  have macs := writable (by simp) supported.macs (by decide)
  have compression := writable (by simp) supported.compression (by decide)
  have none : Proposal.Writable [] := ⟨by simp, by decide⟩
  apply Proposal.parse_toBytes
  intro names listed
  simp only [Proposal.lists, Proposal.ofPreferences, List.mem_cons, List.not_mem_nil, or_false]
    at listed
  rcases listed with rfl | rfl | rfl | rfl | rfl | rfl | rfl | rfl | rfl | rfl <;> assumption

end SecureShell
