import SecureShell.Handshake.State
import SecureShell.Identification
import SecureShell.Message.Transport
import SecureShell.Message.Userauth
import SecureShell.Proofs.Negotiation
import SecureShell.Proofs.Raising

/-! Reading the server's line and its messages, and looking at what they say, fails with
ordinary errors only, whatever the bytes are. The exceptions are two proposals that agree
on a name which stands for nothing, a key that is too short to sign, and a confirmation of
a channel that is not being opened. -/
namespace SecureShell

open Error (Ordinary ordinary_protocol ordinary_crypto ordinary_hostKey)

variable {α : Type}

namespace Reader

theorem rejects_parse {reader : Reader α} (raises : Raises Ordinary reader) (data : Bytes) :
    Rejects Ordinary (parse reader data) := by
  intro error failed
  unfold parse at failed
  split at failed
  · cases failed
  · rename_i found after done
    cases failed
    exact raises _ _ _ done

theorem raises_exactly (count : Nat) (field : Field) : Raises Ordinary (exactly count field) := by
  intro unread error after failed
  unfold exactly at failed
  split at failed
  · cases failed
    exact ordinary_protocol nofun
  · cases failed

theorem raises_take (count : Nat) (field : Field) : Raises Ordinary (take count field) :=
  .bind (raises_exactly count field) fun _ => .pure _

theorem raises_byte : Raises Ordinary byte := .bind (raises_take 1 .byte) fun _ => .pure _

theorem raises_bool : Raises Ordinary bool := .bind raises_byte fun _ => .pure _

theorem raises_uint32 : Raises Ordinary uint32 := .bind (raises_take 4 .uint32) fun _ => .pure _

theorem raises_string : Raises Ordinary string :=
  .bind raises_uint32 fun _ => raises_take _ .string

theorem raises_text : Raises Ordinary text := by
  refine .bind raises_string fun bytes => ?_
  cases Bytes.toText? bytes with
  | some text => exact .pure text
  | none => exact .throw (ordinary_protocol nofun)

theorem raises_mpint : Raises Ordinary mpint :=
  .bind raises_string fun _ => .check (ordinary_protocol nofun) (.pure _)

theorem raises_nameList : Raises Ordinary nameList := by
  refine .bind raises_string fun bytes => ?_
  cases Bytes.toText? bytes with
  | some text => exact .pure _
  | none => exact .throw (ordinary_protocol nofun)

theorem raises_rest : Raises Ordinary rest := fun _ _ _ impossible => nomatch impossible

theorem raises_expect (code : MessageCode) : Raises Ordinary (expect code) :=
  .bind raises_byte fun _ => .ite (.throw (ordinary_protocol nofun)) (.pure _)

end Reader

section Messages

open Reader

variable (payload : Bytes)

theorem Disconnect.parse_rejects : Rejects Ordinary (Disconnect.parse payload) :=
  rejects_parse (.bind (raises_expect _) fun _ => .bind raises_uint32 fun _ =>
    .bind raises_text fun _ => .pure _) payload

theorem Service.parse_rejects (code : MessageCode) : Rejects Ordinary (Service.parse code payload) :=
  rejects_parse (.bind (raises_expect code) fun _ => raises_text) payload

theorem NewKeys.parse_rejects : Rejects Ordinary (NewKeys.parse payload) := by
  intro error failed
  unfold NewKeys.parse at failed
  split at failed
  · cases failed
    exact ordinary_protocol nofun
  · split at failed
    · cases failed
    · cases failed
      exact ordinary_protocol nofun

theorem Proposal.parse_rejects : Rejects Ordinary (Proposal.parse payload) := by
  have wrong (code : UInt8) : Ordinary (.protocol (.notKexInit code)) := ordinary_protocol nofun
  refine rejects_parse (.bind raises_byte fun code => .check (wrong code) ?_) payload
  refine .bind (raises_exactly 16 .raw) fun cookie => ?_
  refine .bind raises_nameList fun _ => .bind raises_nameList fun _ => ?_
  refine .bind raises_nameList fun _ => .bind raises_nameList fun _ => ?_
  refine .bind raises_nameList fun _ => .bind raises_nameList fun _ => ?_
  refine .bind raises_nameList fun _ => .bind raises_nameList fun _ => ?_
  refine .bind raises_nameList fun _ => .bind raises_nameList fun _ => ?_
  exact .bind raises_bool fun _ => .bind raises_uint32 fun _ => .pure _

theorem UserauthFailure.parse_rejects : Rejects Ordinary (UserauthFailure.parse payload) :=
  rejects_parse (.bind (raises_expect _) fun _ => .bind raises_nameList fun _ =>
    .bind raises_bool fun _ => .pure _) payload

theorem UserauthBanner.parse_rejects : Rejects Ordinary (UserauthBanner.parse payload) :=
  rejects_parse (.bind (raises_expect _) fun _ => .bind raises_text fun _ =>
    .bind raises_text fun _ => .pure _) payload

theorem UserauthPkOk.parse_rejects : Rejects Ordinary (UserauthPkOk.parse payload) :=
  rejects_parse (.bind (raises_expect _) fun _ => .bind raises_text fun _ =>
    .bind raises_string fun _ => .pure _) payload

theorem ChannelConfirmation.parse_rejects : Rejects Ordinary (ChannelConfirmation.parse payload) :=
  rejects_parse (.bind (raises_expect _) fun _ => .bind raises_uint32 fun _ =>
    .bind raises_uint32 fun _ => .bind raises_uint32 fun _ => .bind raises_uint32 fun _ =>
    .pure _) payload

theorem ChannelOpenFailure.parse_rejects : Rejects Ordinary (ChannelOpenFailure.parse payload) :=
  rejects_parse (.bind (raises_expect _) fun _ => .bind raises_uint32 fun _ =>
    .bind raises_uint32 fun _ => .bind raises_text fun _ => .pure _) payload

theorem DataMessage.parse_rejects : Rejects Ordinary (DataMessage.parse payload) :=
  rejects_parse (.bind (raises_expect _) fun _ => .bind raises_uint32 fun _ =>
    .bind raises_string fun _ => .pure _) payload

theorem ExtendedDataMessage.parse_rejects : Rejects Ordinary (ExtendedDataMessage.parse payload) :=
  rejects_parse (.bind (raises_expect _) fun _ => .bind raises_uint32 fun _ =>
    .bind raises_uint32 fun _ => .bind raises_string fun _ => .pure _) payload

theorem ChannelOnly.parse_rejects (code : MessageCode) :
    Rejects Ordinary (ChannelOnly.parse code payload) :=
  rejects_parse (.bind (raises_expect code) fun _ => raises_uint32) payload

theorem GlobalRequest.parse_rejects : Rejects Ordinary (GlobalRequest.parse payload) :=
  rejects_parse (.bind (raises_expect _) fun _ => .bind raises_text fun _ =>
    .bind raises_bool fun _ => .pure _) payload

theorem Pty.raises_reader : Raises Ordinary Pty.reader :=
  .bind raises_text fun _ => .bind raises_uint32 fun _ => .bind raises_uint32 fun _ =>
    .bind raises_uint32 fun _ => .bind raises_uint32 fun _ => .bind raises_string fun _ =>
    .pure _

theorem ChannelRequest.parse_rejects : Rejects Ordinary (ChannelRequest.parse payload) := by
  refine rejects_parse (.bind (raises_expect _) fun _ => .bind raises_uint32 fun _ =>
    .bind raises_text fun name => .bind raises_bool fun _ => .bind ?_ fun _ => .pure _) payload
  unfold ChannelRequestKind.reader
  split
  · exact .bind Pty.raises_reader fun _ => .pure _
  · exact .pure _
  · exact .bind raises_text fun _ => .pure _
  · exact .bind raises_rest fun _ => .pure _

end Messages

namespace HostKey

open Reader

theorem raises_number : Raises Ordinary number := .bind raises_mpint fun _ => .pure _

theorem parse_rejects (blob : Bytes) : Rejects Ordinary (parse blob) := by
  refine .bind (rejects_parse (.bind raises_text fun name => ?_) blob) fun _ _ => .ok _
  cases HostKeyAlgorithm.ofName? name with
  | none => exact .throw (ordinary_hostKey _)
  | some algorithm =>
    cases algorithm with
    | rsa => exact .bind raises_number fun _ => .bind raises_number fun _ => .pure _
    | dss =>
      exact .bind raises_number fun _ => .bind raises_number fun _ =>
        .bind raises_number fun _ => .bind raises_number fun _ => .pure _

theorem wrapped_rejects (algorithm : HostKeyAlgorithm) (field : Bytes) :
    Rejects Ordinary (extractSignature.wrapped algorithm field) :=
  rejects_parse (.bind raises_text fun _ => .check (ordinary_hostKey _) raises_string) field

theorem extractSignature_rejects (algorithm : HostKeyAlgorithm) (field : Bytes) :
    Rejects Ordinary (extractSignature algorithm field) := by
  unfold extractSignature
  split
  · split
    · exact wrapped_rejects algorithm _
    · exact .ok _
  · exact wrapped_rejects algorithm _

theorem dss_verify_rejects (key : Dsa.PublicKey) (data signature : Bytes) :
    Rejects Ordinary (key.verify data signature) := by
  unfold Dsa.PublicKey.verify
  dsimp only
  refine .check (ordinary_hostKey _) (.check (ordinary_hostKey _) ?_)
  exact .check (ordinary_hostKey _) (.ok _)

theorem verify_rejects (hostKey : HostKey) (data field : Bytes) :
    Rejects Ordinary (hostKey.verify data field) := by
  have judged (verified : Bool) : Rejects Ordinary (if !verified then
      throw (Error.hostKey (.badSignature hostKey.algorithm)) else pure ()) := by
    cases verified with
    | false => exact .error (ordinary_hostKey _)
    | true => exact .ok _
  refine .bind (extractSignature_rejects _ field) fun signature _ => ?_
  cases hostKey.key with
  | rsa exponent modulus => exact .bind (.ok _) fun verified _ => judged verified
  | dss key => exact .bind (dss_verify_rejects key data signature) fun verified _ => judged verified

end HostKey

section Agreement

open Negotiation

/-- Every name that a proposal lists stands for an algorithm. -/
structure Proposal.Known (p : Proposal) : Prop where
  kex : ∀ name ∈ p.kex, (KexMethod.ofName? name).isSome
  hostKey : ∀ name ∈ p.hostKey, (HostKeyAlgorithm.ofName? name).isSome
  cipherOut : ∀ name ∈ p.cipherOut, (CipherAlgorithm.ofName? name).isSome
  cipherIn : ∀ name ∈ p.cipherIn, (CipherAlgorithm.ofName? name).isSome
  macOut : ∀ name ∈ p.macOut, (MacAlgorithm.ofName? name).isSome
  macIn : ∀ name ∈ p.macIn, (MacAlgorithm.ofName? name).isSome
  compressionOut : ∀ name ∈ p.compressionOut, (CompressionMethod.ofName? name).isSome
  compressionIn : ∀ name ∈ p.compressionIn, (CompressionMethod.ofName? name).isSome

/-- What is supported stands for an algorithm. -/
theorem Config.Supported.known {preferences : Preferences}
    (supported : Config.Supported preferences) (entropy : Entropy) :
    (Proposal.ofPreferences entropy preferences).Known := by
  have named {α : Type} {names : List String} {all : List α} {nameOf : α → String}
      {ofName? : String → Option α} (inverts : ∀ a, ofName? (nameOf a) = some a)
      (within : ∀ name ∈ names, name ∈ all.map nameOf) :
      ∀ name ∈ names, (ofName? name).isSome := by
    intro name listed
    obtain ⟨a, -, rfl⟩ := List.mem_map.1 (within name listed)
    rw [inverts]
    rfl
  exact
    { kex := named KexMethod.ofName?_name supported.kex
      hostKey := named HostKeyAlgorithm.ofName?_name supported.hostKey
      cipherOut := named CipherAlgorithm.ofName?_name supported.ciphers
      cipherIn := named CipherAlgorithm.ofName?_name supported.ciphers
      macOut := named MacAlgorithm.ofName?_name supported.macs
      macIn := named MacAlgorithm.ofName?_name supported.macs
      compressionOut := named CompressionMethod.ofName?_name supported.compression
      compressionIn := named CompressionMethod.ofName?_name supported.compression }

/-- Two proposals do not agree, or they agree on a name that stands for nothing. -/
def Disagreement (client : Proposal) (error : Error) : Prop :=
  Ordinary error ∨ (error.Unimplemented ∧ ¬ client.Known)

variable {client server : Proposal}

theorem slot_rejects (slot : Slot) :
    Rejects (Disagreement client) (Negotiation.slot slot client server) := by
  intro error failed
  unfold Negotiation.slot choose at failed
  split at failed
  · cases failed
  · cases failed
    exact .inl (Error.ordinary_negotiation _ _ _)

/-- A name that has won a slot stands for an algorithm if all that is listed does. -/
theorem resolve_rejects {slot : Slot} {name : String} {ofName? : String → Option α}
    (kind : AlgorithmKind) (wins : Negotiation.slot slot client server = .ok name)
    (known : client.Known → ∀ name ∈ slot.names client, (ofName? name).isSome) :
    Rejects (Disagreement client) (resolve kind ofName? name) := by
  intro error failed
  unfold resolve at failed
  split at failed
  · cases failed
  · rename_i unknown
    cases failed
    refine .inr ⟨.config kind name, fun all => ?_⟩
    have stands := known all name (mem_of_slot wins)
    rw [unknown] at stands
    cases stands

theorem negotiate_rejects : Rejects (Disagreement client) (negotiate client server) := by
  unfold negotiate
  refine .bind (slot_rejects .kex) fun _ kex => .bind (slot_rejects .hostKey) fun _ hostKey => ?_
  refine .bind (resolve_rejects .kex kex (·.kex)) fun _ _ => ?_
  refine .bind (resolve_rejects .hostKey hostKey (·.hostKey)) fun _ _ => ?_
  refine .bind (slot_rejects .cipherOut) fun _ cipherOut => ?_
  refine .bind (resolve_rejects .cipher cipherOut (·.cipherOut)) fun _ _ => ?_
  refine .bind (slot_rejects .cipherIn) fun _ cipherIn => ?_
  refine .bind (resolve_rejects .cipher cipherIn (·.cipherIn)) fun _ _ => ?_
  refine .bind (slot_rejects .macOut) fun _ macOut => ?_
  refine .bind (resolve_rejects .mac macOut (·.macOut)) fun _ _ => ?_
  refine .bind (slot_rejects .macIn) fun _ macIn => ?_
  refine .bind (resolve_rejects .mac macIn (·.macIn)) fun _ _ => ?_
  refine .bind (slot_rejects .compressionOut) fun _ compressionOut => ?_
  refine .bind (resolve_rejects .compression compressionOut (·.compressionOut)) fun _ _ => ?_
  refine .bind (slot_rejects .compressionIn) fun _ compressionIn => ?_
  refine .bind (resolve_rejects .compression compressionIn (·.compressionIn)) fun _ _ => ?_
  exact .ok _

theorem DhGroup.check_rejects (bounds : GroupBounds) (modulus generator : Nat) :
    Rejects Ordinary (DhGroup.check bounds modulus generator) := by
  unfold DhGroup.check
  dsimp only
  split
  · exact .error (ordinary_crypto nofun)
  · split
    · exact .error (ordinary_crypto nofun)
    · split
      · exact .error (ordinary_crypto nofun)
      · exact .ok _

theorem DhExchange.sharedSecret_rejects (exchange : DhExchange) (peer : Bytes) :
    Rejects Ordinary (exchange.sharedSecret peer) := by
  unfold DhExchange.sharedSecret
  dsimp only
  split
  · exact .error (ordinary_crypto nofun)
  · exact .ok _

/-- A key that is too short is the one reason not to sign, for a key pair of this library. -/
theorem ClientKey.sign_rejects {key : ClientKey}
    (kept : ∀ name publicKey signer, key ≠ .provided name publicKey signer) (data : Bytes) :
    Rejects (· = .crypto .modulusTooShort) (key.sign data) := by
  unfold ClientKey.sign
  cases key with
  | rsa pair =>
    refine .bind ?_ fun _ _ => .ok _
    unfold Rsa.sign
    dsimp only
    split
    · exact .error rfl
    · exact .ok _
  | ed25519 seed => exact .ok _
  | provided name publicKey signer => exact absurd rfl (kept name publicKey signer)

theorem Trust.check_rejects {trust : Trust} (unjudged : ∀ judge, trust ≠ .judged judge)
    (hostKey : HostKey) : Rejects Ordinary (trust.check hostKey) := by
  cases trust with
  | anyKey => exact .ok ()
  | pinned fingerprints =>
    simp only [Trust.check]
    split
    · exact .ok ()
    · exact .error (ordinary_hostKey _)
  | judged judge => exact absurd rfl (unjudged judge)

end Agreement

namespace SessionChannel

/-- A confirmation is expected as long as the channel is being opened. -/
theorem confirm_rejects (channel : SessionChannel) (message : ChannelConfirmation) :
    Rejects (fun error => Ordinary error ∨
      (error = .protocol .unexpectedConfirmation ∧ channel.state ≠ .opening))
      (channel.confirm message) := by
  unfold confirm
  split
  · exact .error (.inr ⟨rfl, ‹_›⟩)
  · split
    · exact .error (.inl (ordinary_protocol nofun))
    · split
      · exact .error (.inl (ordinary_protocol nofun))
      · exact .ok _

theorem checkRecipient_rejects (recipient : UInt32) : Rejects Ordinary (checkRecipient recipient) := by
  unfold checkRecipient
  split
  · exact .ok _
  · exact .error (ordinary_protocol nofun)

end SessionChannel

section Introduction

theorem Identification.parse_rejects (text : String) : Rejects Ordinary (Identification.parse text) := by
  unfold Identification.parse
  dsimp only
  -- one check after the other, and then what the parts are read as
  split
  · exact .error (ordinary_protocol nofun)
  split
  · exact .error (ordinary_protocol nofun)
  split
  · split
    · split
      · exact .error (ordinary_protocol nofun)
      · split <;> exact .ok _
    · exact .error (ordinary_protocol nofun)
  · exact .error (ordinary_protocol nofun)

theorem LineReader.step_raises (byte : UInt8) : Raises Ordinary (LineReader.step byte) := by
  refine .bind .get ?_
  intro reader
  refine .ite ?_ (.ite ?_ ?_)
  · exact .check (ordinary_protocol nofun) (.bind (.set _) fun _ => .pure _)
  · refine .bind (.set _) ?_
    intro _
    split
    · rename_i text _
      have rejects := Identification.parse_rejects text
      split
      · exact .pure _
      · rename_i error failed
        exact .throw (rejects error failed)
    · exact .throw (ordinary_protocol nofun)
  · exact .bind (.set _) fun _ => .check (ordinary_protocol nofun) (.pure _)

theorem LineReader.feed_raises (data : Bytes) : Raises Ordinary (LineReader.feed data) := by
  induction data with
  | nil => exact .pure _
  | cons byte rest ih =>
    refine .bind (step_raises byte) ?_
    intro found
    cases found with
    | some identification => exact .pure _
    | none => exact ih

end Introduction

end SecureShell
