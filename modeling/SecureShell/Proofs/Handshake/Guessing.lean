import SecureShell.Proofs.Handshake.Failing
import SecureShell.Proofs.Preference

/-! Which packet is dropped as a guess. The server may announce with its proposal that the
next packet of key agreement is a guess. Whether that packet is dropped is read off the
history: it is the first one behind the accepted proposal that can be a guess at all, the
guess was announced and is not the outcome. The flag that a handshake keeps says just that,
as long as the handshake is not closed. -/
namespace SecureShell.Handshake

open Negotiation (GuessRight)

variable {entropy : Entropy} {proposal payload : Bytes} {h after : Handshake}

/-- Can a payload be a guess? The messages that are treated alike in every phase cannot. -/
def guessable : Bytes → Bool
  | [] => false
  | code :: _ =>
    !([MessageCode.disconnect, .ignore, .unimplemented, .debug].map (·.toByte)).contains code

def Call.guessable : Call → Bool
  | .packet _ payload => Handshake.guessable payload
  | _ => false

/-- The server's proposal, if it was accepted: something was asked for in answer to it. -/
def Record.proposal? : Record → Option Bytes
  | ⟨.packet _ payload, .ok (_ :: _)⟩ =>
    if payload.head? = some MessageCode.kexInit.toByte then some payload else none
  | _ => none

/-- Two proposals as they were sent agree, and the server has announced a guess that is
wrong. -/
def Misleads (sent received : Bytes) : Prop :=
  ∃ client server negotiated, Proposal.parse sent = .ok client ∧
    Proposal.parse received = .ok server ∧ negotiate client server = .ok negotiated ∧
    server.guessFollows = true ∧ ¬ GuessRight server negotiated

/-- A wrong guess is still to come: nothing that can be one has come behind the proposal
that announced it. -/
def Awaits (proposal : Bytes) (history : List Record) : Prop :=
  ∃ before record later received, history = before ++ record :: later ∧
    record.proposal? = some received ∧ Misleads proposal received ∧
    ∀ other ∈ later, other.call.guessable = false

/-- What a phase makes of a packet that is not dropped. -/
def heed (entropy : Entropy) (payload : Bytes) : Transition := do
  match (← get).phase with
  | .groupNegotiation => onGroup entropy payload
  | .kexReply => onReply payload
  | _ => onPhase entropy payload

section Histories

variable {history : List Record} {record : Record} {received : Bytes}

theorem guessable_of_proposal (accepted : record.proposal? = some received) :
    record.call.guessable = true := by
  unfold Record.proposal? at accepted
  split at accepted
  · split at accepted
    · rename_i payload _ _ head
      cases payload with
      | nil => cases head
      | cons code rest =>
        obtain rfl : code = MessageCode.kexInit.toByte := Option.some.inj head
        rfl
    · cases accepted
  · cases accepted

theorem proposal_of_parse {action : Action} {actions : List Action} {server : Proposal}
    (parsed : Proposal.parse payload = .ok server) :
    Record.proposal? ⟨.packet entropy payload, .ok (action :: actions)⟩ = some payload := by
  have head := head_of_proposal parsed
  cases payload with
  | nil => cases head
  | cons code rest => exact if_pos (congrArg some head)

/-- Only a proposal announces a guess, and only what can be one ends the wait for it. -/
theorem awaits_concat : Awaits proposal (history ++ [record]) ↔
    (∃ received, record.proposal? = some received ∧ Misleads proposal received) ∨
      (Awaits proposal history ∧ record.call.guessable = false) := by
  constructor
  · rintro ⟨before, announcing, later, received, split, accepted, misleads, quiet⟩
    rcases List.eq_nil_or_concat later with rfl | ⟨front, last, rfl⟩
    · obtain ⟨-, same⟩ := List.append_inj' split rfl
      obtain rfl : record = announcing := List.head_eq_of_cons_eq same
      exact .inl ⟨received, accepted, misleads⟩
    · rw [List.concat_eq_append] at quiet
      rw [List.concat_eq_append, ← List.cons_append, ← List.append_assoc] at split
      obtain ⟨earlier, same⟩ := List.append_inj' split rfl
      obtain rfl : record = last := List.head_eq_of_cons_eq same
      refine .inr ⟨⟨before, announcing, front, received, earlier, accepted, misleads, ?_⟩,
        quiet record (List.mem_append_right _ (.head _))⟩
      exact fun other member => quiet other (List.mem_append_left _ member)
  · rintro (⟨received, accepted, misleads⟩ |
      ⟨⟨before, announcing, later, received, rfl, accepted, misleads, quiet⟩, aside⟩)
    · refine ⟨history, record, [], received, rfl, accepted, misleads, ?_⟩
      intro other impossible
      cases impossible
    · refine ⟨before, announcing, later ++ [record], received, by simp, accepted, misleads, ?_⟩
      intro other member
      rcases List.mem_append.1 member with member | member
      · exact quiet other member
      · rw [List.mem_singleton.1 member, aside]

theorem awaits_aside (aside : record.call.guessable = false) :
    Awaits proposal (history ++ [record]) ↔ Awaits proposal history := by
  rw [awaits_concat]
  constructor
  · rintro (⟨received, accepted, -⟩ | ⟨awaits, -⟩)
    · rw [guessable_of_proposal accepted] at aside
      cases aside
    · exact awaits
  · exact fun awaits => .inr ⟨awaits, aside⟩

theorem not_awaits (packet : record.call.guessable = true) (other : record.proposal? = none) :
    ¬ Awaits proposal (history ++ [record]) := by
  rw [awaits_concat, other, packet]
  rintro (⟨received, accepted, -⟩ | ⟨-, aside⟩)
  · cases accepted
  · cases aside

theorem misleads_iff {client server : Proposal} {negotiated : Negotiated}
    (sent : Proposal.parse proposal = .ok client) (parsed : Proposal.parse received = .ok server)
    (agreed : negotiate client server = .ok negotiated) :
    Misleads proposal received ↔ negotiated.discardGuess = true := by
  rw [Negotiation.discardGuess_iff agreed]
  constructor
  · rintro ⟨other, others, outcome, sent', parsed', agreed', wrong⟩
    rw [sent] at sent'
    cases sent'
    rw [parsed] at parsed'
    cases parsed'
    rw [agreed] at agreed'
    cases agreed'
    exact wrong
  · exact fun wrong => ⟨client, server, negotiated, sent, parsed, agreed, wrong⟩

end Histories

section Packets

/-- What cannot be a guess changes nothing, except that the server may take its leave. -/
theorem onPacket_unguessable (aside : guessable payload = false) :
    Leaves (fun _ after => after = h)
      (fun after => after = h ∨ after = { h with phase := .closed })
      (onPacket entropy payload h) := by
  cases payload with
  | nil => exact .inl rfl
  | cons code rest =>
    simp only [guessable, List.map_cons, List.map_nil, List.contains_cons, List.contains_nil,
      Bool.or_false, Bool.not_eq_false', Bool.or_eq_true, beq_iff_eq] at aside
    rcases aside with rfl | rfl | rfl | rfl
    · exact .bind (leaves_lift (fun _ _ => .modify (.inr rfl)) (.inl rfl))
    · exact rfl
    · exact .bind (leaves_lift (fun _ _ => .inl rfl) (.inl rfl))
    · exact rfl

/-- What can be a guess belongs to the phase. -/
theorem onPacket_guessable (packet : guessable payload = true) :
    onPacket entropy payload = onPhase entropy payload := by
  cases payload with
  | nil => cases packet
  | cons code rest =>
    unfold onPacket
    dsimp only
    split
    · rename_i known
      rw [MessageCode.toByte_of_ofByte? known] at packet
      cases packet
    · rename_i known
      rw [MessageCode.toByte_of_ofByte? known] at packet
      cases packet
    · rename_i known
      rw [MessageCode.toByte_of_ofByte? known] at packet
      cases packet
    · rename_i known
      rw [MessageCode.toByte_of_ofByte? known] at packet
      cases packet
    · rfl

theorem onPhase_group (phase : h.phase = .groupNegotiation) :
    onPhase entropy payload h = unlessGuess (onGroup entropy payload) h := by
  simp only [onPhase, bind_apply, get_apply, phase]

theorem onPhase_reply (phase : h.phase = .kexReply) :
    onPhase entropy payload h = unlessGuess (onReply payload) h := by
  simp only [onPhase, bind_apply, get_apply, phase]

theorem onPhase_dropped (waiting : h.phase = .groupNegotiation ∨ h.phase = .kexReply)
    (guess : h.discardGuess = true) :
    onPhase entropy payload h = .ok [] { h with discardGuess := false } := by
  rcases waiting with phase | phase
  · rw [onPhase_group phase, unlessGuess_guess _ guess]
  · rw [onPhase_reply phase, unlessGuess_guess _ guess]

/-- A packet is heeded when no guess is awaited. -/
theorem onPhase_heeded (guess : h.discardGuess = false) :
    onPhase entropy payload h = heed entropy payload h := by
  cases phase : h.phase with
  | groupNegotiation =>
    rw [onPhase_group phase, unlessGuess_treat _ guess]
    simp only [heed, bind_apply, get_apply, phase]
  | kexReply =>
    rw [onPhase_reply phase, unlessGuess_treat _ guess]
    simp only [heed, bind_apply, get_apply, phase]
  | headerExchange | kexInit | newKeys | serviceAccept | auth | channelOpen | established
  | closed => simp only [heed, bind_apply, get_apply, phase]

end Packets

section Runs

variable {history : List Record}

/-- A proposal is accepted when it is expected, and at no other time. -/
theorem unproposed {actions : List Action} (phase : h.phase ≠ .kexInit)
    (accepted : onPhase entropy payload h = .ok actions after) :
    Record.proposal? ⟨.packet entropy payload, .ok actions⟩ = none := by
  cases actions with
  | nil => rfl
  | cons action actions =>
    refine if_neg fun head => ?_
    obtain ⟨code, awaited, same⟩ := awaited_of_answered accepted
    rw [List.headD_eq_head?_getD, head, Option.getD_some] at same
    obtain rfl := MessageCode.toByte_injective same
    cases known : h.phase <;> simp_all [Phase.awaits, MessageCode.gexGroup]

theorem Reaction.unannounced {actions : List Action} (phase : h.phase ≠ .kexInit)
    (reaction : Reaction entropy payload h actions after) (down : h.discardGuess = false) :
    after.discardGuess = false := by
  cases reaction with
  | began expected | asked expected => exact absurd expected phase
  | dropped => rfl
  | ignored | chose | replied | armed | requested | welcomed | confirmed | refused | delivered
  | parted => exact down

theorem Reaction.proposed {actions : List Action}
    (reaction : Reaction entropy payload h actions after) :
    after.clientProposal = h.clientProposal := by
  cases reaction <;> rfl

/-- The invariant of guesses: the flag of a handshake is set exactly while the packet of a
guess that is wrong is still to come, and then a group or a reply is awaited. -/
structure Watches (proposal : Bytes) (history : List Record) (h : Handshake) : Prop where
  own : h.clientProposal = proposal
  newKeys : NewKeysInvariant h
  flag : h.phase ≠ .closed → (h.discardGuess = true ↔ Awaits proposal history)
  waiting : h.phase ≠ .closed → h.discardGuess = true →
    h.phase = .groupNegotiation ∨ h.phase = .kexReply

theorem watches_create (entropy : Entropy) (config : Config) :
    Watches (create entropy config).clientProposal [] (create entropy config) where
  own := rfl
  newKeys := create_newKeysInvariant entropy config
  flag _ := by
    constructor
    · intro raised
      cases raised
    · rintro ⟨before, announcing, later, received, impossible, -⟩
      simp at impossible
  waiting _ raised := by cases raised

variable {record : Record}

theorem watches_closed (own : after.clientProposal = proposal) (phase : after.phase = .closed) :
    Watches proposal history after where
  own := own
  newKeys := newKeysInvariant_elsewhere .closed phase (by decide)
  flag opened := absurd phase opened
  waiting opened := absurd phase opened

theorem Watches.aside (watches : Watches proposal history h)
    (aside : record.call.guessable = false) : Watches proposal (history ++ [record]) h where
  own := watches.own
  newKeys := watches.newKeys
  flag opened := (watches.flag opened).trans (awaits_aside aside).symm
  waiting := watches.waiting

/-- With the flag down nothing is to come after a packet that announces nothing. -/
theorem watches_down (own : after.clientProposal = proposal) (invariant : NewKeysInvariant after)
    (down : after.discardGuess = false) (unawaited : ¬ Awaits proposal history) :
    Watches proposal history after where
  own := own
  newKeys := invariant
  flag _ := by
    rw [down]
    constructor
    · intro raised
      cases raised
    · exact fun awaits => absurd awaits unawaited
  waiting _ raised := by
    rw [down] at raised
    cases raised

/-- The server's proposal raises the flag, or leaves it down. -/
theorem Watches.onProposal (watches : Watches proposal history h) :
    Leaves (fun actions after =>
        Watches proposal (history ++ [⟨.packet entropy payload, .ok actions⟩]) after)
      (fun after => after = h) (onProposal entropy payload h) := by
  apply (onProposal_leaves entropy payload).imp
  · rintro actions after ⟨negotiated, ⟨client, server, sent, parsed, agreed⟩, begins⟩
    rw [watches.own] at sent
    have begun : (∃ action, actions = [action]) ∧ after.clientProposal = h.clientProposal ∧
        after.discardGuess = negotiated.discardGuess ∧
        (after.phase = .groupNegotiation ∨ after.phase = .kexReply) := by
      rcases begins with ⟨group, -, rfl, rfl⟩ | ⟨-, rfl, rfl⟩
      · exact ⟨⟨_, rfl⟩, rfl, rfl, .inr rfl⟩
      · exact ⟨⟨_, rfl⟩, rfl, rfl, .inl rfl⟩
    obtain ⟨⟨action, rfl⟩, own, flag, waiting⟩ := begun
    have accepted : Record.proposal? ⟨.packet entropy payload, .ok [action]⟩ = some payload :=
      proposal_of_parse parsed
    refine ⟨own.trans watches.own, ?_, fun _ => ?_, fun _ _ => waiting⟩
    · rcases waiting with phase | phase <;> exact newKeysInvariant_elsewhere _ phase (by decide)
    · rw [flag, ← misleads_iff sent parsed agreed, awaits_concat, accepted,
        guessable_of_proposal accepted]
      constructor
      · exact fun misleads => .inl ⟨payload, rfl, misleads⟩
      · rintro (⟨received, same, misleads⟩ | ⟨-, impossible⟩)
        · cases same
          exact misleads
        · cases impossible
  · exact fun _ same => same

/-- A failure announces nothing, and forgets no announcement but with the packet itself. -/
theorem Watches.failed {error : Error} (watches : Watches proposal history h)
    (down : h.discardGuess = false) (packet : guessable payload = true)
    (failed : onPhase entropy payload h = .error error after) :
    Watches proposal (history ++ [⟨.packet entropy payload, .error error⟩]) after := by
  have unawaited : ¬ Awaits proposal (history ++ [⟨.packet entropy payload, .error error⟩]) :=
    not_awaits packet rfl
  have spoils : Spoils h (onPhase entropy payload) := onPhase_spoils watches.newKeys
  rw [Spoils, failed] at spoils
  have invariant : NewKeysInvariant after := Unharmed.newKeysInvariant spoils watches.newKeys
  cases spoils with
  | same => exact watches_down watches.own invariant down unawaited
  | used => exact watches_down watches.own invariant down unawaited

/-- What a packet preserves that can be a guess. -/
theorem Watches.packet (watches : Watches proposal history h) (packet : guessable payload = true) :
    Watches proposal (history ++ [⟨.packet entropy payload, (outcome (onPhase entropy payload h)).1⟩])
      (outcome (onPhase entropy payload h)).2 := by
  by_cases phase : h.phase = .closed
  · have refused : onPhase entropy payload h = .error .closed h := by
      simp only [onPhase, bind_apply, get_apply, phase]
      rfl
    rw [refused]
    exact watches_closed watches.own phase
  cases flag : h.discardGuess with
  | true =>
    rw [onPhase_dropped (watches.waiting phase flag) flag]
    exact watches_down watches.own watches.newKeys rfl (not_awaits packet rfl)
  | false =>
    cases done : onPhase entropy payload h with
    | error error after => exact watches.failed flag packet done
    | ok actions after =>
      by_cases expecting : h.phase = .kexInit
      · have begins : onPhase entropy payload h = Handshake.onProposal entropy payload h := by
          simp only [onPhase, bind_apply, get_apply, expecting]
        have leaves : Leaves (fun actions after =>
            Watches proposal (history ++ [⟨.packet entropy payload, .ok actions⟩]) after)
          (fun after => after = h) (Handshake.onProposal entropy payload h) := watches.onProposal
        rw [← begins, done] at leaves
        exact leaves
      · have reacts : Reacts entropy payload h (onPhase entropy payload) := onPhase_reacts
        rw [Reacts, done] at reacts
        have reaction : Reaction entropy payload h actions after := reacts
        exact watches_down (reaction.proposed.trans watches.own)
          (reaction.newKeysInvariant watches.newKeys)
          (reaction.unannounced expecting flag) (not_awaits packet (unproposed expecting done))

/-- What a call preserves. -/
theorem Watches.call (watches : Watches proposal history h) (action : Call) :
    Watches proposal (history ++ [⟨action, (h.call action).1⟩]) (h.call action).2 := by
  cases action with
  | version version =>
    have leaves := onVersion_leaves version (h := h)
    simp only [Handshake.call]
    cases done : onVersion version h with
    | error error after =>
      rw [done] at leaves
      obtain rfl : after = h := leaves
      exact watches.aside rfl
    | ok actions after =>
      rw [done] at leaves
      obtain ⟨phase, -, rfl⟩ := leaves
      have opened : h.phase ≠ .closed := by simp [phase]
      have down : ¬ h.discardGuess = true := by
        intro raised
        have waiting := watches.waiting opened raised
        rw [phase] at waiting
        rcases waiting with impossible | impossible <;> cases impossible
      refine ⟨watches.own, newKeysInvariant_elsewhere .kexInit rfl (by decide), fun _ => ?_,
        fun _ raised => absurd raised down⟩
      exact (watches.flag opened).trans (awaits_aside rfl).symm
  | packet entropy payload =>
    cases kind : guessable payload with
    | true =>
      simp only [Handshake.call, onPacket_guessable kind]
      exact watches.packet kind
    | false =>
      have leaves : Leaves (fun _ after => after = h)
          (fun after => after = h ∨ after = { h with phase := .closed })
          (onPacket entropy payload h) := onPacket_unguessable kind
      simp only [Handshake.call]
      cases done : onPacket entropy payload h with
      | ok actions after =>
        rw [done] at leaves
        obtain rfl : after = h := leaves
        exact watches.aside kind
      | error error after =>
        rw [done] at leaves
        rcases leaves with rfl | rfl
        · exact watches.aside kind
        · exact watches_closed watches.own rfl
  | write data => exact watches.aside rfl
  | close =>
    obtain ⟨closed, -, own⟩ := close_closes h
    exact watches_closed (own.trans watches.own) closed
  | abort => exact watches_closed watches.own rfl

theorem Watches.run (watches : Watches proposal history h) (calls : List Call) :
    Watches proposal (history ++ (Handshake.run calls h).1) (Handshake.run calls h).2 := by
  induction calls generalizing history h with
  | nil => rwa [Handshake.run, List.append_nil]
  | cons action rest ih =>
    have later := ih (watches.call action)
    rwa [List.append_assoc] at later

/-- A guess that was announced is dropped if it is not the outcome, and nothing else is.
The outcome is guessed right where the server lists it first, so at least where both sides
list the same names first. After any calls, a packet that can be a guess is dropped just if
one is awaited; every other packet is treated as if there were no guesses, and once the
handshake is closed all are refused. -/
theorem run_guesses :
    (∀ client server negotiated, negotiate client server = .ok negotiated →
      (negotiated.discardGuess = true ↔
        server.guessFollows = true ∧ ¬ GuessRight server negotiated) ∧
      (client.kex.head? = server.kex.head? → client.hostKey.head? = server.hostKey.head? →
        GuessRight server negotiated)) ∧
    ∀ entropy config calls history h, run calls (create entropy config) = (history, h) →
      ∀ fresh payload, guessable payload = true →
      (h.phase = .closed → onPacket fresh payload h = .error .closed h) ∧
      (h.phase ≠ .closed → Awaits (create entropy config).clientProposal history →
        onPacket fresh payload h = .ok [] { h with discardGuess := false }) ∧
      (¬ Awaits (create entropy config).clientProposal history →
        onPacket fresh payload h = heed fresh payload h) := by
  constructor
  · intro client server negotiated agreed
    exact ⟨Negotiation.discardGuess_iff agreed, Negotiation.guessRight_of_alike agreed⟩
  · intro entropy config calls history h ran fresh payload packet
    have watches := (watches_create entropy config).run calls
    rw [List.nil_append, ran] at watches
    rw [onPacket_guessable packet]
    refine ⟨?_, ?_, ?_⟩
    · intro phase
      simp only [onPhase, bind_apply, get_apply, phase]
      rfl
    · intro opened awaits
      have flag := (watches.flag opened).2 awaits
      exact onPhase_dropped (watches.waiting opened flag) flag
    · intro unawaited
      by_cases phase : h.phase = .closed
      · simp only [heed, bind_apply, get_apply, phase]
      · have flag : h.discardGuess = false :=
          Bool.eq_false_iff.2 fun raised => unawaited ((watches.flag phase).1 raised)
        exact onPhase_heeded flag

theorem lavish_fits : Negotiation.lavishClient.preferences.Fits := by decide +kernel

/-- A server that guesses its own favourite, which is the last that the client wants. -/
def hasty : Proposal :=
  { Negotiation.lavish with
    kex := ["diffie-hellman-group1-sha1", "diffie-hellman-group14-sha1"], guessFollows := true }

def hastyCalls : List Call :=
  [.version (.ofSoftware "server" none), .packet zeros hasty.toBytes]

theorem hasty_parsed : Proposal.parse hasty.toBytes = .ok hasty := by
  have listable : ∀ names ∈ hasty.lists, ∀ name ∈ names, Wire.Listable name := by decide +kernel
  have fits : ∀ names ∈ hasty.lists,
      (Bytes.ofText (String.intercalate "," names)).length < 2 ^ 32 := by decide +kernel
  apply Proposal.parse_toBytes
  exact fun names listed => ⟨listable names listed, fits names listed⟩

def hastyAgreement : Negotiated where
  kex := .group14
  hostKey := .rsa
  cipherOut := .aes128Ctr
  cipherIn := .aes128Ctr
  macOut := .md5
  macIn := .md5
  compressionOut := .zlibDelayed
  compressionIn := .zlibDelayed
  languageOut := none
  languageIn := none
  discardGuess := true

theorem hasty_agreed : negotiate Negotiation.lavish hasty = .ok hastyAgreement := by
  rfl

/-- The packet behind a hasty proposal is dropped, and the next one is heeded. -/
theorem run_guesses_hasty : ∃ history h,
    run hastyCalls (create zeros Negotiation.lavishClient) = (history, h) ∧ h.phase = .kexReply ∧
      onPacket zeros [30] h = .ok [] { h with discardGuess := false } := by
  have sent : Proposal.parse Negotiation.lavish.toBytes = .ok Negotiation.lavish :=
    parse_ofPreferences (Config.check_ok Negotiation.lavish_checked) lavish_fits
  have misleads : Misleads Negotiation.lavish.toBytes hasty.toBytes :=
    (misleads_iff sent hasty_parsed hasty_agreed).2 rfl
  have met : ∃ h, (create zeros Negotiation.lavishClient).call
        (.version (.ofSoftware "server" none)) = (.ok [.send Negotiation.lavish.toBytes], h) ∧
      h.phase = .kexInit ∧ h.clientProposal = Negotiation.lavish.toBytes :=
    ⟨_, version_passes rfl _, rfl, rfl⟩
  obtain ⟨introduced, met, expecting, own⟩ := met
  have proposed : ∃ h action, introduced.call (.packet zeros hasty.toBytes) = (.ok [action], h) ∧
      h.phase = .kexReply :=
    ⟨_, _, fixed_passes expecting (own ▸ sent) hasty_parsed hasty_agreed rfl, rfl⟩
  obtain ⟨h, action, proposed, waiting⟩ := proposed
  have ran : run hastyCalls (create zeros Negotiation.lavishClient) =
      ([⟨.version (.ofSoftware "server" none), .ok [.send Negotiation.lavish.toBytes]⟩,
        ⟨.packet zeros hasty.toBytes, .ok [action]⟩], h) := by
    rw [hastyCalls, run_cons met, run_cons proposed]
    rfl
  refine ⟨_, h, ran, waiting, ?_⟩
  have guesses := run_guesses.2 _ _ _ _ _ ran zeros [30] rfl
  apply guesses.2.1
  · simp [waiting]
  · refine ⟨[_], _, [], hasty.toBytes, rfl, proposal_of_parse hasty_parsed, misleads, ?_⟩
    intro other impossible
    cases impossible

end Runs

end SecureShell.Handshake
