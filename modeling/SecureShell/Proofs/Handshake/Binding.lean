import SecureShell.Proofs.Handshake.Completion
import SecureShell.Proofs.Handshake.Secured

/-! What a handshake that has left key agreement knows of the server. A history in
which the server's reply was accepted holds each item of the exchange hash as it was
sent or received, and the server has signed that hash with a key that was negotiated
and is trusted. -/
namespace SecureShell.Handshake

/-- Everything that was agreed on. -/
structure Agreement where
  server : Identification
  serverProposal : Bytes
  negotiated : Negotiated
  group : Option ChosenGroup
  exchange : DhExchange
  reply : KexReply

namespace Agreement

def secret (a : Agreement) : Bytes :=
  .ofNatNonempty (Bytes.toNat a.reply.serverPublic ^ a.exchange.exponent % a.exchange.group.modulus)

def transcript (a : Agreement) (config : Config) (proposal : Bytes) : Transcript where
  clientVersion := (Identification.ofSoftware config.software none).line
  serverVersion := a.server.line
  clientProposal := proposal
  serverProposal := a.serverProposal
  hostKey := a.reply.hostKey
  group := a.group
  clientPublic := a.exchange.publicBytes
  serverPublic := a.reply.serverPublic
  secret := a.secret

end Agreement

/-- An exchange has begun: the client has sent its public value, once, in a group that
is fixed by the method or that it has asked the server for. -/
inductive Begun (config : Config) (history : List Record) (serverProposal : Bytes)
    (negotiated : Negotiated) : Option ChosenGroup → DhExchange → Prop where
  | fixed {exchange : DhExchange} :
      DhGroup.ofMethod? negotiated.kex = some exchange.group →
      answers .dhInit history = [(serverProposal, publicMessage .dhInit exchange)] →
      answers .gexRequest history = [] → answers .gexInit history = [] →
      Begun config history serverProposal negotiated none exchange
  | chosen {exchange : DhExchange} {payload modulus generator : Bytes} :
      DhGroup.ofMethod? negotiated.kex = none →
      answers .gexRequest history = [(serverProposal, groupRequest config.groupBounds)] →
      Reader.parse groupReader payload = .ok (modulus, generator) →
      DhGroup.check config.groupBounds (Bytes.toNat modulus) (Bytes.toNat generator) =
        .ok exchange.group →
      answers .gexInit history = [(payload, publicMessage .gexInit exchange)] →
      answers .dhInit history = [] →
      Begun config history serverProposal negotiated
        (some ⟨config.groupBounds, modulus, generator⟩) exchange

/-- A history shows an agreement: every item was said, once, and the one reply that was
accepted is authentic. -/
structure Agreement.Shown (a : Agreement) (config : Config) (proposal : Bytes)
    (history : List Record) : Prop where
  introduced : introductions history = [(a.server, proposal)]
  settled : Settles proposal a.serverProposal a.negotiated
  begun : Begun config history a.serverProposal a.negotiated a.group a.exchange
  replied : ∃ payload, answers .newKeys history = [(payload, NewKeys.toBytes {})] ∧
    KexReply.parse payload = .ok a.reply
  authentic : ∃ hostKey, HostKey.parse a.reply.hostKey = .ok hostKey ∧
    hostKey.algorithm = a.negotiated.hostKey ∧
    hostKey.verify (a.transcript config proposal).hash a.reply.signature = .ok () ∧
    config.trust.check hostKey = .ok ()

section Histories

variable {history : List Record} {record : Record}

theorem answers_concat (code : MessageCode) :
    answers code (history ++ [record]) = answers code history ++ record.answers code := by
  simp only [answers, List.flatMap_append, List.flatMap_singleton]

theorem introductions_concat :
    introductions (history ++ [record]) = introductions history ++ record.introduction := by
  simp only [introductions, List.flatMap_append, List.flatMap_singleton]

/-- Records aside leave what was said as it was. -/
structure Extends (history longer : List Record) : Prop where
  answers : ∀ code ∈ [MessageCode.newKeys, .dhInit, .gexInit, .gexRequest],
    answers code longer = answers code history
  introductions : introductions longer = introductions history

theorem Record.Aside.extends (aside : record.Aside) : Extends history (history ++ [record]) where
  answers code known := by rw [answers_concat, aside.answers code known, List.append_nil]
  introductions := by rw [introductions_concat, aside.introduction, List.append_nil]

end Histories

/-- What is settled when a handshake is created. -/
structure Fresh (config : Config) (proposal : Bytes) (h : Handshake) : Prop where
  configured : h.config = config
  clientVersion : h.clientVersion = .ofSoftware config.software none
  clientProposal : h.clientProposal = proposal
  sessionId : h.sessionId = none

/-- The invariant of key exchange, phase by phase: what the handshake holds of versions,
proposals, group and session id is what the history of its calls has sent and received. -/
inductive KeyExchangeInvariant (config : Config) (proposal : Bytes) (history : List Record)
    (h : Handshake) : Prop where
  | waiting (phase : h.phase = .headerExchange) (fresh : Fresh config proposal h)
      (ungrouped : h.group = none) (unknown : introductions history = [])
      (silent : ∀ code ∈ [MessageCode.newKeys, .dhInit, .gexInit, .gexRequest],
        answers code history = [])
  | introduced {server : Identification} (phase : h.phase = .kexInit)
      (fresh : Fresh config proposal h) (ungrouped : h.group = none)
      (known : h.serverVersion = some server)
      (introduced : introductions history = [(server, proposal)])
      (silent : ∀ code ∈ [MessageCode.newKeys, .dhInit, .gexInit, .gexRequest],
        answers code history = [])
  | asking {server : Identification} {negotiated : Negotiated}
      (phase : h.phase = .groupNegotiation) (fresh : Fresh config proposal h)
      (ungrouped : h.group = none) (known : h.serverVersion = some server)
      (introduced : introductions history = [(server, proposal)])
      (settled : Settles proposal h.serverProposal negotiated)
      (stored : h.negotiated = some negotiated)
      (method : DhGroup.ofMethod? negotiated.kex = none)
      (asked : answers .gexRequest history = [(h.serverProposal, groupRequest config.groupBounds)])
      (silent : ∀ code ∈ [MessageCode.newKeys, .dhInit, .gexInit], answers code history = [])
  | exchanging {server : Identification} {negotiated : Negotiated} (phase : h.phase = .kexReply)
      (fresh : Fresh config proposal h) (known : h.serverVersion = some server)
      (introduced : introductions history = [(server, proposal)])
      (settled : Settles proposal h.serverProposal negotiated)
      (stored : h.negotiated = some negotiated)
      (begun : ∀ exchange, h.exchange = some exchange →
        Begun config history h.serverProposal negotiated h.group exchange)
      (unreplied : answers .newKeys history = [])
  | bound {a : Agreement} (secured : h.phase.secured = true) (shown : a.Shown config proposal history)
      (named : h.sessionId = some (a.transcript config proposal).hash)
      (stored : h.negotiated = some a.negotiated)
  | closed (phase : h.phase = .closed)

/-- Nothing of key agreement has changed, but an exchange in progress may be lost. -/
structure Apart (h after : Handshake) : Prop where
  config : after.config = h.config
  phase : after.phase = h.phase
  clientVersion : after.clientVersion = h.clientVersion
  serverVersion : after.serverVersion = h.serverVersion
  clientProposal : after.clientProposal = h.clientProposal
  serverProposal : after.serverProposal = h.serverProposal
  negotiated : after.negotiated = h.negotiated
  group : after.group = h.group
  sessionId : after.sessionId = h.sessionId
  exchange : ∀ exchange, after.exchange = some exchange → h.exchange = some exchange

theorem apart_self (h : Handshake) : Apart h h :=
  ⟨rfl, rfl, rfl, rfl, rfl, rfl, rfl, rfl, rfl, fun _ same => same⟩

section Aside

variable {config : Config} {proposal serverProposal : Bytes} {history longer : List Record}
  {negotiated : Negotiated} {group : Option ChosenGroup} {exchange : DhExchange} {h after : Handshake}

theorem Fresh.apart (fresh : Fresh config proposal h) (apart : Apart h after) :
    Fresh config proposal after where
  configured := apart.config.trans fresh.configured
  clientVersion := apart.clientVersion.trans fresh.clientVersion
  clientProposal := apart.clientProposal.trans fresh.clientProposal
  sessionId := apart.sessionId.trans fresh.sessionId

theorem Begun.extends (begun : Begun config history serverProposal negotiated group exchange)
    (same : ∀ code ∈ [MessageCode.dhInit, .gexInit, .gexRequest],
      answers code longer = answers code history) :
    Begun config longer serverProposal negotiated group exchange := by
  cases begun with
  | fixed method sent unasked ungiven =>
    refine .fixed method ?_ ?_ ?_
    · rw [same _ (by decide), sent]
    · rw [same _ (by decide), unasked]
    · rw [same _ (by decide), ungiven]
  | chosen method asked given checked sent unsent =>
    refine .chosen method ?_ given checked ?_ ?_
    · rw [same _ (by decide), asked]
    · rw [same _ (by decide), sent]
    · rw [same _ (by decide), unsent]

theorem Agreement.Shown.extends {a : Agreement} (shown : a.Shown config proposal history)
    (more : Extends history longer) : a.Shown config proposal longer where
  introduced := more.introductions.trans shown.introduced
  settled := shown.settled
  begun := shown.begun.extends fun code listed => more.answers code (.tail _ listed)
  replied := by
    obtain ⟨payload, replied, parsed⟩ := shown.replied
    exact ⟨payload, (more.answers _ (by decide)).trans replied, parsed⟩
  authentic := shown.authentic

/-- A call that says nothing of key agreement and leaves it alone changes nothing. -/
theorem KeyExchangeInvariant.aside (invariant : KeyExchangeInvariant config proposal history h)
    (more : Extends history longer) (apart : Apart h after) :
    KeyExchangeInvariant config proposal longer after := by
  have same := more.answers
  cases invariant with
  | waiting phase fresh ungrouped unknown silent =>
    refine .waiting (apart.phase.trans phase) (fresh.apart apart) (apart.group.trans ungrouped)
      (more.introductions.trans unknown) ?_
    intro code known
    rw [same code known, silent code known]
  | introduced phase fresh ungrouped server introduced silent =>
    refine .introduced (apart.phase.trans phase) (fresh.apart apart) (apart.group.trans ungrouped)
      (apart.serverVersion.trans server) (more.introductions.trans introduced) ?_
    intro code known
    rw [same code known, silent code known]
  | asking phase fresh ungrouped server introduced settled negotiated method asked silent =>
    rw [← apart.serverProposal] at settled asked
    refine .asking (apart.phase.trans phase) (fresh.apart apart) (apart.group.trans ungrouped)
      (apart.serverVersion.trans server) (more.introductions.trans introduced) settled
      (apart.negotiated.trans negotiated) method ((same _ (by decide)).trans asked) ?_
    intro code known
    have listed : ∀ code ∈ [MessageCode.newKeys, .dhInit, .gexInit],
        code ∈ [MessageCode.newKeys, .dhInit, .gexInit, .gexRequest] := by decide
    rw [same code (listed code known), silent code known]
  | exchanging phase fresh server introduced settled negotiated begun unreplied =>
    rw [← apart.serverProposal] at settled
    refine .exchanging (apart.phase.trans phase) (fresh.apart apart)
      (apart.serverVersion.trans server) (more.introductions.trans introduced) settled
      (apart.negotiated.trans negotiated) ?_ ((same _ (by decide)).trans unreplied)
    intro exchange held
    rw [apart.serverProposal, apart.group]
    exact (begun exchange (apart.exchange exchange held)).extends fun code listed =>
      same code (.tail _ listed)
  | bound secured shown named stored =>
    rw [← apart.phase] at secured
    exact .bound secured (shown.extends more) (apart.sessionId.trans named)
      (apart.negotiated.trans stored)
  | closed phase => exact .closed (apart.phase.trans phase)

end Aside

section Steps

variable {config : Config} {proposal : Bytes} {history : List Record} {h : Handshake}
  {entropy : Entropy} {payload : Bytes}

/-- A result that keeps the invariant, with its record at the end of the history. -/
abbrev KeepsExchange (config : Config) (proposal : Bytes) (history : List Record) (action : Call) :
    EStateM.Result Error Handshake (List Action) → Prop :=
  Leaves
    (fun actions after =>
      KeyExchangeInvariant config proposal (history ++ [⟨action, .ok actions⟩]) after)
    (fun after => ∀ error,
      KeyExchangeInvariant config proposal (history ++ [⟨action, .error error⟩]) after)

theorem KeepsExchange.outcome {action : Call} {result : EStateM.Result Error Handshake (List Action)}
    (keeps : KeepsExchange config proposal history action result) :
    KeyExchangeInvariant config proposal (history ++ [⟨action, (outcome result).1⟩])
      (Handshake.outcome result).2 := by
  cases result with
  | ok actions after => exact keeps
  | error error after => exact keeps error

theorem KeyExchangeInvariant.failed {action : Call} {error : Error} {after : Handshake}
    (invariant : KeyExchangeInvariant config proposal history h) (apart : Apart h after) :
    KeyExchangeInvariant config proposal (history ++ [⟨action, .error error⟩]) after :=
  invariant.aside (aside_of_error action error).extends apart

theorem KeyExchangeInvariant.dropped {after : Handshake}
    (invariant : KeyExchangeInvariant config proposal history h)
    (apart : Apart h after) :
    KeyExchangeInvariant config proposal (history ++ [⟨.packet entropy payload, .ok []⟩]) after :=
  invariant.aside (aside_of_quiet quiet_nil).extends apart

theorem KeyExchangeInvariant.onVersion (invariant : KeyExchangeInvariant config proposal history h)
    (version : Identification) :
    KeepsExchange config proposal history (.version version) (Handshake.onVersion version h) := by
  refine (onVersion_leaves version).imp ?_ ?_
  · rintro actions after ⟨waiting, rfl, rfl⟩
    cases invariant with
    | waiting phase fresh ungrouped unknown silent =>
      refine .introduced rfl ⟨fresh.1, fresh.2, fresh.3, fresh.4⟩ ungrouped rfl ?_ ?_
      · rw [introductions_concat, unknown, fresh.clientProposal]
        rfl
      · intro code known
        rw [answers_concat, silent code known]
        rfl
    | introduced phase | asking phase | exchanging phase | closed phase =>
      rw [waiting] at phase
      cases phase
    | bound secured =>
      rw [waiting] at secured
      cases secured
  · rintro after rfl error
    exact invariant.failed (apart_self _)

theorem onProposal_keepsExchange {server : Identification} (fresh : Fresh config proposal h)
    (ungrouped : h.group = none) (known : h.serverVersion = some server)
    (introduced : introductions history = [(server, proposal)])
    (silent : ∀ code ∈ [MessageCode.newKeys, .dhInit, .gexInit, .gexRequest],
      answers code history = [])
    (invariant : KeyExchangeInvariant config proposal history h) :
    KeepsExchange config proposal history (.packet entropy payload) (onProposal entropy payload h) := by
  refine (onProposal_leaves entropy payload).imp ?_ ?_
  · rintro actions after ⟨negotiated, settled, begun⟩
    rw [fresh.clientProposal] at settled
    rcases begun with ⟨group, method, rfl, rfl⟩ | ⟨method, rfl, rfl⟩
    · refine .exchanging rfl ⟨fresh.1, fresh.2, fresh.3, fresh.4⟩ known ?_ settled rfl ?_ ?_
      · rw [introductions_concat, introduced]
        rfl
      · rintro exchange ⟨⟩
        rw [ungrouped]
        refine .fixed method ?_ ?_ ?_
        · rw [answers_concat, silent _ (by decide)]
          rfl
        · rw [answers_concat, silent _ (by decide)]
          rfl
        · rw [answers_concat, silent _ (by decide)]
          rfl
      · rw [answers_concat, silent _ (by decide)]
        rfl
    · refine .asking rfl ⟨fresh.1, fresh.2, fresh.3, fresh.4⟩ ungrouped known ?_ settled rfl method
        ?_ ?_
      · rw [introductions_concat, introduced]
        rfl
      · rw [answers_concat, silent _ (by decide), fresh.configured]
        rfl
      · intro code listed
        simp only [List.mem_cons, List.not_mem_nil, or_false] at listed
        rcases listed with rfl | rfl | rfl <;>
        · rw [answers_concat, silent _ (by decide)]
          rfl
  · rintro after rfl error
    exact invariant.failed (apart_self _)

theorem onGroup_keepsExchange {server : Identification} {negotiated : Negotiated}
    (phase : h.phase = .groupNegotiation) (fresh : Fresh config proposal h)
    (known : h.serverVersion = some server)
    (introduced : introductions history = [(server, proposal)])
    (settled : Settles proposal h.serverProposal negotiated)
    (stored : h.negotiated = some negotiated) (method : DhGroup.ofMethod? negotiated.kex = none)
    (asked : answers .gexRequest history = [(h.serverProposal, groupRequest config.groupBounds)])
    (silent : ∀ code ∈ [MessageCode.newKeys, .dhInit, .gexInit], answers code history = [])
    (invariant : KeyExchangeInvariant config proposal history h) :
    KeepsExchange config proposal history (.packet entropy payload) (onGroup entropy payload h) := by
  refine (onGroup_leaves entropy payload).imp ?_ ?_
  · rintro actions after ⟨modulus, generator, group, given, checked, rfl, rfl⟩
    rw [fresh.configured] at checked
    refine .exchanging rfl ⟨fresh.1, fresh.2, fresh.3, fresh.4⟩ known ?_ settled stored ?_ ?_
    · rw [introductions_concat, introduced]
      rfl
    · rintro exchange ⟨⟩
      rw [fresh.configured]
      refine .chosen method ?_ given checked ?_ ?_
      · rw [answers_concat, asked]
        rfl
      · rw [answers_concat, silent _ (by decide)]
        rfl
      · rw [answers_concat, silent _ (by decide)]
        rfl
    · rw [answers_concat, silent _ (by decide)]
      rfl
  · rintro after rfl error
    exact invariant.failed (apart_self _)

/-- A reply that is accepted concludes the agreement: with its record, the history shows
what was agreed on. -/
theorem Accepts.shown (entropy : Entropy) {server : Identification} {negotiated : Negotiated}
    {exchange : DhExchange} {reply : KexReply} {secret : Bytes} (fresh : Fresh config proposal h)
    (introduced : introductions history = [(server, proposal)])
    (settled : Settles proposal h.serverProposal negotiated)
    (begun : Begun config history h.serverProposal negotiated h.group exchange)
    (unreplied : answers .newKeys history = [])
    (accepted : Accepts h negotiated exchange server payload reply secret) :
    ∃ a : Agreement, a.negotiated = negotiated ∧ a.secret = secret ∧
      h.transcript server exchange reply secret = a.transcript config proposal ∧
      a.Shown config proposal
        (history ++ [⟨.packet entropy payload, .ok [.send (NewKeys.toBytes {})]⟩]) := by
  have agreed := DhExchange.sharedSecret_ok accepted.agreed
  let a : Agreement := ⟨server, h.serverProposal, negotiated, h.group, exchange, reply⟩
  have same : h.transcript server exchange reply secret = a.transcript config proposal := by
    simp only [Handshake.transcript, Agreement.transcript, Agreement.secret, fresh.clientVersion,
      fresh.clientProposal, agreed, a]
  have authentic := accepted.authentic
  rw [same, fresh.configured] at authentic
  refine ⟨a, rfl, agreed.symm, same, ?_, settled, ?_, ?_, authentic⟩
  · rw [introductions_concat, introduced]
    rfl
  · apply begun.extends
    intro code listed
    simp only [List.mem_cons, List.not_mem_nil, or_false] at listed
    rcases listed with rfl | rfl | rfl <;> exact (answers_concat _).trans (List.append_nil _)
  · exact ⟨payload, by rw [answers_concat, unreplied]; rfl, accepted.parsed⟩

theorem onReply_keepsExchange {server : Identification} {negotiated : Negotiated}
    (fresh : Fresh config proposal h) (known : h.serverVersion = some server)
    (introduced : introductions history = [(server, proposal)])
    (settled : Settles proposal h.serverProposal negotiated)
    (stored : h.negotiated = some negotiated)
    (begun : ∀ exchange, h.exchange = some exchange →
      Begun config history h.serverProposal negotiated h.group exchange)
    (unreplied : answers .newKeys history = [])
    (invariant : KeyExchangeInvariant config proposal history h) :
    KeepsExchange config proposal history (.packet entropy payload) (onReply payload h) := by
  refine (onReply_leaves payload).imp ?_ ?_
  · rintro actions after ⟨found, exchange, version, reply, secret, hFound, held, hVersion,
      accepted, rfl, rfl⟩
    obtain rfl : found = negotiated := Option.some.inj (hFound.symm.trans stored)
    obtain rfl : version = server := Option.some.inj (hVersion.symm.trans known)
    obtain ⟨a, negotiated, -, same, shown⟩ :=
      accepted.shown entropy fresh introduced settled (begun exchange held) unreplied
    refine .bound rfl shown ?_ ?_
    · rw [same, fresh.sessionId, Option.getD_none]
    · rw [negotiated]
      exact stored
  · rintro after (rfl | rfl) error
    · exact invariant.failed (apart_self _)
    · exact invariant.failed
        ⟨rfl, rfl, rfl, rfl, rfl, rfl, rfl, rfl, rfl, fun _ lost => nomatch lost⟩

/-- What was proved by the server stays proved. -/
theorem bound_kept {a : Agreement} {longer : List Record} {after : Handshake}
    (shown : a.Shown config proposal history)
    (named : h.sessionId = some (a.transcript config proposal).hash)
    (stored : h.negotiated = some a.negotiated) (more : Extends history longer)
    (kept : Keeps h after) : KeyExchangeInvariant config proposal longer after := by
  rcases Bool.eq_false_or_eq_true after.phase.secured with secured | closed
  · exact .bound secured (shown.extends more) (kept.sessionId.trans named)
      (kept.negotiated.trans stored)
  · have ended := kept.agreed
    rw [Phase.agreed, closed, Bool.false_or] at ended
    exact .closed (eq_of_beq ended)

theorem onPhase_keepsExchange (invariant : KeyExchangeInvariant config proposal history h) :
    KeepsExchange config proposal history (.packet entropy payload) (onPhase entropy payload h) := by
  refine .get ?_
  cases invariant' : invariant with
  | waiting phase =>
    simp only [phase]
    exact fun error => invariant.failed (apart_self h)
  | introduced phase fresh ungrouped known introduced silent =>
    simp only [phase]
    exact onProposal_keepsExchange fresh ungrouped known introduced silent invariant
  | asking phase fresh ungrouped known introduced settled stored method asked silent =>
    simp only [phase]
    rcases unlessGuess_cases (h := h) (onGroup entropy payload) with dropped | treated
    · rw [dropped]
      exact invariant.dropped ⟨rfl, rfl, rfl, rfl, rfl, rfl, rfl, rfl, rfl, fun _ same => same⟩
    · rw [treated]
      exact onGroup_keepsExchange phase fresh known introduced settled stored method asked silent invariant
  | exchanging phase fresh known introduced settled stored begun unreplied =>
    simp only [phase]
    rcases unlessGuess_cases (h := h) (onReply payload) with dropped | treated
    · rw [dropped]
      exact invariant.dropped ⟨rfl, rfl, rfl, rfl, rfl, rfl, rfl, rfl, rfl, fun _ same => same⟩
    · rw [treated]
      exact onReply_keepsExchange fresh known introduced settled stored begun unreplied invariant
  | bound secured shown named stored =>
    have spared := onPhase_spares entropy payload h (Phase.agreed_of_secured secured)
    apply spared.imp
    · intro actions after kept
      exact bound_kept shown named stored (aside_of_quiet kept.2).extends kept.1
    · intro after kept error
      exact bound_kept shown named stored (aside_of_error _ error).extends kept
  | closed phase =>
    simp only [phase]
    exact fun error => invariant.failed (apart_self h)

theorem KeyExchangeInvariant.onPacket (invariant : KeyExchangeInvariant config proposal history h) :
    KeepsExchange config proposal history (.packet entropy payload)
      (Handshake.onPacket entropy payload h) := by
  rcases onPacket_cases entropy payload with dropped | ⟨error, refused⟩ | ⟨error, ended⟩ | treated
  · rw [dropped]
    exact invariant.dropped (apart_self h)
  · rw [refused]
    exact fun error => invariant.failed (apart_self h)
  · rw [ended]
    exact fun error => .closed rfl
  · rw [treated]
    exact onPhase_keepsExchange invariant

/-- What a call preserves. -/
theorem KeyExchangeInvariant.call (invariant : KeyExchangeInvariant config proposal history h)
    (action : Call) :
    KeyExchangeInvariant config proposal (history ++ [⟨action, (h.call action).1⟩])
      (h.call action).2 := by
  cases action with
  | version version => exact (invariant.onVersion version).outcome
  | packet entropy payload => exact invariant.onPacket.outcome
  | write data =>
    exact invariant.aside (Record.Aside.mk (fun _ _ => rfl) rfl).extends (apart_self h)
  | close =>
    have ended : h.close.2.phase = .closed := by
      unfold Handshake.close
      split
      · assumption
      · rfl
    exact .closed ended
  | abort => exact .closed rfl

theorem KeyExchangeInvariant.run (invariant : KeyExchangeInvariant config proposal history h)
    (calls : List Call) :
    KeyExchangeInvariant config proposal (history ++ (run calls h).1)
      (Handshake.run calls h).2 := by
  induction calls generalizing history h with
  | nil => rwa [Handshake.run, List.append_nil]
  | cons action rest ih =>
    have later := ih (invariant.call action)
    rwa [List.append_assoc] at later

end Steps

theorem create_keyExchangeInvariant (entropy : Entropy) (config : Config) :
    KeyExchangeInvariant config (create entropy config).clientProposal [] (create entropy config) :=
  .waiting rfl ⟨rfl, rfl, rfl, rfl⟩ rfl rfl fun _ _ => rfl

/-- A handshake that has left key agreement has accepted one reply. What was said up to
it is what was hashed, the server has signed the hash with an authentic key, and the hash
names the session for good. -/
theorem authentic_of_secured (entropy : Entropy) (config : Config) (calls : List Call)
    (secured : (run calls (create entropy config)).2.phase.secured = true) :
    ∃ a : Agreement,
      a.Shown config (create entropy config).clientProposal (run calls (create entropy config)).1 ∧
      (run calls (create entropy config)).2.sessionId =
        some (a.transcript config (create entropy config).clientProposal).hash ∧
      ∀ later, (run later (run calls (create entropy config)).2).2.sessionId =
        (run calls (create entropy config)).2.sessionId := by
  have invariant := (create_keyExchangeInvariant entropy config).run calls
  rw [List.nil_append] at invariant
  cases invariant with
  | bound _ shown named =>
    exact ⟨_, shown, named, fun later =>
      (run_agreed (Phase.agreed_of_secured secured) later).sessionId⟩
  | waiting phase | introduced phase | asking phase | exchanging phase | closed phase =>
    rw [phase] at secured
    cases secured

/-- A small client that an honest server has brought through key agreement. -/
theorem authentic_of_secured_small :
    ∃ a : Agreement,
      a.Shown smallClient (create zeros smallClient).clientProposal
        (run smallCalls (create zeros smallClient)).1 ∧
      (run smallCalls (create zeros smallClient)).2.sessionId =
        some (a.transcript smallClient (create zeros smallClient).clientProposal).hash ∧
      ∀ later, (run later (run smallCalls (create zeros smallClient)).2).2.sessionId =
        (run smallCalls (create zeros smallClient)).2.sessionId := by
  have completed := honest_passes small_checked trivial small_fits small_parsed rfl small_agreed
    small_honest filter_smallCalls
  apply authentic_of_secured
  rw [completed.established]
  rfl

end SecureShell.Handshake
