import SecureShell.Proofs.Handshake.Binding
import SecureShell.Proofs.Handshake.Reaction

/-! How a handshake comes to its keys. Before the agreement it asks for nothing but
messages of key agreement; with the server's reply it says that it will use new keys; when
the server has said so too, it puts them to use, those that follow from the agreement, and
never asks for others. -/
namespace SecureShell.Handshake

/-- The keys for one direction that follow from an agreement. -/
def Agreement.keys (a : Agreement) (config : Config) (proposal : Bytes) (direction : Direction) :
    DirectionKeys :=
  let hash := (a.transcript config proposal).hash
  match direction with
  | .clientToServer =>
    .derive a.secret hash hash .clientToServer a.negotiated.cipherOut a.negotiated.macOut
  | .serverToClient =>
    .derive a.secret hash hash .serverToClient a.negotiated.cipherIn a.negotiated.macIn

/-- How far a handshake has come with its keys. -/
inductive Keying where
  /-- Nothing is agreed. -/
  | bare
  /-- The client has said that it will use new keys. -/
  | agreed (a : Agreement)
  /-- The new keys are in use. -/
  | used (a : Agreement)

/-- The messages that lead to an agreement. -/
def openingCodes : List MessageCode := [.kexInit, .dhInit, .gexInit, .gexRequest]

/-- No keys for what the client sends have been asked for. -/
def Unarmed (history : List Record) : Prop := ∀ keys, .armOutbound keys ∉ asked history

/-- What a handshake knows of the keys that it has come to. -/
inductive Keyed (config : Config) (proposal : Bytes) (history : List Record) (h : Handshake) :
    Keying → Prop where
  | bare : h.phase.agreed = false → h.channel.state = .opening → Unarmed history →
      Keyed config proposal history h .bare
  | agreed {a : Agreement} : h.phase = .newKeys → h.channel.state = .opening → Unarmed history →
      a.Shown config proposal history → h.sessionId = some (a.transcript config proposal).hash →
      h.pending = some ⟨a.secret, (a.transcript config proposal).hash⟩ →
      h.negotiated = some a.negotiated → Keyed config proposal history h (.agreed a)
  | used {a : Agreement} : h.phase.secured = true → h.phase ≠ .newKeys →
      a.Shown config proposal history → Keyed config proposal history h (.used a)

/-- What a handshake may ask for on the way to its keys. -/
inductive Moves (config : Config) (proposal : Bytes) : Keying → List Action → Keying → Prop where
  | bare (payloads : List Bytes) :
      (∀ payload ∈ payloads, ∃ code ∈ openingCodes, payload.head? = some code.toByte) →
      Moves config proposal .bare (payloads.map .send) .bare
  | agreed (a : Agreement) :
      Moves config proposal .bare [.send (NewKeys.toBytes {})] (.agreed a)
  | waiting (a : Agreement) : Moves config proposal (.agreed a) [] (.agreed a)
  | switched (a : Agreement) :
      Moves config proposal (.agreed a)
        [.armInbound (a.keys config proposal .serverToClient),
          .armOutbound (a.keys config proposal .clientToServer),
          .send (Service.request Service.userauth)]
        (.used a)
  | used (a : Agreement) {actions : List Action} :
      (∀ keys, .armInbound keys ∉ actions ∧ .armOutbound keys ∉ actions) →
      Moves config proposal (.used a) actions (.used a)

variable {config : Config} {proposal payload : Bytes} {history : List Record} {h after : Handshake}
  {entropy : Entropy} {actions : List Action} {k : Keying}

section Extends

theorem Extends.trans {first second third : List Record} (earlier : Extends first second)
    (later : Extends second third) : Extends first third where
  answers code known := (later.answers code known).trans (earlier.answers code known)
  introductions := later.introductions.trans earlier.introductions

/-- Whatever follows an agreement says nothing of it. -/
theorem extends_run (agreed : h.phase.agreed = true) (calls : List Call) :
    Extends history (history ++ (run calls h).1) := by
  induction calls generalizing h history with
  | nil =>
    rw [run, List.append_nil]
    exact ⟨fun _ _ => rfl, rfl⟩
  | cons action rest ih =>
    obtain ⟨kept, aside⟩ := call_agreed agreed action
    have later : Extends (history ++ [⟨action, (h.call action).1⟩]) _ := ih kept.agreed
    rw [List.append_assoc] at later
    exact aside.extends.trans later

/-- What an agreement has shown stays shown, whatever the handshake is told. -/
theorem Keyed.shown {a : Agreement} (keyed : Keyed config proposal history h k)
    (some : k = .agreed a ∨ k = .used a) (calls : List Call) :
    a.Shown config proposal (history ++ (run calls h).1) := by
  cases keyed with
  | bare => rcases some with impossible | impossible <;> cases impossible
  | agreed phase _ _ shown =>
    rcases some with same | impossible
    · cases same
      exact shown.extends (extends_run (by rw [phase]; rfl) calls)
    · cases impossible
  | used secured _ shown =>
    rcases some with impossible | same
    · cases impossible
    · cases same
      exact shown.extends (extends_run (Phase.agreed_of_secured secured) calls)

/-- A handshake that has not put its keys to use. -/
structure Early (history : List Record) (h : Handshake) : Prop where
  phase : h.phase ≠ .established
  channel : h.channel.state = .opening
  unarmed : Unarmed history

theorem Keyed.early (keyed : Keyed config proposal history h k) (unused : ∀ a, k ≠ .used a) :
    Early history h := by
  cases keyed with
  | bare bare channel unarmed =>
    refine ⟨?_, channel, unarmed⟩
    intro established
    rw [established] at bare
    cases bare
  | agreed phase channel unarmed =>
    refine ⟨?_, channel, unarmed⟩
    rw [phase]
    nofun
  | @used a => exact absurd rfl (unused a)

end Extends

section Moves

theorem Unarmed.concat {call : Call} (unarmed : Unarmed history)
    (calm : ∀ keys, .armOutbound keys ∉ actions) : Unarmed (history ++ [⟨call, .ok actions⟩]) := by
  intro keys asking
  rw [asked, List.flatMap_append, List.mem_append] at asking
  rcases asking with earlier | now
  · exact unarmed keys earlier
  · refine calm keys ?_
    simpa only [List.flatMap_singleton, Record.asked] using now

theorem Unarmed.failed {call : Call} {error : Error} (unarmed : Unarmed history) :
    Unarmed (history ++ [⟨call, .error error⟩]) := by
  intro keys asking
  rw [asked, List.flatMap_append, List.flatMap_singleton, Record.asked, List.append_nil] at asking
  exact unarmed keys asking

theorem Unarmed.abort (unarmed : Unarmed history) : Unarmed (history ++ (run [.abort] h).1) :=
  unarmed.concat nofun

theorem Unarmed.close (unarmed : Unarmed history) :
    Unarmed (history ++ (run [.close, .abort] h).1) := by
  have closed : Unarmed (history ++ [⟨.close, .ok (h.close.1.map .send)⟩]) :=
    unarmed.concat (by simp)
  have aborted : Unarmed (_ ++ [⟨.abort, .ok []⟩]) := closed.concat nofun
  rwa [List.append_assoc] at aborted

theorem Unarmed.refused {error : Error} (unarmed : Unarmed history)
    (refused : onPacket entropy payload h = .error error after) :
    Unarmed (history ++ (run [.packet entropy payload, .abort] h).1) := by
  have failed : Unarmed (history ++ [⟨.packet entropy payload, .error error⟩]) := unarmed.failed
  have aborted : Unarmed (_ ++ [⟨.abort, .ok []⟩]) := failed.concat nofun
  rw [List.append_assoc] at aborted
  simp only [run, call, refused, outcome]
  exact aborted

/-- The agreement that a reply which is accepted concludes. -/
theorem keyed_of_reply (entropy : Entropy) {negotiated : Negotiated} {exchange : DhExchange}
    {server : Identification} {reply : KexReply} {secret : Bytes}
    (invariant : KeyExchangeInvariant config proposal history h)
    (phase : h.phase = .kexReply) (stored : h.negotiated = some negotiated)
    (held : h.exchange = some exchange) (known : h.serverVersion = some server)
    (accepted : Accepts h negotiated exchange server payload reply secret)
    (channel : h.channel.state = .opening) (unarmed : Unarmed history) :
    ∃ a, Keyed config proposal
      (history ++ [⟨.packet entropy payload, .ok [.send (NewKeys.toBytes {})]⟩])
      { h with
        exchange := none
        sessionId := some (h.sessionId.getD (h.transcript server exchange reply secret).hash)
        pending := some ⟨secret, (h.transcript server exchange reply secret).hash⟩
        phase := .newKeys }
      (.agreed a) := by
  cases invariant with
  | exchanging _ fresh known' introduced settled stored' begun unreplied =>
    obtain rfl := Option.some.inj (stored.symm.trans stored')
    obtain rfl := Option.some.inj (known.symm.trans known')
    obtain ⟨a, sameNegotiated, sameSecret, same, shown⟩ :=
      accepted.shown entropy fresh introduced settled (begun exchange held) unreplied
    refine ⟨a, .agreed rfl channel (unarmed.concat (by simp)) shown ?_ ?_ ?_⟩
    · rw [same, fresh.sessionId, Option.getD_none]
    · rw [same, sameSecret]
    · rw [sameNegotiated]
      exact stored
  | waiting other | introduced other | asking other | closed other =>
    rw [phase] at other
    cases other
  | bound secured =>
    rw [phase] at secured
    cases secured

theorem shown_of_accepted {a : Agreement} (agreed : h.phase.agreed = true)
    (shown : a.Shown config proposal history)
    (accepted : onPacket entropy payload h = .ok actions after) :
    a.Shown config proposal (history ++ [⟨.packet entropy payload, .ok actions⟩]) := by
  obtain ⟨-, aside⟩ := call_agreed agreed (.packet entropy payload)
  simp only [call, accepted, outcome] at aside
  exact shown.extends aside.extends

/-- Before the agreement a packet is answered by messages of key agreement, and one of them
concludes it. -/
theorem moves_of_bare (invariant : KeyExchangeInvariant config proposal history h)
    (bare : h.phase.agreed = false) (channel : h.channel.state = .opening)
    (unarmed : Unarmed history) (reaction : Reaction entropy payload h actions after) :
    ∃ k', Moves config proposal .bare actions k' ∧
      Keyed config proposal (history ++ [⟨.packet entropy payload, .ok actions⟩]) after k' := by
  have sends (payload : Bytes) (code : MessageCode) (known : code ∈ openingCodes)
      (head : payload.head? = some code.toByte) :
      Moves config proposal .bare [.send payload] .bare := by
    refine .bare [payload] ?_
    intro other member
    rw [List.mem_singleton.1 member]
    exact ⟨code, known, head⟩
  cases reaction with
  | ignored => exact ⟨.bare, .bare [] nofun, .bare bare channel (unarmed.concat (by simp))⟩
  | dropped => exact ⟨.bare, .bare [] nofun, .bare bare channel (unarmed.concat (by simp))⟩
  | began =>
    refine ⟨.bare, sends _ .dhInit (by decide) rfl, .bare rfl channel (unarmed.concat ?_)⟩
    simp
  | asked =>
    refine ⟨.bare, sends _ .gexRequest (by decide) rfl, .bare rfl channel (unarmed.concat ?_)⟩
    simp
  | chose =>
    refine ⟨.bare, sends _ .gexInit (by decide) rfl, .bare rfl channel (unarmed.concat ?_)⟩
    simp
  | replied phase stored held known agreement =>
    obtain ⟨a, agreed⟩ := keyed_of_reply entropy invariant phase stored held known
      agreement channel unarmed
    exact ⟨.agreed a, .agreed a, agreed⟩
  | armed phase | welcomed _ _ phase | confirmed phase | delivered _ phase | parted phase =>
    rw [phase] at bare
    cases bare
  | requested _ _ phase =>
    rcases phase with phase | ⟨_, phase⟩ <;>
    · rw [phase] at bare
      cases bare
  | refused phase =>
    rcases phase with phase | phase <;>
    · rw [phase] at bare
      cases bare

/-- Once the client has said that it will use new keys, a packet is overlooked, or puts
them to use. -/
theorem moves_of_agreed {a : Agreement} (keyed : Keyed config proposal history h (.agreed a))
    (shown : a.Shown config proposal (history ++ [⟨.packet entropy payload, .ok actions⟩]))
    (reaction : Reaction entropy payload h actions after) :
    ∃ k', Moves config proposal (.agreed a) actions k' ∧
      Keyed config proposal (history ++ [⟨.packet entropy payload, .ok actions⟩]) after k' := by
  cases keyed with
  | agreed phase channel unarmed _ named held stored =>
    cases reaction with
    | ignored =>
      have unarmed' : Unarmed (history ++ [⟨.packet entropy payload, .ok []⟩]) :=
        unarmed.concat (by simp)
      exact ⟨.agreed a, .waiting a, .agreed phase channel unarmed' shown named held stored⟩
    | dropped =>
      have unarmed' : Unarmed (history ++ [⟨.packet entropy payload, .ok []⟩]) :=
        unarmed.concat (by simp)
      exact ⟨.agreed a, .waiting a, .agreed phase channel unarmed' shown named held stored⟩
    | armed _ held' named' stored' =>
      obtain rfl := Option.some.inj (held.symm.trans held')
      obtain rfl := Option.some.inj (named.symm.trans named')
      obtain rfl := Option.some.inj (stored.symm.trans stored')
      exact ⟨.used a, .switched a, .used rfl nofun shown⟩
    | began other | asked other | chose other | replied other | welcomed _ _ other
    | confirmed other | delivered _ other | parted other =>
      rw [phase] at other
      cases other
    | requested _ _ other =>
      rcases other with other | ⟨_, other⟩ <;>
      · rw [phase] at other
        cases other
    | refused other =>
      rcases other with other | other <;>
      · rw [phase] at other
        cases other

/-- Once the keys are in use, no others are asked for. -/
theorem moves_of_used {a : Agreement} (secured : h.phase.secured = true)
    (late : h.phase ≠ .newKeys)
    (shown : a.Shown config proposal (history ++ [⟨.packet entropy payload, .ok actions⟩]))
    (reaction : Reaction entropy payload h actions after) (stays : .closed ∉ actions) :
    ∃ k', Moves config proposal (.used a) actions k' ∧
      Keyed config proposal (history ++ [⟨.packet entropy payload, .ok actions⟩]) after k' := by
  cases reaction with
  | ignored => exact ⟨.used a, .used a (by simp), .used secured late shown⟩
  | dropped => exact ⟨.used a, .used a (by simp), .used secured late shown⟩
  | began other | asked other | chose other | replied other =>
    rw [other] at secured
    cases secured
  | armed other => exact absurd other late
  | requested => exact ⟨.used a, .used a (by simp), .used rfl nofun shown⟩
  | welcomed outbound inbound =>
    refine ⟨.used a, .used a ?_, .used rfl nofun shown⟩
    intro keys
    cases outbound <;> cases inbound <;> simp
  | confirmed => exact ⟨.used a, .used a (by simp), .used rfl nofun shown⟩
  | refused => exact ⟨.used a, .used a (by simp), .used secured late shown⟩
  | delivered => exact ⟨.used a, .used a (by simp), .used secured late shown⟩
  | parted => exact absurd (List.mem_append_right _ (.head _)) stays

/-- A packet that is accepted, and does not end the connection, moves the handshake on. -/
theorem moves_of_accepted (invariant : KeyExchangeInvariant config proposal history h)
    (keyed : Keyed config proposal history h k)
    (accepted : onPacket entropy payload h = .ok actions after) (stays : .closed ∉ actions) :
    ∃ k', Moves config proposal k actions k' ∧
      Keyed config proposal (history ++ [⟨.packet entropy payload, .ok actions⟩]) after k' := by
  have reaction := reaction_of_onPacket accepted
  cases keyed with
  | bare bare channel unarmed => exact moves_of_bare invariant bare channel unarmed reaction
  | agreed phase channel unarmed shown named held stored =>
    have shown' := shown_of_accepted (by rw [phase]; rfl) shown accepted
    exact moves_of_agreed (.agreed phase channel unarmed shown named held stored) shown' reaction
  | used secured late shown =>
    have shown' := shown_of_accepted (Phase.agreed_of_secured secured) shown accepted
    exact moves_of_used secured late shown' reaction stays

end Moves

end SecureShell.Handshake
