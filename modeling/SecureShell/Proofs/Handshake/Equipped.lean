import SecureShell.Proofs.Handshake.Accepting
import SecureShell.Proofs.Handshake.Cues
import SecureShell.Proofs.Handshake.Objections

/-! A handshake has what it needs. What a phase builds on was put there by the packet that
led to it, and is kept until it has been used; so nothing is ever missing, and what is left
to object to is ordinary. -/
namespace SecureShell

/-- An error that a client has to reckon with: it has not lost track of itself, and does
what it proposes as long as its proposal can be read back. -/
structure Config.Admits (config : Config) (error : Error) : Prop where
  outward : ¬ error.Internal
  implemented : config.preferences.Fits → ¬ error.Unimplemented

theorem Error.Ordinary.admits {error : Error} (ordinary : error.Ordinary) (config : Config) :
    config.Admits error := ⟨ordinary.outward, fun _ => ordinary.implemented⟩

theorem Error.Tampered.admits {error : Error} (tampered : error.Tampered) (config : Config) :
    config.Admits error := by
  obtain ⟨fault, rfl⟩ := tampered
  exact ⟨nofun, nofun⟩

theorem Error.Departed.admits {error : Error} (departed : error.Departed) (config : Config) :
    config.Admits error := by
  cases departed
  exact ⟨nofun, fun _ => nofun⟩

def Phase.settled : Phase → Bool
  | .headerExchange | .kexInit => false
  | .groupNegotiation | .kexReply | .newKeys | .serviceAccept | .auth _ | .channelOpen
  | .established | .closed => true

def Phase.exchanged : Phase → Bool
  | .headerExchange | .kexInit | .groupNegotiation | .kexReply => false
  | .newKeys | .serviceAccept | .auth _ | .channelOpen | .established | .closed => true

theorem Phase.settled_of_exchanged {phase : Phase} (exchanged : phase.exchanged = true) :
    phase.settled = true ∧ phase ≠ .headerExchange := by
  cases phase with
  | headerExchange | kexInit | groupNegotiation | kexReply => cases exchanged
  | newKeys | serviceAccept | auth | channelOpen | established | closed => exact ⟨rfl, nofun⟩

namespace Handshake

/-- What the phase of a handshake builds on is there. -/
structure Equipped (h : Handshake) : Prop where
  server : h.phase ≠ .headerExchange → h.serverVersion ≠ none
  negotiated : h.phase.settled = true → h.negotiated ≠ none
  exchange : h.phase = .kexReply → h.exchange ≠ none
  pending : h.phase = .newKeys → h.pending ≠ none
  sessionId : h.phase.exchanged = true → h.sessionId ≠ none
  query : h.phase = .auth .publicKeyQuery → ∀ word, h.config.credential ≠ .password word

variable {config : Config} {entropy : Entropy} {payload : Bytes} {h after : Handshake}
  {actions : List Action}

theorem create_equipped (entropy : Entropy) (config : Config) :
    (create entropy config).Equipped := ⟨nofun, nofun, nofun, nofun, nofun, nofun⟩

theorem onVersion_equipped (version : Identification) :
    Equipped { h with serverVersion := some version, phase := .kexInit } :=
  ⟨nofun, nofun, nofun, nofun, nofun, nofun⟩

/-- Behind the exchange of keys, what it has settled stays. -/
theorem Equipped.onwards (equipped : h.Equipped) (exchanged : h.phase.exchanged = true)
    (kept : (after.serverVersion, after.negotiated, after.sessionId) =
      (h.serverVersion, h.negotiated, h.sessionId))
    (later : after.phase ≠ .kexReply ∧ after.phase ≠ .newKeys)
    (query : after.phase = .auth .publicKeyQuery → ∀ word, after.config.credential ≠ .password word) :
    after.Equipped := by
  obtain ⟨server, negotiated, sessionId⟩ : after.serverVersion = h.serverVersion ∧
      after.negotiated = h.negotiated ∧ after.sessionId = h.sessionId := by
    simpa only [Prod.mk.injEq] using kept
  have settled := Phase.settled_of_exchanged exchanged
  exact
    { server := fun _ => server ▸ equipped.server settled.2
      negotiated := fun _ => negotiated ▸ equipped.negotiated settled.1
      exchange := fun phase => absurd phase later.1
      pending := fun phase => absurd phase later.2
      sessionId := fun _ => sessionId ▸ equipped.sessionId exchanged
      query }

theorem Asks.query {method : AuthMethod} (asks : Asks payload h .publicKeyQuery method)
    (word : String) : h.config.credential ≠ .password word := by
  intro own
  generalize asked : AuthStage.publicKeyQuery = stage at asks
  cases asks with
  | methods | signature => cases asked
  | credential =>
    rw [own] at asked
    cases asked

/-- A packet that is accepted leaves what the next phase builds on. -/
theorem Reaction.equipped (equipped : h.Equipped)
    (reaction : Reaction entropy payload h actions after) : after.Equipped := by
  cases reaction with
  | ignored => exact equipped
  | dropped =>
    exact ⟨equipped.server, equipped.negotiated, equipped.exchange, equipped.pending,
      equipped.sessionId, equipped.query⟩
  | began phase =>
    have known := equipped.server (by rw [phase]; exact nofun)
    exact ⟨fun _ => known, fun _ => nofun, fun _ => nofun, nofun, nofun, nofun⟩
  | asked phase =>
    have known := equipped.server (by rw [phase]; exact nofun)
    exact ⟨fun _ => known, fun _ => nofun, nofun, nofun, nofun, nofun⟩
  | chose phase =>
    have known := equipped.server (by rw [phase]; exact nofun)
    have settled := equipped.negotiated (by rw [phase]; rfl)
    exact ⟨fun _ => known, fun _ => settled, fun _ => nofun, nofun, nofun, nofun⟩
  | replied phase =>
    have known := equipped.server (by rw [phase]; exact nofun)
    have settled := equipped.negotiated (by rw [phase]; rfl)
    exact ⟨fun _ => known, fun _ => settled, nofun, fun _ => nofun, fun _ => nofun, nofun⟩
  | armed phase => exact equipped.onwards (by rw [phase]; rfl) rfl ⟨nofun, nofun⟩ nofun
  | requested stage method phase asks =>
    have exchanged : h.phase.exchanged = true := by
      rcases phase with phase | ⟨_, phase⟩ <;> rw [phase] <;> rfl
    refine equipped.onwards exchanged rfl ⟨nofun, nofun⟩ fun asking => ?_
    cases asking
    exact asks.query
  | welcomed _ _ phase => exact equipped.onwards (by rw [phase]; rfl) rfl ⟨nofun, nofun⟩ nofun
  | confirmed phase => exact equipped.onwards (by rw [phase]; rfl) rfl ⟨nofun, nofun⟩ nofun
  | refused => exact equipped
  | delivered _ phase =>
    refine equipped.onwards (by rw [phase]; rfl) rfl ?_ ?_
    all_goals rw [phase]
    · exact ⟨nofun, nofun⟩
    · exact nofun
  | parted phase => exact equipped.onwards (by rw [phase]; rfl) rfl ⟨nofun, nofun⟩ nofun

/-- Nothing that is needed is missing. -/
theorem Equipped.complete {fault : ProtocolFault} (equipped : h.Equipped)
    (invariant : ConnectionInvariant config h) : ¬ Lacks h fault := by
  intro lacks
  cases lacks with
  | negotiated phase missing =>
    refine equipped.negotiated ?_ missing
    rcases phase with phase | phase | ⟨stage, phase⟩ <;> rw [phase] <;> rfl
  | exchange phase missing => exact equipped.exchange phase missing
  | server phase missing => exact equipped.server (by rw [phase]; exact nofun) missing
  | pending phase missing => exact equipped.pending phase missing
  | sessionId phase missing =>
    refine equipped.sessionId ?_ missing
    rcases phase with phase | phase <;> rw [phase] <;> rfl
  | query phase own => exact equipped.query phase _ own
  | opening phase opened =>
    rw [invariant.unopened (by rw [phase]; exact nofun)] at opened
    exact opened rfl

/-- A handshake that has what it needs, a key that can sign and its own judgement of host
keys objects to nothing but what it is sent. -/
theorem Objection.admits {error : Error} (supported : Config.Supported config.preferences)
    (usable : Usable config.credential) (unjudged : ∀ judge, config.trust ≠ .judged judge)
    (invariant : ConnectionInvariant config h) (equipped : h.Equipped)
    (objection : Objection h error) :
    config.Admits error := by
  cases objection with
  | ordinary ordinary => exact ordinary.admits config
  | judged refused =>
    rw [invariant.configured] at refused
    exact (Trust.check_rejects unjudged _ error refused).admits config
  | unsigned own failed =>
    rw [invariant.configured] at own
    rw [own] at usable
    obtain ⟨signature, signed⟩ := sign_ok usable _
    rw [signed] at failed
    cases failed
  | unsettled parsed unimplemented unknown =>
    refine ⟨?_, fun fits => ?_⟩
    · cases unimplemented
      exact nofun
    · obtain ⟨own, proposes⟩ := invariant.proposes
      rw [proposes, parse_ofPreferences supported fits] at parsed
      cases parsed
      exact absurd (supported.known own) unknown
  | lacking lacks => exact absurd lacks (equipped.complete invariant)

end Handshake

end SecureShell
