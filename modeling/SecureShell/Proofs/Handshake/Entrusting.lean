import SecureShell.Proofs.Handshake.Reaction
import SecureShell.Proofs.Overlooking

/-! What a client is entrusted with: who it is and what it wants. Key agreement does not
look at it, and neither does anything that a caller does. Until the keys are in use a
handshake therefore does the same whatever it has been entrusted with, down to the texts
of its errors. -/
namespace SecureShell

/-- The part of a configuration that the server may learn, and nobody else. -/
structure Secrets where
  username : String
  credential : Credential
  command : Option String
  pty : Option Pty
  windowSize : UInt32
  maxPacketSize : UInt32

namespace Config

def secrets (config : Config) : Secrets where
  username := config.username
  credential := config.credential
  command := config.command
  pty := config.pty
  windowSize := config.windowSize
  maxPacketSize := config.maxPacketSize

/-- The configuration with other secrets. -/
def entrust (secrets : Secrets) (config : Config) : Config :=
  { config with
    username := secrets.username
    credential := secrets.credential
    command := secrets.command
    pty := secrets.pty
    windowSize := secrets.windowSize
    maxPacketSize := secrets.maxPacketSize }

/-- Two configurations differ in nothing but their secrets. -/
structure Alike (config config' : Config) : Prop where
  software : config'.software = config.software
  preferences : config'.preferences = config.preferences
  groupBounds : config'.groupBounds = config.groupBounds
  inflateBuffer : config'.inflateBuffer = config.inflateBuffer
  maxPacketLength : config'.maxPacketLength = config.maxPacketLength
  trust : config'.trust = config.trust

theorem Alike.symm {config config' : Config} (alike : Alike config config') :
    Alike config' config where
  software := alike.software.symm
  preferences := alike.preferences.symm
  groupBounds := alike.groupBounds.symm
  inflateBuffer := alike.inflateBuffer.symm
  maxPacketLength := alike.maxPacketLength.symm
  trust := alike.trust.symm

theorem Alike.eq {config config' : Config} (alike : Alike config config') :
    config' = config.entrust config'.secrets := by
  obtain ⟨software, preferences, groupBounds, inflateBuffer, maxPacketLength, trust⟩ := alike
  cases config
  cases config'
  subst software preferences groupBounds inflateBuffer maxPacketLength trust
  rfl

end Config

/-- What is sent in these phases may depend on the secrets. -/
def Phase.confidential : Phase → Bool
  | .serviceAccept | .auth _ | .channelOpen | .established => true
  | .headerExchange | .kexInit | .groupNegotiation | .kexReply | .newKeys | .closed => false

def SessionChannel.entrust (secrets : Secrets) (channel : SessionChannel) : SessionChannel :=
  { channel with
    localWindow := secrets.windowSize
    localMaxPacket := secrets.maxPacketSize }

theorem SessionChannel.close_entrust {secrets : Secrets} (channel : SessionChannel) :
    (channel.entrust secrets).close = (channel.close.1, channel.close.2.entrust secrets) := by
  have same : ((channel.entrust secrets).closeSent = true ∨
      (channel.entrust secrets).state = .opening) ↔
      (channel.closeSent = true ∨ channel.state = .opening) := Iff.rfl
  by_cases silent : channel.closeSent = true ∨ channel.state = .opening
  · rw [close, close, if_pos (same.2 silent), if_pos silent]
  · rw [close, close, if_neg (mt same.1 silent), if_neg silent]
    rfl

namespace Handshake

def entrust (secrets : Secrets) (h : Handshake) : Handshake :=
  { h with
    config := h.config.entrust secrets
    channel := h.channel.entrust secrets }

variable {secrets : Secrets} {α : Type}

section Mirroring

variable {code : MessageCode} {payload : Bytes}

theorem overlooks_lift {result : Except Error α} : Overlooks (entrust secrets) (lift result) := by
  cases result with
  | ok value => exact .pure value
  | error error => exact .throw error

theorem overlooks_require {value : Option α} {fault : ProtocolFault} :
    Overlooks (entrust secrets) (require value fault) := overlooks_lift

theorem overlooks_refuse (code : UInt8) :
    Overlooks (entrust secrets) (refuse code : EStateM Error Handshake α) := fun _ => rfl

theorem overlooks_expect : Overlooks (entrust secrets) (expect code payload) :=
  .ite (overlooks_refuse _) (.pure PUnit.unit)

theorem overlooks_onVersion (version : Identification) :
    Overlooks (entrust secrets) (onVersion version) := by
  apply Overlooks.get
  intro h
  apply Mirrors.ite (.throw _)
  exact .set rfl (.pure _)

theorem overlooks_onProposal (entropy : Entropy) :
    Overlooks (entrust secrets) (onProposal entropy payload) := by
  apply Overlooks.bind overlooks_expect
  intro _
  apply Overlooks.get
  intro h
  apply overlooks_lift.before
  intro client _
  apply overlooks_lift.before
  intro server _
  apply overlooks_lift.before
  intro negotiated _
  cases DhGroup.ofMethod? negotiated.kex with
  | some group => exact .set rfl (.pure _)
  | none => exact .set rfl (.pure _)

theorem overlooks_onGroup (entropy : Entropy) :
    Overlooks (entrust secrets) (onGroup entropy payload) := by
  apply Overlooks.bind overlooks_expect
  intro _
  apply Overlooks.get
  intro h
  apply overlooks_lift.before
  intro found _
  apply overlooks_lift.before
  intro group _
  exact .set rfl (.pure _)

theorem overlooks_onReply : Overlooks (entrust secrets) (onReply payload) := by
  apply Overlooks.get
  intro h
  apply overlooks_expect.before
  intro _ _
  apply overlooks_lift.before
  intro reply _
  apply Mirrors.get
  apply overlooks_require.before
  intro negotiated _
  apply overlooks_lift.before
  intro hostKey _
  apply Mirrors.ite (.throw _)
  apply Mirrors.get
  apply overlooks_require.before
  intro exchange _
  -- the exchange is used up here, also where what follows fails
  refine Overlooks.before (.modify fun _ => rfl) ?_
  intro _ _
  apply overlooks_lift.before
  intro secret _
  apply Mirrors.get
  apply overlooks_require.before
  intro server _
  apply overlooks_lift.before
  intro _ _
  apply overlooks_lift.before
  intro _ _
  exact .set rfl (.pure _)

theorem overlooks_onNewKeys : Overlooks (entrust secrets) (onNewKeys payload) := by
  apply Overlooks.bind overlooks_expect
  intro _
  apply Overlooks.bind overlooks_lift
  intro message
  apply Overlooks.get
  intro h
  apply overlooks_require.before
  intro pending _
  refine Overlooks.before (.modify fun _ => rfl) ?_
  intro _ _
  apply Mirrors.get
  apply overlooks_require.before
  intro sessionId _
  apply Mirrors.get
  apply overlooks_require.before
  intro negotiated _
  exact Overlooks.before (.modify fun _ => rfl) fun _ _ => .pure _

theorem overlooks_unlessGuess {transition : Transition}
    (overlooks : Overlooks (entrust secrets) transition) :
    Overlooks (entrust secrets) (unlessGuess transition) :=
  .get fun h => .ite (.set rfl (.pure _)) (overlooks.mirrors h)

variable {h : Handshake}

/-- Until the keys are in use the phases do not look at the secrets. -/
theorem onPhase_mirrors (entropy : Entropy) (plain : h.phase.confidential = false) :
    Mirrors (entrust secrets) h (onPhase entropy payload) (onPhase entropy payload) := by
  have same : (h.entrust secrets).phase = h.phase := rfl
  refine .get ?_
  rw [same]
  cases phase : h.phase with
  | headerExchange => exact overlooks_refuse _ h
  | kexInit => exact overlooks_onProposal entropy h
  | groupNegotiation => exact overlooks_unlessGuess (overlooks_onGroup entropy) h
  | kexReply => exact overlooks_unlessGuess overlooks_onReply h
  | newKeys => exact overlooks_onNewKeys h
  | closed => exact .throw _
  | serviceAccept | auth | channelOpen | established =>
    rw [phase] at plain
    cases plain

/-- Until the keys are in use a packet is treated alike whatever the secrets are. -/
theorem onPacket_mirrors (entropy : Entropy) (plain : h.phase.confidential = false) :
    Mirrors (entrust secrets) h (onPacket entropy payload) (onPacket entropy payload) := by
  rcases onPacket_cases entropy payload with run | ⟨error, run⟩ | ⟨error, run⟩ | run
  · rw [run]
    exact .pure _
  · rw [run]
    exact .throw _
  · rw [run]
    exact Overlooks.before (.modify fun _ => rfl) fun _ _ => .throw _
  · rw [run]
    exact onPhase_mirrors entropy plain

theorem write_plain (data : Bytes) (plain : h.phase.confidential = false) :
    ∃ error, h.write data = .error error := by
  unfold write
  split
  · rename_i phase
    rw [phase] at plain
    cases plain
  · exact ⟨_, rfl⟩
  · exact ⟨_, rfl⟩

theorem close_entrust (h : Handshake) :
    (h.entrust secrets).close = (h.close.1, h.close.2.entrust secrets) := by
  have channel : (h.entrust secrets).channel.close = _ := h.channel.close_entrust
  have phase : (h.entrust secrets).phase = h.phase := rfl
  by_cases ended : h.phase = .closed
  · rw [Handshake.close, phase, if_pos ended, Handshake.close, if_pos ended]
  · rw [Handshake.close, phase, if_neg ended, channel, Handshake.close, if_neg ended]
    rfl

end Mirroring

section Reactions

variable {h after : Handshake} {entropy : Entropy} {payload : Bytes} {actions : List Action}

/-- Until the keys are in use a packet makes a handshake send, and nothing else; they come
to use all at once. -/
theorem Reaction.plain (reaction : Reaction entropy payload h actions after)
    (plain : h.phase.confidential = false) :
    (after.phase.confidential = false ∧ ∃ payloads : List Bytes, actions = payloads.map .send) ∨
      (h.phase = .newKeys ∧ after.phase = .serviceAccept ∧ ∃ inbound outbound,
        actions = [.armInbound inbound, .armOutbound outbound,
          .send (Service.request Service.userauth)]) := by
  cases reaction with
  | ignored | dropped => exact .inl ⟨plain, [], rfl⟩
  | began | asked | chose | replied => exact .inl ⟨rfl, [_], rfl⟩
  | armed phase => exact .inr ⟨phase, rfl, _, _, rfl⟩
  | requested _ _ phase =>
    rcases phase with phase | ⟨stage, phase⟩ <;>
    · rw [phase] at plain
      cases plain
  | refused phase =>
    rcases phase with phase | phase <;>
    · rw [phase] at plain
      cases plain
  | welcomed _ _ phase | confirmed phase | delivered _ phase | parted phase =>
    rw [phase] at plain
    cases plain

/-- Outbound keys are asked for in answer to the server's announcement of them. -/
theorem Reaction.switches {keys : DirectionKeys}
    (reaction : Reaction entropy payload h actions after) (asks : .armOutbound keys ∈ actions) :
    h.phase = .newKeys ∧ after.phase = .serviceAccept ∧ ∃ inbound,
      actions = [.armInbound inbound, .armOutbound keys,
        .send (Service.request Service.userauth)] := by
  cases reaction with
  | armed phase =>
    simp only [List.mem_cons, Action.armOutbound.injEq, reduceCtorEq, List.not_mem_nil, or_false,
      false_or] at asks
    subst asks
    exact ⟨phase, rfl, _, rfl⟩
  | ignored | dropped | began | asked | chose | replied | requested | welcomed | confirmed
  | refused | delivered | parted =>
    simp at asks

/-- From then on nothing changes the keys while the session lasts. -/
theorem Reaction.confidential (reaction : Reaction entropy payload h actions after)
    (secret : h.phase.confidential = true) (stays : .closed ∉ actions) :
    after.phase.confidential = true ∧ ∀ keys, .armOutbound keys ∉ actions := by
  cases reaction with
  | ignored | dropped => exact ⟨secret, nofun⟩
  | began phase | asked phase | chose phase | replied phase | armed phase =>
    rw [phase] at secret
    cases secret
  | requested | confirmed => exact ⟨rfl, by simp⟩
  | refused | delivered => exact ⟨secret, by simp⟩
  | welcomed => exact ⟨rfl, by simp⟩
  | parted => exact absurd (List.mem_append_right _ (.head _)) stays

end Reactions

end Handshake

end SecureShell
