import SecureShell.Proofs.Handshake.KeyAgreement

/-! Everything that a packet can make a handshake ask for. A packet that is accepted
belongs to one of the reactions below, whatever it holds; each says in which phase it
occurs, what is asked for, and how the handshake stands afterwards. -/
namespace SecureShell

/-- The messages that belong to a phase. -/
def Phase.awaits : Phase → List MessageCode
  | .headerExchange | .closed => []
  | .kexInit => [.kexInit]
  | .groupNegotiation => [.gexGroup]
  | .kexReply => [.dhReply, .gexReply]
  | .newKeys => [.newKeys]
  | .serviceAccept => [.serviceAccept]
  | .auth _ => [.userauthBanner, .userauthSuccess, .userauthFailure, .userauthPkOk]
  | .channelOpen => [.channelOpenConfirmation, .channelOpenFailure, .globalRequest]
  | .established =>
    [.channelData, .channelExtendedData, .channelWindowAdjust, .channelEof, .channelSuccess,
      .channelRequest, .globalRequest, .channelClose]

namespace Handshake

inductive CarriesData (payload : Bytes) : ChannelData → Prop where
  | output {message : DataMessage} : DataMessage.parse payload = .ok message →
      CarriesData payload (.output message.data)
  | extended {message : ExtendedDataMessage} : ExtendedDataMessage.parse payload = .ok message →
      CarriesData payload (.extended message.kind message.data)

/-- What leads to a request of the user, and the request that follows. -/
inductive Asks (payload : Bytes) (h : Handshake) : AuthStage → AuthMethod → Prop where
  | methods (phase : h.phase = .serviceAccept)
      (served : Service.parse .serviceAccept payload = .ok Service.userauth) :
      Asks payload h .methodsQuery .none
  /-- The server has said that it accepts the method of the credential. -/
  | credential {failure : UserauthFailure} (phase : h.phase = .auth .methodsQuery)
      (parsed : UserauthFailure.parse payload = .ok failure)
      (allowed : failure.allows h.config.credential.methodName = true) :
      Asks payload h (firstRequest h.config.credential).1 (firstRequest h.config.credential).2
  /-- The server has said that it would take the key that it was asked about. -/
  | signature {identity : ClientKey} {answer : UserauthPkOk} {sessionId signature : Bytes}
      (phase : h.phase = .auth .publicKeyQuery) (own : h.config.credential = .key identity)
      (parsed : UserauthPkOk.parse payload = .ok answer)
      (echoed : answer = ⟨identity.algorithm, identity.blob⟩) (named : h.sessionId = some sessionId)
      (signed : identity.sign (UserauthRequest.signatureData sessionId h.config.username
        identity.algorithm identity.blob) = .ok signature) :
      Asks payload h .publicKeySigned (.signed identity.algorithm identity.blob signature)

/-- What a payload makes a handshake ask for, and the handshake after it. -/
inductive Reaction (entropy : Entropy) (payload : Bytes) (h : Handshake) :
    List Action → Handshake → Prop where
  | ignored : Reaction entropy payload h [] h
  /-- A wrong guess of the server's. -/
  | dropped : Reaction entropy payload h [] { h with discardGuess := false }
  | began {negotiated : Negotiated} {group : DhGroup} (phase : h.phase = .kexInit)
      (settled : Settles h.clientProposal payload negotiated)
      (method : DhGroup.ofMethod? negotiated.kex = some group) :
      Reaction entropy payload h [.send (publicMessage .dhInit (.create entropy group))]
        { h with
          serverProposal := payload, discardGuess := negotiated.discardGuess
          negotiated := some negotiated, exchange := some (.create entropy group)
          phase := .kexReply }
  | asked {negotiated : Negotiated} (phase : h.phase = .kexInit)
      (settled : Settles h.clientProposal payload negotiated)
      (method : DhGroup.ofMethod? negotiated.kex = none) :
      Reaction entropy payload h [.send (groupRequest h.config.groupBounds)]
        { h with
          serverProposal := payload, discardGuess := negotiated.discardGuess
          negotiated := some negotiated, phase := .groupNegotiation }
  | chose {modulus generator : Bytes} {group : DhGroup} (phase : h.phase = .groupNegotiation)
      (given : Reader.parse groupReader payload = .ok (modulus, generator))
      (checked : DhGroup.check h.config.groupBounds (Bytes.toNat modulus) (Bytes.toNat generator) =
        .ok group) :
      Reaction entropy payload h [.send (publicMessage .gexInit (.create entropy group))]
        { h with
          group := some ⟨h.config.groupBounds, modulus, generator⟩
          exchange := some (.create entropy group), phase := .kexReply }
  | replied {negotiated : Negotiated} {exchange : DhExchange} {server : Identification}
      {reply : KexReply} {secret : Bytes} (phase : h.phase = .kexReply)
      (stored : h.negotiated = some negotiated) (held : h.exchange = some exchange)
      (known : h.serverVersion = some server)
      (accepted : Accepts h negotiated exchange server payload reply secret) :
      Reaction entropy payload h [.send (NewKeys.toBytes {})]
        { h with
          exchange := none
          sessionId := some (h.sessionId.getD (h.transcript server exchange reply secret).hash)
          pending := some ⟨secret, (h.transcript server exchange reply secret).hash⟩
          phase := .newKeys }
  | armed {pending : PendingKeys} {sessionId : Bytes} {negotiated : Negotiated}
      (phase : h.phase = .newKeys) (held : h.pending = some pending)
      (named : h.sessionId = some sessionId) (stored : h.negotiated = some negotiated) :
      Reaction entropy payload h
        [.armInbound (.derive pending.secret pending.exchangeHash sessionId .serverToClient
          negotiated.cipherIn negotiated.macIn),
        .armOutbound (.derive pending.secret pending.exchangeHash sessionId .clientToServer
          negotiated.cipherOut negotiated.macOut),
        .send (Service.request Service.userauth)]
        { h with pending := none, phase := .serviceAccept }
  | requested (stage : AuthStage) (method : AuthMethod)
      (phase : h.phase = .serviceAccept ∨ ∃ before, h.phase = .auth before)
      (asks : Asks payload h stage method) :
      Reaction entropy payload h
        [.send (UserauthRequest.toBytes { user := h.config.username, method })]
        { h with phase := .auth stage }
  | welcomed {stage : AuthStage} (outbound inbound : Bool) (phase : h.phase = .auth stage)
      (head : payload.headD 0 = MessageCode.userauthSuccess.toByte) :
      Reaction entropy payload h
        ((if outbound || inbound then [.compress outbound inbound] else []) ++
          [.send h.channel.openMessage])
        { h with phase := .channelOpen }
  | confirmed {confirmation : ChannelConfirmation} {channel : SessionChannel}
      (phase : h.phase = .channelOpen) (taken : h.channel.confirm confirmation = .ok channel)
      (parsed : ChannelConfirmation.parse payload = .ok confirmation) :
      Reaction entropy payload h
        ((channel.startRequests h.config.pty h.config.command).map .send ++ [.established])
        { h with channel, phase := .established }
  | refused {refusal : Bytes} (phase : h.phase = .channelOpen ∨ h.phase = .established)
      (known : refusal ∈ [GlobalRequest.failure,
        ChannelOnly.toBytes .channelFailure h.channel.remoteId])
      (global : h.phase = .channelOpen → refusal = GlobalRequest.failure) :
      Reaction entropy payload h [.send refusal] h
  | delivered {data : ChannelData} (length : Nat) (phase : h.phase = .established)
      (carried : CarriesData payload data) :
      Reaction entropy payload h [.deliver data] { h with channel := h.channel.receive length }
  | parted (phase : h.phase = .established) :
      Reaction entropy payload h ((h.channel.peerClosed.1.map Action.send).toList ++ [.closed])
        { h with channel := h.channel.peerClosed.2, phase := .closed }

def Reacts (entropy : Entropy) (payload : Bytes) (h : Handshake) (run : Transition) : Prop :=
  Leaves (Reaction entropy payload h) (fun _ => True) (run h)

variable {entropy : Entropy} {payload : Bytes} {h : Handshake}

section KeyAgreement

theorem onProposal_reacts (phase : h.phase = .kexInit) :
    Reacts entropy payload h (onProposal entropy payload) := by
  refine (onProposal_leaves entropy payload).imp ?_ fun _ _ => trivial
  rintro actions after ⟨negotiated, settled, ⟨group, method, rfl, rfl⟩ | ⟨method, rfl, rfl⟩⟩
  · exact .began phase settled method
  · exact .asked phase settled method

theorem onGroup_reacts (phase : h.phase = .groupNegotiation) :
    Reacts entropy payload h (onGroup entropy payload) := by
  refine (onGroup_leaves entropy payload).imp ?_ fun _ _ => trivial
  rintro actions after ⟨modulus, generator, group, given, checked, rfl, rfl⟩
  exact .chose phase given checked

theorem onReply_reacts (phase : h.phase = .kexReply) :
    Reacts entropy payload h (onReply payload) := by
  refine (onReply_leaves payload).imp ?_ fun _ _ => trivial
  rintro actions after ⟨negotiated, exchange, server, reply, secret, stored, held, known, accepted,
    rfl, rfl⟩
  exact .replied phase stored held known accepted

theorem unlessGuess_reacts {transition : Transition}
    (reacts : Reacts entropy payload h transition) :
    Reacts entropy payload h (unlessGuess transition) := by
  rw [Reacts]
  rcases unlessGuess_cases transition with guess | treated
  · rw [guess]
    exact .dropped
  · rw [treated]
    exact reacts

theorem onNewKeys_reacts (phase : h.phase = .newKeys) :
    Reacts entropy payload h (onNewKeys payload) := by
  refine .bind (leaves_expect ?_ trivial)
  intro _
  refine .bind (leaves_lift ?_ trivial)
  intro _ _
  refine .get (.bind (leaves_require ?_ trivial))
  intro pending held
  refine .modify (.get (.bind (leaves_require ?_ trivial)))
  intro sessionId named
  refine .get (.bind (leaves_require ?_ trivial))
  intro negotiated stored
  exact .armed phase held named stored

end KeyAgreement

section Authentication

theorem onServiceAccept_reacts (phase : h.phase = .serviceAccept) :
    Reacts entropy payload h (onServiceAccept payload) := by
  refine .bind (leaves_expect ?_ trivial)
  intro _
  refine .bind (leaves_lift ?_ trivial)
  intro service served
  refine .ite (fun _ => trivial) ?_
  intro known
  obtain rfl : service = Service.userauth := Decidable.not_not.1 known
  exact .requested .methodsQuery .none (.inl phase) (.methods phase served)

theorem onAuthFailure_reacts {stage : AuthStage} {failure : UserauthFailure}
    (phase : h.phase = .auth stage) (parsed : UserauthFailure.parse payload = .ok failure) :
    Reacts entropy payload h (onAuthFailure stage failure) := by
  refine .get (.ite (fun _ => trivial) ?_)
  intro first
  refine .ite (fun _ => trivial) ?_
  intro allowed
  obtain rfl : stage = .methodsQuery := Decidable.not_not.1 first
  exact .requested _ _ (.inr ⟨_, phase⟩) (.credential phase parsed (by simpa using allowed))

theorem onPkOk_reacts {answer : UserauthPkOk} (phase : h.phase = .auth .publicKeyQuery)
    (parsed : UserauthPkOk.parse payload = .ok answer) :
    Reacts entropy payload h (onPkOk answer) := by
  refine .get ?_
  cases own : h.config.credential with
  | password word => exact trivial
  | key identity =>
    refine .ite (fun _ => trivial) ?_
    intro same
    obtain ⟨algorithm, key⟩ := not_or.1 same
    have echoed : answer = ⟨identity.algorithm, identity.blob⟩ := by
      rw [← Decidable.not_not.1 algorithm, ← Decidable.not_not.1 key]
    refine .bind (leaves_require ?_ trivial)
    intro sessionId named
    refine .bind (leaves_lift ?_ trivial)
    intro signature signed
    exact .requested _ _ (.inr ⟨_, phase⟩) (.signature phase own parsed echoed named signed)

theorem onAuthSuccess_reacts {stage : AuthStage} (phase : h.phase = .auth stage)
    (head : payload.headD 0 = MessageCode.userauthSuccess.toByte) :
    Reacts entropy payload h onAuthSuccess := by
  refine .get (.bind (leaves_require ?_ trivial))
  intro negotiated _
  exact .welcomed _ _ phase head

theorem onAuth_reacts {stage : AuthStage} (phase : h.phase = .auth stage) :
    Reacts entropy payload h (onAuth stage payload) := by
  unfold onAuth
  dsimp only
  split
  · refine .bind (leaves_lift ?_ trivial)
    intro _ _
    exact Reaction.ignored
  · rename_i known
    exact onAuthSuccess_reacts phase (MessageCode.toByte_of_ofByte? known)
  · exact .bind (leaves_lift (fun _ parsed => onAuthFailure_reacts phase parsed) trivial)
  · cases stage with
    | publicKeyQuery => exact .bind (leaves_lift (fun _ parsed => onPkOk_reacts phase parsed) trivial)
    | password | methodsQuery | publicKeySigned => exact trivial
  · exact trivial

end Authentication

section Session

theorem onGlobalRequest_reacts (phase : h.phase = .channelOpen ∨ h.phase = .established) :
    Reacts entropy payload h (onGlobalRequest payload) := by
  refine .bind (leaves_lift ?_ trivial)
  intro request _
  cases request.wantReply with
  | true => exact Reaction.refused phase (.head _) fun _ => rfl
  | false => exact Reaction.ignored

theorem onConfirmation_reacts (phase : h.phase = .channelOpen) :
    Reacts entropy payload h (onConfirmation payload) := by
  refine .bind (leaves_lift ?_ trivial)
  intro confirmation parsed
  refine .get (.bind (leaves_lift ?_ trivial))
  intro channel taken
  exact .confirmed phase taken parsed

theorem onChannelOpen_reacts (phase : h.phase = .channelOpen) :
    Reacts entropy payload h (onChannelOpen payload) := by
  unfold onChannelOpen
  dsimp only
  split
  · exact onConfirmation_reacts phase
  · exact .bind (leaves_lift (fun _ _ => trivial) trivial)
  · exact onGlobalRequest_reacts (.inl phase)
  · exact trivial

theorem deliver_reacts {data : ChannelData} (phase : h.phase = .established)
    (carried : CarriesData payload data) (recipient : UInt32) (length : Nat) :
    Reacts entropy payload h (deliver recipient length data) := by
  refine .bind (leaves_lift ?_ trivial)
  intro _ _
  exact Reaction.delivered length phase carried

theorem onIgnored_reacts (code : MessageCode) :
    Reacts entropy payload h (onIgnored code payload) := by
  refine .bind (leaves_lift ?_ trivial)
  intro recipient _
  refine .bind (leaves_lift ?_ trivial)
  intro _ _
  exact Reaction.ignored

theorem onChannelRequest_reacts (phase : h.phase = .established) :
    Reacts entropy payload h (onChannelRequest payload) := by
  refine .bind (leaves_lift ?_ trivial)
  intro request _
  refine .bind (leaves_lift ?_ trivial)
  intro _ _
  refine .get ?_
  cases request.wantReply with
  | true =>
    refine Reaction.refused (.inr phase) (.tail _ (.head _)) fun early => ?_
    rw [phase] at early
    cases early
  | false => exact Reaction.ignored

theorem onPeerClose_reacts (phase : h.phase = .established) :
    Reacts entropy payload h (onPeerClose payload) := by
  refine .bind (leaves_lift ?_ trivial)
  intro recipient _
  refine .bind (leaves_lift ?_ trivial)
  intro _ _
  exact .parted phase

theorem onEstablished_reacts (phase : h.phase = .established) :
    Reacts entropy payload h (onEstablished payload) := by
  unfold onEstablished
  dsimp only
  split
  · refine .bind (leaves_lift ?_ trivial)
    intro message parsed
    exact deliver_reacts phase (.output parsed) _ _
  · refine .bind (leaves_lift ?_ trivial)
    intro message parsed
    exact deliver_reacts phase (.extended parsed) _ _
  · exact onIgnored_reacts _
  · exact onIgnored_reacts _
  · exact onIgnored_reacts _
  · exact onChannelRequest_reacts phase
  · exact onGlobalRequest_reacts (.inr phase)
  · exact onPeerClose_reacts phase
  · exact trivial

end Session

theorem onPhase_reacts : Reacts entropy payload h (onPhase entropy payload) := by
  refine .get ?_
  cases phase : h.phase with
  | headerExchange | closed => exact trivial
  | kexInit => exact onProposal_reacts phase
  | groupNegotiation => exact unlessGuess_reacts (onGroup_reacts phase)
  | kexReply => exact unlessGuess_reacts (onReply_reacts phase)
  | newKeys => exact onNewKeys_reacts phase
  | serviceAccept => exact onServiceAccept_reacts phase
  | auth stage => exact onAuth_reacts phase
  | channelOpen => exact onChannelOpen_reacts phase
  | established => exact onEstablished_reacts phase

theorem onPacket_reacts : Reacts entropy payload h (onPacket entropy payload) := by
  rcases onPacket_cases entropy payload with dropped | ⟨error, refused⟩ | ⟨error, ended⟩ | treated
  · rw [dropped]
    exact .ignored
  · rw [refused]
    exact trivial
  · rw [ended]
    exact trivial
  · rw [treated]
    exact onPhase_reacts

section Awaited

/-- Nothing but messages of some kinds is answered. -/
def AnswersOnly (codes : List MessageCode) (payload : Bytes) (h : Handshake) (run : Transition) :
    Prop :=
  Leaves (fun actions _ => actions = [] ∨ ∃ code ∈ codes, payload.headD 0 = code.toByte)
    (fun _ => True) (run h)

variable {codes : List MessageCode} {code : MessageCode} {run : Transition}

theorem answersOnly_of_head (listed : code ∈ codes) (head : payload.headD 0 = code.toByte) :
    AnswersOnly codes payload h run := by
  rw [AnswersOnly]
  cases run h with
  | ok actions after => exact .inr ⟨code, listed, head⟩
  | error => exact trivial

theorem answersOnly_of_known (known : MessageCode.ofByte? (payload.headD 0) = some code)
    (listed : code ∈ codes) : AnswersOnly codes payload h run :=
  answersOnly_of_head listed (MessageCode.toByte_of_ofByte? known)

theorem expect_answersOnly {rest : Unit → Transition} (listed : code ∈ codes) :
    AnswersOnly codes payload h (expect code payload >>= rest) :=
  .bind (leaves_expect (fun head => answersOnly_of_head listed head) trivial)

theorem unlessGuess_answersOnly (answers : AnswersOnly codes payload h run) :
    AnswersOnly codes payload h (unlessGuess run) := by
  rw [AnswersOnly]
  rcases unlessGuess_cases run with guess | treated
  · rw [guess]
    exact .inl rfl
  · rw [treated]
    exact answers

theorem onReply_answersOnly : AnswersOnly [.dhReply, .gexReply] payload h (onReply payload) := by
  refine .get ?_
  split <;> exact expect_answersOnly (by decide)

theorem onAuth_answersOnly (stage : AuthStage) :
    AnswersOnly (Phase.auth stage).awaits payload h (onAuth stage payload) := by
  unfold onAuth
  dsimp only
  split
  all_goals first | exact trivial | exact answersOnly_of_known ‹_› (by simp [Phase.awaits])

theorem onChannelOpen_answersOnly :
    AnswersOnly Phase.channelOpen.awaits payload h (onChannelOpen payload) := by
  unfold onChannelOpen
  dsimp only
  split
  all_goals first | exact trivial | exact answersOnly_of_known ‹_› (by simp [Phase.awaits])

theorem onEstablished_answersOnly :
    AnswersOnly Phase.established.awaits payload h (onEstablished payload) := by
  unfold onEstablished
  dsimp only
  split
  all_goals first | exact trivial | exact answersOnly_of_known ‹_› (by simp [Phase.awaits])

theorem onPhase_answersOnly : AnswersOnly h.phase.awaits payload h (onPhase entropy payload) := by
  refine .get ?_
  cases phase : h.phase with
  | headerExchange | closed => exact trivial
  | kexInit => exact expect_answersOnly (.head _)
  | groupNegotiation => exact unlessGuess_answersOnly (expect_answersOnly (.head _))
  | kexReply => exact unlessGuess_answersOnly onReply_answersOnly
  | newKeys => exact expect_answersOnly (.head _)
  | serviceAccept => exact expect_answersOnly (.head _)
  | auth stage => exact onAuth_answersOnly stage
  | channelOpen => exact onChannelOpen_answersOnly
  | established => exact onEstablished_answersOnly

theorem awaited_of_answered {action : Action} {actions : List Action} {after : Handshake}
    (answered : onPhase entropy payload h = .ok (action :: actions) after) :
    ∃ code ∈ h.phase.awaits, payload.headD 0 = code.toByte := by
  have answers : AnswersOnly h.phase.awaits payload h (onPhase entropy payload) :=
    onPhase_answersOnly
  rw [AnswersOnly, answered] at answers
  rcases answers with nothing | listed
  · cases nothing
  · exact listed

end Awaited

theorem reaction_of_onPacket {actions : List Action} {after : Handshake}
    (accepted : onPacket entropy payload h = .ok actions after) :
    Reaction entropy payload h actions after := by
  have reacts : Reacts entropy payload h (onPacket entropy payload) := onPacket_reacts
  rw [Reacts, accepted] at reacts
  exact reacts

/-- A packet does not bring the handshake back to its beginning, nor away from it. -/
theorem Reaction.introduced {actions : List Action} {after : Handshake}
    (reaction : Reaction entropy payload h actions after) :
    after.phase = .headerExchange ↔ h.phase = .headerExchange := by
  cases reaction with
  | ignored | dropped | refused | delivered => exact .rfl
  | began phase | asked phase | chose phase | replied phase | armed phase | welcomed _ _ phase
  | confirmed phase | parted phase =>
    rw [phase]
    exact ⟨nofun, nofun⟩
  | requested stage _ phase =>
    rcases phase with phase | ⟨before, phase⟩ <;>
    · rw [phase]
      exact ⟨nofun, nofun⟩

theorem Reaction.configured {actions : List Action} {after : Handshake}
    (reaction : Reaction entropy payload h actions after) : after.config = h.config := by
  cases reaction <;> rfl

/-- Only when the server closes the channel is the end asked for, and nothing after it. -/
theorem Reaction.ends {actions : List Action} {after : Handshake}
    (reaction : Reaction entropy payload h actions after) : .closed ∉ actions ∨
      h.phase = .established ∧ ∃ replies : List Bytes, actions = replies.map .send ++ [.closed] := by
  cases reaction with
  | ignored | dropped | began | asked | chose | replied | armed | requested | refused | delivered =>
    exact .inl (by simp)
  | welcomed outbound inbound =>
    refine .inl ?_
    cases outbound <;> cases inbound <;> simp
  | confirmed => exact .inl (by simp)
  | parted phase =>
    refine .inr ⟨phase, h.channel.peerClosed.1.toList, ?_⟩
    cases h.channel.peerClosed.1 <;> rfl

end Handshake

end SecureShell
