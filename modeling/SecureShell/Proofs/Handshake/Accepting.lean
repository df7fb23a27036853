import SecureShell.Proofs.Handshake.HonestServer
import SecureShell.Proofs.Handshake.KeyAgreement
import SecureShell.Proofs.Handshake.Passing
import SecureShell.Proofs.SessionChannel

/-! Each message that a phase waits for, when it is what the phase expects: the
transition succeeds, asks for the given actions and goes on to the next phase. -/
namespace SecureShell

namespace Action

def arms : Action → Bool
  | .armInbound _ | .armOutbound _ => true
  | _ => false

def sends : Action → Bool
  | .send _ => true
  | _ => false

theorem filter_sends (payloads : List Bytes) :
    (payloads.map send).filter (!·.sends) = [] := by
  rw [List.filter_eq_nil_iff, List.forall_mem_map]
  exact fun _ _ => Bool.false_ne_true

end Action

namespace Handshake

section Reading

theorem head_of_expect {α : Type} {code : MessageCode} {rest : Reader α} {payload : Bytes} {a : α}
    (h : Reader.parse (do Reader.expect code; rest) payload = .ok a) :
    payload.headD 0 = code.toByte := by
  cases payload with
  | nil => cases h
  | cons byte rest =>
    by_cases same : byte = code.toByte
    · exact same
    · have read : Reader.byte (byte :: rest) = .ok byte rest := Wire.reads_byte byte rest
      simp only [Reader.parse, Reader.expect, bind_apply, read, ne_eq, same, not_false_eq_true,
        if_true] at h
      cases h

theorem reads_bounds (bounds : GroupBounds) : Reads boundsReader (groupRequest bounds) bounds := by
  intro rest
  have code (rest : Bytes) : Reader.byte (MessageCode.gexRequest.toByte :: rest) = .ok _ rest :=
    Wire.reads_byte _ rest
  have least := Wire.reads_uint32 bounds.least
  have preferred := Wire.reads_uint32 bounds.preferred
  have most := Wire.reads_uint32 bounds.most
  simp only [boundsReader, groupRequest, List.append_assoc, List.cons_append, bind_apply, code _,
    least _, preferred _, most _, pure_apply]

theorem reads_public {code : MessageCode} {exchange : DhExchange}
    (fits : exchange.publicBytes.length + 1 < 2 ^ 32) :
    Reads publicReader (publicMessage code exchange) (Bytes.trimZeros exchange.publicBytes) :=
  (Wire.reads_byte code.toByte).bind (Wire.reads_mpint fits)

end Reading

section Steps

variable {h : Handshake} {entropy : Entropy} {payload : Bytes} {negotiated : Negotiated}

/-- The messages that are not treated alike in every phase. -/
theorem onPacket_eq_onPhase {code : MessageCode} (head : payload.headD 0 = code.toByte)
    (own : code ∉ [MessageCode.ignore, .debug, .disconnect, .unimplemented]) :
    onPacket entropy payload = onPhase entropy payload := by
  cases payload with
  | nil => cases code <;> cases head
  | cons byte rest =>
    obtain rfl : byte = code.toByte := head
    unfold onPacket
    dsimp only
    rw [MessageCode.ofByte?_toByte]
    cases code <;> first | rfl | exact absurd (by decide) own

abbrev Gives (actions : List Action) (after : Handshake) :
    EStateM.Result Error Handshake (List Action) → Prop :=
  Leaves (fun asked left => asked = actions ∧ left = after) fun _ => False

theorem call_packet {actions : List Action} {after : Handshake} {code : MessageCode}
    (head : payload.headD 0 = code.toByte)
    (own : code ∉ [MessageCode.ignore, .debug, .disconnect, .unimplemented])
    (gives : Gives actions after (onPhase entropy payload h)) :
    h.call (.packet entropy payload) = (.ok actions, after) := by
  rw [call, onPacket_eq_onPhase head own]
  cases treated : onPhase entropy payload h with
  | ok asked left =>
    rw [treated] at gives
    obtain ⟨rfl, rfl⟩ := gives
    rfl
  | error error left =>
    rw [treated] at gives
    exact gives.elim

section Checks

variable {α : Type} {success : α → Handshake → Prop} {failure : Handshake → Prop}

theorem passes_lift {result : Except Error α} {a : α} (ok : result = .ok a) (h' : success a h) :
    Leaves success failure (lift result h) := by
  subst ok
  exact h'

theorem passes_require {value : Option α} {fault : ProtocolFault} {a : α} (present : value = some a)
    (h' : success a h) : Leaves success failure (require value fault h) := by
  subst present
  exact h'

theorem passes_expect {success : Unit → Handshake → Prop} {code : MessageCode}
    (head : payload.headD 0 = code.toByte) (h' : success () h) :
    Leaves success failure (expect code payload h) :=
  .ite (fun other => absurd head other) fun _ => h'

end Checks

/-- The end of key agreement: new keys in both directions. -/
theorem newKeys_passes {pending : PendingKeys} {sessionId : Bytes} (phase : h.phase = .newKeys)
    (parsed : NewKeys.parse payload = .ok {}) (kept : h.pending = some pending)
    (named : h.sessionId = some sessionId) (stored : h.negotiated = some negotiated) :
    h.call (.packet entropy payload) =
      (.ok [.armInbound (.derive pending.secret pending.exchangeHash sessionId .serverToClient
          negotiated.cipherIn negotiated.macIn),
        .armOutbound (.derive pending.secret pending.exchangeHash sessionId .clientToServer
          negotiated.cipherOut negotiated.macOut),
        .send (Service.request Service.userauth)],
      { h with pending := none, phase := .serviceAccept }) := by
  have head : payload.headD 0 = MessageCode.newKeys.toByte := by
    cases payload with
    | nil => cases parsed
    | cons byte rest =>
      simp only [NewKeys.parse] at parsed
      split at parsed
      · assumption
      · cases parsed
  refine call_packet head (by decide) (.get ?_)
  rw [phase]
  refine .bind (passes_expect head (.bind (passes_lift parsed (.get (.bind (passes_require kept ?_))))))
  refine .modify (.get (.bind (passes_require named (.get (.bind (passes_require stored ?_))))))
  exact ⟨rfl, rfl⟩

theorem serviceAccept_passes (phase : h.phase = .serviceAccept)
    (parsed : Service.parse .serviceAccept payload = .ok Service.userauth) :
    h.call (.packet entropy payload) =
      (.ok [.send (UserauthRequest.toBytes { user := h.config.username, method := .none })],
        { h with phase := .auth .methodsQuery }) := by
  have head := head_of_expect parsed
  refine call_packet head (by decide) (.get ?_)
  rw [phase]
  refine .bind (passes_expect head (.bind (passes_lift parsed (.ite (fun other => ?_) fun _ => ?_))))
  · exact absurd rfl other
  · exact ⟨rfl, rfl⟩

theorem failure_passes {failure : UserauthFailure} (phase : h.phase = .auth .methodsQuery)
    (parsed : UserauthFailure.parse payload = .ok failure)
    (allowed : failure.allows h.config.credential.methodName = true) :
    h.call (.packet entropy payload) =
      (.ok [.send (UserauthRequest.toBytes
          { user := h.config.username, method := (firstRequest h.config.credential).2 })],
        { h with phase := .auth (firstRequest h.config.credential).1 }) := by
  have head : payload.headD 0 = MessageCode.userauthFailure.toByte := head_of_expect parsed
  refine call_packet head (by decide) (.get ?_)
  rw [phase]
  unfold onAuth
  dsimp only
  rw [head, MessageCode.ofByte?_toByte]
  refine .bind (passes_lift parsed (.get (.ite (fun other => ?_) fun _ => .ite (fun refused => ?_)
    fun _ => ?_)))
  · exact absurd rfl other
  · simp [allowed] at refused
  · exact ⟨rfl, rfl⟩

theorem sign_ok {identity : ClientKey} (usable : Usable (.key identity)) (data : Bytes) :
    ∃ signature, identity.sign data = .ok signature := by
  cases identity with
  | ed25519 seed => exact ⟨_, rfl⟩
  | provided name publicKey signer => exact usable data
  | rsa pair =>
    obtain ⟨modulus, publicExponent, privateExponent, created⟩ := usable
    obtain ⟨size, -, -, rfl⟩ := RsaKeyPair.create_eq_ok.1 created
    simp only [ClientKey.sign, Rsa.sign_eq size]
    exact ⟨_, rfl⟩

theorem keyAccepted_passes {identity : ClientKey} {sessionId : Bytes}
    (phase : h.phase = .auth .publicKeyQuery) (credential : h.config.credential = .key identity)
    (usable : Usable (.key identity)) (named : h.sessionId = some sessionId)
    (parsed : UserauthPkOk.parse payload = .ok ⟨identity.algorithm, identity.blob⟩) :
    ∃ signature, h.call (.packet entropy payload) =
      (.ok [.send (UserauthRequest.toBytes { user := h.config.username
                                             method := .signed identity.algorithm identity.blob
                                               signature })],
        { h with phase := .auth .publicKeySigned }) := by
  have head : payload.headD 0 = MessageCode.userauthPkOk.toByte := head_of_expect parsed
  obtain ⟨signature, signed⟩ := sign_ok usable (UserauthRequest.signatureData sessionId
    h.config.username identity.algorithm identity.blob)
  refine ⟨signature, call_packet head (by decide) (.get ?_)⟩
  rw [phase]
  unfold onAuth
  dsimp only
  rw [head, MessageCode.ofByte?_toByte]
  refine .bind (passes_lift parsed (.get ?_))
  rw [credential]
  refine .ite (fun other => ?_) fun _ => .bind (passes_require named (.bind (passes_lift signed ?_)))
  · rcases other with other | other <;> exact absurd rfl other
  · exact ⟨rfl, rfl⟩

theorem success_passes {stage : AuthStage} (phase : h.phase = .auth stage)
    (head : payload.headD 0 = MessageCode.userauthSuccess.toByte)
    (stored : h.negotiated = some negotiated) :
    h.call (.packet entropy payload) =
      (.ok ((if negotiated.compressionOut.delayed || negotiated.compressionIn.delayed then
          [.compress negotiated.compressionOut.delayed negotiated.compressionIn.delayed] else []) ++
        [.send h.channel.openMessage]), { h with phase := .channelOpen }) := by
  refine call_packet head (by decide) (.get ?_)
  rw [phase]
  unfold onAuth
  dsimp only
  rw [head, MessageCode.ofByte?_toByte]
  refine .get (.bind (passes_require stored ?_))
  exact ⟨rfl, rfl⟩

theorem confirmation_passes (entropy : Entropy) {confirmation : ChannelConfirmation}
    (phase : h.phase = .channelOpen) (opening : h.channel.state = .opening)
    (parsed : ChannelConfirmation.parse payload = .ok confirmation)
    (ours : confirmation.recipient = SessionChannel.localId) (sized : confirmation.maxPacket ≠ 0) :
    ∃ channel, h.channel.confirm confirmation = .ok channel ∧
      h.call (.packet entropy payload) =
        (.ok ((channel.startRequests h.config.pty h.config.command).map .send ++ [.established]),
          { h with channel, phase := .established }) := by
  have head : payload.headD 0 = MessageCode.channelOpenConfirmation.toByte := head_of_expect parsed
  have confirmed := SessionChannel.confirm_eq_ok_iff.2 ⟨opening, ours, sized, rfl⟩
  refine ⟨_, confirmed, call_packet head (by decide) (.get ?_)⟩
  rw [phase]
  unfold onChannelOpen
  dsimp only
  rw [head, MessageCode.ofByte?_toByte]
  refine .bind (passes_lift parsed (.get (.bind (passes_lift confirmed ?_))))
  exact ⟨rfl, rfl⟩

end Steps

section Beginning

variable {h : Handshake} {entropy : Entropy} {payload : Bytes} {negotiated : Negotiated}

theorem head_of_proposal {p : Proposal} (parsed : Proposal.parse payload = .ok p) :
    payload.headD 0 = MessageCode.kexInit.toByte := by
  cases payload with
  | nil => cases parsed
  | cons byte rest =>
    by_cases same : byte = MessageCode.kexInit.toByte
    · exact same
    · have read : Reader.byte (byte :: rest) = .ok byte rest := Wire.reads_byte byte rest
      simp only [Proposal.parse, Reader.parse, Proposal.reader, bind_apply, read, ne_eq, same,
        not_false_eq_true, if_true] at parsed
      cases parsed

theorem version_passes (phase : h.phase = .headerExchange) (version : Identification) :
    h.call (.version version) = (.ok [.send h.clientProposal],
      { h with serverVersion := some version, phase := .kexInit }) := by
  have passed : onVersion version h = .ok [.send h.clientProposal]
      { h with serverVersion := some version, phase := .kexInit } := by
    simp only [onVersion, bind_apply, get_apply, phase, ne_eq, not_true_eq_false, if_false]
    rfl
  rw [call, passed]
  rfl

/-- An exchange in a fixed group begins with the proposals. -/
theorem fixed_passes {client server : Proposal} {group : DhGroup} (phase : h.phase = .kexInit)
    (own : Proposal.parse h.clientProposal = .ok client)
    (parsed : Proposal.parse payload = .ok server)
    (agreed : negotiate client server = .ok negotiated)
    (method : DhGroup.ofMethod? negotiated.kex = some group) :
    h.call (.packet entropy payload) =
      (.ok [.send (publicMessage .dhInit (.create entropy group))],
        { h with
          serverProposal := payload, discardGuess := negotiated.discardGuess
          negotiated := some negotiated, exchange := some (.create entropy group)
          phase := .kexReply }) := by
  have head := head_of_proposal parsed
  refine call_packet head (by decide) (.get ?_)
  rw [phase]
  refine .bind (passes_expect head (.get (.bind (passes_lift own (.bind (passes_lift parsed
    (.bind (passes_lift agreed ?_))))))))
  rw [method]
  exact ⟨rfl, rfl⟩

/-- Without a fixed group the server is asked for one. -/
theorem asking_passes {client server : Proposal} (phase : h.phase = .kexInit)
    (own : Proposal.parse h.clientProposal = .ok client)
    (parsed : Proposal.parse payload = .ok server)
    (agreed : negotiate client server = .ok negotiated)
    (method : DhGroup.ofMethod? negotiated.kex = none) :
    h.call (.packet entropy payload) =
      (.ok [.send (groupRequest h.config.groupBounds)],
        { h with
          serverProposal := payload, discardGuess := negotiated.discardGuess
          negotiated := some negotiated, phase := .groupNegotiation }) := by
  have head := head_of_proposal parsed
  refine call_packet head (by decide) (.get ?_)
  rw [phase]
  refine .bind (passes_expect head (.get (.bind (passes_lift own (.bind (passes_lift parsed
    (.bind (passes_lift agreed ?_))))))))
  rw [method]
  exact ⟨rfl, rfl⟩

theorem passes_unlessGuess {success : List Action → Handshake → Prop} {failure : Handshake → Prop}
    {transition : Transition} (unguessed : h.discardGuess = false)
    (passes : Leaves success failure (transition h)) :
    Leaves success failure (unlessGuess transition h) :=
  .get (.ite (fun guess => absurd (unguessed.symm.trans guess) Bool.false_ne_true) fun _ => passes)

/-- The server's group begins the exchange. -/
theorem group_passes {modulus generator : Bytes} {group : DhGroup}
    (phase : h.phase = .groupNegotiation) (unguessed : h.discardGuess = false)
    (head : payload.headD 0 = MessageCode.gexGroup.toByte)
    (parsed : Reader.parse groupReader payload = .ok (modulus, generator))
    (checked : DhGroup.check h.config.groupBounds (Bytes.toNat modulus) (Bytes.toNat generator) =
      .ok group) :
    h.call (.packet entropy payload) =
      (.ok [.send (publicMessage .gexInit (.create entropy group))],
        { h with
          group := some ⟨h.config.groupBounds, modulus, generator⟩
          exchange := some (.create entropy group), phase := .kexReply }) := by
  refine call_packet head (by decide) (.get ?_)
  rw [phase]
  refine passes_unlessGuess unguessed (.bind (passes_expect head (.get (.bind (passes_lift parsed
    (.bind (passes_lift checked ?_)))))))
  exact ⟨rfl, rfl⟩

section Reply

variable {exchange : DhExchange} {server : Identification} {reply : KexReply} {hostKey : HostKey}
  {secret : Bytes} (phase : h.phase = .kexReply) (unguessed : h.discardGuess = false)
  (head : payload.headD 0 = (if h.group.isSome then MessageCode.gexReply else .dhReply).toByte)
  (parsed : KexReply.parse payload = .ok reply) (stored : h.negotiated = some negotiated)
  (key : HostKey.parse reply.hostKey = .ok hostKey)
  (kind : hostKey.algorithm = negotiated.hostKey) (held : h.exchange = some exchange)
  (agreed : exchange.sharedSecret reply.serverPublic = .ok secret)
  (known : h.serverVersion = some server)
  (verified : hostKey.verify (h.transcript server exchange reply secret).hash reply.signature =
    .ok ())
include phase unguessed head parsed stored key kind held agreed known verified

/-- A reply that stands up to every other check is decided by whether its key is trusted. -/
theorem onPacket_reply :
    onPacket entropy payload h =
      match h.config.trust.check hostKey with
      | .ok () => .ok [.send (NewKeys.toBytes {})]
        { h with
          exchange := none
          sessionId := some (h.sessionId.getD (h.transcript server exchange reply secret).hash)
          pending := some ⟨secret, (h.transcript server exchange reply secret).hash⟩
          phase := .newKeys }
      | .error error => .error error { h with exchange := none } := by
  have own : (if h.group.isSome then MessageCode.gexReply else .dhReply) ∉
      [MessageCode.ignore, .debug, .disconnect, .unimplemented] := by
    split <;> decide
  have treated : onPhase entropy payload h = onReply payload h := by
    simp only [onPhase, bind_apply, get_apply, phase]
    exact unlessGuess_treat _ unguessed
  rw [onPacket_eq_onPhase head own, treated]
  simp only [transcript] at verified
  simp only [onReply, expect, bind_apply, get_apply, modify_apply, head, parsed, stored, key, kind,
    held, lift, require, pure_apply, ne_eq, not_true_eq_false, if_false, agreed, known, transcript,
    verified]
  cases h.config.trust.check hostKey <;> rfl

theorem reply_passes (trusted : h.config.trust.check hostKey = .ok ()) :
    h.call (.packet entropy payload) =
      (.ok [.send (NewKeys.toBytes {})],
        { h with
          exchange := none
          sessionId := some (h.sessionId.getD (h.transcript server exchange reply secret).hash)
          pending := some ⟨secret, (h.transcript server exchange reply secret).hash⟩
          phase := .newKeys }) := by
  rw [call, onPacket_reply phase unguessed head parsed stored key kind held agreed known verified,
    trusted]
  rfl

end Reply

end Beginning

end Handshake

end SecureShell
