import SecureShell.Proofs.Blameless
import SecureShell.Proofs.Handshake.KeyAgreement

/-! Why a handshake objects to a packet. Most objections are to what the packet holds. The
others are the caller's own judgement of a host key, a key of the user that cannot sign,
proposals that agree on a name which stands for nothing, and that something is missing
which the handshake needs in its phase. -/
namespace SecureShell.Handshake

open Error (Ordinary ordinary_protocol ordinary_hostKey ordinary_auth)

variable {α : Type}

/-- What a handshake needs in its phase and does not have. -/
inductive Lacks (h : Handshake) : ProtocolFault → Prop where
  | negotiated (phase : h.phase = .kexReply ∨ h.phase = .newKeys ∨ ∃ stage, h.phase = .auth stage) :
      h.negotiated = none → Lacks h .notNegotiated
  | exchange (phase : h.phase = .kexReply) : h.exchange = none → Lacks h .noKeyExchange
  | server (phase : h.phase = .kexReply) : h.serverVersion = none → Lacks h .unknownServerVersion
  | pending (phase : h.phase = .newKeys) : h.pending = none → Lacks h .newKeysBeforeKeyExchange
  | sessionId (phase : h.phase = .newKeys ∨ h.phase = .auth .publicKeyQuery) :
      h.sessionId = none → Lacks h .noSessionId
  | query {word : String} (phase : h.phase = .auth .publicKeyQuery) :
      h.config.credential = .password word → Lacks h .pkOkWithoutQuery
  | opening (phase : h.phase = .channelOpen) :
      h.channel.state ≠ .opening → Lacks h .unexpectedConfirmation

/-- The errors that code of the caller's may give: a judgement of host keys that is not this
library's, and a key of the user that is not. -/
inductive FromCaller (config : Config) : Error → Prop where
  | judged {judge : HostKey → Except Error Unit} {hostKey : HostKey} {error : Error} :
      config.trust = .judged judge → judge hostKey = .error error → FromCaller config error
  | unsigned {name : String} {publicKey data : Bytes} {signer : Bytes → Except Error Bytes}
      {error : Error} : config.credential = .key (.provided name publicKey signer) →
      signer data = .error error → FromCaller config error

/-- Why a handshake may fail with an error. -/
inductive Objection (h : Handshake) : Error → Prop where
  | ordinary {error : Error} : Ordinary error → Objection h error
  | judged {hostKey : HostKey} {error : Error} : h.config.trust.check hostKey = .error error →
      Objection h error
  | unsigned {identity : ClientKey} {data : Bytes} {error : Error} :
      h.config.credential = .key identity → identity.sign data = .error error → Objection h error
  | unsettled {client : Proposal} {error : Error} :
      Proposal.parse h.clientProposal = .ok client → error.Unimplemented → ¬ client.Known →
      Objection h error
  | lacking {fault : ProtocolFault} : Lacks h fault → Objection h (.protocol fault)

section Steps

variable {kind : Error → Prop} {h : Handshake} {rest : α → Transition}

theorem lift_raises {result : Except Error α} (rejects : Rejects kind result)
    (hRest : ∀ a, result = .ok a → RaisesAt kind h (rest a)) :
    RaisesAt kind h (lift result >>= rest) := by
  cases result with
  | ok a => exact hRest a rfl
  | error error =>
    rintro found after ⟨⟩
    exact rejects error rfl

theorem require_raises {value : Option α} {fault : ProtocolFault}
    (absent : value = none → kind (.protocol fault))
    (hRest : ∀ a, value = some a → RaisesAt kind h (rest a)) :
    RaisesAt kind h (require value fault >>= rest) := by
  cases value with
  | some a => exact hRest a rfl
  | none =>
    rintro found after ⟨⟩
    exact absent rfl

theorem refuse_raises (code : UInt8) :
    RaisesAt (Objection h) h (refuse code : EStateM Error Handshake α) :=
  .get (.throw (.ordinary (ordinary_protocol nofun)))

theorem expect_raises {code : MessageCode} {payload : Bytes} {rest : Unit → Transition}
    (hRest : RaisesAt (Objection h) h (rest ())) :
    RaisesAt (Objection h) h (expect code payload >>= rest) := by
  unfold expect
  by_cases same : payload.headD 0 ≠ code.toByte
  · simp only [if_pos same]
    exact (refuse_raises _).bind fun _ _ impossible => nomatch impossible
  · simp only [if_neg same]
    exact hRest

theorem read_raises {result : Except Error α} (rejects : Rejects Ordinary result)
    (hRest : ∀ a, result = .ok a → RaisesAt (Objection h) h (rest a)) :
    RaisesAt (Objection h) h (lift result >>= rest) :=
  lift_raises (rejects.mono fun _ => .ordinary) hRest

end Steps

variable {h : Handshake} (entropy : Entropy) (payload : Bytes)

section KeyAgreement

theorem onProposal_raises : RaisesAt (Objection h) h (onProposal entropy payload) := by
  refine expect_raises (.get ?_)
  refine read_raises (Proposal.parse_rejects _) fun client parsed => ?_
  refine read_raises (Proposal.parse_rejects _) fun server _ => ?_
  refine lift_raises (negotiate_rejects.mono ?_) fun negotiated _ => ?_
  · rintro error (ordinary | ⟨unimplemented, unknown⟩)
    · exact .ordinary ordinary
    · exact .unsettled parsed unimplemented unknown
  · dsimp only
    split
    · exact .set (.pure _)
    · exact .set (.pure _)

theorem onGroup_raises : RaisesAt (Objection h) h (onGroup entropy payload) := by
  refine expect_raises (.get ?_)
  refine read_raises (Reader.rejects_parse ?_ _) fun found _ => ?_
  · exact .bind Reader.raises_byte fun _ => .bind Reader.raises_mpint fun _ =>
      .bind Reader.raises_mpint fun _ => .pure _
  · exact read_raises (DhGroup.check_rejects _ _ _) fun group _ => .set (.pure _)

theorem KexReply.parse_rejects : Rejects Ordinary (KexReply.parse payload) :=
  Reader.rejects_parse (.bind Reader.raises_byte fun _ => .bind Reader.raises_string fun _ =>
    .bind Reader.raises_mpint fun _ => .bind Reader.raises_string fun _ => .pure _) payload

/-- The exchange in progress is used up before what is left of a reply is looked at. -/
theorem onReply_raises (phase : h.phase = .kexReply) :
    RaisesAt (Objection h) h (onReply payload) := by
  refine .get (expect_raises ?_)
  refine read_raises (KexReply.parse_rejects _) fun reply _ => ?_
  refine .get (require_raises (fun none => .lacking (.negotiated (.inl phase) none)) ?_)
  intro negotiated _
  refine read_raises (HostKey.parse_rejects _) fun hostKey _ => ?_
  refine .check (.ordinary (ordinary_hostKey _)) ?_
  refine .get (require_raises (fun none => .lacking (.exchange phase none)) ?_)
  intro exchange _
  refine .modify ?_
  have used : RaisesAt (Objection h) { h with exchange := none } (do
      let secret ← lift (exchange.sharedSecret reply.serverPublic)
      let h ← get
      let server ← require h.serverVersion .unknownServerVersion
      let exchangeHash := (h.transcript server exchange reply secret).hash
      lift (hostKey.verify exchangeHash reply.signature)
      lift (h.config.trust.check hostKey)
      set { h with
        sessionId := some (h.sessionId.getD exchangeHash)
        pending := some ⟨secret, exchangeHash⟩
        phase := .newKeys }
      return [Action.send (NewKeys.toBytes {})]) := by
    refine lift_raises ((DhExchange.sharedSecret_rejects _ _).mono fun _ => .ordinary) ?_
    intro secret _
    refine .get (require_raises (fun none => .lacking (.server phase none)) ?_)
    intro server _
    refine lift_raises ((HostKey.verify_rejects _ _ _).mono fun _ => .ordinary) fun _ _ => ?_
    have judged : Rejects (Objection h) (h.config.trust.check hostKey) := fun _ => .judged
    exact lift_raises judged fun _ _ => .set (.pure _)
  exact used

theorem unlessGuess_raises {transition : Transition}
    (raises : RaisesAt (Objection h) h transition) :
    RaisesAt (Objection h) h (unlessGuess transition) := by
  refine .get ?_
  split
  · exact .set (.pure _)
  · exact raises

theorem onNewKeys_raises (phase : h.phase = .newKeys) :
    RaisesAt (Objection h) h (onNewKeys payload) := by
  refine expect_raises (read_raises (NewKeys.parse_rejects _) fun _ _ => ?_)
  refine .get (require_raises (fun none => .lacking (.pending phase none)) ?_)
  intro pending _
  refine .modify ?_
  refine .get (require_raises (fun none => .lacking (.sessionId (.inl phase) none)) ?_)
  intro sessionId _
  refine .get (require_raises (fun none => .lacking (.negotiated (.inr (.inl phase)) none)) ?_)
  intro negotiated _
  exact .modify (.pure _)

end KeyAgreement

section Authentication

theorem request_raises (stage : AuthStage) (method : AuthMethod) :
    RaisesAt (Objection h) h (request stage method) := .modify (.get (.pure _))

theorem onServiceAccept_raises : RaisesAt (Objection h) h (onServiceAccept payload) := by
  refine expect_raises (read_raises (Service.parse_rejects _ _) fun service _ => ?_)
  exact .check (.ordinary (ordinary_protocol nofun)) (request_raises _ _)

theorem onAuthFailure_raises (stage : AuthStage) (failure : UserauthFailure) :
    RaisesAt (Objection h) h (onAuthFailure stage failure) := by
  refine .get (.check (.ordinary (ordinary_auth _)) ?_)
  exact .check (.ordinary (ordinary_auth _)) (request_raises _ _)

theorem onPkOk_raises (phase : h.phase = .auth .publicKeyQuery) (answer : UserauthPkOk) :
    RaisesAt (Objection h) h (onPkOk answer) := by
  refine .get ?_
  cases own : h.config.credential with
  | password word => exact .throw (.lacking (.query phase own))
  | key identity =>
    refine .check (.ordinary (ordinary_auth _)) ?_
    refine require_raises (fun none => .lacking (.sessionId (.inr phase) none)) fun sessionId _ => ?_
    exact lift_raises (fun _ => .unsigned own) fun signature _ => request_raises _ _

theorem onAuthSuccess_raises {stage : AuthStage} (phase : h.phase = .auth stage) :
    RaisesAt (Objection h) h onAuthSuccess := by
  refine .get (require_raises (fun none => ?_) fun negotiated _ => .modify (.pure _))
  exact .lacking (.negotiated (.inr (.inr ⟨stage, phase⟩)) none)

theorem onAuth_raises {stage : AuthStage} (phase : h.phase = .auth stage) :
    RaisesAt (Objection h) h (onAuth stage payload) := by
  unfold onAuth
  dsimp only
  split
  · exact read_raises (UserauthBanner.parse_rejects _) fun _ _ => .pure _
  · exact onAuthSuccess_raises phase
  · exact read_raises (UserauthFailure.parse_rejects _) fun failure _ =>
      onAuthFailure_raises stage failure
  · cases stage with
    | publicKeyQuery =>
      exact read_raises (UserauthPkOk.parse_rejects _) fun answer _ => onPkOk_raises phase answer
    | password => exact .throw (.ordinary (ordinary_auth _))
    | methodsQuery | publicKeySigned => exact refuse_raises _
  · exact refuse_raises _

end Authentication

section Session

theorem onGlobalRequest_raises : RaisesAt (Objection h) h (onGlobalRequest payload) :=
  read_raises (GlobalRequest.parse_rejects _) fun _ _ => .pure _

theorem onConfirmation_raises (phase : h.phase = .channelOpen) :
    RaisesAt (Objection h) h (onConfirmation payload) := by
  refine read_raises (ChannelConfirmation.parse_rejects _) fun confirmation _ => .get ?_
  refine lift_raises ((SessionChannel.confirm_rejects _ _).mono ?_) fun _ _ => .set (.pure _)
  rintro error (ordinary | ⟨rfl, unexpected⟩)
  · exact .ordinary ordinary
  · exact .lacking (.opening phase unexpected)

theorem onChannelOpen_raises (phase : h.phase = .channelOpen) :
    RaisesAt (Objection h) h (onChannelOpen payload) := by
  unfold onChannelOpen
  dsimp only
  split
  · exact onConfirmation_raises payload phase
  · exact read_raises (ChannelOpenFailure.parse_rejects _) fun _ _ =>
      .throw (.ordinary (ordinary_protocol nofun))
  · exact onGlobalRequest_raises payload
  · exact refuse_raises _

theorem deliver_raises (recipient : UInt32) (length : Nat) (data : ChannelData) :
    RaisesAt (Objection h) h (deliver recipient length data) :=
  read_raises (SessionChannel.checkRecipient_rejects _) fun _ _ => .modify (.pure _)

theorem onIgnored_raises (code : MessageCode) :
    RaisesAt (Objection h) h (onIgnored code payload) :=
  read_raises (ChannelOnly.parse_rejects _ _) fun _ _ =>
    read_raises (SessionChannel.checkRecipient_rejects _) fun _ _ => .pure _

theorem onChannelRequest_raises : RaisesAt (Objection h) h (onChannelRequest payload) :=
  read_raises (ChannelRequest.parse_rejects _) fun _ _ =>
    read_raises (SessionChannel.checkRecipient_rejects _) fun _ _ => .get (.pure _)

theorem onPeerClose_raises : RaisesAt (Objection h) h (onPeerClose payload) :=
  read_raises (ChannelOnly.parse_rejects _ _) fun _ _ =>
    read_raises (SessionChannel.checkRecipient_rejects _) fun _ _ => .get (.set (.pure _))

theorem onEstablished_raises : RaisesAt (Objection h) h (onEstablished payload) := by
  unfold onEstablished
  dsimp only
  split
  · exact read_raises (DataMessage.parse_rejects _) fun _ _ => deliver_raises _ _ _
  · exact read_raises (ExtendedDataMessage.parse_rejects _) fun _ _ => deliver_raises _ _ _
  · exact onIgnored_raises payload _
  · exact onIgnored_raises payload _
  · exact onIgnored_raises payload _
  · exact onChannelRequest_raises payload
  · exact onGlobalRequest_raises payload
  · exact onPeerClose_raises payload
  · exact refuse_raises _

end Session

theorem onPhase_raises : RaisesAt (Objection h) h (onPhase entropy payload) := by
  refine .get ?_
  cases phase : h.phase with
  | headerExchange => exact refuse_raises _
  | kexInit => exact onProposal_raises entropy payload
  | groupNegotiation => exact unlessGuess_raises (onGroup_raises entropy payload)
  | kexReply => exact unlessGuess_raises (onReply_raises payload phase)
  | newKeys => exact onNewKeys_raises payload phase
  | serviceAccept => exact onServiceAccept_raises payload
  | auth stage => exact onAuth_raises payload phase
  | channelOpen => exact onChannelOpen_raises payload phase
  | established => exact onEstablished_raises payload
  | closed => exact .throw (.ordinary Error.ordinary_closed)

/-- A packet is dropped, refused for what it holds, taken as the leave of the server if it is
a DISCONNECT, or treated by its phase if it is not. -/
theorem onPacket_sorts :
    onPacket entropy payload = pure [] ∨
      (∃ error, Ordinary error ∧ onPacket entropy payload = throw error) ∨
      (payload.head? = some MessageCode.disconnect.toByte ∧
        ∃ code description, onPacket entropy payload = do
          enter .closed; throw (.disconnected code description)) ∨
      (payload.head? ≠ some MessageCode.disconnect.toByte ∧
        onPacket entropy payload = onPhase entropy payload) := by
  unfold onPacket
  split
  · exact .inr (.inl ⟨.protocol .emptyPayload, ordinary_protocol nofun, rfl⟩)
  · rename_i code rest
    split
    · exact .inl rfl
    · exact .inl rfl
    · rename_i known
      have head : (code :: rest).head? = some MessageCode.disconnect.toByte :=
        congrArg some (MessageCode.toByte_of_ofByte? known)
      cases parsed : Disconnect.parse (code :: rest) with
      | ok message => exact .inr (.inr (.inl ⟨head, _, _, rfl⟩))
      | error error => exact .inr (.inl ⟨error, Disconnect.parse_rejects _ error parsed, rfl⟩)
    · cases parsed : Reader.parse unimplementedReader (code :: rest) with
      | ok number =>
        exact .inr (.inl ⟨.protocol (.unimplemented number), ordinary_protocol nofun, rfl⟩)
      | error error =>
        have rejects : Rejects Ordinary (Reader.parse unimplementedReader (code :: rest)) :=
          Reader.rejects_parse (.bind Reader.raises_byte fun _ => Reader.raises_uint32) _
        exact .inr (.inl ⟨error, rejects error parsed, rfl⟩)
    · rename_i other _
      refine .inr (.inr (.inr ⟨fun same => other ?_, rfl⟩))
      rw [Option.some.inj same, MessageCode.ofByte?_toByte]

/-- Whatever a packet holds, behind every failure there is an objection, or the leave of
the server. -/
theorem onPacket_raises :
    RaisesAt (fun error => Objection h error ∨ error.Departed) h (onPacket entropy payload) := by
  rcases onPacket_sorts entropy payload with dropped | ⟨error, ordinary, refused⟩ |
    ⟨-, code, description, ended⟩ | ⟨-, treated⟩
  · rw [dropped]
    exact .pure _
  · rw [refused]
    exact .throw (.inl (.ordinary ordinary))
  · rw [ended]
    exact .modify (.throw (.inr (.disconnected code description)))
  · rw [treated]
    exact (onPhase_raises entropy payload).mono fun _ => .inl

/-- An objection of the handshake itself is neither that the packet was changed nor that the
server has left. -/
theorem Objection.own {error : Error} (objection : Objection h error)
    (own : ¬ FromCaller h.config error) : ¬ error.Tampered ∧ ¬ error.Departed := by
  cases objection with
  | ordinary ordinary => exact ⟨ordinary.untampered, ordinary.present⟩
  | @judged hostKey _ refused =>
    have kept (judge : HostKey → Except Error Unit) : h.config.trust ≠ .judged judge := by
      intro other
      rw [other] at refused
      exact own (.judged other refused)
    have ordinary := Trust.check_rejects kept hostKey error refused
    exact ⟨ordinary.untampered, ordinary.present⟩
  | @unsigned identity data _ credential failed =>
    have kept (name : String) (publicKey : Bytes) (signer : Bytes → Except Error Bytes) :
        identity ≠ .provided name publicKey signer := by
      rintro rfl
      exact own (.unsigned credential failed)
    rw [ClientKey.sign_rejects kept data error failed]
    exact ⟨nofun, nofun⟩
  | unsettled _ unimplemented =>
    cases unimplemented
    exact ⟨nofun, nofun⟩
  | lacking => exact ⟨nofun, nofun⟩

/-- No message makes a handshake complain that its packet was changed, unless code of the
caller's does. -/
theorem fromCaller_of_tampered {error : Error} {after : Handshake}
    (failed : onPacket entropy payload h = .error error after) (tampered : error.Tampered) :
    FromCaller h.config error := by
  apply Classical.byContradiction
  intro own
  rcases onPacket_raises entropy payload error after failed with objection | departed
  · exact (objection.own own).1 tampered
  · cases departed
    obtain ⟨fault, other⟩ := tampered
    cases other

end SecureShell.Handshake
