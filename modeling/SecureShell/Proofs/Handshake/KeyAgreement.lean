import SecureShell.Handshake.Receive
import SecureShell.Proofs.Leaves

/-! What the transitions of key agreement do, and what they leave behind where they
fail: nothing has changed then, except that a reply which fails late has used up the
exchange in progress. -/
namespace SecureShell.Handshake

variable {α : Type} {success : α → Handshake → Prop} {failure : Handshake → Prop} {h : Handshake}

section Checks

theorem leaves_lift {result : Except Error α} (ok : ∀ a, result = .ok a → success a h)
    (error : failure h) : Leaves success failure (lift result h) := by
  cases result with
  | ok a => exact ok a rfl
  | error e => exact error

theorem leaves_require {value : Option α} {fault : ProtocolFault}
    (ok : ∀ a, value = some a → success a h) (error : failure h) :
    Leaves success failure (require value fault h) := by
  cases value with
  | some a => exact ok a rfl
  | none => exact error

theorem leaves_expect {success : Unit → Handshake → Prop} {code : MessageCode} {payload : Bytes}
    (ok : payload.headD 0 = code.toByte → success () h) (error : failure h) :
    Leaves success failure (expect code payload h) :=
  .ite (fun _ => error) fun same => ok (Decidable.not_not.1 same)

end Checks

theorem onVersion_leaves (version : Identification) :
    Leaves (fun actions after => h.phase = .headerExchange ∧ actions = [.send h.clientProposal] ∧
        after = { h with serverVersion := some version, phase := .kexInit })
      (fun after => after = h) (onVersion version h) := by
  refine .get (.ite (fun _ => rfl) ?_)
  intro waiting
  exact ⟨Decidable.not_not.1 waiting, rfl, rfl⟩

/-- Two proposals as they were sent agree on algorithms. -/
def Settles (sent received : Bytes) (negotiated : Negotiated) : Prop :=
  ∃ client server, Proposal.parse sent = .ok client ∧ Proposal.parse received = .ok server ∧
    negotiate client server = .ok negotiated

/-- The server's proposal settles the algorithms and begins the exchange, or asks for
its group. -/
theorem onProposal_leaves (entropy : Entropy) (payload : Bytes) :
    Leaves (fun actions after => ∃ negotiated, Settles h.clientProposal payload negotiated ∧
        ((∃ group, DhGroup.ofMethod? negotiated.kex = some group ∧
            actions = [.send (publicMessage .dhInit (.create entropy group))] ∧
            after = { h with
              serverProposal := payload, discardGuess := negotiated.discardGuess
              negotiated := some negotiated, exchange := some (.create entropy group)
              phase := .kexReply }) ∨
          (DhGroup.ofMethod? negotiated.kex = none ∧
            actions = [.send (groupRequest h.config.groupBounds)] ∧
            after = { h with
              serverProposal := payload, discardGuess := negotiated.discardGuess
              negotiated := some negotiated, phase := .groupNegotiation })))
      (fun after => after = h) (onProposal entropy payload h) := by
  refine .bind (leaves_expect ?_ rfl)
  intro _
  refine .get ?_
  refine .bind (leaves_lift ?_ rfl)
  intro client hClient
  refine .bind (leaves_lift ?_ rfl)
  intro server hServer
  refine .bind (leaves_lift ?_ rfl)
  intro negotiated hNegotiated
  have settles : Settles h.clientProposal payload negotiated :=
    ⟨client, server, hClient, hServer, hNegotiated⟩
  cases fixed : DhGroup.ofMethod? negotiated.kex with
  | some group => exact ⟨negotiated, settles, .inl ⟨group, fixed, rfl, rfl⟩⟩
  | none => exact ⟨negotiated, settles, .inr ⟨fixed, rfl, rfl⟩⟩

/-- The server's group begins the exchange if it is of an acceptable size. -/
theorem onGroup_leaves (entropy : Entropy) (payload : Bytes) :
    Leaves (fun actions after => ∃ modulus generator group,
        Reader.parse groupReader payload = .ok (modulus, generator) ∧
        DhGroup.check h.config.groupBounds (Bytes.toNat modulus) (Bytes.toNat generator) =
          .ok group ∧
        actions = [.send (publicMessage .gexInit (.create entropy group))] ∧
        after = { h with
          group := some ⟨h.config.groupBounds, modulus, generator⟩
          exchange := some (.create entropy group), phase := .kexReply })
      (fun after => after = h) (onGroup entropy payload h) := by
  refine .bind (leaves_expect ?_ rfl)
  intro _
  refine .get ?_
  refine .bind (leaves_lift ?_ rfl)
  intro found hFound
  refine .bind (leaves_lift ?_ rfl)
  intro group hGroup
  exact ⟨found.1, found.2, group, hFound, hGroup, rfl, rfl⟩

/-- What has been checked of a reply before it is accepted. -/
structure Accepts (h : Handshake) (negotiated : Negotiated) (exchange : DhExchange)
    (server : Identification) (payload : Bytes) (reply : KexReply) (secret : Bytes) : Prop where
  parsed : KexReply.parse payload = .ok reply
  agreed : exchange.sharedSecret reply.serverPublic = .ok secret
  authentic : ∃ hostKey, HostKey.parse reply.hostKey = .ok hostKey ∧
    hostKey.algorithm = negotiated.hostKey ∧
    hostKey.verify (h.transcript server exchange reply secret).hash reply.signature = .ok () ∧
    h.config.trust.check hostKey = .ok ()

/-- A reply is accepted if its key is of the negotiated kind, has signed what was said
and is trusted. -/
theorem onReply_leaves (payload : Bytes) :
    Leaves (fun actions after => ∃ negotiated exchange server reply secret,
        h.negotiated = some negotiated ∧ h.exchange = some exchange ∧
        h.serverVersion = some server ∧
        Accepts h negotiated exchange server payload reply secret ∧
        actions = [.send (NewKeys.toBytes {})] ∧
        after = { h with
          exchange := none
          sessionId := some (h.sessionId.getD (h.transcript server exchange reply secret).hash)
          pending := some ⟨secret, (h.transcript server exchange reply secret).hash⟩
          phase := .newKeys })
      (fun after => after = h ∨ after = { h with exchange := none }) (onReply payload h) := by
  refine .get ?_
  refine .bind (leaves_expect ?_ (Or.inl rfl))
  intro _
  refine .bind (leaves_lift ?_ (Or.inl rfl))
  intro reply hReply
  refine .get (.bind (leaves_require ?_ (Or.inl rfl)))
  intro negotiated hNegotiated
  refine .bind (leaves_lift ?_ (Or.inl rfl))
  intro hostKey hHostKey
  refine .ite (fun _ => Or.inl rfl) ?_
  intro kind
  refine .get (.bind (leaves_require ?_ (Or.inl rfl)))
  intro exchange hExchange
  refine .modify (.bind (leaves_lift ?_ (Or.inr rfl)))
  intro secret hSecret
  refine .get (.bind (leaves_require ?_ (Or.inr rfl)))
  intro server hServer
  refine .bind (leaves_lift ?_ (Or.inr rfl))
  intro _ hVerified
  refine .bind (leaves_lift ?_ (Or.inr rfl))
  intro _ hTrusted
  exact ⟨negotiated, exchange, server, reply, secret, hNegotiated, hExchange, hServer,
    ⟨hReply, hSecret, hostKey, hHostKey, Decidable.not_not.1 kind, hVerified, hTrusted⟩, rfl, rfl⟩

theorem unlessGuess_guess (transition : Transition) (guess : h.discardGuess = true) :
    unlessGuess transition h = .ok [] { h with discardGuess := false } := by
  simp only [unlessGuess, bind_apply, get_apply, guess]
  rfl

theorem unlessGuess_treat (transition : Transition) (guess : h.discardGuess = false) :
    unlessGuess transition h = transition h := by
  simp only [unlessGuess, bind_apply, get_apply, guess]
  rfl

theorem unlessGuess_cases (transition : Transition) :
    unlessGuess transition h = .ok [] { h with discardGuess := false } ∨
      unlessGuess transition h = transition h := by
  cases guess : h.discardGuess with
  | true => exact .inl (unlessGuess_guess transition guess)
  | false => exact .inr (unlessGuess_treat transition guess)

/-- A packet is dropped, refused, taken as the end, or treated by its phase. -/
theorem onPacket_cases (entropy : Entropy) (payload : Bytes) :
    onPacket entropy payload = pure [] ∨ (∃ error, onPacket entropy payload = throw error) ∨
      (∃ error, onPacket entropy payload = do enter .closed; throw error) ∨
      onPacket entropy payload = onPhase entropy payload := by
  unfold onPacket
  split
  · exact .inr (.inl ⟨_, rfl⟩)
  · rename_i code rest
    split
    · exact .inl rfl
    · exact .inl rfl
    · cases Disconnect.parse (code :: rest) with
      | ok message => exact .inr (.inr (.inl ⟨_, rfl⟩))
      | error error => exact .inr (.inl ⟨error, rfl⟩)
    · cases Reader.parse unimplementedReader (code :: rest) with
      | ok number => exact .inr (.inl ⟨_, rfl⟩)
      | error error => exact .inr (.inl ⟨error, rfl⟩)
    · exact .inr (.inr (.inr rfl))

end SecureShell.Handshake
