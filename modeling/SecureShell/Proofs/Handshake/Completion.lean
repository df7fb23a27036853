import SecureShell.Proofs.Handshake.Accepting
import SecureShell.Proofs.KeyExchange
import SecureShell.Proofs.Messages

/-! An honest server meets a client that completes the handshake. Both sides hash the
same items and raise the same number to the same product of exponents, so the server's
signature is valid for the client, and the keys that the client arms are the server's. -/
namespace SecureShell.Handshake

/-- A handshake in the middle of an exchange, as far as the server knows of it. -/
structure Engaged (config : Config) (proposal : Bytes) (negotiated : Negotiated)
    (server : ServerMessages) (view : ServerView) (h : Handshake) : Prop where
  phase : h.phase = .kexReply
  configured : h.config = config
  clientVersion : h.clientVersion = .ofSoftware config.software none
  clientProposal : h.clientProposal = proposal
  known : h.serverVersion = some server.version
  serverProposal : h.serverProposal = server.proposal
  stored : h.negotiated = some negotiated
  grouped : h.group.map Transcript.encodeGroup = view.chosen.map Transcript.encodeGroup
  unguessed : h.discardGuess = false
  unnamed : h.sessionId = none
  opening : h.channel.state = .opening
  exchange : ∃ exchange, h.exchange = some exchange ∧ exchange.group = view.group ∧
    Bytes.toNat view.clientPublic = exchange.publicValue

/-- A handshake that has accepted the server's reply. -/
structure Assured (config : Config) (negotiated : Negotiated) (secret exchangeHash : Bytes)
    (h : Handshake) : Prop where
  phase : h.phase = .newKeys
  configured : h.config = config
  stored : h.negotiated = some negotiated
  pending : h.pending = some ⟨secret, exchangeHash⟩
  named : h.sessionId = some exchangeHash
  opening : h.channel.state = .opening

/-- What a client does on its way to a session, beside sending. -/
def milestones (negotiated : Negotiated) (secret exchangeHash : Bytes) : List Action :=
  [.armInbound (.derive secret exchangeHash exchangeHash .serverToClient
      negotiated.cipherIn negotiated.macIn),
    .armOutbound (.derive secret exchangeHash exchangeHash .clientToServer
      negotiated.cipherOut negotiated.macOut)] ++
  (if negotiated.compressionOut.delayed || negotiated.compressionIn.delayed then
    [.compress negotiated.compressionOut.delayed negotiated.compressionIn.delayed] else []) ++
  [.established]

theorem filter_arms_milestones (negotiated : Negotiated) (secret exchangeHash : Bytes) :
    (milestones negotiated secret exchangeHash).filter Action.arms =
      [.armInbound (.derive secret exchangeHash exchangeHash .serverToClient
        negotiated.cipherIn negotiated.macIn),
      .armOutbound (.derive secret exchangeHash exchangeHash .clientToServer
        negotiated.cipherOut negotiated.macOut)] := by
  rw [milestones]
  cases negotiated.compressionOut.delayed || negotiated.compressionIn.delayed <;> rfl

section Agreement

variable {config : Config} {proposal : Bytes} {negotiated : Negotiated} {supply : Supply}
  {server : ServerMessages} {view : ServerView} {h : Handshake}

/-- Client and server hash the same items, in whatever form the numbers are written. -/
theorem Engaged.hash_eq {reply : KexReply} {exchange : DhExchange}
    (engaged : Engaged config proposal negotiated server view h)
    (blob : reply.hostKey = view.hostKey.blob)
    (value : Bytes.toNat reply.serverPublic = view.publicValue)
    (clientPublic : Bytes.toNat view.clientPublic = exchange.publicValue) :
    (h.transcript server.version exchange reply view.secret).hash =
      view.exchangeHash config proposal server := by
  apply congrArg Digest.Sha1.digest
  apply Transcript.encode_congr
  · exact congrArg Identification.line engaged.clientVersion
  · rfl
  · exact engaged.clientProposal
  · exact engaged.serverProposal
  · exact blob
  · exact engaged.grouped
  · exact (DhExchange.toNat_publicBytes exchange).trans clientPublic.symm
  · exact value.trans (Bytes.toNat_ofNatNonempty _).symm
  · rfl

/-- Client and server work out the same secret and the same hash, and so the client
accepts the reply. -/
theorem engaged_reply (honest : Honest config proposal negotiated supply server view)
    (engaged : Engaged config proposal negotiated server view h) (entropy : Entropy) :
    ∃ after, h.call (.packet entropy server.reply) = (.ok [.send (NewKeys.toBytes {})], after) ∧
      Assured config negotiated view.secret (view.exchangeHash config proposal server) after := by
  obtain ⟨reply, parsed, blob, value, verified⟩ := honest.reply
  obtain ⟨exchange, held, group, clientPublic⟩ := engaged.exchange
  obtain ⟨low, high⟩ := honest.inRange
  rw [← value, ← group] at high
  rw [← value] at low
  have agreed := DhExchange.sharedSecret_of_range low high
  have secret : powMod (Bytes.toNat reply.serverPublic) exchange.exponent exchange.group.modulus =
      Bytes.toNat view.clientPublic ^ view.exponent % view.group.modulus := by
    rw [value, ServerView.publicValue, ← group, DhExchange.powMod_publicValue, clientPublic]
  rw [secret] at agreed
  have hashed := engaged.hash_eq blob value clientPublic
  have chosen : h.group.isSome = view.chosen.isSome := by
    simpa using congrArg Option.isSome engaged.grouped
  have head : server.reply.headD 0 =
      (if h.group.isSome then MessageCode.gexReply else .dhReply).toByte := by
    rw [chosen, honest.replyCode]
  have key : HostKey.parse reply.hostKey = .ok view.hostKey := by rw [blob, honest.hostKey]
  have trusted : h.config.trust.check view.hostKey = .ok () := by
    rw [engaged.configured, honest.trusted]
  have passed : h.call (.packet entropy server.reply) = _ :=
    reply_passes engaged.phase engaged.unguessed head parsed engaged.stored key honest.algorithm
      held agreed engaged.known (hashed ▸ verified) trusted
  refine ⟨_, passed, rfl, engaged.configured, engaged.stored, ?_, ?_, engaged.opening⟩
  · exact congrArg (fun hash => some (PendingKeys.mk view.secret hash)) hashed
  · exact congrArg some ((congrArg (Option.getD · _) engaged.unnamed).trans hashed)

theorem heard_publicValue {code : MessageCode} {exchange : DhExchange} {clientPublic : Bytes}
    (bits : bitLength exchange.group.modulus < 2 ^ 32) (pos : 0 < exchange.group.modulus)
    (heard : Reader.parse publicReader (publicMessage code exchange) = .ok clientPublic) :
    Bytes.toNat clientPublic = exchange.publicValue := by
  have read : Reader.parse publicReader (publicMessage code exchange) = _ :=
    (reads_public (DhExchange.length_publicBytes_lt pos bits)).parse
  rw [read] at heard
  rw [← Except.ok.inj heard, Bytes.toNat_trimZeros, DhExchange.toNat_publicBytes]

/-- The exchange begins after the server's proposal, and after its group if it has to
choose one. -/
theorem create_engages {entropy : Entropy} {client peer : Proposal}
    (own : Proposal.parse (create entropy config).clientProposal = .ok client)
    (parsed : Proposal.parse server.proposal = .ok peer)
    (agreed : negotiate client peer = .ok negotiated) (unguessed : negotiated.discardGuess = false)
    (honest : Honest config (create entropy config).clientProposal negotiated supply server view) :
    ∃ (payloads : List Bytes) (h : Handshake),
      Passes (.version server.version :: .packet (supply.source 0) server.proposal ::
        server.group.toList.map (.packet (supply.source 1))) (create entropy config)
        (payloads.map .send) h ∧
      Engaged config (create entropy config).clientProposal negotiated server view h ∧
      beginning supply view.group view.chosen.isSome ∈ payloads := by
  -- a fixed group needs one message of the server's, a chosen one needs two
  have version := version_passes (h := create entropy config) rfl server.version
  have heard := honest.heard
  have shares := honest.group
  generalize hGroup : view.group = group at shares heard
  generalize hChosen : view.chosen = chosen at shares heard
  generalize hMessage : server.group = message at shares
  cases shares with
  | fixed method =>
    obtain ⟨bits, pos⟩ := DhGroup.ofMethod?_bits method
    have path : Passes [.version server.version, .packet (supply.source 0) server.proposal]
        (create entropy config) _ _ :=
      .cons version (.one (fixed_passes rfl own parsed agreed method))
    refine ⟨[_, _], _, path,
      ⟨rfl, rfl, rfl, rfl, rfl, rfl, rfl, ?_, unguessed, rfl, rfl, ?_⟩, ?_⟩
    · rw [hChosen]
      rfl
    · exact ⟨_, rfl, hGroup.symm, heard_publicValue bits pos heard⟩
    · exact .tail _ (.head _)
  | @chosen message modulus generator group chosen method asked head given modulusSame
      generatorSame checked =>
    have bounds : config.groupBounds = chosen.bounds := by
      rw [(reads_bounds config.groupBounds).parse] at asked
      exact Except.ok.inj asked
    rw [← bounds] at checked
    obtain ⟨rfl, size, pos⟩ := DhGroup.check_ok checked
    have bits : bitLength (Bytes.toNat modulus) < 2 ^ 32 :=
      Nat.lt_of_le_of_lt size config.groupBounds.most.toNat_lt
    have path : Passes [.version server.version, .packet (supply.source 0) server.proposal,
        .packet (supply.source 1) message] (create entropy config) _ _ :=
      .cons version (.cons (asking_passes rfl own parsed agreed method)
        (.one (group_passes rfl unguessed head given checked)))
    refine ⟨[_, _, _], _, path,
      ⟨rfl, rfl, rfl, rfl, rfl, rfl, rfl, ?_, unguessed, rfl, rfl, ?_⟩, ?_⟩
    · rw [hChosen]
      exact congrArg some (Transcript.encodeGroup_congr bounds modulusSame generatorSame)
    · exact ⟨_, rfl, hGroup.symm, heard_publicValue bits pos heard⟩
    · exact .tail _ (.tail _ (.head _))

/-- A key is offered, accepted and used; a password is used at once. -/
theorem offer_passes (honest : Honest config proposal negotiated supply server view)
    (configured : h.config = config) (usable : Usable config.credential) {sessionId : Bytes}
    (named : h.sessionId = some sessionId)
    (phase : h.phase = .auth (firstRequest config.credential).1) (entropy : Entropy) :
    ∃ (payloads : List Bytes) (stage : AuthStage), Passes (server.keyAccepted.toList.map (.packet entropy)) h
      (payloads.map .send) { h with phase := .auth stage } := by
  have offered := honest.keyAccepted
  cases credential : config.credential with
  | password word =>
    rw [credential] at offered phase
    have same : { h with phase := .auth .password } = h := by
      rw [← show h.phase = .auth .password from phase]
    rw [offered]
    exact ⟨[], .password, same.symm ▸ Passes.nil h⟩
  | key identity =>
    rw [credential] at offered phase usable
    obtain ⟨message, sent, parsed⟩ := offered
    rw [← configured] at credential
    obtain ⟨signature, passed⟩ := keyAccepted_passes phase credential usable named parsed
    rw [sent]
    exact ⟨[_], _, .one passed⟩

theorem assured_completes (honest : Honest config proposal negotiated supply server view)
    (usable : Usable config.credential) {secret exchangeHash : Bytes}
    (assured : Assured config negotiated secret exchangeHash h) :
    ∃ actions after,
      Passes (.packet (supply.source 3) server.newKeys ::
        .packet (supply.source 4) server.serviceAccept ::
        .packet (supply.source 5) server.failure ::
        server.keyAccepted.toList.map (.packet (supply.source 6)) ++
        [.packet (supply.source 7) server.success, .packet (supply.source 8) server.confirmation])
        h actions after ∧
      after.phase = .established ∧ after.sessionId = some exchangeHash ∧
      (∃ confirmation, ChannelConfirmation.parse server.confirmation = .ok confirmation ∧
        h.channel.confirm confirmation = .ok after.channel) ∧
      actions.filter (!·.sends) = milestones negotiated secret exchangeHash := by
  obtain ⟨failure, parsedFailure, allowed⟩ := honest.failure
  obtain ⟨confirmation, parsedConfirmation, ours, sized⟩ := honest.confirmation
  have newKeys : h.call (.packet (supply.source 3) server.newKeys) = _ :=
    newKeys_passes assured.phase honest.newKeys assured.pending assured.named assured.stored
  let serving : Handshake := { h with pending := none, phase := .serviceAccept }
  let asking : Handshake := { serving with phase := .auth .methodsQuery }
  have serviceAccept : serving.call (.packet (supply.source 4) server.serviceAccept) = _ :=
    serviceAccept_passes rfl honest.serviceAccept
  have credential : asking.config.credential = config.credential :=
    congrArg Config.credential assured.configured
  rw [← credential] at allowed
  have failed : asking.call (.packet (supply.source 5) server.failure) = _ :=
    failure_passes rfl parsedFailure allowed
  let offering : Handshake :=
    { asking with phase := .auth (firstRequest asking.config.credential).1 }
  have configured : offering.config = config := assured.configured
  have offeringNamed : offering.sessionId = some exchangeHash := assured.named
  have phase : offering.phase = .auth (firstRequest config.credential).1 := by rw [← credential]
  obtain ⟨offer, stage, offered⟩ :=
    offer_passes honest configured usable offeringNamed phase (supply.source 6)
  let waiting : Handshake := { offering with phase := .auth stage }
  have accepted : waiting.call (.packet (supply.source 7) server.success) = _ :=
    success_passes rfl honest.success assured.stored
  let opening : Handshake := { waiting with phase := .channelOpen }
  obtain ⟨channel, opened, confirmed⟩ := confirmation_passes (supply.source 8)
    (rfl : opening.phase = .channelOpen) assured.opening parsedConfirmation ours sized
  have path := Passes.append
    (.cons newKeys (.cons serviceAccept (.cons failed offered)))
    (.cons accepted (.one confirmed))
  refine ⟨_, _, path, rfl, assured.named, ⟨confirmation, parsedConfirmation, opened⟩, ?_⟩
  rw [milestones]
  simp only [List.filter_append, Action.filter_sends]
  cases negotiated.compressionOut.delayed || negotiated.compressionIn.delayed <;> rfl

end Agreement

/-- A history and the handshake after it show that the two sides are through: no call has
failed, the client has sent its public value, the session is set up under the server's
hash, and the keys that were armed are the server's. -/
structure Completed (negotiated : Negotiated) (beginning secret exchangeHash : Bytes)
    (history : List Record) (h : Handshake) : Prop where
  succeeded : ∀ record ∈ history, ∃ actions, record.outcome = .ok actions
  begun : .send beginning ∈ asked history
  established : h.phase = .established
  named : h.sessionId = some exchangeHash
  armed : (asked history).filter Action.arms =
    [.armInbound (.derive secret exchangeHash exchangeHash .serverToClient
      negotiated.cipherIn negotiated.macIn),
    .armOutbound (.derive secret exchangeHash exchangeHash .clientToServer
      negotiated.cipherOut negotiated.macOut)]

/-- The way of a client through the messages of an honest server. -/
theorem honest_path {entropy : Entropy} {config : Config} (checked : config.check = .ok ())
    (usable : Usable config.credential)
    (fits : config.preferences.Fits)
    {server : ServerMessages} {peer : Proposal} (parsed : Proposal.parse server.proposal = .ok peer)
    (unguessed : peer.guessFollows = false) {negotiated : Negotiated}
    (agreed : negotiate (.ofPreferences entropy config.preferences) peer = .ok negotiated)
    {supply : Supply} {view : ServerView}
    (honest : Honest config (create entropy config).clientProposal negotiated supply server view) :
    ∃ actions before after, Passes (server.calls supply) (create entropy config) actions after ∧
      .send (beginning supply view.group view.chosen.isSome) ∈ actions ∧
      after.phase = .established ∧
      after.sessionId = some (view.exchangeHash config (create entropy config).clientProposal server) ∧
      (∃ confirmation, ChannelConfirmation.parse server.confirmation = .ok confirmation ∧
        SessionChannel.confirm before confirmation = .ok after.channel) ∧
      actions.filter (!·.sends) = milestones negotiated view.secret
        (view.exchangeHash config (create entropy config).clientProposal server) := by
  have own : Proposal.parse (create entropy config).clientProposal = .ok _ :=
    parse_ofPreferences (Config.check_ok checked) fits
  obtain ⟨first, engaged, began, engagement, sent⟩ :=
    create_engages own parsed agreed (discardGuess_of_negotiate agreed unguessed) honest
  obtain ⟨assured, replied, assurance⟩ := engaged_reply honest engagement (supply.source 2)
  obtain ⟨last, after, ended, established, named, confirmed, others⟩ :=
    assured_completes honest usable assurance
  have path := began.append (.cons replied ended)
  have spoken : server.calls supply = _ := List.append_assoc ..
  rw [← List.cons_append, ← spoken] at path
  refine ⟨_, _, after, path, ?_, established, named, confirmed, ?_⟩
  · exact List.mem_append_left _ (List.mem_map_of_mem sent)
  · rw [List.filter_append, List.filter_append, Action.filter_sends, others]
    rfl

/-- After they have agreed, the calls of an honest server all succeed. -/
theorem honest_passes {entropy : Entropy} {config : Config} (checked : config.check = .ok ())
    (usable : Usable config.credential)
    (fits : config.preferences.Fits)
    {server : ServerMessages} {peer : Proposal} (parsed : Proposal.parse server.proposal = .ok peer)
    (unguessed : peer.guessFollows = false) {negotiated : Negotiated}
    (agreed : negotiate (.ofPreferences entropy config.preferences) peer = .ok negotiated)
    {supply : Supply} {view : ServerView}
    (honest : Honest config (create entropy config).clientProposal negotiated supply server view)
    {calls : List Call} (same : calls.filter (!·.isNoise) = server.calls supply) :
    Completed negotiated (beginning supply view.group view.chosen.isSome) view.secret
      (view.exchangeHash config (create entropy config).clientProposal server)
      (run calls (create entropy config)).1 (run calls (create entropy config)).2 := by
  obtain ⟨actions, before, after, path, sent, established, named, -, others⟩ :=
    honest_path checked usable fits parsed unguessed agreed honest
  rw [← same] at path
  obtain ⟨reached, succeeded, all⟩ := path.of_filter.run
  refine ⟨succeeded, ?_, ?_, ?_, ?_⟩
  · rw [all]
    exact sent
  · rw [reached, established]
  · rw [reached, named]
  · have among : actions.filter Action.arms = (actions.filter (!·.sends)).filter Action.arms := by
      rw [List.filter_filter]
      refine List.filter_congr fun action _ => ?_
      cases action <;> rfl
    rw [all, among, others, filter_arms_milestones]

/-- A checked client and a server with common names agree, and whatever an honest server
then says, with messages that are dropped wherever they stand, completes the handshake.
Every list of names has to fit the four bytes of its length. -/
theorem honest_completes (entropy : Entropy) {config : Config} (checked : config.check = .ok ())
    (usable : Usable config.credential)
    (fits : config.preferences.Fits)
    {server : ServerMessages} {peer : Proposal} (parsed : Proposal.parse server.proposal = .ok peer)
    (shared : ∀ slot, Negotiation.Shared slot (.ofPreferences entropy config.preferences) peer)
    (unguessed : peer.guessFollows = false) :
    ∃ negotiated, negotiate (.ofPreferences entropy config.preferences) peer = .ok negotiated ∧
      ∀ (supply : Supply) (view : ServerView),
        Honest config (create entropy config).clientProposal negotiated supply server view →
        ∀ calls : List Call, calls.filter (!·.isNoise) = server.calls supply →
          Completed negotiated (beginning supply view.group view.chosen.isSome) view.secret
            (view.exchangeHash config (create entropy config).clientProposal server)
            (run calls (create entropy config)).1 (run calls (create entropy config)).2 := by
  obtain ⟨negotiated, agreed⟩ := negotiate_ok (Config.check_ok checked) shared
  exact ⟨negotiated, agreed, fun supply view honest calls same =>
    honest_passes checked usable fits parsed unguessed agreed honest same⟩

/-- A client that knows one group and one kind of host key. -/
def smallClient : Config where
  software := "client"
  username := "user"
  credential := .password "secret"
  preferences := { kex := ["diffie-hellman-group1-sha1"], hostKey := ["ssh-dss"] }

def zeros : Entropy := .repeating [0]

/-- A key of a group so small that nothing is left of a digest. -/
def smallKey : Dsa.PublicKey := ⟨23, 11, 2, 2⟩

def smallSignature : Bytes := Bytes.wide 20 2 ++ Bytes.wide 20 2

def smallReply : KexReply where
  hostKey := HostKey.dssBlob smallKey
  serverPublic := [4]
  signature := Wire.text HostKeyAlgorithm.dss.name ++ Wire.string smallSignature

/-- A server with the client's own proposal, and with 2 for an exponent. -/
def smallServer : ServerMessages where
  version := .ofSoftware "server" none
  proposal := (Proposal.ofPreferences zeros smallClient.preferences).toBytes
  group := none
  reply := smallReply.toBytes .dhReply
  newKeys := NewKeys.toBytes {}
  serviceAccept := Service.accept Service.userauth
  failure := UserauthFailure.toBytes ⟨["password"], false⟩
  keyAccepted := none
  success := [MessageCode.userauthSuccess.toByte]
  confirmation := ChannelConfirmation.toBytes ⟨SessionChannel.localId, 0, 65536, 32768⟩

def smallView : ServerView where
  group := .group1
  chosen := none
  exponent := 2
  clientPublic := [4]
  hostKey := ⟨HostKey.dssBlob smallKey, .dss smallKey⟩

def smallAgreement : Negotiated where
  kex := .group1
  hostKey := .dss
  cipherOut := .aes128Ctr
  cipherIn := .aes128Ctr
  macOut := .md5
  macIn := .md5
  compressionOut := .zlibDelayed
  compressionIn := .zlibDelayed
  languageOut := none
  languageIn := none
  discardGuess := false

theorem small_agreed :
    negotiate (.ofPreferences zeros smallClient.preferences)
      (.ofPreferences zeros smallClient.preferences) = .ok smallAgreement := by
  rfl

theorem small_verify (data : Bytes) :
    HostKey.verify smallView.hostKey data smallReply.signature = .ok () := by
  have digest : smallKey.digestNumber data = 0 := by
    have none : bitLength smallKey.q / 8 = 0 := by decide
    rw [Dsa.PublicKey.digestNumber, none, List.take_zero]
    rfl
  have admits : smallKey.admits data 2 2 = true := by
    have inverse : inverseMod 2 smallKey.q = some 6 := by decide +kernel
    have inRange : ¬ ((2 : Nat) = 0 ∨ smallKey.q ≤ 2 ∨ (2 : Nat) = 0 ∨ smallKey.q ≤ 2) := by decide
    simp only [Dsa.PublicKey.admits, if_neg inRange, inverse, digest]
    decide +kernel
  have domain : smallKey.domainValid = true := by decide
  have value : smallKey.valueValid = true := by decide
  have length : smallSignature.length = Der.dssLength := by decide
  have first : Bytes.toNat (smallSignature.take 20) = 2 := by decide
  have second : Bytes.toNat (smallSignature.drop 20) = 2 := by decide
  have verified : smallKey.verify data smallSignature = .ok true := by
    simp only [Dsa.PublicKey.verify, domain, value, length, first, second, admits]
    rfl
  have extracted : HostKey.extractSignature .dss smallReply.signature = .ok smallSignature :=
    HostKey.extractSignature_wrapped .dss (by decide)
  have kind : smallView.hostKey.algorithm = .dss := rfl
  simp only [HostKey.verify, HostKey.verifyWith, kind, extracted, bind, Except.bind]
  simp only [smallView, verified]
  rfl

theorem small_honest : Honest smallClient (create zeros smallClient).clientProposal smallAgreement
    zeros smallServer smallView where
  group := .fixed rfl
  heard := by
    have fits : (DhExchange.create zeros .group1).publicBytes.length + 1 < 2 ^ 32 := by
      decide +kernel
    have read : Reader.parse publicReader (publicMessage .dhInit (.create zeros .group1)) = _ :=
      (reads_public fits).parse
    have value : Bytes.trimZeros (DhExchange.create zeros .group1).publicBytes = [4] := by
      decide +kernel
    rw [value] at read
    exact read
  inRange := by decide +kernel
  hostKey := HostKey.parse_dssBlob (by decide)
  algorithm := rfl
  trusted := rfl
  replyCode := rfl
  reply := ⟨smallReply, KexReply.parse_toBytes (by decide) (by decide) (by decide), rfl,
    by decide +kernel, small_verify _⟩
  newKeys := rfl
  serviceAccept := Service.parse_accept (by decide)
  failure := ⟨_, UserauthFailure.parse_toBytes (by decide) (by decide), by decide⟩
  keyAccepted := rfl
  success := rfl
  confirmation := ⟨_, ChannelConfirmation.parse_toBytes _, rfl, by decide⟩

def smallCalls : List Call :=
  (smallServer.calls zeros).flatMap fun call => [.packet zeros [MessageCode.debug.toByte], call]

theorem filter_smallCalls : smallCalls.filter (!·.isNoise) = smallServer.calls zeros := by
  have own : ∀ call ∈ smallServer.calls zeros, (!call.isNoise) = true :=
    List.all_eq_true.1 (by decide +kernel)
  have noise : (!(Call.packet zeros [MessageCode.debug.toByte]).isNoise) = false := rfl
  rw [smallCalls]
  generalize smallServer.calls zeros = calls at own
  induction calls with
  | nil => rfl
  | cons call rest ih =>
    rw [List.flatMap_cons, List.filter_append, ih fun other later => own other (.tail _ later)]
    simp only [List.filter_cons, noise, own call (.head _), if_true, List.filter_nil]
    rfl

theorem small_fits : smallClient.preferences.Fits := by decide

theorem small_checked : smallClient.check = .ok () := by rfl

theorem small_parsed : Proposal.parse smallServer.proposal =
    .ok (.ofPreferences zeros smallClient.preferences) :=
  parse_ofPreferences (Config.check_ok small_checked) small_fits

/-- The two small sides are through. -/
theorem honest_completes_small :
    Completed smallAgreement (beginning zeros .group1 false) smallView.secret
      (smallView.exchangeHash smallClient (create zeros smallClient).clientProposal smallServer)
      (run smallCalls (create zeros smallClient)).1
      (run smallCalls (create zeros smallClient)).2 := by
  have shared (slot : Slot) : Negotiation.Shared slot
      (.ofPreferences zeros smallClient.preferences)
      (.ofPreferences zeros smallClient.preferences) := by
    cases slot <;> exact ⟨_, .head _, .head _⟩
  obtain ⟨negotiated, agreed, completes⟩ :=
    honest_completes zeros small_checked trivial small_fits small_parsed shared rfl
  obtain rfl : negotiated = smallAgreement := Except.ok.inj (agreed.symm.trans small_agreed)
  exact completes zeros smallView small_honest smallCalls filter_smallCalls

end SecureShell.Handshake
