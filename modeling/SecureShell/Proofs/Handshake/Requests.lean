import SecureShell.Proofs.Handshake.Binding
import SecureShell.Proofs.Handshake.Cues

/-! The requests of a user. As long as nothing fails they are a dialogue: each request
answers the one message of the server that calls for it, and what is signed is the session
that key agreement has named, with the very request that carries the signature. -/
namespace SecureShell.Handshake

variable {config : Config} {proposal : Bytes} {h after : Handshake} {fresh : Entropy}
  {payload : Bytes} {actions : List Action} {history earlier later : List Record}

section Dialogue

/-- The requests of the user that were made. -/
def requested (history : List Record) : List Bytes :=
  (asked history).filterMap (·.sent? .userauthRequest)

theorem requested_append : requested (earlier ++ later) = requested earlier ++ requested later := by
  simp only [requested, asked, List.flatMap_append, List.filterMap_append]

def requestOf (config : Config) (method : AuthMethod) : Bytes :=
  UserauthRequest.toBytes { user := config.username, method }

/-- The key has signed the session, and the request that carries the signature up to it. -/
def Signs (config : Config) (identity : ClientKey) (sessionId signature : Bytes) : Prop :=
  ∃ front, requestOf config (.signed identity.algorithm identity.blob signature) =
      front ++ Wire.string signature ∧
    identity.sign (Wire.string sessionId ++ front) = .ok signature

/-- What is signed is written apart from the request, in the same bytes. -/
theorem signs_of_signatureData {identity : ClientKey} {sessionId signature : Bytes}
    (signed : identity.sign (UserauthRequest.signatureData sessionId config.username
      identity.algorithm identity.blob) = .ok signature) :
    Signs config identity sessionId signature := by
  refine ⟨MessageCode.userauthRequest.toByte :: (Wire.text config.username ++
    Wire.text Service.connection ++ Wire.text "publickey" ++ Wire.bool true ++
    Wire.text identity.algorithm ++ Wire.string identity.blob), ?_, signed⟩
  simp only [requestOf, UserauthRequest.toBytes, AuthMethod.name, AuthMethod.fields,
    List.cons_append, List.append_assoc]

/-- The server's word that a request of the user has failed. -/
def Record.failure? : Record → Option UserauthFailure
  | ⟨.packet _ payload, _⟩ => (UserauthFailure.parse payload).toOption
  | _ => none

/-- Records of no request, and of no failure that the server reports. -/
structure Uneventful (records : List Record) : Prop where
  unasked : requested records = []
  unfailed : records.filterMap (·.failure?) = []

theorem Uneventful.append (first : Uneventful earlier) (second : Uneventful later) :
    Uneventful (earlier ++ later) where
  unasked := by rw [requested_append, first.unasked, second.unasked, List.append_nil]
  unfailed := by rw [List.filterMap_append, first.unfailed, second.unfailed, List.append_nil]

/-- A packet that is answered with a request of the user. -/
def answered (config : Config) (fresh : Entropy) (payload : Bytes) (method : AuthMethod) : Record :=
  ⟨.packet fresh payload, .ok [.send (requestOf config method)]⟩

/-- What client and server say until the user's last request is made: the stage that it
leads to, the history up to it, and all requests in order. -/
inductive Dialogue (config : Config) (proposal : Bytes) :
    Option AuthStage → List Record → List Bytes → Prop where
  | silent : Dialogue config proposal none [] []
  | methods {before : List Record} {fresh : Entropy} {accept : Bytes}
      (unasked : requested before = [])
      (served : Service.parse .serviceAccept accept = .ok Service.userauth) :
      Dialogue config proposal (some .methodsQuery) (before ++ [answered config fresh accept .none])
        [requestOf config .none]
  /-- The first failure that the server reports since lists the method of the credential. -/
  | credential {before between : List Record} {requests : List Bytes} {fresh : Entropy}
      {refusal : Bytes} {failure : UserauthFailure}
      (dialogue : Dialogue config proposal (some .methodsQuery) before requests)
      (quiet : Uneventful between) (parsed : UserauthFailure.parse refusal = .ok failure)
      (allowed : failure.allows config.credential.methodName = true) :
      Dialogue config proposal (some (firstRequest config.credential).1)
        (before ++ between ++ [answered config fresh refusal (firstRequest config.credential).2])
        (requests ++ [requestOf config (firstRequest config.credential).2])
  /-- The server would take the very key that it was asked about. -/
  | signature {before between : List Record} {requests : List Bytes} {fresh : Entropy}
      {answer signature : Bytes} {identity : ClientKey} {agreement : Agreement}
      (dialogue : Dialogue config proposal (some .publicKeyQuery) before requests)
      (quiet : Uneventful between) (own : config.credential = .key identity)
      (parsed : UserauthPkOk.parse answer = .ok ⟨identity.algorithm, identity.blob⟩)
      (shown : agreement.Shown config proposal (before ++ between))
      (signs : Signs config identity (agreement.transcript config proposal).hash signature) :
      Dialogue config proposal (some .publicKeySigned)
        (before ++ between ++
          [answered config fresh answer (.signed identity.algorithm identity.blob signature)])
        (requests ++ [requestOf config (.signed identity.algorithm identity.blob signature)])

theorem requested_answered (method : AuthMethod) :
    requested [answered config fresh payload method] = [requestOf config method] := rfl

theorem Dialogue.requested {stage : Option AuthStage} {requests : List Bytes}
    (dialogue : Dialogue config proposal stage history requests) :
    Handshake.requested history = requests := by
  induction dialogue with
  | silent => rfl
  | methods unasked => rw [requested_append, unasked, requested_answered, List.nil_append]
  | credential _ quiet _ _ ih | signature _ quiet _ _ _ _ ih =>
    rw [requested_append, requested_append, ih, quiet.unasked, requested_answered, List.append_nil]

end Dialogue

section Answers

/-- The stage of authentication that a phase may be in. -/
def Fits : Phase → Option AuthStage → Prop
  | .auth now, stage => stage = some now
  | .channelOpen, _ | .established, _ | .closed, _ => True
  | .headerExchange, stage | .kexInit, stage | .groupNegotiation, stage | .kexReply, stage
  | .newKeys, stage | .serviceAccept, stage => stage = none

abbrev Unasking (actions : List Action) : Prop :=
  actions.filterMap (·.sent? .userauthRequest) = []

theorem requested_ok (call : Call) :
    requested [⟨call, .ok actions⟩] = actions.filterMap (·.sent? .userauthRequest) := by
  rw [requested, asked, List.flatMap_singleton]
  rfl

theorem unasking_sends {messages : List Bytes}
    (other : ∀ message ∈ messages, message.head? ≠ some MessageCode.userauthRequest.toByte) :
    Unasking (messages.map .send) := by
  rw [Unasking, List.filterMap_eq_nil_iff, List.forall_mem_map]
  intro message sent
  exact if_neg (other message sent)

theorem unasking_startRequests (channel : SessionChannel) (pty : Option Pty)
    (command : Option String) :
    Unasking ((channel.startRequests pty command).map .send ++ [.established]) := by
  cases pty <;> rfl

theorem unasking_peerClosed (channel : SessionChannel) :
    Unasking ((channel.peerClosed.1.map Action.send).toList ++ [.closed]) := by
  have said : ∀ message ∈ channel.peerClosed.1,
      message = ChannelOnly.toBytes .channelClose channel.remoteId := fun _ => close_message
  cases closing : channel.peerClosed.1 with
  | none => rfl
  | some message =>
    rw [said message closing]
    rfl

/-- A packet that is accepted is answered with a request of the user that it calls for, or
with none, and then it leads to no other stage of authentication. -/
theorem Reaction.asks (reaction : Reaction fresh payload h actions after) :
    (∃ stage method, Asks payload h stage method ∧ actions = [.send (requestOf h.config method)] ∧
      after.phase = .auth stage) ∨
    (Unasking actions ∧ ∀ stage, Fits h.phase stage → Fits after.phase stage) := by
  cases reaction with
  | requested stage method _ asks => exact .inl ⟨stage, method, asks, rfl, rfl⟩
  | ignored | dropped | delivered => exact .inr ⟨rfl, fun _ fits => fits⟩
  | began phase | asked phase | chose phase | replied phase | armed phase =>
    refine .inr ⟨rfl, ?_⟩
    intro stage fits
    rw [phase] at fits
    exact fits
  | welcomed outbound inbound =>
    refine .inr ⟨?_, fun _ _ => trivial⟩
    cases outbound <;> cases inbound <;> rfl
  | confirmed => exact .inr ⟨unasking_startRequests _ _ _, fun _ _ => trivial⟩
  | refused _ known =>
    refine .inr ⟨?_, fun _ fits => fits⟩
    simp only [List.mem_cons, List.not_mem_nil, or_false] at known
    rcases known with rfl | rfl <;> rfl
  | parted => exact .inr ⟨unasking_peerClosed _, fun _ _ => trivial⟩

theorem onPacket_failure {stage : AuthStage} {failure : UserauthFailure}
    (parsed : UserauthFailure.parse payload = .ok failure) (phase : h.phase = .auth stage) :
    onPacket fresh payload h = onAuthFailure stage failure h := by
  have head : payload.headD 0 = MessageCode.userauthFailure.toByte := head_of_expect parsed
  rw [onPacket_eq_onPhase head (by decide)]
  simp only [onPhase, bind_apply, get_apply, phase, onAuth, head, MessageCode.ofByte?_toByte, parsed]
  rfl

/-- No failure but the first is heeded, and the first only where it lists the method. -/
theorem failure_refused {stage : AuthStage} {failure : UserauthFailure}
    (parsed : UserauthFailure.parse payload = .ok failure) (phase : h.phase = .auth stage)
    (other : ¬ (stage = .methodsQuery ∧
      failure.allows h.config.credential.methodName = true)) :
    ∃ fault, onPacket fresh payload h = .error (.auth fault) h := by
  rw [onPacket_failure parsed phase]
  by_cases first : stage = .methodsQuery
  · have unlisted : failure.allows h.config.credential.methodName = false := by
      simpa [first] using other
    refine ⟨.notAccepted h.config.credential.methodName
      (String.intercalate "," failure.methods), ?_⟩
    simp only [onAuthFailure, bind_apply, get_apply, first, unlisted]
    rfl
  · refine ⟨.rejected h.config.credential.methodName (String.intercalate "," failure.methods), ?_⟩
    simp only [onAuthFailure, bind_apply, get_apply, if_pos first]
    rfl

/-- How the packets are taken that decide what a user asks for: the service that was asked
for, and every failure that the server reports in the course of authentication. -/
structure Heeds (config : Config) (h : Handshake) (fresh : Entropy) (payload : Bytes) : Prop where
  served : h.phase = .serviceAccept →
    Service.parse .serviceAccept payload = .ok Service.userauth →
    (h.call (.packet fresh payload)).1 = .ok [.send (requestOf config .none)]
  listed (failure : UserauthFailure) : h.phase = .auth .methodsQuery →
    UserauthFailure.parse payload = .ok failure →
    failure.allows config.credential.methodName = true →
    (h.call (.packet fresh payload)).1 =
      .ok [.send (requestOf config (firstRequest config.credential).2)]
  refused (stage : AuthStage) (failure : UserauthFailure) : h.phase = .auth stage →
    UserauthFailure.parse payload = .ok failure →
    ¬ (stage = .methodsQuery ∧ failure.allows config.credential.methodName = true) →
    ∃ fault, Handshake.onPacket fresh payload h = .error (.auth fault) h

theorem heeds_of_configured (fresh : Entropy) (payload : Bytes) (configured : h.config = config) :
    Heeds config h fresh payload := by
  subst configured
  constructor
  · intro phase parsed
    rw [serviceAccept_passes phase parsed]
    rfl
  · intro failure phase parsed allowed
    rw [failure_passes phase parsed allowed]
    rfl
  · intro stage failure phase parsed other
    exact failure_refused parsed phase other

theorem failure_late {failure : UserauthFailure}
    (parsed : UserauthFailure.parse payload = .ok failure)
    (late : h.phase = .channelOpen ∨ h.phase = .established ∨ h.phase = .closed) :
    ∃ error, onPacket fresh payload h = .error error h := by
  have head : payload.headD 0 = MessageCode.userauthFailure.toByte := head_of_expect parsed
  rw [onPacket_eq_onPhase head (by decide)]
  rcases late with phase | phase | phase <;>
  · simp only [onPhase, bind_apply, get_apply, phase, onChannelOpen, onEstablished, head,
      MessageCode.ofByte?_toByte]
    exact ⟨_, rfl⟩

/-- Once there is a stage, a failure that is accepted is answered with a request. -/
theorem asks_of_failure {stage : AuthStage} {failure : UserauthFailure}
    (parsed : UserauthFailure.parse payload = .ok failure) (fits : Fits h.phase (some stage))
    (accepted : onPacket fresh payload h = .ok actions after) : ¬ Unasking actions := by
  have failed (refused : ∃ error, onPacket fresh payload h = .error error h) :
      ¬ Unasking actions := by
    obtain ⟨error, refused⟩ := refused
    rw [refused] at accepted
    cases accepted
  cases phase : h.phase with
  | headerExchange | kexInit | groupNegotiation | kexReply | newKeys | serviceAccept =>
    rw [phase] at fits
    cases fits
  | channelOpen => exact failed (failure_late parsed (.inl phase))
  | established => exact failed (failure_late parsed (.inr (.inl phase)))
  | closed => exact failed (failure_late parsed (.inr (.inr phase)))
  | auth now =>
    by_cases heeded : now = .methodsQuery ∧ failure.allows h.config.credential.methodName = true
    · obtain ⟨rfl, allowed⟩ := heeded
      have passed : h.call (.packet fresh payload) = _ := failure_passes phase parsed allowed
      rw [call, accepted] at passed
      cases (Prod.mk.inj passed).1
      intro unasking
      cases unasking
    · obtain ⟨fault, refused⟩ := failure_refused parsed phase heeded
      exact failed ⟨_, refused⟩

end Answers

section Calls

/-- What a call has done that has not failed. -/
inductive Done (h : Handshake) : Call → List Action → Handshake → Prop where
  | version (version : Identification) (phase : h.phase = .headerExchange) :
      Done h (.version version) [.send h.clientProposal]
        { h with serverVersion := some version, phase := .kexInit }
  | packet {fresh : Entropy} {payload : Bytes} {actions : List Action} {after : Handshake}
      (accepted : Handshake.onPacket fresh payload h = .ok actions after) :
      Done h (.packet fresh payload) actions after
  | write {data : Bytes} {messages : List Bytes} (taken : h.write data = .ok messages) :
      Done h (.write data) (messages.map .send) h
  | close : Done h .close (h.close.1.map .send) h.close.2
  | abort : Done h .abort [] h.abort

theorem done_of_call {action : Call} (called : h.call action = (.ok actions, after)) :
    Done h action actions after := by
  cases action with
  | version version =>
    have accepted : onVersion version h = .ok actions after := outcome_eq_ok called
    have leaves := onVersion_leaves version (h := h)
    rw [accepted] at leaves
    obtain ⟨phase, rfl, rfl⟩ := leaves
    exact .version version phase
  | packet fresh payload => exact .packet (outcome_eq_ok called)
  | write data =>
    rw [call] at called
    cases taken : h.write data with
    | ok messages =>
      rw [taken] at called
      cases called
      exact .write taken
    | error error =>
      rw [taken] at called
      cases called
  | close =>
    cases called
    exact .close
  | abort =>
    cases called
    exact .abort

theorem KeyExchangeInvariant.proposes (invariant : KeyExchangeInvariant config proposal history h)
    (phase : h.phase = .headerExchange) : h.clientProposal = proposal := by
  cases invariant with
  | waiting _ fresh => exact fresh.clientProposal
  | bound secured =>
    rw [phase] at secured
    cases secured
  | introduced other | asking other | exchanging other | closed other =>
    rw [phase] at other
    cases other

theorem unasking_write {data : Bytes} {messages : List Bytes}
    (taken : h.write data = .ok messages) : Unasking (messages.map .send) := by
  obtain ⟨-, -, utters⟩ := write_due h.config taken
  apply unasking_sends
  intro message sent
  obtain ⟨kind, listed, said⟩ := kind_of_mem utters sent
  obtain ⟨-, -, rfl⟩ := List.mem_map.1 listed
  rw [said.head]
  decide

theorem unasking_close (h : Handshake) : Unasking (h.close.1.map .send) := by
  apply unasking_sends
  intro message sent
  unfold close at sent
  split at sent
  · cases sent
  · rcases List.mem_append.1 sent with owed | leave
    · have head : message.head? = some MessageCode.channelClose.toByte := by
        rw [close_message (Option.mem_toList.1 owed)]
        rfl
      rw [head]
      decide
    · split at leave
      · cases leave
      · rw [List.mem_singleton.1 leave]
        decide

end Calls

section Logs

/-- A handshake that has failed at nothing: its history is a dialogue, and nothing that
concerns the user since. -/
structure Logs (config : Config) (proposal : Bytes) (history : List Record) (h : Handshake) :
    Prop where
  configured : h.config = config
  keyExchange : KeyExchangeInvariant config proposal history h
  dialogue : ∃ stage said since requests, history = said ++ since ∧
    Dialogue config proposal stage said requests ∧ requested since = [] ∧
    (stage ≠ none → Uneventful since) ∧ Fits h.phase stage

theorem create_logs (entropy : Entropy) (config : Config) :
    Logs config (create entropy config).clientProposal [] (create entropy config) where
  configured := rfl
  keyExchange := create_keyExchangeInvariant entropy config
  dialogue := ⟨none, [], [], [], rfl, .silent, rfl, fun _ => ⟨rfl, rfl⟩, rfl⟩

/-- A call with which nothing is asked for. -/
theorem Logs.rests {action : Call} (logs : Logs config proposal history h)
    (done : h.call action = (.ok actions, after)) (configured : after.config = h.config)
    (unasking : Unasking actions)
    (unfailed : ∀ stage, Fits h.phase (some stage) →
      Record.failure? ⟨action, .ok actions⟩ = none)
    (fits : ∀ stage, Fits h.phase stage → Fits after.phase stage) :
    Logs config proposal (history ++ [⟨action, .ok actions⟩]) after := by
  have invariant := logs.keyExchange.call action
  rw [done] at invariant
  obtain ⟨stage, said, since, requests, rfl, dialogue, unasked, quiet, here⟩ := logs.dialogue
  have unrequested : requested [⟨action, .ok actions⟩] = [] := (requested_ok action).trans unasking
  refine ⟨configured.trans logs.configured, invariant, stage, said,
    since ++ [⟨action, .ok actions⟩],
    requests, List.append_assoc .., dialogue, ?_, ?_, fits stage here⟩
  · rw [requested_append, unasked, unrequested, List.append_nil]
  · intro begun
    obtain ⟨now, rfl⟩ := Option.ne_none_iff_exists'.1 begun
    exact (quiet begun).append ⟨unrequested, List.filterMap_cons_none (unfailed now here)⟩

/-- A message that calls for a request goes on with the dialogue. -/
theorem Logs.asks {stage : AuthStage} {method : AuthMethod}
    (logs : Logs config proposal history h) (asks : Asks payload h stage method) :
    ∃ requests, Dialogue config proposal (some stage)
      (history ++ [answered config fresh payload method]) requests := by
  obtain ⟨before, said, since, requests, rfl, dialogue, unasked, quiet, here⟩ := logs.dialogue
  have own := logs.configured
  cases asks with
  | methods phase served =>
    rw [phase] at here
    obtain rfl : before = none := here
    cases dialogue
    exact ⟨_, .methods unasked served⟩
  | credential phase parsed allowed =>
    rw [phase] at here
    obtain rfl : before = some .methodsQuery := here
    rw [own] at allowed ⊢
    exact ⟨_, .credential dialogue (quiet (by simp)) parsed allowed⟩
  | @signature identity answer sessionId signature phase credential parsed echoed named signed =>
    rw [phase] at here
    obtain rfl : before = some .publicKeyQuery := here
    rw [own] at credential signed
    rw [echoed] at parsed
    cases logs.keyExchange with
    | bound _ shown hashed =>
      -- the session is named by the agreement that the history shows
      obtain rfl := Option.some.inj (named.symm.trans hashed)
      exact ⟨_, .signature dialogue (quiet (by simp)) credential parsed shown
        (signs_of_signatureData signed)⟩
    | waiting other | introduced other | asking other | exchanging other | closed other =>
      rw [phase] at other
      cases other

theorem Logs.onPacket (logs : Logs config proposal history h)
    (accepted : Handshake.onPacket fresh payload h = .ok actions after) :
    Logs config proposal (history ++ [⟨.packet fresh payload, .ok actions⟩]) after := by
  have reaction := reaction_of_onPacket accepted
  have done : h.call (.packet fresh payload) = (.ok actions, after) := by rw [call, accepted]; rfl
  rcases reaction.asks with ⟨stage, method, asks, rfl, entered⟩ | ⟨unasking, fits⟩
  · have invariant := logs.keyExchange.call (.packet fresh payload)
    rw [done] at invariant
    obtain ⟨requests, dialogue⟩ : ∃ requests, Dialogue config proposal (some stage)
        (history ++ [answered config fresh payload method]) requests := logs.asks asks
    have own := logs.configured
    rw [own] at invariant ⊢
    exact ⟨reaction.configured.trans own, invariant, some stage, _, [], requests,
      (List.append_nil _).symm, dialogue, rfl, fun _ => ⟨rfl, rfl⟩, by rw [entered]; rfl⟩
  · refine logs.rests done reaction.configured unasking ?_ fits
    intro stage here
    cases parsed : UserauthFailure.parse payload with
    | error error => simp only [Record.failure?, parsed, Except.toOption]
    | ok failure => exact absurd unasking (asks_of_failure parsed here accepted)

/-- What a call preserves where it does not fail. -/
theorem Logs.call (begins : proposal.head? = some MessageCode.kexInit.toByte)
    (logs : Logs config proposal history h) {action : Call}
    (called : h.call action = (.ok actions, after)) :
    Logs config proposal (history ++ [⟨action, .ok actions⟩]) after := by
  cases done_of_call called with
  | version version phase =>
    have unasking : Unasking ([h.clientProposal].map .send) := by
      apply unasking_sends
      rw [List.forall_mem_singleton, logs.keyExchange.proposes phase, begins]
      decide
    refine logs.rests called rfl unasking (fun _ _ => rfl) ?_
    intro stage fits
    rw [phase] at fits
    exact fits
  | packet accepted => exact logs.onPacket accepted
  | write taken =>
    exact logs.rests called rfl (unasking_write taken) (fun _ _ => rfl) fun _ fits => fits
  | close =>
    obtain ⟨closed, configured, -⟩ := close_closes h
    refine logs.rests called configured (unasking_close h) (fun _ _ => rfl) ?_
    intro stage _
    rw [closed]
    trivial
  | abort => exact logs.rests called rfl rfl (fun _ _ => rfl) fun _ _ => trivial

end Logs

section Runs

/-- Calls of which none fails, but that a packet may end with an error; then the handshake
is given up. -/
inductive Goes : Handshake → List Call → Option Error → Prop where
  | nil (h : Handshake) : Goes h [] none
  | next {h after : Handshake} {action : Call} {rest : List Call} {actions : List Action}
      {ending : Option Error} (called : h.call action = (.ok actions, after))
      (goes : Goes after rest ending) : Goes h (action :: rest) ending
  | halted {h after : Handshake} {fresh : Entropy} {payload : Bytes} {error : Error}
      (failed : Handshake.onPacket fresh payload h = .error error after) :
      Goes h [.packet fresh payload, .abort] (some error)

variable {front back calls : List Call} {ending : Option Error}

theorem Goes.append (first : Goes h front none) (second : Goes (run front h).2 back ending) :
    Goes h (front ++ back) ending := by
  induction front generalizing h with
  | nil => exact second
  | cons action rest ih =>
    cases first with
    | next called goes =>
      rw [run_cons called] at second
      exact .next called (ih goes second)

/-- Whatever packet is looked at, nothing has failed before it, and if it fails, it is the
last one. -/
theorem Goes.split (goes : Goes h (front ++ .packet fresh payload :: back) ending) :
    Goes h front none ∧ ∀ error after,
      Handshake.onPacket fresh payload (run front h).2 = .error error after →
        back = [.abort] ∧ ending = some error := by
  -- on what was called before: an error in it would have been followed by one call, no packet
  induction front generalizing h with
  | nil =>
    constructor
    · exact .nil h
    intro error after failed
    cases goes with
    | next called =>
      cases done_of_call called with
      | packet accepted => cases failed.symm.trans accepted
    | halted known =>
      cases failed.symm.trans known
      exact ⟨rfl, rfl⟩
  | cons action rest ih =>
    generalize whole : action :: rest ++ .packet fresh payload :: back = calls at goes
    cases goes with
    | nil => cases whole
    | next called goes =>
      obtain ⟨rfl, rfl⟩ := List.cons.inj whole
      obtain ⟨steady, last⟩ := ih goes
      rw [run_cons called]
      exact ⟨.next called steady, last⟩
    | halted =>
      have tail := (List.cons.inj whole).2
      cases rest with
      | nil => cases tail
      | cons next more =>
        have empty := (List.cons.inj tail).2
        cases more <;> cases empty

/-- What calls preserve of which none fails. -/
theorem Logs.run (begins : proposal.head? = some MessageCode.kexInit.toByte)
    (logs : Logs config proposal history h) (goes : Goes h calls none) :
    Logs config proposal (history ++ (Handshake.run calls h).1) (Handshake.run calls h).2 := by
  induction calls generalizing history h with
  | nil =>
    rw [Handshake.run, List.append_nil]
    exact logs
  | cons action rest ih =>
    cases goes with
    | next called goes =>
      have later := ih (logs.call begins called) goes
      rw [run_cons called]
      rwa [List.append_assoc] at later

/-- What was called up to the error. -/
theorem Goes.ends {error : Error} (goes : Goes h calls (some error)) :
    ∃ front fresh payload after, calls = front ++ [.packet fresh payload, .abort] ∧
      Goes h front none ∧
      Handshake.onPacket fresh payload (Handshake.run front h).2 = .error error after := by
  generalize ended : some error = ending at goes
  induction goes with
  | nil => cases ended
  | @next h after action rest actions ending called goes ih =>
    obtain ⟨front, fresh, payload, left, rfl, steady, failed⟩ := ih ended
    refine ⟨action :: front, fresh, payload, left, rfl, .next called steady, ?_⟩
    rw [run_cons called]
    exact failed
  | @halted h after fresh payload _ failed =>
    cases ended
    exact ⟨[], fresh, payload, after, rfl, .nil h, failed⟩

/-- Up to the error that ends it all, and whether there is one or not, the history is a
dialogue, and the user asks for nothing more. -/
theorem Goes.dialogue {entropy : Entropy} (goes : Goes (create entropy config) calls ending) :
    ∃ stage said rest requests, (Handshake.run calls (create entropy config)).1 = said ++ rest ∧
      Dialogue config (create entropy config).clientProposal stage said requests ∧
      requested rest = [] := by
  have begins : (create entropy config).clientProposal.head? =
    some MessageCode.kexInit.toByte := rfl
  have logged {front : List Call} (steady : Goes (create entropy config) front none) :=
    ((create_logs entropy config).run begins steady).dialogue
  cases ending with
  | none =>
    obtain ⟨stage, said, since, requests, whole, dialogue, unasked, -⟩ := logged goes
    exact ⟨stage, said, since, requests, whole, dialogue, unasked⟩
  | some error =>
    obtain ⟨front, fresh, payload, after, rfl, steady, failed⟩ := goes.ends
    obtain ⟨stage, said, since, requests, whole, dialogue, unasked, -⟩ := logged steady
    have left : (Handshake.run [.packet fresh payload, .abort]
        (Handshake.run front (create entropy config)).2).1 =
        [⟨.packet fresh payload, .error error⟩, ⟨.abort, .ok []⟩] := by
      simp only [Handshake.run, Handshake.call, failed, outcome]
    rw [List.nil_append] at whole
    refine ⟨stage, said, since ++ [⟨.packet fresh payload, .error error⟩, ⟨.abort, .ok []⟩],
      requests, ?_, dialogue, ?_⟩
    · rw [run_append, whole, left, List.append_assoc]
    · rw [requested_append, unasked]
      rfl

theorem Goes.heeds {entropy : Entropy}
    (goes : Goes (create entropy config) (front ++ .packet fresh payload :: back) ending) :
    Heeds config (Handshake.run front (create entropy config)).2 fresh payload :=
  heeds_of_configured fresh payload ((create_logs entropy config).run rfl goes.split.1).configured

end Runs

end SecureShell.Handshake
