import SecureShell.Proofs.Handshake.Completion
import SecureShell.Proofs.Handshake.Objections
import SecureShell.Proofs.Handshake.Reaction
import SecureShell.Proofs.Handshake.Secured

/-! What a call that fails leaves behind. A transition checks before it changes anything,
with two exceptions: a reply uses up the exchange in progress before its signature is looked
at, and the new keys are taken before what they are made of is known to be there. The second
never shows, because whatever leads to the new keys has put it there; the first leaves a
handshake to which nobody can prove who they are any more. -/
namespace SecureShell.Handshake

variable {α : Type} {entropy : Entropy} {payload : Bytes} {h after : Handshake} {error : Error}

section Careful

/-- A transition that changes nothing where it fails. -/
def Careful (run : Transition) : Prop :=
  ∀ h : Handshake, Leaves (fun _ _ => True) (fun after => after = h) (run h)

theorem refuse_careful (code : UInt8) : Careful (refuse code) := fun _ => rfl

theorem throw_careful (error : Error) : Careful (throw error) := fun _ => rfl

theorem pure_careful (actions : List Action) : Careful (pure actions) := fun _ => trivial

theorem lift_careful {result : Except Error α} {rest : α → Transition}
    (careful : ∀ a, Careful (rest a)) : Careful (lift result >>= rest) := fun h =>
  .bind (leaves_lift (fun a _ => careful a h) rfl)

theorem require_careful {value : Option α} {fault : ProtocolFault} {rest : α → Transition}
    (careful : ∀ a, Careful (rest a)) : Careful (require value fault >>= rest) := fun h =>
  .bind (leaves_require (fun a _ => careful a h) rfl)

theorem expect_careful {code : MessageCode} {payload : Bytes} {rest : Unit → Transition}
    (careful : Careful (rest ())) : Careful (expect code payload >>= rest) := fun h =>
  .bind (leaves_expect (fun _ => careful h) rfl)

theorem get_careful {rest : Handshake → Transition} (careful : ∀ seen, Careful (rest seen)) :
    Careful (get >>= rest) := fun h => .get (careful h h)

theorem ite_careful {c : Prop} [Decidable c] {first second : Transition} (hFirst : Careful first)
    (hSecond : Careful second) : Careful (if c then first else second) := by
  split
  · exact hFirst
  · exact hSecond

theorem request_careful (stage : AuthStage) (method : AuthMethod) :
    Careful (request stage method) := fun _ => trivial

theorem onServiceAccept_careful (payload : Bytes) : Careful (onServiceAccept payload) :=
  expect_careful (lift_careful fun _ => ite_careful (throw_careful _) (request_careful _ _))

theorem onAuthFailure_careful (stage : AuthStage) (failure : UserauthFailure) :
    Careful (onAuthFailure stage failure) := by
  apply get_careful
  intro seen
  exact ite_careful (throw_careful _) (ite_careful (throw_careful _) (request_careful _ _))

theorem onPkOk_careful (answer : UserauthPkOk) : Careful (onPkOk answer) := by
  apply get_careful
  intro seen
  cases seen.config.credential with
  | password word => exact throw_careful _
  | key identity =>
    apply ite_careful (throw_careful _)
    exact require_careful fun _ => lift_careful fun _ => request_careful _ _

theorem onAuthSuccess_careful : Careful onAuthSuccess :=
  get_careful fun _ => require_careful fun _ _ => trivial

theorem onAuth_careful (stage : AuthStage) (payload : Bytes) : Careful (onAuth stage payload) := by
  unfold onAuth
  dsimp only
  split
  · exact lift_careful fun _ => pure_careful _
  · exact onAuthSuccess_careful
  · exact lift_careful fun failure => onAuthFailure_careful stage failure
  · cases stage with
    | publicKeyQuery => exact lift_careful fun answer => onPkOk_careful answer
    | password => exact throw_careful _
    | methodsQuery | publicKeySigned => exact refuse_careful _
  · exact refuse_careful _

theorem onGlobalRequest_careful (payload : Bytes) : Careful (onGlobalRequest payload) :=
  lift_careful fun _ => pure_careful _

theorem onChannelOpen_careful (payload : Bytes) : Careful (onChannelOpen payload) := by
  unfold onChannelOpen
  dsimp only
  split
  · exact lift_careful fun _ => get_careful fun _ => lift_careful fun _ _ => trivial
  · exact lift_careful fun _ => throw_careful _
  · exact onGlobalRequest_careful payload
  · exact refuse_careful _

/-- The recipient of a message is checked before the message is acted on. -/
theorem deliver_careful (recipient : UInt32) (length : Nat) (data : ChannelData) :
    Careful (deliver recipient length data) := lift_careful fun _ _ => trivial

theorem onIgnored_careful (code : MessageCode) (payload : Bytes) :
    Careful (onIgnored code payload) :=
  lift_careful fun _ => lift_careful fun _ => pure_careful _

theorem onEstablished_careful (payload : Bytes) : Careful (onEstablished payload) := by
  unfold onEstablished
  dsimp only
  split
  · exact lift_careful fun _ => deliver_careful _ _ _
  · exact lift_careful fun _ => deliver_careful _ _ _
  · exact onIgnored_careful _ payload
  · exact onIgnored_careful _ payload
  · exact onIgnored_careful _ payload
  · exact lift_careful fun _ => lift_careful fun _ => get_careful fun _ => pure_careful _
  · exact onGlobalRequest_careful payload
  · exact lift_careful fun _ => lift_careful fun _ => get_careful fun _ _ => trivial
  · exact refuse_careful _

end Careful

section NewKeys

/-- The invariant of the switch of keys: a handshake that waits for NEWKEYS has a session id
and negotiated algorithms, from which the keys are derived. -/
def NewKeysInvariant (h : Handshake) : Prop :=
  h.phase = .newKeys → h.sessionId ≠ none ∧ h.negotiated ≠ none

theorem newKeysInvariant_elsewhere (phase : Phase) (known : h.phase = phase)
    (elsewhere : phase ≠ .newKeys) : NewKeysInvariant h :=
  fun switching => absurd (known.symm.trans switching) elsewhere

theorem create_newKeysInvariant (entropy : Entropy) (config : Config) :
    NewKeysInvariant (create entropy config) :=
  newKeysInvariant_elsewhere .headerExchange rfl (by decide)

/-- Only a reply that was accepted leads to the new keys. -/
theorem Reaction.newKeysInvariant {actions : List Action}
    (reaction : Reaction entropy payload h actions after)
    (invariant : NewKeysInvariant h) : NewKeysInvariant after := by
  cases reaction with
  | ignored | refused => exact invariant
  | dropped => exact invariant
  | delivered length phase =>
    intro switching
    rw [show h.phase = .newKeys from switching] at phase
    cases phase
  | replied _ stored =>
    intro _
    refine ⟨nofun, ?_⟩
    rw [show _ = _ from stored]
    nofun
  | began | asked | chose | armed | requested | welcomed | confirmed | parted => exact nofun

theorem leaves_held {success : α → Handshake → Prop} {failure : Handshake → Prop} {a : α}
    {value : Option α} {fault : ProtocolFault} (held : value = some a) (ok : success a h) :
    Leaves success failure (require value fault h) := by
  subst held
  exact ok

/-- The new keys are not taken in vain. -/
theorem onNewKeys_kept (invariant : NewKeysInvariant h) (phase : h.phase = .newKeys)
    (payload : Bytes) :
    Leaves (fun _ _ => True) (fun after => after = h) (onNewKeys payload h) := by
  obtain ⟨named, settled⟩ := invariant phase
  obtain ⟨sessionId, named⟩ := Option.ne_none_iff_exists'.1 named
  obtain ⟨negotiated, settled⟩ := Option.ne_none_iff_exists'.1 settled
  refine .bind (leaves_expect ?_ rfl)
  intro _
  refine .bind (leaves_lift ?_ rfl)
  intro _ _
  refine .get (.bind (leaves_require ?_ rfl))
  intro pending _
  refine .modify (.get (.bind (leaves_held named ?_)))
  exact .get (.bind (leaves_held settled trivial))

end NewKeys

section Spent

/-- A handshake to which no reply can be accepted any more. -/
inductive Spent (h : Handshake) : Prop where
  | closed : h.phase = .closed → Spent h
  | used : h.phase = .kexReply → h.exchange = none → Spent h

theorem Spent.unsecured (spent : Spent h) : h.phase.secured = false := by
  cases spent with
  | closed phase | used phase => rw [phase]; rfl

/-- Without an exchange in progress there is no reply to accept. -/
theorem Spent.onPacket (spent : Spent h) :
    Leaves (fun actions after => actions = [] ∧ Spent after) Spent
      (Handshake.onPacket entropy payload h) := by
  rcases onPacket_cases entropy payload with dropped | ⟨error, refused⟩ | ⟨error, ended⟩ | treated
  · rw [dropped]
    exact ⟨rfl, spent⟩
  · rw [refused]
    exact spent
  · rw [ended]
    exact .closed rfl
  · rw [treated]
    refine .get ?_
    cases spent with
    | closed phase =>
      simp only [phase]
      exact .closed phase
    | used phase used =>
      simp only [phase]
      rcases unlessGuess_cases (h := h) (onReply payload) with guessed | replied
      · rw [guessed]
        exact ⟨rfl, .used phase used⟩
      · rw [replied]
        refine (onReply_leaves payload).imp ?_ ?_
        · rintro actions after ⟨_, exchange, _, _, _, _, held, _⟩
          rw [used] at held
          cases held
        · rintro after (rfl | rfl)
          · exact .used phase used
          · exact .used phase rfl

theorem Spent.call (spent : Spent h) (action : Call) :
    Spent (h.call action).2 ∧ Record.answers .newKeys ⟨action, (h.call action).1⟩ = [] := by
  cases action with
  | version version =>
    have refused := onVersion_leaves version (h := h)
    simp only [Handshake.call]
    cases done : onVersion version h with
    | ok actions after =>
      rw [done] at refused
      obtain ⟨waiting, -⟩ := refused
      cases spent with
      | closed phase | used phase =>
        rw [waiting] at phase
        cases phase
    | error error after =>
      rw [done] at refused
      obtain rfl : after = h := refused
      exact ⟨spent, rfl⟩
  | packet entropy payload =>
    have stays : Leaves (fun actions after => actions = [] ∧ Spent after) Spent
        (Handshake.onPacket entropy payload h) := spent.onPacket
    simp only [Handshake.call]
    cases done : Handshake.onPacket entropy payload h with
    | ok actions after =>
      rw [done] at stays
      obtain ⟨rfl, still⟩ := stays
      exact ⟨still, rfl⟩
    | error error after =>
      rw [done] at stays
      exact ⟨stays, rfl⟩
  | write data => exact ⟨spent, rfl⟩
  | close => exact ⟨.closed (close_closes h).1, rfl⟩
  | abort => exact ⟨.closed rfl, rfl⟩

theorem Spent.run (spent : Spent h) (calls : List Call) :
    Spent (Handshake.run calls h).2 ∧ answers .newKeys (Handshake.run calls h).1 = [] := by
  induction calls generalizing h with
  | nil => exact ⟨spent, rfl⟩
  | cons action rest ih =>
    obtain ⟨still, silent⟩ := spent.call action
    obtain ⟨later, unanswered⟩ := ih still
    refine ⟨later, ?_⟩
    simp only [Handshake.run, answers, List.flatMap_cons, silent, List.nil_append]
    exact unanswered

end Spent

section Calls

/-- What a packet of the current phase may have done to a handshake where it fails: a reply
may have used up the exchange in progress. -/
inductive Unharmed (h : Handshake) : Handshake → Prop where
  | same : Unharmed h h
  /-- Nobody can prove who they are any more. -/
  | used (replying : h.phase = .kexReply)
      (barren : ∀ later, (run later { h with exchange := none }).2.phase.secured = false ∧
        answers .newKeys (run later { h with exchange := none }).1 = []) :
      Unharmed h { h with exchange := none }

theorem unharmed_of_eq (same : after = h) : Unharmed h after := same ▸ .same

theorem unharmed_used (replying : h.phase = .kexReply) : Unharmed h { h with exchange := none } := by
  apply Unharmed.used replying
  intro later
  have spent : Spent { h with exchange := none } := .used replying rfl
  obtain ⟨still, unanswered⟩ := spent.run later
  exact ⟨still.unsecured, unanswered⟩

theorem Unharmed.newKeysInvariant (unharmed : Unharmed h after) (invariant : NewKeysInvariant h) :
    NewKeysInvariant after := by
  cases unharmed with
  | same => exact invariant
  | used => exact invariant

/-- A transition that harms nothing where it fails. -/
abbrev Spoils (h : Handshake) (run : Transition) : Prop :=
  Leaves (fun _ _ => True) (Unharmed h) (run h)

theorem spoils_of_same {success : List Action → Handshake → Prop} {run : Transition}
    (leaves : Leaves success (fun after => after = h) (run h)) : Spoils h run :=
  leaves.imp (fun _ _ _ => trivial) fun _ => unharmed_of_eq

theorem spoils_unlessGuess {run : Transition} (spoils : Spoils h run) :
    Spoils h (unlessGuess run) := by
  rw [Spoils]
  rcases unlessGuess_cases (h := h) run with guessed | treated
  · rw [guessed]
    exact trivial
  · rw [treated]
    exact spoils

/-- A packet of the current phase that fails changes nothing, but that a reply may have
used up the exchange in progress. -/
theorem onPhase_spoils (invariant : NewKeysInvariant h) : Spoils h (onPhase entropy payload) := by
  refine .get ?_
  cases phase : h.phase with
  | headerExchange | closed => exact .same
  | kexInit => exact spoils_of_same (onProposal_leaves entropy payload)
  | groupNegotiation => exact spoils_unlessGuess (spoils_of_same (onGroup_leaves entropy payload))
  | kexReply =>
    apply spoils_unlessGuess
    apply (onReply_leaves payload).imp (fun _ _ _ => trivial)
    rintro after (rfl | rfl)
    · exact .same
    · exact unharmed_used phase
  | newKeys => exact spoils_of_same (onNewKeys_kept invariant phase payload)
  | serviceAccept => exact spoils_of_same (onServiceAccept_careful payload h)
  | auth stage => exact spoils_of_same (onAuth_careful stage payload h)
  | channelOpen => exact spoils_of_same (onChannelOpen_careful payload h)
  | established => exact spoils_of_same (onEstablished_careful payload h)

/-- How a packet that fails leaves a handshake: closed if it is a DISCONNECT of the server,
unharmed otherwise. The only other one who can say that the server has left is the caller. -/
theorem onPacket_spoils (invariant : NewKeysInvariant h)
    (failed : onPacket entropy payload h = .error error after) :
    (payload.head? = some MessageCode.disconnect.toByte ∧ error.Departed ∧
        after = { h with phase := .closed }) ∨
      (Unharmed h after ∧ (error.Departed →
        payload.head? ≠ some MessageCode.disconnect.toByte ∧ FromCaller h.config error)) := by
  rcases onPacket_sorts entropy payload with dropped | ⟨refusal, ordinary, refused⟩ |
    ⟨head, code, description, ended⟩ | ⟨head, treated⟩
  · rw [dropped] at failed
    cases failed
  · rw [refused] at failed
    cases failed
    exact .inr ⟨.same, fun departed => absurd departed ordinary.present⟩
  · rw [ended] at failed
    cases failed
    exact .inl ⟨head, .disconnected code description, rfl⟩
  · rw [treated] at failed
    have objection : Objection h error := onPhase_raises entropy payload error after failed
    have spoils : Spoils h (onPhase entropy payload) := onPhase_spoils invariant
    rw [Spoils, failed] at spoils
    refine .inr ⟨spoils, fun departed => ⟨head, ?_⟩⟩
    exact Classical.byContradiction fun own => (objection.own own).2 departed

/-- What a call can leave behind, one that fails included. -/
inductive Remains (h : Handshake) : Handshake → Prop where
  | met (version : Identification) :
      Remains h { h with serverVersion := some version, phase := .kexInit }
  | reacted {entropy : Entropy} {payload : Bytes} {actions : List Action} {after : Handshake} :
      Reaction entropy payload h actions after → Remains h after
  | failed {after : Handshake} : Unharmed h after → Remains h after
  | departed : Remains h { h with phase := .closed }
  | closed : Remains h h.close.2
  | aborted : Remains h h.abort

theorem NewKeysInvariant.remains (invariant : NewKeysInvariant h) (action : Call) :
    Remains h (h.call action).2 := by
  cases action with
  | version version =>
    have leaves := onVersion_leaves version (h := h)
    simp only [Handshake.call]
    cases done : onVersion version h with
    | ok actions after =>
      rw [done] at leaves
      obtain ⟨-, -, rfl⟩ := leaves
      exact .met version
    | error error after =>
      rw [done] at leaves
      exact .failed (unharmed_of_eq leaves)
  | packet entropy payload =>
    simp only [Handshake.call]
    cases done : onPacket entropy payload h with
    | ok actions after => exact .reacted (reaction_of_onPacket done)
    | error error after =>
      rcases onPacket_spoils invariant done with ⟨-, -, rfl⟩ | ⟨unharmed, -⟩
      · exact .departed
      · exact .failed unharmed
  | write data => exact .failed .same
  | close => exact .closed
  | abort => exact .aborted

theorem NewKeysInvariant.call (invariant : NewKeysInvariant h) (action : Call) :
    NewKeysInvariant (h.call action).2 := by
  have remains : Remains h (h.call action).2 := invariant.remains action
  generalize (h.call action).2 = after at remains
  cases remains with
  | met => exact newKeysInvariant_elsewhere .kexInit rfl (by decide)
  | reacted reaction => exact reaction.newKeysInvariant invariant
  | failed unharmed => exact unharmed.newKeysInvariant invariant
  | departed | aborted => exact newKeysInvariant_elsewhere .closed rfl (by decide)
  | closed => exact newKeysInvariant_elsewhere .closed (close_closes h).1 (by decide)

theorem NewKeysInvariant.run (invariant : NewKeysInvariant h) (calls : List Call) :
    NewKeysInvariant (Handshake.run calls h).2 :=
  run_keeps NewKeysInvariant (fun invariant action => invariant.call action) invariant calls

/-- Whatever was called before, a call that fails changes nothing, with two exceptions. A
DISCONNECT of the server closes the handshake. When a reply is refused late, the exchange in
progress is used up, and no reply can be accepted any more. An error that says that the
server has left, and comes with another message than DISCONNECT, was raised by the caller's
own verifier or key, and is like every other error. -/
theorem run_unharmed (entropy : Entropy) (config : Config) (calls : List Call) :
    let h := (run calls (create entropy config)).2
    (∀ fresh payload error after, onPacket fresh payload h = .error error after →
      (¬ error.Departed → Unharmed h after) ∧
      (error.Departed →
        (payload.head? = some MessageCode.disconnect.toByte ∧
          after = { h with phase := .closed }) ∨
        (payload.head? ≠ some MessageCode.disconnect.toByte ∧ FromCaller h.config error ∧
          Unharmed h after))) ∧
    (∀ version error after, onVersion version h = .error error after → after = h) ∧
    ∀ data error, (h.call (.write data)).1 = .error error → (h.call (.write data)).2 = h := by
  intro h
  have invariant : NewKeysInvariant h := (create_newKeysInvariant entropy config).run calls
  refine ⟨?_, ?_, fun _ _ _ => rfl⟩
  · intro fresh payload error after failed
    rcases onPacket_spoils invariant failed with ⟨head, departed, closed⟩ | ⟨unharmed, foreign⟩
    · exact ⟨fun present => absurd departed present, fun _ => .inl ⟨head, closed⟩⟩
    · refine ⟨fun _ => unharmed, fun departed => .inr ?_⟩
      obtain ⟨other, caller⟩ := foreign departed
      exact ⟨other, caller, unharmed⟩
  · intro version error after failed
    have leaves := onVersion_leaves version (h := h)
    rw [failed] at leaves
    exact leaves

def greeted : Handshake :=
  (run [.version (.ofSoftware "server" none), .packet zeros []] (create zeros smallClient)).2

/-- What is out of place is refused without harm, the leave of the server closes, and
nothing else that fails is noticed. -/
theorem run_unharmed_greeted :
    (∃ after, onPacket zeros [21] greeted = .error (.protocol (.unexpected 21 .kexInit)) after ∧
      Unharmed greeted after) ∧
    (∃ after, onPacket zeros farewell.toBytes greeted =
        .error (.disconnected farewell.reason farewell.description) after ∧
      after = { greeted with phase := .closed }) ∧
    (∃ after, onVersion (.ofSoftware "server" none) greeted =
        .error (.protocol .unexpectedVersion) after ∧ after = greeted) ∧
    (greeted.call (.write [])).1 = .error (.protocol (.cannotWrite .kexInit)) ∧
    (greeted.call (.write [])).2 = greeted := by
  have spared := run_unharmed zeros smallClient
    [.version (.ofSoftware "server" none), .packet zeros []]
  change _ ∧ _ ∧ _ at spared
  obtain ⟨packets, versions, writes⟩ := spared
  have refused : onPacket zeros [21] greeted =
    .error (.protocol (.unexpected 21 .kexInit)) greeted := rfl
  have left : onPacket zeros farewell.toBytes greeted =
    .error (.disconnected farewell.reason farewell.description)
      { greeted with phase := .closed } := rfl
  have again : onVersion (.ofSoftware "server" none) greeted =
    .error (.protocol .unexpectedVersion) greeted := rfl
  have early : (greeted.call (.write [])).1 = .error (.protocol (.cannotWrite .kexInit)) := rfl
  refine ⟨⟨_, refused, (packets _ _ _ _ refused).1 nofun⟩, ⟨_, left, ?_⟩,
    ⟨_, again, versions _ _ _ again⟩, early, writes _ _ early⟩
  rcases (packets _ _ _ _ left).2 (.disconnected _ _) with ⟨-, closed⟩ | ⟨other, -⟩
  · exact closed
  · exact absurd rfl other

/-- A small client whose caller trusts no host key, and says so with this error. -/
def distrustfulClient (error : Error) : Config :=
  { smallClient with trust := .judged fun _ => .error error }

def distrustful (error : Error) : Handshake :=
  { create zeros (distrustfulClient error) with
    serverVersion := some smallServer.version, serverProposal := smallServer.proposal
    negotiated := some smallAgreement, exchange := some (.create zeros .group1)
    phase := .kexReply }

theorem run_distrustful (error : Error) :
    (run [.version smallServer.version, .packet zeros smallServer.proposal]
      (create zeros (distrustfulClient error))).2 = distrustful error := by
  have version : (create zeros (distrustfulClient error)).call (.version smallServer.version) = _ :=
    version_passes rfl smallServer.version
  have proposal : Handshake.call (.packet zeros smallServer.proposal)
      { create zeros (distrustfulClient error) with
        serverVersion := some smallServer.version, phase := .kexInit } = _ :=
    fixed_passes rfl small_parsed small_parsed small_agreed rfl
  rw [run_cons version, run_cons proposal]
  rfl

/-- The reply of the small server is right in all but the trust in its key, and is refused
with the caller's error, whatever that is. -/
theorem distrustful_refuses (error : Error) :
    onPacket zeros smallServer.reply (distrustful error) =
      .error error { distrustful error with exchange := none } := by
  have value : Bytes.toNat smallReply.serverPublic = smallView.publicValue := by decide +kernel
  obtain ⟨low, high⟩ := small_honest.inRange
  rw [← value] at low high
  have agreed : (DhExchange.create zeros .group1).sharedSecret smallReply.serverPublic = _ :=
    DhExchange.sharedSecret_of_range low high
  have parsed : KexReply.parse smallServer.reply = .ok smallReply :=
    KexReply.parse_toBytes (by decide) (by decide) (by decide)
  have key : HostKey.parse smallReply.hostKey = .ok smallView.hostKey :=
    HostKey.parse_dssBlob (by decide)
  rw [onPacket_reply (h := distrustful error) rfl rfl rfl parsed rfl key rfl rfl agreed rfl
    (small_verify _)]
  rfl

/-- An error of the caller's own that says that the server has left does not close the
handshake, and uses up the exchange in progress. -/
theorem run_unharmed_distrustful :
    let h := (run [.version smallServer.version, .packet zeros smallServer.proposal]
      (create zeros (distrustfulClient (.disconnected 11 "distrusted")))).2
    ∃ after, onPacket zeros smallServer.reply h = .error (.disconnected 11 "distrusted") after ∧
      h.phase = .kexReply ∧ h.exchange ≠ none ∧ after.phase = .kexReply ∧ after.exchange = none := by
  rw [run_distrustful]
  exact ⟨_, distrustful_refuses _, rfl, nofun, rfl, rfl⟩

end Calls

end SecureShell.Handshake
