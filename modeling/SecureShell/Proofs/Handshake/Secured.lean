import SecureShell.Proofs.Handshake.KeyAgreement
import SecureShell.Proofs.Handshake.Runs

/-! After key agreement. Whatever is called then, in success and in failure, the
session keeps its name, no message of key agreement is sent again, and there is no way
back to key agreement. -/
namespace SecureShell

namespace Phase

/-- Has the server proved who it is? -/
def secured : Phase → Bool
  | .newKeys | .serviceAccept | .auth _ | .channelOpen | .established => true
  | .headerExchange | .kexInit | .groupNegotiation | .kexReply | .closed => false

/-- Is there no key agreement to come? -/
def agreed (phase : Phase) : Bool := phase.secured || phase == .closed

theorem agreed_of_secured {phase : Phase} (secured : phase.secured = true) :
    phase.agreed = true := by
  simp only [agreed, secured, Bool.true_or]

end Phase

def Action.agrees : Action → Bool
  | .send (code :: _) =>
    [MessageCode.newKeys, .dhInit, .gexInit, .gexRequest].any (·.toByte == code)
  | _ => false

namespace Handshake

def Quiet (actions : List Action) : Prop := ∀ action ∈ actions, action.agrees = false

/-- The session keeps its name and its algorithms, and there is no way back. -/
structure Keeps (h after : Handshake) : Prop where
  sessionId : after.sessionId = h.sessionId
  negotiated : after.negotiated = h.negotiated
  agreed : after.phase.agreed = true

/-- A transition that leaves key agreement alone once it is over. -/
def Spares (run : Transition) : Prop :=
  ∀ h : Handshake, h.phase.agreed = true →
    Leaves (fun actions after => Keeps h after ∧ Quiet actions) (Keeps h) (run h)

theorem quiet_nil : Quiet [] := fun _ member => nomatch member

theorem quiet_one {action : Action} (quiet : action.agrees = false) : Quiet [action] := by
  intro other member
  rw [List.mem_singleton.1 member, quiet]

theorem quiet_append {first second : List Action} (hFirst : Quiet first) (hSecond : Quiet second) :
    Quiet (first ++ second) := by
  intro action member
  rcases List.mem_append.1 member with member | member
  · exact hFirst action member
  · exact hSecond action member

theorem close_message {channel : SessionChannel} {message : Bytes}
    (h : message ∈ channel.close.1) :
    message = ChannelOnly.toBytes .channelClose channel.remoteId := by
  unfold SessionChannel.close at h
  split at h
  · cases h
  · exact (Option.some.inj h).symm

theorem close_closes (h : Handshake) : h.close.2.phase = .closed ∧
    h.close.2.config = h.config ∧ h.close.2.clientProposal = h.clientProposal := by
  unfold close
  split
  · exact ⟨by assumption, rfl, rfl⟩
  · exact ⟨rfl, rfl, rfl⟩

section Transitions

theorem keeps_self {h : Handshake} (agreed : h.phase.agreed = true) : Keeps h h :=
  ⟨rfl, rfl, agreed⟩

theorem refuse_spares (code : UInt8) : Spares (refuse code) := fun _ agreed => keeps_self agreed

theorem throw_spares (error : Error) : Spares (throw error) := fun _ agreed => keeps_self agreed

theorem pure_spares {actions : List Action} (quiet : Quiet actions) : Spares (pure actions) :=
  fun _ agreed => ⟨keeps_self agreed, quiet⟩

theorem lift_spares {α : Type} {result : Except Error α} {rest : α → Transition}
    (spares : ∀ a, Spares (rest a)) : Spares (lift result >>= rest) := fun h agreed =>
  .bind (leaves_lift (fun a _ => spares a h agreed) (keeps_self agreed))

theorem require_spares {α : Type} {value : Option α} {fault : ProtocolFault}
    {rest : α → Transition} (spares : ∀ a, Spares (rest a)) :
    Spares (require value fault >>= rest) := fun h agreed =>
  .bind (leaves_require (fun a _ => spares a h agreed) (keeps_self agreed))

theorem expect_spares {code : MessageCode} {payload : Bytes} {rest : Unit → Transition}
    (spares : Spares (rest ())) : Spares (expect code payload >>= rest) := fun h agreed =>
  .bind (leaves_expect (fun _ => spares h agreed) (keeps_self agreed))

theorem get_spares {rest : Handshake → Transition} (spares : ∀ seen, Spares (rest seen)) :
    Spares (get >>= rest) := fun h agreed => .get (spares h h agreed)

theorem ite_spares {c : Prop} [Decidable c] {first second : Transition} (hFirst : Spares first)
    (hSecond : Spares second) : Spares (if c then first else second) := by
  split
  · exact hFirst
  · exact hSecond

theorem onNewKeys_spares (payload : Bytes) : Spares (onNewKeys payload) := by
  refine expect_spares (lift_spares fun _ => get_spares fun _ => require_spares fun _ h agreed => ?_)
  refine .modify (.get (.bind (leaves_require ?_ ⟨rfl, rfl, agreed⟩)))
  intro sessionId _
  refine .get (.bind (leaves_require ?_ ⟨rfl, rfl, agreed⟩))
  intro negotiated _
  refine ⟨⟨rfl, rfl, rfl⟩, ?_⟩
  intro action member
  simp only [List.mem_cons, List.not_mem_nil, or_false] at member
  rcases member with rfl | rfl | rfl <;> rfl

theorem request_spares (stage : AuthStage) (method : AuthMethod) : Spares (request stage method) :=
  fun _ _ => ⟨⟨rfl, rfl, rfl⟩, quiet_one rfl⟩

theorem onServiceAccept_spares (payload : Bytes) : Spares (onServiceAccept payload) :=
  expect_spares (lift_spares fun _ => ite_spares (throw_spares _) (request_spares _ _))

theorem onAuthFailure_spares (stage : AuthStage) (failure : UserauthFailure) :
    Spares (onAuthFailure stage failure) :=
  get_spares fun _ => ite_spares (throw_spares _) (ite_spares (throw_spares _) (request_spares _ _))

theorem onPkOk_spares (answer : UserauthPkOk) : Spares (onPkOk answer) := by
  refine get_spares fun seen => ?_
  cases seen.config.credential with
  | password word => exact throw_spares _
  | key identity =>
    refine ite_spares (throw_spares _) (require_spares fun _ => lift_spares fun _ => ?_)
    exact request_spares _ _

theorem onAuthSuccess_spares : Spares onAuthSuccess := by
  refine get_spares fun _ => require_spares fun _ h agreed => ?_
  refine ⟨⟨rfl, rfl, rfl⟩, quiet_append ?_ (quiet_one rfl)⟩
  split
  · exact quiet_one rfl
  · exact quiet_nil

theorem onAuth_spares (stage : AuthStage) (payload : Bytes) : Spares (onAuth stage payload) := by
  unfold onAuth
  dsimp only
  split
  · exact lift_spares fun _ => pure_spares quiet_nil
  · exact onAuthSuccess_spares
  · exact lift_spares fun failure => onAuthFailure_spares stage failure
  · cases stage with
    | publicKeyQuery => exact lift_spares fun answer => onPkOk_spares answer
    | password => exact throw_spares _
    | methodsQuery => exact refuse_spares _
    | publicKeySigned => exact refuse_spares _
  · exact refuse_spares _

theorem onGlobalRequest_spares (payload : Bytes) : Spares (onGlobalRequest payload) := by
  refine lift_spares fun request => pure_spares ?_
  cases request.wantReply
  · exact quiet_nil
  · exact quiet_one rfl

theorem onConfirmation_spares (payload : Bytes) : Spares (onConfirmation payload) := by
  refine lift_spares fun _ h agreed => .get ?_
  refine .bind (leaves_lift (fun channel _ => ⟨⟨rfl, rfl, rfl⟩, ?_⟩) (keeps_self agreed))
  refine quiet_append ?_ (quiet_one rfl)
  intro action member
  obtain ⟨message, requested, rfl⟩ := List.mem_map.1 member
  rcases List.mem_append.1 requested with requested | requested
  · obtain ⟨terminal, -, rfl⟩ := Option.map_eq_some_iff.1 (Option.mem_toList.1 requested)
    rfl
  · rw [List.mem_singleton.1 requested]
    rfl

theorem onChannelOpen_spares (payload : Bytes) : Spares (onChannelOpen payload) := by
  unfold onChannelOpen
  dsimp only
  split
  · exact onConfirmation_spares payload
  · exact lift_spares fun _ => throw_spares _
  · exact onGlobalRequest_spares payload
  · exact refuse_spares _

theorem deliver_spares (recipient : UInt32) (length : Nat) (data : ChannelData) :
    Spares (deliver recipient length data) :=
  lift_spares fun _ _ agreed => ⟨⟨rfl, rfl, agreed⟩, quiet_one rfl⟩

theorem onIgnored_spares (code : MessageCode) (payload : Bytes) :
    Spares (onIgnored code payload) :=
  lift_spares fun _ => lift_spares fun _ => pure_spares quiet_nil

theorem onChannelRequest_spares (payload : Bytes) : Spares (onChannelRequest payload) := by
  refine lift_spares fun request => lift_spares fun _ => get_spares fun _ => pure_spares ?_
  cases request.wantReply
  · exact quiet_nil
  · exact quiet_one rfl

theorem onPeerClose_spares (payload : Bytes) : Spares (onPeerClose payload) := by
  refine lift_spares fun _ => lift_spares fun _ h agreed => .get ⟨⟨rfl, rfl, rfl⟩, ?_⟩
  refine quiet_append ?_ (quiet_one rfl)
  intro action member
  obtain ⟨message, owed, rfl⟩ := Option.map_eq_some_iff.1 (Option.mem_toList.1 member)
  obtain rfl := close_message owed
  rfl

theorem onEstablished_spares (payload : Bytes) : Spares (onEstablished payload) := by
  unfold onEstablished
  dsimp only
  split
  · exact lift_spares fun _ => deliver_spares _ _ _
  · exact lift_spares fun _ => deliver_spares _ _ _
  · exact onIgnored_spares _ payload
  · exact onIgnored_spares _ payload
  · exact onIgnored_spares _ payload
  · exact onChannelRequest_spares payload
  · exact onGlobalRequest_spares payload
  · exact onPeerClose_spares payload
  · exact refuse_spares _

theorem onPhase_spares (entropy : Entropy) (payload : Bytes) : Spares (onPhase entropy payload) := by
  intro h agreed
  refine .get ?_
  cases phase : h.phase with
  | headerExchange | kexInit | groupNegotiation | kexReply =>
    rw [phase] at agreed
    cases agreed
  | newKeys => exact onNewKeys_spares payload h agreed
  | serviceAccept => exact onServiceAccept_spares payload h agreed
  | auth stage => exact onAuth_spares stage payload h agreed
  | channelOpen => exact onChannelOpen_spares payload h agreed
  | established => exact onEstablished_spares payload h agreed
  | closed => exact keeps_self agreed

theorem onPacket_spares (entropy : Entropy) (payload : Bytes) :
    Spares (onPacket entropy payload) := by
  unfold onPacket
  split
  · exact throw_spares _
  · split
    · exact pure_spares quiet_nil
    · exact pure_spares quiet_nil
    · exact lift_spares fun _ _ _ => ⟨rfl, rfl, rfl⟩
    · exact lift_spares fun _ => throw_spares _
    · exact onPhase_spares entropy _

end Transitions

/-- Nothing of key agreement was said. -/
structure Record.Aside (record : Record) : Prop where
  answers : ∀ code ∈ [MessageCode.newKeys, .dhInit, .gexInit, .gexRequest], record.answers code = []
  introduction : record.introduction = []

theorem aside_of_quiet {entropy : Entropy} {payload : Bytes} {actions : List Action}
    (quiet : Quiet actions) : Record.Aside ⟨.packet entropy payload, .ok actions⟩ := by
  refine ⟨?_, rfl⟩
  intro code known
  have none (action : Action) (member : action ∈ actions) : action.sent? code = none := by
    have calm := quiet action member
    unfold Action.sent?
    split
    · rename_i message
      cases message with
      | nil => rfl
      | cons byte rest =>
        rw [Action.agrees, List.any_eq_false] at calm
        have differs := calm code known
        rw [List.head?_cons, if_neg]
        intro same
        simp [Option.some.inj same] at differs
    · rfl
  rw [Record.answers, List.filterMap_eq_nil_iff.2 none, List.map_nil]

theorem aside_of_error (call : Call) (error : Error) : Record.Aside ⟨call, .error error⟩ := by
  constructor
  · intro code _
    cases call <;> rfl
  · cases call <;> rfl

/-- After key agreement no call speaks of it. -/
theorem call_agreed {h : Handshake} (agreed : h.phase.agreed = true) (action : Call) :
    Keeps h (h.call action).2 ∧ Record.Aside ⟨action, (h.call action).1⟩ := by
  cases action with
  | version version =>
    have refused := onVersion_leaves version (h := h)
    simp only [call]
    cases done : onVersion version h with
    | ok actions after =>
      rw [done] at refused
      rw [refused.1] at agreed
      cases agreed
    | error error after =>
      rw [done] at refused
      obtain rfl : after = h := refused
      exact ⟨keeps_self agreed, aside_of_error _ error⟩
  | packet entropy payload =>
    have spared := onPacket_spares entropy payload h agreed
    simp only [call]
    cases done : onPacket entropy payload h with
    | ok actions after =>
      rw [done] at spared
      exact ⟨spared.1, aside_of_quiet spared.2⟩
    | error error after =>
      rw [done] at spared
      exact ⟨spared, aside_of_error _ error⟩
  | write data => exact ⟨keeps_self agreed, fun _ _ => rfl, rfl⟩
  | close =>
    refine ⟨?_, fun _ _ => rfl, rfl⟩
    simp only [call, close]
    split
    · exact keeps_self agreed
    · exact ⟨rfl, rfl, rfl⟩
  | abort => exact ⟨⟨rfl, rfl, rfl⟩, fun _ _ => rfl, rfl⟩

/-- However a handshake goes on after key agreement, what was agreed is kept. -/
theorem run_agreed {h : Handshake} (agreed : h.phase.agreed = true) (calls : List Call) :
    Keeps h (run calls h).2 := by
  induction calls generalizing h with
  | nil => exact keeps_self agreed
  | cons action rest ih =>
    obtain ⟨kept, -⟩ := call_agreed agreed action
    have later := ih kept.agreed
    exact ⟨later.sessionId.trans kept.sessionId, later.negotiated.trans kept.negotiated,
      later.agreed⟩

end Handshake

end SecureShell
