import SecureShell.Proofs.Handshake.Accepting
import SecureShell.Proofs.Handshake.Binding
import SecureShell.Proofs.Handshake.Failing

/-! When a handshake asks for compression. It does so once at most, in answer to the
message with which the server accepts the user: for each direction just if the agreement
says so, and before the message that opens the channel. -/
namespace SecureShell

/-- Is the user known to the server, so that nothing of user authentication is to come? -/
def Phase.welcomed : Phase → Bool
  | .channelOpen | .established | .closed => true
  | .headerExchange | .kexInit | .groupNegotiation | .kexReply | .newKeys | .serviceAccept
  | .auth _ => false

theorem Phase.agreed_of_welcomed {phase : Phase} (welcomed : phase.welcomed = true) :
    phase.agreed = true := by
  cases phase <;> first | rfl | cases welcomed

def Negotiated.activation (negotiated : Negotiated) : List Action :=
  let outbound := negotiated.compressionOut.delayed
  let inbound := negotiated.compressionIn.delayed
  if outbound || inbound then [.compress outbound inbound] else []

namespace Handshake

/-- Was the user accepted with a packet? Something was asked for in answer to it: a packet
that is dropped as a wrong guess is not looked at. -/
def Record.welcomes : Record → Bool
  | ⟨.packet _ payload, .ok (_ :: _)⟩ => payload.head? == some MessageCode.userauthSuccess.toByte
  | _ => false

/-- Neither is the user accepted, nor is compression asked for. -/
structure Record.Plain (record : Record) : Prop where
  unwelcome : record.welcomes = false
  uncompressed : ∀ outbound inbound, .compress outbound inbound ∉ record.asked

/-- The user is accepted behind a history that shows an agreement: its compression is put to
use, and the channel is opened. -/
structure Welcome (config : Config) (proposal : Bytes) (before : List Record) (a : Agreement)
    (opening : Bytes) (success : Record) : Prop where
  welcomes : success.welcomes = true
  shown : a.Shown config proposal before
  opens : opening.head? = some MessageCode.channelOpen.toByte
  answered : success.outcome = .ok (a.negotiated.activation ++ [.send opening])

/-- Once in a history the user is accepted. -/
structure Welcomed (config : Config) (proposal : Bytes) (history early : List Record)
    (success : Record) (late : List Record) (a : Agreement) (opening : Bytes) : Prop where
  split : history = early ++ success :: late
  before : ∀ record ∈ early, record.Plain
  welcome : Welcome config proposal early a opening success
  after : ∀ record ∈ late, record.Plain

/-- Whether the user has been accepted, as far as a handshake has come. -/
inductive Welcoming (config : Config) (proposal : Bytes) (history : List Record) (h : Handshake) :
    Prop where
  | stranger : (∀ record ∈ history, record.Plain) → Welcoming config proposal history h
  | guest {early late : List Record} {success : Record} {a : Agreement} {opening : Bytes} :
      Welcomed config proposal history early success late a opening → h.phase.welcomed = true →
      Welcoming config proposal history h

variable {config : Config} {proposal payload : Bytes} {history : List Record} {record : Record}
  {h after : Handshake} {entropy : Entropy} {actions : List Action}

section Records

theorem plain_of_sends {call : Call} {outcome : Except Error (List Action)}
    (messages : List Bytes) (unwelcome : Record.welcomes ⟨call, outcome⟩ = false)
    (sends : Record.asked ⟨call, outcome⟩ = messages.map .send) :
    Record.Plain ⟨call, outcome⟩ := by
  refine ⟨unwelcome, ?_⟩
  intro outbound inbound asking
  rw [sends] at asking
  simp at asking

theorem plain_of_error (call : Call) (error : Error) : Record.Plain ⟨call, .error error⟩ := by
  refine ⟨?_, nofun⟩
  cases call <;> rfl

/-- An answer to a message that is no success asks for no compression. -/
theorem Reaction.plain_of_unwelcome (reaction : Reaction entropy payload h actions after)
    (unwelcome : Record.welcomes ⟨.packet entropy payload, .ok actions⟩ = false) :
    Record.Plain ⟨.packet entropy payload, .ok actions⟩ := by
  refine ⟨unwelcome, ?_⟩
  intro outbound inbound asking
  cases reaction with
  | welcomed outgoing incoming phase head =>
    have known : payload.head? = some MessageCode.userauthSuccess.toByte := by
      cases payload with
      | nil => cases head
      | cons code rest => exact congrArg some head
    cases outgoing <;> cases incoming <;> simp [Record.welcomes, known] at unwelcome
  | ignored | dropped | began | asked | chose | replied | armed | requested | confirmed | refused
  | delivered => simp [Record.asked] at asking
  | parted =>
    cases closing : h.channel.peerClosed.1 <;> simp [Record.asked, closing] at asking

end Records

section Steps

/-- The user is accepted while that is asked for, behind the agreement. -/
theorem welcome_of_welcomes (invariant : KeyExchangeInvariant config proposal history h)
    (accepted : onPacket entropy payload h = .ok actions after)
    (welcomes : Record.welcomes ⟨.packet entropy payload, .ok actions⟩ = true) :
    h.phase.welcomed = false ∧ after.phase = .channelOpen ∧
      ∃ a opening, Welcome config proposal history a opening
        ⟨.packet entropy payload, .ok actions⟩ := by
  cases actions with
  | nil => cases welcomes
  | cons action actions =>
    have known : payload.head? = some MessageCode.userauthSuccess.toByte := eq_of_beq welcomes
    have head : payload.headD 0 = MessageCode.userauthSuccess.toByte := by
      rw [List.headD_eq_head?_getD, known, Option.getD_some]
    have treated : onPhase entropy payload h = .ok (action :: actions) after := by
      rw [← onPacket_eq_onPhase head (by decide)]
      exact accepted
    obtain ⟨code, awaited, same⟩ := awaited_of_answered treated
    obtain rfl := MessageCode.toByte_injective (head.symm.trans same)
    obtain ⟨stage, phase⟩ : ∃ stage, h.phase = .auth stage := by
      cases phase : h.phase with
      | auth stage => exact ⟨stage, rfl⟩
      | _ => simp [phase, Phase.awaits, MessageCode.gexGroup] at awaited
    cases invariant with
    | bound secured shown named stored =>
      have passes : h.call (.packet entropy payload) = _ := success_passes phase head stored
      simp only [Handshake.call, accepted, outcome, Prod.mk.injEq, Except.ok.injEq] at passes
      obtain ⟨answer, rfl⟩ := passes
      refine ⟨by rw [phase]; rfl, rfl, _, h.channel.openMessage, welcomes, shown, rfl, ?_⟩
      rw [answer]
      rfl
    | waiting other | introduced other | asking other | exchanging other | closed other =>
      rw [phase] at other
      cases other

/-- Behind user authentication there is no way back to it. -/
theorem Reaction.welcomed_kept (reaction : Reaction entropy payload h actions after)
    (welcomed : h.phase.welcomed = true) : after.phase.welcomed = true := by
  cases reaction with
  | ignored | dropped | refused | delivered => exact welcomed
  | confirmed | parted => rfl
  | began phase | asked phase | chose phase | replied phase | armed phase | welcomed _ _ phase =>
    rw [phase] at welcomed
    cases welcomed
  | requested _ _ phase =>
    rcases phase with phase | ⟨_, phase⟩ <;>
    · rw [phase] at welcomed
      cases welcomed

/-- No call leads back to user authentication. -/
theorem NewKeysInvariant.welcomed_kept (newKeys : NewKeysInvariant h)
    (welcomed : h.phase.welcomed = true)
    (action : Call) : (h.call action).2.phase.welcomed = true := by
  have remains : Remains h (h.call action).2 := newKeys.remains action
  generalize reached : (h.call action).2 = after at remains
  cases remains with
  | met version =>
    -- only a handshake that has not met the server takes its identification
    have left := (call_agreed (Phase.agreed_of_welcomed welcomed) action).1.agreed
    rw [reached] at left
    cases left
  | reacted reaction => exact reaction.welcomed_kept welcomed
  | failed unharmed => cases unharmed <;> exact welcomed
  | departed | aborted => rfl
  | closed =>
    rw [(close_closes h).1]
    rfl

theorem Welcoming.aside (welcoming : Welcoming config proposal history h) (plain : record.Plain)
    (kept : h.phase.welcomed = true → after.phase.welcomed = true) :
    Welcoming config proposal (history ++ [record]) after := by
  have further {records : List Record} (all : ∀ record ∈ records, record.Plain) :
      ∀ other ∈ records ++ [record], other.Plain := by
    intro other member
    rcases List.mem_append.1 member with earlier | now
    · exact all other earlier
    · rw [List.mem_singleton.1 now]
      exact plain
  cases welcoming with
  | stranger all => exact .stranger (further all)
  | guest welcomed phase =>
    obtain ⟨rfl, before, welcome, late⟩ := welcomed
    exact .guest ⟨by simp, before, welcome, further late⟩ (kept phase)

/-- What a packet that is accepted preserves. -/
theorem Welcoming.accepted (invariant : KeyExchangeInvariant config proposal history h)
    (welcoming : Welcoming config proposal history h)
    (accepted : onPacket entropy payload h = .ok actions after) :
    Welcoming config proposal (history ++ [⟨.packet entropy payload, .ok actions⟩]) after := by
  cases welcomes : Record.welcomes ⟨.packet entropy payload, .ok actions⟩ with
  | false =>
    have reaction := reaction_of_onPacket accepted
    exact welcoming.aside (reaction.plain_of_unwelcome welcomes) reaction.welcomed_kept
  | true =>
    obtain ⟨unknown, reached, a, opening, welcome⟩ :=
      welcome_of_welcomes invariant accepted welcomes
    cases welcoming with
    | stranger all =>
      refine .guest ⟨rfl, all, welcome, List.forall_mem_nil _⟩ ?_
      rw [reached]
      rfl
    | guest _ phase =>
      rw [unknown] at phase
      cases phase

/-- What a call preserves. -/
theorem Welcoming.call (invariant : KeyExchangeInvariant config proposal history h)
    (newKeys : NewKeysInvariant h)
    (welcoming : Welcoming config proposal history h) (action : Call) :
    Welcoming config proposal (history ++ [⟨action, (h.call action).1⟩]) (h.call action).2 := by
  have kept (welcomed : h.phase.welcomed = true) := newKeys.welcomed_kept welcomed action
  cases action with
  | version version =>
    refine welcoming.aside ?_ kept
    have leaves := onVersion_leaves version (h := h)
    simp only [Handshake.call]
    cases done : onVersion version h with
    | ok actions after =>
      rw [done] at leaves
      obtain ⟨-, rfl, -⟩ := leaves
      exact plain_of_sends [h.clientProposal] rfl rfl
    | error error after => exact plain_of_error _ error
  | packet entropy payload =>
    simp only [Handshake.call] at kept ⊢
    cases done : onPacket entropy payload h with
    | ok actions after => exact welcoming.accepted invariant done
    | error error after =>
      rw [done] at kept
      exact welcoming.aside (plain_of_error _ error) kept
  | write data =>
    refine welcoming.aside ?_ kept
    simp only [Handshake.call]
    cases h.write data with
    | ok messages => exact plain_of_sends messages rfl rfl
    | error error => exact plain_of_error _ error
  | close => exact welcoming.aside (plain_of_sends h.close.1 rfl rfl) kept
  | abort => exact welcoming.aside (plain_of_sends [] rfl rfl) kept

theorem Welcoming.run (invariant : KeyExchangeInvariant config proposal history h)
    (newKeys : NewKeysInvariant h)
    (welcoming : Welcoming config proposal history h) (calls : List Call) :
    Welcoming config proposal (history ++ (run calls h).1) (Handshake.run calls h).2 := by
  induction calls generalizing history h with
  | nil => rwa [Handshake.run, List.append_nil]
  | cons action rest ih =>
    have later := ih (invariant.call action) (newKeys.call action)
      (welcoming.call invariant newKeys action)
    rwa [List.append_assoc] at later

/-- Whatever a handshake is told, the user is accepted once at most. Nothing else makes it
ask for compression; that does, for the directions that the agreement says. -/
theorem run_welcomes (entropy : Entropy) (config : Config) (calls : List Call) :
    (∀ record ∈ (run calls (create entropy config)).1, record.Plain) ∨
      ∃ early success late a opening,
        Welcomed config (create entropy config).clientProposal
          (run calls (create entropy config)).1 early success late a opening := by
  have welcoming := Welcoming.run (create_keyExchangeInvariant entropy config)
    (create_newKeysInvariant entropy config) (.stranger (List.forall_mem_nil _)) calls
  rw [List.nil_append] at welcoming
  cases welcoming with
  | stranger all => exact .inl all
  | guest welcomed => exact .inr ⟨_, _, _, _, _, welcomed⟩

end Steps

end Handshake

end SecureShell
