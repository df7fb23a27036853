import SecureShell.Proofs.Handshake.Reaction
import SecureShell.Proofs.Handshake.Runs
import SecureShell.Proofs.Handshake.Script
import SecureShell.Proofs.SessionChannel

/-! What a handshake says follows the script: each answer to a packet, each write and the
close say what is due in their phase, in the bytes that the configuration and the peer's
confirmation give them. -/
namespace SecureShell

def Action.payload? : Action → Option Bytes
  | .send payload => some payload
  | .armOutbound _ | .armInbound _ | .compress _ _ | .established | .deliver _ | .closed => none

theorem payloads_sends (payloads : List Bytes) :
    (payloads.map Action.send).filterMap Action.payload? = payloads := by
  induction payloads with
  | nil => rfl
  | cons payload rest ih => exact congrArg (payload :: ·) ih

namespace Handshake

/-- The invariant of a connection that has not ended: identification, KEXINIT and channel
limits are those of the configuration, and the session channel is open exactly once the
connection is established. -/
structure ConnectionInvariant (config : Config) (h : Handshake) : Prop where
  configured : h.config = config
  proposes : ∃ entropy,
    h.clientProposal = (Proposal.ofPreferences entropy config.preferences).toBytes
  introduces : h.clientVersion = .ofSoftware config.software none
  running : h.phase ≠ .closed
  unopened : h.phase ≠ .established →
    h.channel = { localWindow := config.windowSize, localMaxPacket := config.maxPacketSize }
  opened : h.phase = .established → h.channel.state = .opened ∧ h.channel.closeSent = false

/-- The peer's number for the channel, once it is known. -/
def peer (h : Handshake) : Option UInt32 :=
  if h.phase = .established then some h.channel.remoteId else none

variable {config : Config} {entropy : Entropy} {payload : Bytes} {h after : Handshake}
  {actions : List Action}

theorem create_connectionInvariant (entropy : Entropy) (config : Config) :
    ConnectionInvariant config (create entropy config) where
  configured := rfl
  proposes := ⟨entropy, rfl⟩
  introduces := rfl
  running := nofun
  unopened _ := rfl
  opened := nofun

/-- A handshake that differs in what has nothing to do with the channel. -/
theorem ConnectionInvariant.enter (invariant : ConnectionInvariant config h)
    (before : h.phase ≠ .established)
    (early : after.phase ≠ .established ∧ after.phase ≠ .closed)
    (kept : (after.config, after.clientProposal, after.clientVersion, after.channel) =
      (h.config, h.clientProposal, h.clientVersion, h.channel)) :
    ConnectionInvariant config after := by
  obtain ⟨configured, proposal, version, channel⟩ :
      after.config = h.config ∧ after.clientProposal = h.clientProposal ∧
        after.clientVersion = h.clientVersion ∧ after.channel = h.channel := by
    simpa only [Prod.mk.injEq] using kept
  exact
    { configured := configured.trans invariant.configured
      proposes := proposal ▸ invariant.proposes
      introduces := version.trans invariant.introduces
      running := early.2
      unopened := fun _ => channel.trans (invariant.unopened before)
      opened := fun late => absurd late early.1 }

/-- Payloads that are due on the way from one phase to another, none of them channel data. -/
def Due (config : Config) (before : Phase) (payloads : List Bytes) (after : Handshake) : Prop :=
  ∃ kinds, Cue config before kinds after.phase ∧
    List.Forall₂ (Utters config after.peer) kinds payloads ∧ .data ∉ kinds

theorem due_nil {before : Phase} (same : after.phase = before) : Due config before [] after :=
  ⟨[], same ▸ .silent _, .nil, nofun⟩

theorem due_one {before : Phase} {kind : MessageKind} (other : .data ≠ kind)
    (cue : Cue config before [kind] after.phase) (utters : Utters config after.peer kind payload) :
    Due config before [payload] after :=
  ⟨[kind], cue, .cons utters .nil, fun said => other (List.mem_singleton.1 said)⟩

theorem Asks.due {stage : AuthStage} {method : AuthMethod}
    (invariant : ConnectionInvariant config h)
    (asks : Asks payload h stage method) (entered : after.phase = .auth stage) :
    Due config h.phase [UserauthRequest.toBytes { user := h.config.username, method }] after := by
  rw [invariant.configured]
  cases asks with
  | methods phase => exact due_one (by decide) (by rw [phase, entered]; exact .methods) .methods
  | credential phase =>
    rw [invariant.configured] at entered ⊢
    cases own : config.credential with
    | password word =>
      rw [own] at entered
      exact due_one (by decide) (by rw [phase, entered]; exact .password) (.password own)
    | key identity =>
      rw [own] at entered
      exact due_one (by decide) (by rw [phase, entered]; exact .queried) (.keyQuery own)
  | signature phase own =>
    rw [invariant.configured] at own
    exact due_one (by decide) (by rw [phase, entered]; exact .signed) (.keySigned _ own)

theorem startRequests_due {channel : SessionChannel} (entered : after.phase = .established)
    (same : after.channel = channel) :
    Due config .channelOpen (channel.startRequests config.pty config.command) after := by
  have known : after.peer = some channel.remoteId := by rw [peer, if_pos entered, same]
  refine ⟨(config.pty.map fun _ => .terminal).toList ++ [.program], entered ▸ .confirmed, ?_, ?_⟩
  · refine List.rel_append ?_ (.cons (.program known) .nil)
    cases pty : config.pty with
    | none => exact .nil
    | some terminal => exact .cons (.terminal known pty) .nil
  · cases config.pty <;> simp

theorem confirm_opens {confirmation : ChannelConfirmation} {before channel : SessionChannel}
    (taken : before.confirm confirmation = .ok channel) :
    channel.state = .opened ∧ channel.closeSent = before.closeSent ∧
      channel.remoteId = confirmation.sender := by
  obtain ⟨-, -, -, rfl⟩ := SessionChannel.confirm_eq_ok_iff.1 taken
  exact ⟨rfl, rfl, rfl⟩

/-- Answers to a packet that does not end the connection. -/
theorem Reaction.due (invariant : ConnectionInvariant config h)
    (reaction : Reaction entropy payload h actions after)
    (stays : .closed ∉ actions) :
    ConnectionInvariant config after ∧
      Due config h.phase (actions.filterMap Action.payload?) after := by
  cases reaction with
  | ignored => exact ⟨invariant, due_nil rfl⟩
  | dropped =>
    exact ⟨⟨invariant.configured, invariant.proposes, invariant.introduces, invariant.running,
      invariant.unopened, invariant.opened⟩, due_nil rfl⟩
  | began phase =>
    refine ⟨invariant.enter (by rw [phase]; nofun) ⟨nofun, nofun⟩ rfl, ?_⟩
    exact due_one (by decide) (phase ▸ .began) (.dhInit _)
  | asked phase =>
    refine ⟨invariant.enter (by rw [phase]; nofun) ⟨nofun, nofun⟩ rfl, ?_⟩
    rw [← invariant.configured]
    exact due_one (by decide) (phase ▸ Cue.asked) .gexRequest
  | chose phase =>
    refine ⟨invariant.enter (by rw [phase]; nofun) ⟨nofun, nofun⟩ rfl, ?_⟩
    exact due_one (by decide) (phase ▸ .chose) (.gexInit _)
  | replied phase =>
    refine ⟨invariant.enter (by rw [phase]; nofun) ⟨nofun, nofun⟩ rfl, ?_⟩
    exact due_one (by decide) (phase ▸ .replied) .newKeys
  | armed phase =>
    refine ⟨invariant.enter (by rw [phase]; nofun) ⟨nofun, nofun⟩ rfl, ?_⟩
    exact due_one (by decide) (phase ▸ .armed) .service
  | requested stage method phase asks =>
    have early : h.phase ≠ .established := by
      rcases phase with phase | ⟨before, phase⟩ <;>
      · rw [phase]
        nofun
    exact ⟨invariant.enter early ⟨nofun, nofun⟩ rfl, asks.due invariant rfl⟩
  | welcomed outbound inbound phase =>
    have early : h.phase ≠ .established := by
      rw [phase]
      nofun
    refine ⟨invariant.enter early ⟨nofun, nofun⟩ rfl, ?_⟩
    have sent : ((if outbound || inbound then [Action.compress outbound inbound] else []) ++
        [Action.send h.channel.openMessage]).filterMap Action.payload? =
          [h.channel.openMessage] := by
      cases outbound || inbound <;> rfl
    rw [sent, invariant.unopened early]
    exact due_one (by decide) (phase ▸ .welcomed _) .channelOpen
  | confirmed phase taken =>
    have early : h.phase ≠ .established := by
      rw [phase]
      nofun
    rw [invariant.unopened early] at taken
    obtain ⟨opened, unclosed, -⟩ := confirm_opens taken
    refine ⟨⟨invariant.configured, invariant.proposes, invariant.introduces, nofun,
      fun late => absurd rfl late, fun _ => ⟨opened, unclosed⟩⟩, ?_⟩
    rw [List.filterMap_append, payloads_sends, phase, invariant.configured]
    exact (List.append_nil _).symm ▸ startRequests_due rfl rfl
  | refused phase known global =>
    refine ⟨invariant, ?_⟩
    rcases phase with phase | phase
    · rw [global phase]
      exact due_one (by decide) (by rw [phase]; exact .refused) .requestFailure
    · have peer : h.peer = some h.channel.remoteId := if_pos phase
      simp only [List.mem_cons, List.not_mem_nil, or_false] at known
      rcases known with rfl | rfl
      · exact due_one (by decide) (by rw [phase]; exact .talked (by simp)) .requestFailure
      · exact due_one (by decide) (by rw [phase]; exact .talked (by simp)) (.channelFailure peer)
  | delivered length phase =>
    refine ⟨⟨invariant.configured, invariant.proposes, invariant.introduces, invariant.running,
      fun early => absurd phase early, invariant.opened⟩, due_nil rfl⟩
  | parted => exact absurd (List.mem_append_right _ (.head _)) stays

section Ends

/-- The only packet that ends the connection is answered with our close. -/
theorem Reaction.parting (invariant : ConnectionInvariant config h)
    (reaction : Reaction entropy payload h actions after) (ends : .closed ∈ actions) :
    h.phase = .established ∧ actions.filterMap Action.payload? =
      [ChannelOnly.toBytes .channelClose h.channel.remoteId] := by
  cases reaction with
  | parted phase =>
    obtain ⟨opened, unclosed⟩ := invariant.opened phase
    refine ⟨phase, ?_⟩
    simp [SessionChannel.peerClosed, SessionChannel.close, opened, unclosed, Action.payload?]
  | ignored | dropped | began | asked | chose | replied | armed | requested | refused | delivered
  | confirmed => simp at ends
  | welcomed outbound inbound => cases outbound <;> cases inbound <;> simp at ends

/-- What the client says last: a close, if the channel is open, and then its leave. -/
theorem close_due (invariant : ConnectionInvariant config h) :
    ∃ kinds phase, Cue config h.phase kinds phase ∧ .data ∉ kinds ∧
      (List.Forall₂ (Utters config h.peer) kinds h.close.1 ∨
        List.Forall₂ (Utters config h.peer) (kinds ++ [.disconnect]) h.close.1) := by
  have leave : Utters config h.peer .disconnect farewell.toBytes := .disconnect farewell
  by_cases phase : h.phase = .established
  · obtain ⟨opened, unclosed⟩ := invariant.opened phase
    have said : h.close.1 =
        [ChannelOnly.toBytes .channelClose h.channel.remoteId, farewell.toBytes] := by
      simp [close, SessionChannel.close, phase, opened, unclosed]
    rw [said]
    exact ⟨[.channelClose], .closed, phase ▸ .parted, by decide,
      .inr (.cons (.channelClose (if_pos phase)) (.cons leave .nil))⟩
  · refine ⟨[], h.phase, .silent _, nofun, ?_⟩
    have said : h.close.1 = if h.phase = .headerExchange then [] else [farewell.toBytes] := by
      simp [close, SessionChannel.close, invariant.running, invariant.unopened phase]
    rw [said]
    split
    · exact .inl .nil
    · exact .inr (.cons leave .nil)

/-- Before the server is known there is nobody to take leave of. -/
theorem close_unheard (invariant : ConnectionInvariant config h)
    (phase : h.phase = .headerExchange) :
    h.close.1 = [] := by
  simp [close, SessionChannel.close, phase, invariant.unopened (by rw [phase]; nofun)]

end Ends

section Data

theorem dataOf_utters {peer : Option UInt32} {kinds : List MessageKind} {payloads : List Bytes}
    (utters : List.Forall₂ (Utters config peer) kinds payloads) (silent : .data ∉ kinds) :
    payloads.flatMap dataOf = [] := by
  induction utters with
  | nil => rfl
  | cons first _ ih =>
    obtain ⟨other, others⟩ := not_or.1 (mt List.mem_cons.2 silent)
    rw [List.flatMap_cons, first.dataOf_eq_nil (Ne.symm other), ih others]
    rfl

/-- What is written is said in messages of data, all of it and in order. -/
theorem write_due (config : Config) {data : Bytes} {messages : List Bytes}
    (written : h.write data = .ok messages) :
    h.phase = .established ∧ messages.flatMap dataOf = data ∧
      List.Forall₂ (Utters config h.peer) (messages.map fun _ => .data) messages := by
  unfold write at written
  split at written
  case h_2 | h_3 => cases written
  rename_i phase
  unfold SessionChannel.dataMessages at written
  split at written
  · cases written
  cases written
  have fits : ∀ piece ∈ Bytes.pieces h.channel.pieceSize data, piece.length < 2 ^ 32 := fun _ cut =>
    Nat.lt_of_le_of_lt (Bytes.length_le_of_mem_pieces cut) h.channel.pieceSize_lt
  refine ⟨phase, ?_, ?_⟩
  · rw [List.flatMap_map]
    calc (Bytes.pieces h.channel.pieceSize data).flatMap
          (fun piece => dataOf (DataMessage.toBytes ⟨h.channel.remoteId, piece⟩))
        = (Bytes.pieces h.channel.pieceSize data).flatMap id :=
          List.flatMap_congr fun piece cut => dataOf_toBytes (fits piece cut)
      _ = (Bytes.pieces h.channel.pieceSize data).flatten := List.flatMap_id
      _ = data := Bytes.flatten_pieces h.channel.pieceSize_pos data
  · rw [List.map_map, List.forall₂_map_left_iff, List.forall₂_map_right_iff, List.forall₂_same]
    exact fun piece cut => .data (if_pos phase) (fits piece cut)

def Record.written : Record → Bytes
  | ⟨.write data, .ok _⟩ => data
  | _ => []

def written (history : List Record) : Bytes := history.flatMap (·.written)

theorem written_append (earlier later : List Record) :
    written (earlier ++ later) = written earlier ++ written later :=
  List.flatMap_append

end Data

section Confirming

def Record.confirmation : Record → List ChannelConfirmation
  | ⟨.packet _ payload, .ok actions⟩ =>
    if .established ∈ actions then (ChannelConfirmation.parse payload).toOption.toList else []
  | _ => []

def confirmations (history : List Record) : List ChannelConfirmation :=
  history.flatMap (·.confirmation)

def named (history : List Record) : Option UInt32 :=
  (confirmations history).head?.map (·.sender)

theorem confirmations_append (earlier later : List Record) :
    confirmations (earlier ++ later) = confirmations earlier ++ confirmations later :=
  List.flatMap_append

theorem confirmation_eq_nil {call : Call} (quiet : .established ∉ actions) :
    confirmations [⟨call, .ok actions⟩] = [] := by
  cases call with
  | packet => simp [confirmations, Record.confirmation, quiet]
  | version | write | close | abort => rfl

/-- The confirmations that were accepted are the one that has given the channel its number. -/
def Confirmed (history : List Record) (h : Handshake) : Prop :=
  (confirmations history).map (·.sender) = h.peer.toList

theorem Confirmed.named {history : List Record} (confirmed : Confirmed history h) :
    named history = h.peer := by
  rw [Handshake.named, ← List.head?_map, confirmed]
  cases h.peer <;> rfl

theorem Confirmed.once {history : List Record} (confirmed : Confirmed history h) :
    (confirmations history).length ≤ 1 := by
  have size := congrArg List.length confirmed
  rw [List.length_map] at size
  rw [size]
  cases h.peer with
  | none => exact Nat.zero_le _
  | some number => exact Nat.le_refl _

/-- The number of the channel stays once it is known. -/
theorem Confirmed.grows {history more : List Record} (confirmed : Confirmed history h)
    (later : Confirmed (history ++ more) after) : h.peer = none ∨ after.peer = h.peer := by
  rw [Confirmed, confirmations_append, List.map_append, confirmed] at later
  cases known : h.peer with
  | none => exact .inl rfl
  | some number =>
    rw [known] at later
    cases also : after.peer with
    | none =>
      rw [also] at later
      cases later
    | some other =>
      rw [also] at later
      exact .inr (congrArg some (List.cons.inj later).1.symm)

theorem Confirmed.kept {history more : List Record} (confirmed : Confirmed history h)
    (quiet : confirmations more = []) (same : after.peer = h.peer) :
    Confirmed (history ++ more) after := by
  rw [Confirmed, confirmations_append, quiet, List.append_nil, same]
  exact confirmed

theorem peer_early (early : h.phase ≠ .established) : h.peer = none := if_neg early

theorem Reaction.confirmed_after {history : List Record} (confirmed : Confirmed history h)
    (reaction : Reaction entropy payload h actions after) (stays : .closed ∉ actions) :
    Confirmed (history ++ [⟨.packet entropy payload, .ok actions⟩]) after := by
  have early {before : Phase} (phase : h.phase = before) (other : before ≠ .established)
      (later : after.phase ≠ .established) : after.peer = h.peer := by
    rw [peer_early later, peer_early (phase ▸ other)]
  cases reaction with
  | ignored | dropped | refused | delivered =>
    exact confirmed.kept (confirmation_eq_nil (by simp)) rfl
  | began phase | asked phase | chose phase | replied phase | armed phase =>
    exact confirmed.kept (confirmation_eq_nil (by simp)) (early phase nofun nofun)
  | requested stage method phase =>
    refine confirmed.kept (confirmation_eq_nil (by simp)) ?_
    rcases phase with phase | ⟨before, phase⟩ <;> exact early phase nofun nofun
  | welcomed outbound inbound phase =>
    refine confirmed.kept (confirmation_eq_nil ?_) (early phase nofun nofun)
    cases outbound <;> cases inbound <;> simp
  | @confirmed confirmation channel phase taken parsed =>
    have none : confirmations history = [] := by
      rw [Confirmed, peer_early (by rw [phase]; nofun)] at confirmed
      exact List.map_eq_nil_iff.1 confirmed
    have number := (confirm_opens taken).2.2
    rw [Confirmed, confirmations_append, none]
    simp [confirmations, Record.confirmation, parsed, peer, number, Except.toOption]
  | parted => exact absurd (List.mem_append_right _ (.head _)) stays

end Confirming

end Handshake

end SecureShell
