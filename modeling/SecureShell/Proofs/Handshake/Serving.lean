import Mathlib.Algebra.GroupWithZero.Nat
import SecureShell.Proofs.Handshake.Cues
import SecureShell.Proofs.Handshake.Failing
import SecureShell.Proofs.Handshake.Notices

/-! A session that is established. What a payload tells the client is all that comes of it:
data is handed out as it is, a request that wants an answer is refused, our channel is closed.
So a run of payloads is answered in order, and the window is what was advertised less the data
that was handed out. -/
namespace SecureShell

open SessionChannel (localId)

def ChannelData.bytes : ChannelData → Bytes
  | .output data | .extended _ data => data

def Action.volume : Action → Nat
  | .deliver data => data.bytes.length
  | _ => 0

def volume (actions : List Action) : Nat := (actions.map Action.volume).sum

theorem volume_append (first second : List Action) :
    volume (first ++ second) = volume first + volume second := by
  rw [volume, List.map_append, List.sum_append]
  rfl

theorem volume_sends (messages : List Bytes) : volume (messages.map .send) = 0 := by
  induction messages with
  | nil => rfl
  | cons message rest ih => exact (Nat.zero_add _).trans ih

namespace SessionChannel

theorem checkRecipient_eq_ok_iff {recipient : UInt32} :
    checkRecipient recipient = .ok () ↔ recipient = localId := by
  unfold checkRecipient
  split
  · exact ⟨fun _ => ‹_›, fun _ => rfl⟩
  · exact ⟨nofun, fun own => absurd own ‹_›⟩

theorem toNat_receive (channel : SessionChannel) (length : Nat) :
    (channel.receive length).localWindow.toNat = channel.localWindow.toNat - length := by
  have fits := channel.localWindow.toNat_lt
  rw [receive, UInt32.toNat_ofNat', Nat.mod_eq_of_lt (by omega)]

end SessionChannel

namespace Handshake

variable {entropy : Entropy} {peer : UInt32} {payload : Bytes} {notice : Notice}
  {h after : Handshake} {actions : List Action}

/-- The session is established, the server knows our channel by a number, and neither side
has closed it. -/
structure Serving (peer : UInt32) (h : Handshake) : Prop where
  phase : h.phase = .established
  opened : h.channel.state = .opened
  unclosed : h.channel.closeSent = false
  peer : h.channel.remoteId = peer

def heard (notice : Notice) (h : Handshake) : Handshake :=
  match notice with
  | .data content => { h with channel := h.channel.receive content.bytes.length }
  | .close => { h with channel := h.channel.peerClosed.2, phase := .closed }
  | .query | .globalQuery | .idle => h

theorem heard_query {flag : UInt8} (query : notice ∈ [.query, .globalQuery]) (h : Handshake) :
    heard (if flag = 0 then .idle else notice) h = h := by
  simp only [List.mem_cons, List.not_mem_nil, or_false] at query
  rcases query with rfl | rfl <;> split <;> rfl

section Step

/-- A message that an established session waits for. -/
theorem onPacket_awaited {code : MessageCode} (phase : h.phase = .established)
    (awaited : code ∈ Phase.established.awaits) (front : [code.toByte] <+: payload) :
    onPacket entropy payload h = onEstablished payload h ∧
      MessageCode.ofByte? (payload.headD 0) = some code := by
  obtain ⟨rest, rfl⟩ := front
  have treated : onPacket entropy (code.toByte :: rest) = onPhase entropy (code.toByte :: rest) := by
    simp only [onPacket, MessageCode.ofByte?_toByte]
    cases code <;> first | rfl | exact absurd awaited (by decide)
  refine ⟨?_, MessageCode.ofByte?_toByte code⟩
  rw [List.singleton_append, treated]
  simp only [onPhase, bind_apply, get_apply, phase]

theorem first_of_front {byte : UInt8} {wire : Bytes} (front : byte :: wire <+: payload) :
    [byte] <+: payload :=
  (List.prefix_append [byte] wire).trans front

/-- What is done about a notice is all that comes of the payload. -/
theorem Serving.onPacket (serving : Serving peer h) (told : Notice.Told payload notice) :
    Handshake.onPacket entropy payload h = .ok (notice.actions peer) (heard notice h) := by
  have phase := serving.phase
  cases told with
  | output fits front =>
    obtain ⟨treated, known⟩ := onPacket_awaited phase (by decide) (first_of_front front)
    rw [treated, onEstablished, known, DataMessage.parse_eq_ok_iff.2 ⟨fits, front⟩]
    rfl
  | extended fits front =>
    obtain ⟨treated, known⟩ := onPacket_awaited phase (by decide) (first_of_front front)
    rw [treated, onEstablished, known, ExtendedDataMessage.parse_eq_ok_iff.2 ⟨fits, front⟩]
    rfl
  | @request name flag fields fits legible whole =>
    have front : [MessageCode.channelRequest.toByte] <+: payload := ⟨_, whole.symm⟩
    obtain ⟨treated, known⟩ := onPacket_awaited phase (by decide) front
    obtain ⟨kind, parsed⟩ := ChannelRequest.parse_ok_iff.2 ⟨name, flag, fields, fits, legible, rfl, whole⟩
    rw [treated, onEstablished, known, Notice.actions_unless, heard_query (by simp)]
    simp only [onChannelRequest, parsed, ← serving.peer]
    rfl
  | @global name flag fits front =>
    obtain ⟨treated, known⟩ := onPacket_awaited phase (by decide) (first_of_front front)
    have parsed : GlobalRequest.parse payload = .ok ⟨name, flag != 0⟩ :=
      GlobalRequest.parse_eq_ok_iff.2 ⟨fits, flag, rfl, front⟩
    rw [treated, onEstablished, known, Notice.actions_unless, heard_query (by simp)]
    simp only [onGlobalRequest, parsed]
    rfl
  | ignored listed front =>
    have parsed := ChannelOnly.parse_eq_ok_iff.2 front
    simp only [List.mem_cons, List.not_mem_nil, or_false] at listed
    rcases listed with rfl | rfl | rfl <;>
    · obtain ⟨treated, known⟩ := onPacket_awaited phase (by decide) (first_of_front front)
      rw [treated, onEstablished, known]
      simp only [onIgnored, parsed]
      rfl
  | noise listed front =>
    obtain ⟨rest, rfl⟩ := front
    simp only [List.mem_cons, List.not_mem_nil, or_false] at listed
    rcases listed with rfl | rfl <;> rfl
  | close front =>
    have parsed := ChannelOnly.parse_eq_ok_iff.2 front
    obtain ⟨treated, known⟩ := onPacket_awaited phase (by decide) (first_of_front front)
    have owed : h.channel.peerClosed.1 = some (ChannelOnly.toBytes .channelClose peer) := by
      simp [SessionChannel.peerClosed, SessionChannel.close, serving.opened, serving.unclosed,
        serving.peer]
    have answered : (h.channel.peerClosed.1.map Action.send).toList ++ [.closed] =
        Notice.close.actions peer := by
      rw [owed]
      rfl
    rw [treated, onEstablished, known, ← answered]
    simp only [onPeerClose, parsed]
    rfl

/-- A transition that succeeds only on a payload that tells something. -/
def Attends (payload : Bytes) (h : Handshake) (run : Transition) : Prop :=
  Leaves (fun _ _ => ∃ notice, Notice.Told payload notice) (fun _ => True) (run h)

theorem checkRecipient_attends {recipient : UInt32} {rest : Unit → Transition}
    (own : recipient = localId → Attends payload h (rest ())) :
    Attends payload h (lift (SessionChannel.checkRecipient recipient) >>= rest) :=
  .bind (leaves_lift (fun _ checked => own (SessionChannel.checkRecipient_eq_ok_iff.1 checked))
    trivial)

theorem attends_of_told (told : Notice.Told payload notice) (run : Transition) :
    Attends payload h run := by
  rw [Attends]
  cases run h with
  | ok => exact ⟨notice, told⟩
  | error => exact trivial

theorem onIgnored_attends {code : MessageCode}
    (listed : code ∈ [MessageCode.channelWindowAdjust, .channelEof, .channelSuccess]) :
    Attends payload h (onIgnored code payload) := by
  refine .bind (leaves_lift ?_ trivial)
  intro recipient parsed
  refine checkRecipient_attends ?_
  rintro rfl
  exact attends_of_told (.ignored listed (ChannelOnly.parse_eq_ok_iff.1 parsed)) _

theorem onEstablished_attends : Attends payload h (onEstablished payload) := by
  unfold onEstablished
  dsimp only
  -- as they stand there: both kinds of data, what is ignored, the two requests, the close
  split
  · refine .bind (leaves_lift ?_ trivial)
    rintro ⟨recipient, data⟩ parsed
    refine checkRecipient_attends ?_
    rintro rfl
    obtain ⟨fits, front⟩ := DataMessage.parse_eq_ok_iff.1 parsed
    exact attends_of_told (.output fits front) _
  · refine .bind (leaves_lift ?_ trivial)
    rintro ⟨recipient, kind, data⟩ parsed
    refine checkRecipient_attends ?_
    rintro rfl
    obtain ⟨fits, front⟩ := ExtendedDataMessage.parse_eq_ok_iff.1 parsed
    exact attends_of_told (.extended fits front) _
  · exact onIgnored_attends (by decide)
  · exact onIgnored_attends (by decide)
  · exact onIgnored_attends (by decide)
  · refine .bind (leaves_lift ?_ trivial)
    rintro ⟨recipient, wanted, kind⟩ parsed
    refine checkRecipient_attends ?_
    rintro rfl
    obtain ⟨name, flag, fields, fits, legible, -, whole⟩ := ChannelRequest.parse_ok_iff.1 ⟨kind, parsed⟩
    exact attends_of_told (.request fits legible whole) _
  · refine .bind (leaves_lift ?_ trivial)
    intro request parsed
    obtain ⟨fits, flag, -, front⟩ := GlobalRequest.parse_eq_ok_iff.1 parsed
    exact attends_of_told (.global fits front) _
  · refine .bind (leaves_lift ?_ trivial)
    intro recipient parsed
    refine checkRecipient_attends ?_
    rintro rfl
    exact attends_of_told (.close (ChannelOnly.parse_eq_ok_iff.1 parsed)) _
  · exact trivial

/-- Only a payload that tells something is accepted. -/
theorem onPacket_attends (phase : h.phase = .established) :
    Attends payload h (onPacket entropy payload) := by
  have noise {code : UInt8} {rest : Bytes} {kind : MessageCode}
      (known : MessageCode.ofByte? code = some kind) (listed : kind ∈ [MessageCode.ignore, .debug]) :
      Notice.Told (code :: rest) .idle := by
    rw [MessageCode.toByte_of_ofByte? known]
    exact .noise listed ⟨rest, rfl⟩
  unfold onPacket
  split
  · exact trivial
  · rename_i code rest
    split
    case h_1 known => exact ⟨_, noise known (by decide)⟩
    case h_2 known => exact ⟨_, noise known (by decide)⟩
    case h_3 => exact .bind (leaves_lift (fun _ _ => .modify trivial) trivial)
    case h_4 => exact .bind (leaves_lift (fun _ _ => trivial) trivial)
    case h_5 =>
      have attends : Attends (code :: rest) h (onEstablished (code :: rest)) := onEstablished_attends
      rw [Attends, onPhase]
      refine .get ?_
      rw [phase]
      exact attends

/-- A payload that tells nothing is refused, with the channel as it was. -/
theorem onPacket_untold (phase : h.phase = .established)
    (untold : ∀ notice, ¬Notice.Told payload notice) :
    ∃ error failed, onPacket entropy payload h = .error error failed ∧
      failed.channel = h.channel := by
  cases done : onPacket entropy payload h with
  | ok actions after =>
    have attends : Attends payload h (onPacket entropy payload) := onPacket_attends phase
    rw [Attends, done] at attends
    obtain ⟨notice, told⟩ := attends
    exact absurd told (untold notice)
  | error error failed =>
    refine ⟨error, failed, rfl, ?_⟩
    rcases onPacket_spoils (newKeysInvariant_elsewhere .established phase (by decide)) done with
      ⟨-, -, rfl⟩ | ⟨unharmed, -⟩
    · rfl
    · cases unharmed <;> rfl

end Step

section Stretch

def packetCalls (packets : List (Entropy × Bytes)) : List Call :=
  packets.map fun packet => .packet packet.1 packet.2

/-- Packets that all tell something: they are accepted one after the other, what is asked for
is what is done about the notices, and the window shrinks by the data that is handed out. -/
structure Serves (peer : UInt32) (h : Handshake) (packets : List (Entropy × Bytes))
    (notices : List Notice) (last : Handshake) : Prop where
  told : List.Forall₂ (fun packet notice => Notice.Told packet.2 notice) packets notices
  passes : Passes (packetCalls packets) h (notices.flatMap (Notice.actions peer)) last
  window : last.channel.localWindow.toNat =
    h.channel.localWindow.toNat - volume (notices.flatMap (Notice.actions peer))

/-- Why no more packets are served: there are none, the server has closed the channel, or the
next one is refused, with nothing asked for and the channel as it was. -/
inductive Stops (notices : List Notice) (last : Handshake) : List (Entropy × Bytes) → Prop where
  | ended : .close ∉ notices → last.phase = .established → Stops notices last []
  | closed {earlier : List Notice} (rest : List (Entropy × Bytes)) :
      notices = earlier ++ [.close] → .close ∉ earlier → last.phase = .closed →
      Stops notices last rest
  | refused {entropy : Entropy} {payload : Bytes} {error : Error} {failed : Handshake}
      (rest : List (Entropy × Bytes)) : .close ∉ notices → last.phase = .established →
      (∀ notice, ¬Notice.Told payload notice) →
      onPacket entropy payload last = .error error failed → failed.channel = last.channel →
      Stops notices last ((entropy, payload) :: rest)

variable {packets rest : List (Entropy × Bytes)} {notices : List Notice} {next last : Handshake}

theorem Serving.heard (serving : Serving peer h) (stays : notice ≠ .close) :
    Serving peer (heard notice h) := by
  cases notice with
  | data | query | globalQuery | idle =>
    exact ⟨serving.phase, serving.opened, serving.unclosed, serving.peer⟩
  | close => exact absurd rfl stays

theorem window_heard (peer : UInt32) (notice : Notice) (h : Handshake) :
    (heard notice h).channel.localWindow.toNat =
      h.channel.localWindow.toNat - volume (notice.actions peer) := by
  cases notice with
  | data content => exact SessionChannel.toNat_receive h.channel content.bytes.length
  | query | globalQuery | idle => rfl
  | close =>
    have kept : h.channel.close.2.localWindow = h.channel.localWindow := by
      unfold SessionChannel.close
      split <;> rfl
    exact congrArg UInt32.toNat kept

theorem serves_nil (peer : UInt32) (h : Handshake) : Serves peer h [] [] h where
  told := .nil
  passes := .nil h
  window := rfl

theorem Serves.cons (serving : Serving peer h) (told : Notice.Told payload notice)
    (serves : Serves peer (Handshake.heard notice h) packets notices last) :
    Serves peer h ((entropy, payload) :: packets) (notice :: notices) last where
  told := .cons told serves.told
  passes := by
    refine .cons ?_ serves.passes
    rw [call, serving.onPacket told]
    rfl
  window := by
    rw [serves.window, window_heard peer, List.flatMap_cons, volume_append, Nat.sub_sub]

theorem Stops.behind (stops : Stops notices last rest) (stays : notice ≠ .close) :
    Stops (notice :: notices) last rest := by
  have remains {notices : List Notice} (unclosed : .close ∉ notices) : .close ∉ notice :: notices :=
    fun among => unclosed ((List.mem_cons.1 among).resolve_left stays.symm)
  cases stops with
  | ended unclosed phase => exact .ended (remains unclosed) phase
  | closed _ whole unclosed phase =>
    exact .closed _ (by rw [whole, List.cons_append]) (remains unclosed) phase
  | refused _ unclosed phase untold failed kept =>
    exact .refused _ (remains unclosed) phase untold failed kept

/-- Packets are served until there are no more, the server closes the channel or one of them
tells nothing. -/
theorem Serving.serves (serving : Serving peer h) (packets : List (Entropy × Bytes)) :
    ∃ served rest notices last, packets = served ++ rest ∧ Serves peer h served notices last ∧
      Stops notices last rest := by
  -- a notice leaves a session that serves again, unless it is the last one
  induction packets generalizing h with
  | nil => exact ⟨[], [], [], h, rfl, serves_nil peer h, .ended nofun serving.phase⟩
  | cons packet packets ih =>
    obtain ⟨entropy, payload⟩ := packet
    by_cases some : ∃ notice, Notice.Told payload notice
    · obtain ⟨notice, told⟩ := some
      by_cases ends : notice = .close
      · subst ends
        exact ⟨[_], packets, _, _, rfl, .cons serving told (serves_nil peer _),
          .closed packets (List.nil_append _).symm nofun rfl⟩
      · obtain ⟨served, rest, notices, last, rfl, serves, stops⟩ := ih (serving.heard ends)
        exact ⟨_ :: served, rest, _, last, rfl, serves.cons serving told, stops.behind ends⟩
    · have untold := not_exists.1 some
      obtain ⟨error, failed, refused, kept⟩ := onPacket_untold serving.phase untold
      exact ⟨[], _, [], h, rfl, serves_nil peer h,
        .refused packets nofun serving.phase untold refused kept⟩

theorem Serving.told_unique (serving : Serving peer h) {other : Notice}
    (first : Notice.Told payload notice) (second : Notice.Told payload other) : notice = other := by
  -- the session does one thing about the payload, and notices differ in what is done about them
  have done : Handshake.onPacket (.repeating [0]) payload h = _ := serving.onPacket first
  have same := done.symm.trans (serving.onPacket second)
  exact Notice.actions_injective peer (EStateM.Result.ok.inj same).1

end Stretch

section Account

/-- Nothing was confirmed and no data was handed out. -/
def Mute (history : List Record) : Prop :=
  confirmations history = [] ∧ volume (asked history) = 0

theorem mute_of_sends {call : Call} {outcome : Except Error (List Action)} (messages : List Bytes)
    (sent : outcome = .ok (messages.map .send)) : Mute [⟨call, outcome⟩] := by
  subst sent
  refine ⟨confirmation_eq_nil (by simp), ?_⟩
  rw [asked, List.flatMap_singleton]
  exact volume_sends messages

theorem mute_of_error (call : Call) (error : Error) : Mute [⟨call, .error error⟩] :=
  ⟨by cases call <;> rfl, rfl⟩

/-- How the channel stands after a history: as it was created until the server confirms it, and
then with the window that was advertised, less the data that was handed out. -/
inductive Accounts (config : Config) (history : List Record) (h : Handshake) : Prop where
  | waiting (early : h.phase ≠ .established) (running : h.phase ≠ .closed)
      (channel : h.channel =
        { localWindow := config.windowSize, localMaxPacket := config.maxPacketSize })
      (mute : Mute history)
  | serving {confirmation : ChannelConfirmation} (serving : Serving confirmation.sender h)
      (confirmed : confirmations history = [confirmation])
      (window : h.channel.localWindow.toNat = config.windowSize.toNat - volume (asked history))
  | closed (phase : h.phase = .closed)

variable {config : Config} {history : List Record} {record : Record} {error : Error}

theorem volume_asked (history : List Record) (record : Record) :
    volume (asked (history ++ [record])) = volume (asked history) + volume (asked [record]) := by
  rw [asked, List.flatMap_append, volume_append]
  rfl

theorem create_accounts (entropy : Entropy) (config : Config) :
    Accounts config [] (create entropy config) :=
  .waiting nofun nofun rfl ⟨rfl, rfl⟩

/-- Nothing has happened to the channel. -/
theorem Accounts.aside (accounts : Accounts config history h) (mute : Mute [record])
    (phase : after.phase = h.phase) (channel : after.channel = h.channel) :
    Accounts config (history ++ [record]) after := by
  obtain ⟨unconfirmed, silent⟩ := mute
  cases accounts with
  | waiting early running fresh mute =>
    refine .waiting (phase ▸ early) (phase ▸ running) (channel.trans fresh) ⟨?_, ?_⟩
    · rw [confirmations_append, mute.1, unconfirmed]
      rfl
    · rw [volume_asked, mute.2, silent]
  | serving serving confirmed window =>
    refine .serving ⟨phase.trans serving.phase, channel ▸ serving.opened, channel ▸ serving.unclosed,
      channel ▸ serving.peer⟩ ?_ ?_
    · rw [confirmations_append, confirmed, unconfirmed]
      rfl
    · rw [volume_asked, silent, channel, window]
      rfl
  | closed ended => exact .closed (phase.trans ended)

theorem accounts_waiting (fresh : h.channel =
      { localWindow := config.windowSize, localMaxPacket := config.maxPacketSize })
    (mute : Mute history) {call : Call} (kept : after.channel = h.channel)
    (early : after.phase ≠ .established ∧ after.phase ≠ .closed) (quiet : .established ∉ actions)
    (silent : volume actions = 0) : Accounts config (history ++ [⟨call, .ok actions⟩]) after := by
  refine .waiting early.1 early.2 (kept.trans fresh) ⟨?_, ?_⟩
  · rw [confirmations_append, mute.1, confirmation_eq_nil quiet]
    rfl
  · have asks : asked [⟨call, .ok actions⟩] = actions := List.flatMap_singleton ..
    rw [volume_asked, mute.2, asks, silent]

/-- Once it has ended, a handshake stays as it is. -/
theorem Reaction.closed_kept (reaction : Reaction entropy payload h actions after)
    (ended : h.phase = .closed) : after.phase = .closed := by
  cases reaction with
  | ignored | dropped | refused => exact ended
  | parted => rfl
  | began phase | asked phase | chose phase | replied phase | armed phase | confirmed phase
  | welcomed _ _ phase | delivered _ phase =>
    rw [phase] at ended
    cases ended
  | requested _ _ phase =>
    rcases phase with phase | ⟨_, phase⟩ <;>
    · rw [phase] at ended
      cases ended

/-- What a packet that is accepted preserves, while the session is not established. -/
theorem Accounts.accepted_early (accounts : Accounts config history h)
    (early : h.phase ≠ .established) (reaction : Reaction entropy payload h actions after) :
    Accounts config (history ++ [⟨.packet entropy payload, .ok actions⟩]) after := by
  cases accounts with
  | serving serving => exact absurd serving.phase early
  | closed ended => exact .closed (reaction.closed_kept ended)
  | waiting _ running fresh mute =>
    cases reaction with
    | ignored | dropped | refused =>
      exact accounts_waiting fresh mute rfl ⟨early, running⟩ (by simp) rfl
    | began | asked | chose | replied | armed | requested =>
      exact accounts_waiting fresh mute rfl ⟨nofun, nofun⟩ (by simp) rfl
    | welcomed outbound inbound =>
      refine accounts_waiting fresh mute rfl ⟨nofun, nofun⟩ ?_ ?_
      · cases outbound <;> cases inbound <;> simp
      · cases outbound <;> cases inbound <;> rfl
    | @confirmed confirmation channel phase taken parsed =>
      rw [fresh] at taken
      obtain ⟨-, -, -, rfl⟩ := SessionChannel.confirm_eq_ok_iff.1 taken
      refine @Accounts.serving _ _ _ confirmation ⟨rfl, rfl, rfl, rfl⟩ ?_ ?_
      · rw [confirmations_append, mute.1]
        simp [confirmations, Record.confirmation, parsed, Except.toOption]
      · rw [volume_asked, mute.2, asked, List.flatMap_singleton, Record.asked, volume_append,
          volume_sends]
        rfl
    | delivered _ phase | parted phase => exact absurd phase early

/-- What a notice preserves. -/
theorem Accounts.told {confirmation : ChannelConfirmation} (serving : Serving confirmation.sender h)
    (confirmed : confirmations history = [confirmation])
    (window : h.channel.localWindow.toNat = config.windowSize.toNat - volume (asked history))
    (told : Notice.Told payload notice) :
    Accounts config (history ++ [⟨.packet entropy payload, .ok (notice.actions confirmation.sender)⟩])
      (heard notice h) := by
  by_cases ends : notice = .close
  · subst ends
    exact .closed rfl
  · refine .serving (serving.heard ends) ?_ ?_
    · have quiet : .established ∉ notice.actions confirmation.sender := by
        cases notice <;> simp [Notice.actions]
      rw [confirmations_append, confirmed, confirmation_eq_nil quiet]
      rfl
    · rw [window_heard confirmation.sender, window, volume_asked, Nat.sub_sub]
      simp [asked, Record.asked]

/-- What a packet that is accepted preserves. -/
theorem Accounts.accepted (accounts : Accounts config history h)
    (accepted : onPacket entropy payload h = .ok actions after) :
    Accounts config (history ++ [⟨.packet entropy payload, .ok actions⟩]) after := by
  cases accounts with
  | waiting early running fresh mute =>
    exact accepted_early (.waiting early running fresh mute) early (reaction_of_onPacket accepted)
  | closed ended =>
    exact .closed ((reaction_of_onPacket accepted).closed_kept ended)
  | serving serving confirmed window =>
    have attends : Attends payload h (onPacket entropy payload) := onPacket_attends serving.phase
    rw [Attends, accepted] at attends
    obtain ⟨notice, told⟩ := attends
    have done : onPacket entropy payload h = _ := serving.onPacket told
    rw [accepted] at done
    cases done
    exact Accounts.told serving confirmed window told

/-- What a call preserves. -/
theorem Accounts.call (accounts : Accounts config history h) (invariant : NewKeysInvariant h)
    (action : Call) : Accounts config (history ++ [⟨action, (h.call action).1⟩]) (h.call action).2 := by
  cases action with
  | version version =>
    have leaves := onVersion_leaves version (h := h)
    simp only [Handshake.call]
    cases done : onVersion version h with
    | ok actions after =>
      rw [done] at leaves
      obtain ⟨meeting, rfl, rfl⟩ := leaves
      cases accounts with
      | waiting _ _ fresh mute =>
        have early : Phase.kexInit ≠ .established ∧ Phase.kexInit ≠ .closed := by decide
        exact accounts_waiting fresh mute rfl early (by simp) rfl
      | serving serving => exact absurd (meeting.symm.trans serving.phase) (by decide)
      | closed ended => exact absurd (meeting.symm.trans ended) (by decide)
    | error error after =>
      rw [done] at leaves
      obtain rfl : after = h := leaves
      exact accounts.aside (mute_of_error _ error) rfl rfl
  | packet entropy payload =>
    simp only [Handshake.call]
    cases done : onPacket entropy payload h with
    | ok actions after => exact accounts.accepted done
    | error error after =>
      rcases onPacket_spoils invariant done with ⟨-, -, rfl⟩ | ⟨unharmed, -⟩
      · exact .closed rfl
      · cases unharmed <;> exact accounts.aside (mute_of_error _ error) rfl rfl
  | write data =>
    refine accounts.aside ?_ rfl rfl
    simp only [Handshake.call]
    cases h.write data with
    | ok messages => exact mute_of_sends messages rfl
    | error error => exact mute_of_error _ error
  | close => exact .closed (close_closes h).1
  | abort => exact .closed rfl

theorem Accounts.run (accounts : Accounts config history h) (invariant : NewKeysInvariant h)
    (calls : List Call) :
    Accounts config (history ++ (run calls h).1) (Handshake.run calls h).2 := by
  induction calls generalizing history h with
  | nil => rwa [Handshake.run, List.append_nil]
  | cons action rest ih =>
    have later := ih (accounts.call invariant action) (invariant.call action)
    rwa [List.append_assoc] at later

end Account

/-- Whatever has led to it, an established session has one confirmation of the server, and its
window is the one that was advertised less the data that was handed out. Then packets are
served one after the other, up to the end that the server makes or the first that tells nothing:
data is handed out as it is, each request that wants an answer is refused once, with the
server's number where it is for our channel, and the window shrinks by what was handed out.
Each packet tells one thing, and a message about another channel, or of a kind that nobody
waits for, tells nothing. -/
theorem run_serves (entropy : Entropy) (config : Config) (calls : List Call)
    (established : (run calls (create entropy config)).2.phase = .established) :
    let history := (run calls (create entropy config)).1
    let h := (run calls (create entropy config)).2
    ∃ confirmation, confirmations history = [confirmation] ∧
      h.channel.localWindow.toNat = config.windowSize.toNat - volume (asked history) ∧
      (∀ packets, ∃ served rest notices last, packets = served ++ rest ∧
        Serves confirmation.sender h served notices last ∧ Stops notices last rest) ∧
      (∀ payload notice other, Notice.Told payload notice → Notice.Told payload other →
        notice = other) ∧
      ∀ payload, Notice.Foreign payload → ∀ notice, ¬Notice.Told payload notice := by
  intro history h
  have accounts := (create_accounts entropy config).run
    (create_newKeysInvariant entropy config) calls
  rw [List.nil_append] at accounts
  cases accounts with
  | waiting early => exact absurd established early
  | closed ended => exact nomatch established.symm.trans ended
  | @serving confirmation serving confirmed window =>
    exact ⟨confirmation, confirmed, window, serving.serves,
      fun _ _ _ first second => serving.told_unique first second,
      fun _ foreign notice => foreign.untold notice⟩

/-- A small client that an honest server has let in, and then sends two letters and a close. -/
theorem run_serves_small :
    (run smallCalls (create zeros smallClient)).2.phase = .established ∧
      ∃ confirmation, confirmations (run smallCalls (create zeros smallClient)).1 = [confirmation] ∧
        ∃ served rest notices last,
          [(zeros, DataMessage.toBytes ⟨localId, [72, 105]⟩),
            (zeros, ChannelOnly.toBytes .channelClose localId)] = served ++ rest ∧
          Serves confirmation.sender (run smallCalls (create zeros smallClient)).2 served notices
            last ∧
          Stops notices last rest := by
  have completed := honest_passes small_checked trivial small_fits small_parsed rfl small_agreed
    small_honest filter_smallCalls
  obtain ⟨confirmation, confirmed, -, serves, -⟩ :=
    run_serves zeros smallClient smallCalls completed.established
  exact ⟨completed.established, confirmation, confirmed, serves _⟩

end Handshake

end SecureShell
