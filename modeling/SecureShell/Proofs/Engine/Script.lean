import SecureShell.Proofs.Engine.Secrecy
import SecureShell.Proofs.Handshake.Cues
import SecureShell.Proofs.Pipeline.Packets

/-! The language of a client. Whatever a caller and a server do, the packets of an engine
are those of payloads that follow the script, and an engine that has left says nothing
more. The invariant joins the phase, the channel and the flags of the engine: what was
said can be continued with all that the script leaves to the phase. -/
namespace SecureShell

def Action.outgoing? : Action → Option Action
  | .send payload => some (.send payload)
  | .armOutbound keys => some (.armOutbound keys)
  | .compress true _ => some (.compress true false)
  | .compress false _ | .armInbound _ | .established | .deliver _ | .closed => none

def Pipeline.Command.action : Pipeline.Command → Action
  | .send _ payload => .send payload
  | .arm keys => .armOutbound keys
  | .compress => .compress true false

namespace Engine

open Handshake
open Pipeline (Command)

variable {supply : Supply} {engine after : Engine} {trace : Trace} {config : Config}
  {history : List Record} {actions : List Action} {wires : List Bytes}

theorem outgoing_sends (payloads : List Bytes) :
    (payloads.map Action.send).filterMap Action.outgoing? = payloads.map .send := by
  induction payloads with
  | nil => rfl
  | cons payload rest ih => exact congrArg (.send payload :: ·) ih

theorem payloads_outgoing (actions : List Action) :
    (actions.filterMap Action.outgoing?).filterMap Action.payload? =
      actions.filterMap Action.payload? := by
  rw [List.filterMap_filterMap]
  congr 1
  funext action
  cases action with
  | compress outbound inbound => cases outbound <;> rfl
  | _ => rfl

theorem payloads_commands (commands : List Command) :
    Command.payloads commands = (commands.map Command.action).filterMap Action.payload? := by
  induction commands with
  | nil => rfl
  | cons command rest ih =>
    cases command with
    | send entropy payload => exact congrArg (payload :: ·) ih
    | arm | compress => exact ih

/-- What is sent for actions is what is sent for commands. -/
theorem Performs.packets (performs : Performs supply actions engine wires after)
    (stays : .closed ∉ actions) :
    ∃ commands, Command.packets commands engine.outbound = .ok wires after.outbound ∧
      commands.map Command.action = actions.filterMap Action.outgoing? := by
  induction performs with
  | nil => exact ⟨[], rfl, rfl⟩
  | @send payload _ _ _ _ engine _ sent _ ih =>
    obtain ⟨commands, performed, same⟩ := ih fun later => stays (.tail _ later)
    refine ⟨.send (supply.source engine.drawn) payload :: commands, ?_, congrArg _ same⟩
    exact Command.packets_cons sent performed
  | @armOutbound keys _ _ _ engine _ armed _ ih =>
    obtain ⟨commands, performed, same⟩ := ih fun later => stays (.tail _ later)
    refine ⟨.arm keys :: commands, ?_, congrArg _ same⟩
    exact Command.packets_cons (by simp only [Command.perform, armed]; rfl) performed
  | @compress outbound inbound _ _ _ _ _ ih =>
    obtain ⟨commands, performed, same⟩ := ih fun later => stays (.tail _ later)
    cases outbound with
    | false => exact ⟨commands, performed, same⟩
    | true => exact ⟨.compress :: commands, Command.packets_cons rfl performed, congrArg _ same⟩
  | armInbound _ _ ih | established _ ih | deliver _ ih =>
    exact ih fun later => stays (.tail _ later)
  | closed => exact absurd (.head _) stays

section Said

/-- At most one message, with which the client takes leave. -/
def Parting (last : List Bytes) : Prop :=
  last.length ≤ 1 ∧ ∀ payload ∈ last, payload.head? = some MessageCode.disconnect.toByte

theorem parting_nil : Parting [] := ⟨Nat.zero_le _, nofun⟩

/-- Commands are what the handshake has asked for, and a last message of the engine's. -/
def Obeys (history : List Record) (last : List Bytes) (commands : List Command) : Prop :=
  commands.map Command.action = (asked history).filterMap Action.outgoing? ++ last.map .send

/-- Packets of a client: the commands that they come of, what the payloads in them say,
and the data that they carry. -/
structure Said (config : Config) (peer : Option UInt32) (history : List Record)
    (last : List Bytes) (kinds : List MessageKind) (commands : List Command)
    (wires : List Bytes) (outbound : Outbound) : Prop where
  sent : Command.packets commands {} = .ok wires outbound
  obeys : Obeys history last commands
  utters : List.Forall₂ (Utters config peer) kinds (Command.payloads commands)
  carries : (Command.payloads commands).flatMap dataOf = written history

variable {peer later : Option UInt32} {records : List Record} {kinds more : List MessageKind}
  {commands : List Command} {further last : List Bytes}

/-- More is said, when the channel may have got its number. -/
theorem Said.go (said : Said config peer history [] kinds commands wires engine.outbound)
    (performs : Performs supply actions engine further after) (stays : .closed ∉ actions)
    (known : peer = none ∨ later = peer)
    (asks : actions.filterMap Action.outgoing? =
      (asked records).filterMap Action.outgoing? ++ last.map .send)
    (utters : List.Forall₂ (Utters config later) more (actions.filterMap Action.payload?))
    (carries : (actions.filterMap Action.payload?).flatMap dataOf = written records) :
    ∃ commands, Said config later (history ++ records) last (kinds ++ more) commands
      (wires ++ further) after.outbound := by
  obtain ⟨behind, performed, same⟩ := performs.packets stays
  have payloads : Command.payloads behind = actions.filterMap Action.payload? := by
    rw [payloads_commands, same, payloads_outgoing]
  have kept : List.Forall₂ (Utters config later) kinds (Command.payloads commands) := by
    refine said.utters.imp fun kind payload utters => ?_
    rcases known with rfl | rfl
    · exact utters.known
    · exact utters
  refine ⟨commands ++ behind, Command.packets_append said.sent performed, ?_, ?_, ?_⟩
  · have before : commands.map Command.action = (asked history).filterMap Action.outgoing? :=
      said.obeys.trans (List.append_nil _)
    rw [Obeys, List.map_append, before, same, asks, asked, asked, asked, List.flatMap_append,
      List.filterMap_append, List.append_assoc]
  · rw [Command.payloads_append, payloads]
    exact List.rel_append kept utters
  · rw [Command.payloads_append, payloads, List.flatMap_append, said.carries, carries,
      written_append]

end Said

section Narrates

/-- The invariant of the order of messages: the packets that were queued hold the messages of
a beginning of the script, and what the script still allows in the phase continues it. -/
inductive Narrates (config : Config) (history : List Record) (engine : Engine) :
    List Bytes → Prop where
  | running {kinds : List MessageKind} {commands : List Command} {wires : List Bytes} :
      engine.finished = false →
      ConnectionInvariant config engine.handshake → Confirmed history engine.handshake →
      Said config engine.handshake.peer history [] kinds commands wires engine.outbound →
      (∀ rest, rest ∈ (remaining config engine.handshake.phase).matches' →
        kinds ++ rest ∈ (script config).matches') →
      (engine.started = false → wires = []) →
      Narrates config history engine (greeting config engine ++ wires)
  | ended {last : List Bytes} {kinds : List MessageKind} {commands : List Command}
      {wires : List Bytes} {outbound : Outbound} : engine.finished = true → Parting last →
      Said config (named history) history last kinds commands wires outbound →
      FollowsScript config kinds → (confirmations history).length ≤ 1 →
      (engine.started = false → wires = []) →
      Narrates config history engine (greeting config engine ++ wires)

variable {queued : List Bytes} {kinds : List MessageKind} {records : List Record}

theorem Narrates.unended (running : engine.finished = false)
    (narrates : Narrates config history engine queued) :
    ∃ kinds commands wires, queued = greeting config engine ++ wires ∧
      ConnectionInvariant config engine.handshake ∧ Confirmed history engine.handshake ∧
      Said config engine.handshake.peer history [] kinds commands wires engine.outbound ∧
      (∀ rest, rest ∈ (remaining config engine.handshake.phase).matches' →
        kinds ++ rest ∈ (script config).matches') ∧
      (engine.started = false → wires = []) := by
  cases narrates with
  | ended finished =>
    rw [running] at finished
    cases finished
  | running _ invariant confirmed said due unspoken =>
    exact ⟨_, _, _, rfl, invariant, confirmed, said, due, unspoken⟩

theorem Narrates.took (narrates : Narrates config history engine queued) :
    Narrates config history { engine with queue := [] } queued := by
  cases narrates with
  | running running invariant confirmed said due unspoken =>
    exact .running running invariant confirmed said due unspoken
  | ended finished parting said follows once unspoken =>
    exact .ended finished parting said follows once unspoken

/-- An engine goes on with actions that say what is due. -/
theorem Narrates.go {start : Engine} (running : engine.finished = false)
    (narrates : Narrates config history engine queued)
    (performs : Performs supply actions start wires after) (stays : .closed ∉ actions)
    (outbound : start.outbound = engine.outbound) (started : start.started = engine.started)
    (finished : start.finished = engine.finished)
    (invariant : ConnectionInvariant config start.handshake)
    (confirmed : Confirmed (history ++ records) start.handshake)
    (cue : Cue config engine.handshake.phase kinds start.handshake.phase)
    (asks : asked records = actions)
    (utters : List.Forall₂ (Utters config start.handshake.peer) kinds
      (actions.filterMap Action.payload?))
    (carries : (actions.filterMap Action.payload?).flatMap dataOf = written records)
    (unspoken : engine.started = false → actions = []) :
    Narrates config (history ++ records) after (queued ++ wires) := by
  have carried := performs.carries stays
  obtain ⟨said, _, packets, rfl, -, known, saying, due, silent⟩ := narrates.unended running
  rw [← outbound] at saying
  have asks' : actions.filterMap Action.outgoing? =
      (asked records).filterMap Action.outgoing? ++ ([] : List Bytes).map .send := by
    rw [asks, List.map_nil, List.append_nil]
  obtain ⟨commands, more⟩ := saying.go performs stays (known.grows confirmed) asks' utters carries
  have same : greeting config after = greeting config engine := by
    rw [greeting, greeting, carried.started, started]
  rw [← carried.handshake] at invariant confirmed more cue
  rw [List.append_assoc, ← same]
  refine .running (carried.finished.trans (finished.trans running)) invariant confirmed more ?_ ?_
  · intro rest matched
    rw [List.append_assoc]
    exact due _ (cue.remaining matched)
  · intro unstarted
    have unstarted' : engine.started = false := by rw [← started, ← carried.started, unstarted]
    obtain rfl := unspoken unstarted'
    cases performs
    rw [silent unstarted']
    rfl

/-- A step that neither says nor tells anything. -/
theorem Narrates.aside (running : engine.finished = false)
    (narrates : Narrates config history engine queued)
    (handshake : after.handshake = engine.handshake)
    (outbound : after.outbound = engine.outbound) (started : after.started = engine.started)
    (finished : after.finished = engine.finished) : Narrates config history after queued := by
  obtain ⟨_, _, packets, rfl, invariant, known, saying, due, silent⟩ := narrates.unended running
  have same : greeting config after = greeting config engine := by rw [greeting, greeting, started]
  rw [← handshake] at invariant known saying due
  rw [← outbound] at saying
  rw [← started] at silent
  rw [← same]
  exact .running (finished.trans running) invariant known saying due silent

/-- The end of the connection, with what is said last. -/
theorem Narrates.leave {start : Engine} {payloads final : List Bytes} {phase : Phase}
    (running : engine.finished = false) (narrates : Narrates config history engine queued)
    (performs : Performs supply (payloads.map .send) start wires after)
    (outbound : start.outbound = engine.outbound) (started : start.started = engine.started)
    (cue : Cue config engine.handshake.phase kinds phase) (silent : .data ∉ kinds)
    (parting : Parting final)
    (asks : payloads.map .send = (asked records).filterMap Action.outgoing? ++ final.map .send)
    (utters : List.Forall₂ (Utters config engine.handshake.peer) kinds payloads ∨
      List.Forall₂ (Utters config engine.handshake.peer) (kinds ++ [.disconnect]) payloads)
    (quiet : confirmations records = []) (unwritten : written records = [])
    (unspoken : engine.started = false → payloads = []) :
    Narrates config (history ++ records) after.teardown (queued ++ wires) := by
  have carried := performs.carries sends_stay
  obtain ⟨said, _, packets, rfl, -, known, saying, due, alone⟩ := narrates.unended running
  have line : greeting config after.teardown = greeting config engine := by
    have kept : after.teardown.started = engine.started := carried.started.trans started
    rw [greeting, greeting, kept]
  have same : confirmations (history ++ records) = confirmations history := by
    rw [confirmations_append, quiet, List.append_nil]
  have number : named (history ++ records) = engine.handshake.peer := by
    rw [named, same]
    exact known.named
  have once : (confirmations (history ++ records)).length ≤ 1 := by
    rw [same]
    exact known.once
  obtain ⟨rest, matched⟩ := exists_remaining config phase
  have whole := due _ (cue.remaining matched)
  rw [← List.append_assoc] at whole
  obtain ⟨last, uttered, follows, quietLast⟩ : ∃ last,
      List.Forall₂ (Utters config engine.handshake.peer) last payloads ∧
        FollowsScript config (said ++ last) ∧ .data ∉ last := by
    rcases utters with utters | utters
    · exact ⟨kinds, utters, .begun rest whole, silent⟩
    · refine ⟨kinds ++ [.disconnect], utters, ?_, by simpa using silent⟩
      rw [← List.append_assoc]
      exact .left rest whole
  have sends : (payloads.map Action.send).filterMap Action.payload? = payloads :=
    payloads_sends payloads
  rw [← outbound] at saying
  obtain ⟨commands, more⟩ := saying.go performs sends_stay (.inr rfl)
    ((outgoing_sends payloads).trans asks) (sends.symm ▸ uttered)
    (sends.symm ▸ (dataOf_utters uttered quietLast).trans unwritten.symm)
  rw [List.append_assoc, ← line]
  refine .ended rfl parting (number ▸ more) follows once ?_
  intro unstarted
  have unstarted' : engine.started = false := by rw [← started, ← carried.started, ← unstarted]; rfl
  obtain rfl := unspoken unstarted'
  cases performs
  rw [alone unstarted']
  rfl

/-- An engine that has not introduced itself has said nothing. -/
theorem Narrates.introduce (running : engine.finished = false) (unstarted : engine.started = false)
    (narrates : Narrates config history engine queued) :
    Narrates config history
      { engine with
        started := true, queue := engine.handshake.clientVersion.toBytes :: engine.queue }
      (queued ++ [engine.handshake.clientVersion.toBytes]) := by
  obtain ⟨_, _, packets, rfl, invariant, confirmed, saying, due, silent⟩ := narrates.unended running
  obtain rfl := silent unstarted
  have unseen : greeting config engine = [] := by
    rw [greeting, unstarted]
    rfl
  rw [unseen, invariant.introduces]
  exact .running running invariant confirmed saying due Bool.noConfusion

theorem lastWords_utters (error : Error) (engine : Engine) {peer : Option UInt32} :
    List.Forall₂ (Utters config peer) [] (engine.lastWords error) ∨
      List.Forall₂ (Utters config peer) [.disconnect] (engine.lastWords error) := by
  unfold lastWords
  split
  · exact .inr (.cons (.disconnect _) .nil)
  · exact .inl .nil

theorem departed_asked (h : Handshake) :
    (asked (Handshake.run [.close, .abort] h).1).filterMap Action.outgoing? ++
      ([] : List Bytes).map .send = h.close.1.map .send := by
  have asks : asked (Handshake.run [.close, .abort] h).1 = h.close.1.map .send :=
    List.append_nil _
  rw [asks, outgoing_sends, List.map_nil, List.append_nil]

theorem Refusal.unasked {error : Error} {failed : Engine}
    (refusal : Refusal supply engine error trace failed) (last : List Bytes) :
    last.map .send =
      (asked (Handshake.run (trace.told ++ [.abort]) engine.handshake).1).filterMap
        Action.outgoing? ++ last.map .send := by
  cases refusal with
  | line | packet => rfl
  | message _ refused =>
    simp only [List.cons_append, List.nil_append, Handshake.run, Handshake.call, refused, outcome]
    rfl

theorem Refusal.unheard {error : Error} {failed : Engine}
    (refusal : Refusal supply engine error trace failed) :
    confirmations (Handshake.run (trace.told ++ [.abort]) engine.handshake).1 = [] ∧
      written (Handshake.run (trace.told ++ [.abort]) engine.handshake).1 = [] := by
  cases refusal with
  | line | packet => exact ⟨rfl, rfl⟩
  | message _ refused =>
    simp only [List.cons_append, List.nil_append, Handshake.run, Handshake.call, refused, outcome]
    exact ⟨rfl, rfl⟩

/-- An engine that has not introduced itself ends without a word. -/
theorem Refusal.unsaid {error : Error} {failed : Engine} (sound : engine.Sound)
    (running : engine.finished = false) (unstarted : engine.started = false)
    (refusal : Refusal supply engine error trace failed) : failed.lastWords error = [] := by
  have known := (sound.introduced running).1 (sound.unstarted running unstarted)
  have listening : failed.header.isSome = true := by
    cases refusal with
    | line => rfl
    | packet | message => exact known
  have unowed : failed.owesDisconnect error = false := by
    simp [owesDisconnect, Option.isNone_eq_false_iff.2 listening]
  rw [lastWords, unowed]
  rfl

/-- The story of an engine, whether it has ended or not. -/
theorem Narrates.story (narrates : Narrates config history engine queued) :
    ∃ last kinds commands wires outbound, queued = greeting config engine ++ wires ∧
      (engine.started = false → wires = []) ∧ Parting last ∧
      Said config (named history) history last kinds commands wires outbound ∧
      (confirmations history).length ≤ 1 ∧ FollowsScript config kinds := by
  cases narrates with
  | running _ _ confirmed said due unspoken =>
    obtain ⟨rest, matched⟩ := exists_remaining config engine.handshake.phase
    rw [← confirmed.named] at said
    exact ⟨_, _, _, _, _, rfl, unspoken, parting_nil, said, confirmed.once,
      .begun rest (due rest matched)⟩
  | ended _ parting said follows once unspoken =>
    exact ⟨_, _, _, _, _, rfl, unspoken, parting, said, once, follows⟩

/-- The introduction of the server is answered with the proposal. -/
theorem Narrates.meet {version : Identification} (running : engine.finished = false)
    (narrates : Narrates config history engine queued)
    (phase : engine.handshake.phase = .headerExchange) (started : engine.started = true)
    (performs : Performs supply [.send engine.handshake.clientProposal]
      { engine with
        header := none
        handshake := { engine.handshake with serverVersion := some version, phase := .kexInit } }
      wires after) :
    Narrates config (history ++ (Handshake.run [.version version] engine.handshake).1) after
      (queued ++ wires) := by
  obtain ⟨-, -, -, -, invariant, confirmed, -⟩ := narrates.unended running
  have early : engine.handshake.phase ≠ .established := by
    rw [phase]
    decide
  obtain ⟨entropy, proposal⟩ := invariant.proposes
  have cue : Cue config engine.handshake.phase [.proposal] .kexInit := phase ▸ .introduced
  have utters {peer : Option UInt32} : List.Forall₂ (Utters config peer) [.proposal]
      [engine.handshake.clientProposal] := .cons (proposal ▸ .proposal entropy) .nil
  have quiet : [engine.handshake.clientProposal].flatMap dataOf = [] :=
    @dataOf_utters config none _ _ utters (by decide)
  have told : (Handshake.run [.version version] engine.handshake).1 =
      [⟨.version version, .ok [.send engine.handshake.clientProposal]⟩] := by
    simp only [Handshake.run, Handshake.call, onVersion_ok phase, outcome]
  have silent : confirmations
      [⟨.version version, .ok [.send engine.handshake.clientProposal]⟩] = [] := rfl
  rw [told]
  apply narrates.go running performs (by simp) rfl rfl rfl
    (invariant.enter early ⟨by simp, by simp⟩ rfl)
    (confirmed.kept silent (peer_early early).symm) cue
    rfl utters quiet
  intro unstarted
  rw [started] at unstarted
  cases unstarted

/-- What the caller writes is said in messages of data. -/
theorem Narrates.write {data : Bytes} {messages : List Bytes} (sound : engine.Sound)
    (running : engine.finished = false) (narrates : Narrates config history engine queued)
    (taken : engine.handshake.write data = .ok messages)
    (performs : Performs supply (messages.map .send) engine wires after) :
    Narrates config (history ++ (Handshake.run [.write data] engine.handshake).1) after
      (queued ++ wires) := by
  obtain ⟨-, -, -, -, invariant, confirmed, -⟩ := narrates.unended running
  obtain ⟨phase, carries, utters⟩ := write_due config taken
  have sends := payloads_sends messages
  have told : (Handshake.run [.write data] engine.handshake).1 =
      [⟨.write data, .ok (messages.map .send)⟩] := by
    simp only [Handshake.run, Handshake.call, taken, Except.map]
  have cue : Cue config engine.handshake.phase (messages.map fun _ => .data)
      engine.handshake.phase := by
    rw [phase]
    exact .talked (by simp)
  have quiet : confirmations [⟨.write data, .ok (messages.map .send)⟩] = [] := rfl
  rw [told]
  refine narrates.go running performs sends_stay rfl rfl rfl invariant
    (confirmed.kept quiet rfl) cue
    (List.append_nil _) (sends.symm ▸ utters) ?_ ?_
  · rw [sends, carries]
    exact (List.append_nil data).symm
  · intro unstarted
    rw [sound.unstarted running unstarted] at phase
    cases phase

/-- What one step adds to the story. -/
theorem Step.narrates (sound : engine.Sound) (running : engine.finished = false)
    (narrates : Narrates config history engine queued) (step : Step engine trace after) :
    Narrates config (history ++ (Handshake.run trace.told engine.handshake).1) after
      (queued ++ trace.queued) := by
  obtain ⟨-, -, -, -, invariant, confirmed, -⟩ := narrates.unended running
  cases step with
  | listened | fed | waited =>
    rw [List.append_nil]
    simp only [Handshake.run, List.append_nil]
    exact narrates.aside running rfl rfl rfl rfl
  | introduced unstarted =>
    simp only [Handshake.run, List.append_nil]
    exact narrates.introduce running unstarted
  | met _ _ phase started performs =>
    have finished := (performs.carries (by simp)).finished.trans running
    exact (narrates.meet running phase started performs).aside finished rfl rfl rfl rfl
  | @handled supply payload _ _ _ _ _ _ accepted stays performs =>
    have reaction := reaction_of_onPacket accepted
    obtain ⟨invariant', kinds, cue, utters, quiet⟩ := reaction.due invariant stays
    simp only [Handshake.run, Handshake.call, accepted, outcome]
    exact narrates.go running performs stays rfl rfl rfl invariant'
      (reaction.confirmed_after confirmed stays) cue (List.append_nil _) utters
      (dataOf_utters utters quiet) (unspoken_of_sound sound running accepted)
  | wrote taken performs => exact narrates.write sound running taken performs
  | @parted supply payload _ replies _ _ _ _ _ accepted performs =>
    have reaction := reaction_of_onPacket accepted
    obtain ⟨phase, said⟩ := reaction.parting invariant (List.mem_append_right _ (.head _))
    rw [List.filterMap_append, payloads_sends] at said
    obtain rfl : replies = [ChannelOnly.toBytes .channelClose engine.handshake.channel.remoteId] :=
      (List.append_nil _).symm.trans said
    simp only [Handshake.run, Handshake.call, accepted, outcome]
    refine narrates.leave running performs rfl rfl (phase ▸ Cue.parted) (by decide) parting_nil rfl
      (.inl (.cons (.channelClose (if_pos phase)) .nil)) rfl rfl fun unstarted => ?_
    rw [sound.unstarted running unstarted] at phase
    cases phase
  | @refused _ _ _ _ failed _ refusal performs =>
    have kept : failed.outbound = engine.outbound ∧ failed.started = engine.started := by
      cases refusal <;> exact ⟨rfl, rfl⟩
    obtain ⟨unconfirmed, unwritten⟩ := refusal.unheard
    rw [Trace.queued_append, refusal.silent.queued, List.nil_append]
    exact narrates.leave running performs kept.1 kept.2 (.silent _) List.not_mem_nil
      (lastWords_leave ..) (refusal.unasked _) (lastWords_utters ..) unconfirmed unwritten
      fun unstarted => refusal.unsaid sound running unstarted
  | departed performs =>
    obtain ⟨kinds, phase, cue, quiet, utters⟩ := close_due invariant
    exact narrates.leave running performs rfl rfl cue quiet parting_nil
      (departed_asked engine.handshake).symm utters rfl rfl fun unstarted =>
      close_unheard invariant (sound.unstarted running unstarted)
  | lost =>
    have nothing : Performs ⟨fun _ => .repeating []⟩ (([] : List Bytes).map .send) engine []
      engine := .nil
    exact narrates.leave running nothing rfl rfl (.silent _) List.not_mem_nil parting_nil rfl
      (.inl .nil) rfl rfl fun _ => rfl

/-- The story of an engine after the steps of a path. -/
theorem Path.narrates (sound : engine.Sound) (fresh : Narrates config [] engine [])
    (path : Path engine trace after) :
    Narrates config (Handshake.run trace.told engine.handshake).1 after trace.queued := by
  induction path with
  | refl => exact fresh
  | next earlier running step ih =>
    rw [Trace.told_append, Trace.queued_append, Handshake.run_append, ← earlier.handshake]
    exact step.narrates (earlier.sound sound) running ih
  | @took trace between _ ih =>
    have told : trace.told ++ [] = trace.told := List.append_nil _
    have queued : trace.queued ++ [] = trace.queued := List.append_nil _
    rw [Trace.told_append, Trace.queued_append, told, queued]
    exact ih.took

theorem create_narrates {entropy : Entropy} (created : Engine.create entropy config = .ok engine) :
    Narrates config [] engine [] := by
  obtain rfl := create_eq created
  have said : Said config none [] [] [] [] [] {} := ⟨rfl, rfl, .nil, rfl⟩
  exact .running rfl (create_connectionInvariant entropy config) rfl said
    (fun _ matched => matched) fun _ => rfl

/-- The channel is confirmed in the step that tells the caller so. -/
theorem Step.heard (step : Step engine trace after)
    (confirmed : confirmations (Handshake.run trace.told engine.handshake).1 ≠ []) :
    .established ∈ trace.events := by
  cases step with
  | introduced | listened | fed | waited | wrote | departed | lost => exact absurd rfl confirmed
  | met _ _ phase =>
    simp only [Handshake.run, Handshake.call, onVersion_ok phase, outcome] at confirmed
    exact absurd rfl confirmed
  | @handled _ _ _ actions _ _ _ _ accepted =>
    simp only [Handshake.run, Handshake.call, accepted, outcome] at confirmed
    by_cases told : .established ∈ actions
    · exact List.mem_flatMap.2 ⟨_, told, .head _⟩
    · exact absurd (confirmation_eq_nil told) confirmed
  | parted _ _ accepted =>
    simp only [Handshake.run, Handshake.call, accepted, outcome] at confirmed
    exact absurd (confirmation_eq_nil (by simp)) confirmed
  | refused refusal => exact absurd refusal.unheard.1 confirmed

/-- Before the caller hears of the session the channel has no number. -/
theorem Path.unnamed (path : Path engine trace after) (unheard : .established ∉ trace.events) :
    confirmations (Handshake.run trace.told engine.handshake).1 = [] := by
  induction path with
  | refl => rfl
  | next earlier _ step ih =>
    rw [Trace.events_append, List.mem_append, not_or] at unheard
    rw [Trace.told_append, Handshake.run_append, confirmations_append, ih unheard.1,
      ← earlier.handshake]
    by_contra confirmed
    exact unheard.2 (step.heard confirmed)
  | took _ ih =>
    rw [Trace.events_append, List.append_nil] at unheard
    rw [Trace.told_append, List.append_nil]
    exact ih unheard

end Narrates

section Writing

theorem Path.connectionInvariant {entropy : Entropy} {start : Engine}
    (created : Engine.create entropy config = .ok start)
    (path : Path start trace engine) (running : engine.finished = false) :
    ConnectionInvariant config engine.handshake := by
  obtain ⟨-, -, -, -, invariant, -⟩ :=
    (path.narrates (create_sound created) (create_narrates created)).unended running
  exact invariant

/-- Data can be written as long as the session is established. -/
theorem write_ok (sound : engine.Sound) (running : engine.finished = false)
    (invariant : ConnectionInvariant config engine.handshake)
    (phase : engine.handshake.phase = .established)
    (supply : Supply) (data : Bytes) :
    ∃ wires after, write supply data engine = .ok () after ∧
      Step engine { told := [.write data], queued := wires } after ∧
      after.handshake = engine.handshake ∧ after.inbound = engine.inbound ∧
      after.finished = false := by
  obtain ⟨opened, -⟩ := invariant.opened phase
  obtain ⟨messages, taken⟩ : ∃ messages, engine.handshake.write data = .ok messages := by
    simp [Handshake.write, phase, SessionChannel.dataMessages, opened]
  obtain ⟨wires, after, performs⟩ := performs_sends supply engine sound.ready messages
  have carried := performs.carries sends_stay
  refine ⟨wires, after, ?_, .wrote taken performs, carried.handshake, performs.inbound,
    carried.finished.trans running⟩
  simp only [write, running, taken, performs.sendAll, Bool.false_eq_true, if_false]

end Writing

/-- What an engine has sent since it started: the packets of what its handshake has asked
for, and at most one last message. -/
def Sent (start engine : Engine) (commands : List Command) (wires : List Bytes) : Prop :=
  ∃ trace last outbound, Path start trace engine ∧
    Command.packets commands {} = .ok wires outbound ∧ Parting last ∧
    Obeys (Handshake.run trace.told start.handshake).1 last commands

/-- The language of a client. Whatever the calls and the bytes of the server are, what an
engine queues is its line of identification and then the packets of payloads that follow
the script, each with the bytes that its kind has. -/
theorem run_script {entropy : Entropy} (created : Engine.create entropy config = .ok engine)
    (calls : List (Supply × Call)) :
    ∃ trace ignored kinds commands wires outbound last,
      Path engine trace (run calls engine).engine ∧
      received calls = trace.received ++ ignored ∧ trace.events = (run calls engine).events ∧
      (run calls engine).output = greeting config (run calls engine).engine ++ wires ∧
      ((run calls engine).engine.started = false → wires = []) ∧
      Command.packets commands {} = .ok wires outbound ∧ Parting last ∧
      Obeys (Handshake.run trace.told engine.handshake).1 last commands ∧
      (Command.payloads commands).map List.head? =
        kinds.map (fun kind => some kind.code.toByte) ∧
      List.Forall₂ (Utters config (named (Handshake.run trace.told engine.handshake).1)) kinds
        (Command.payloads commands) ∧
      (confirmations (Handshake.run trace.told engine.handshake).1).length ≤ 1 ∧
      FollowsScript config kinds ∧ Disciplined kinds := by
  obtain ⟨data, ignored, ended, looked, _, _, ⟨told, queued, path⟩, _⟩ :=
    run_unfolds calls (create_sound created) (create_drained created)
  have empty : engine.queue.reverse = [] := by
    rw [create_eq created]
    rfl
  have all := path.queue
  rw [empty, List.nil_append] at all
  have narrates := path.narrates (create_sound created) (create_narrates created)
  obtain ⟨last, kinds, commands, wires, outbound, story, unspoken, parting, said, once, follows⟩ :=
    narrates.story
  exact ⟨_, ignored, kinds, commands, wires, outbound, last, path, looked, rfl, all.trans story,
    unspoken, said.sent, parting, said.obeys, heads_of_utters said.utters, said.utters, once,
    follows, follows.disciplined⟩

/-- A client that the small server has led to a session. -/
theorem run_script_established :
    ∃ calls : List (Supply × Call),
      Engine.create zeros smallClient = .ok smallEngine ∧
      (run calls smallEngine).engine.isEstablished = true ∧
      ∃ trace ignored kinds commands wires outbound last,
        Path smallEngine trace (run calls smallEngine).engine ∧
        received calls = trace.received ++ ignored ∧
        trace.events = (run calls smallEngine).events ∧
        (run calls smallEngine).output =
          greeting smallClient (run calls smallEngine).engine ++ wires ∧
        ((run calls smallEngine).engine.started = false → wires = []) ∧
        Command.packets commands {} = .ok wires outbound ∧ Parting last ∧
        Obeys (Handshake.run trace.told smallEngine.handshake).1 last commands ∧
        (Command.payloads commands).map List.head? =
          kinds.map (fun kind => some kind.code.toByte) ∧
        List.Forall₂
          (Utters smallClient (named (Handshake.run trace.told smallEngine.handshake).1)) kinds
          (Command.payloads commands) ∧
        (confirmations (Handshake.run trace.told smallEngine.handshake).1).length ≤ 1 ∧
        FollowsScript smallClient kinds ∧ Disciplined kinds := by
  obtain ⟨wires, -, -, established, -⟩ := small_established
  exact ⟨_, small_created, established, run_script small_created _⟩

end Engine

end SecureShell
