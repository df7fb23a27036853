import SecureShell.Proofs.Engine.Chunking
import SecureShell.Proofs.Engine.Meeting
import SecureShell.Proofs.Handshake.Keying

/-! What anyone can read of what a client sends. Before the agreement its packets are
messages of key agreement, in the clear; once the keys are in use every packet is sealed
with them. In between, and before, the connection may end, with one last message in the
clear. -/
namespace SecureShell.Engine

open Handshake

/-- At most one packet, with which the client takes leave. -/
structure Leave (wires : List Bytes) : Prop where
  atMostOne : wires.length ≤ 1
  clear : ∀ wire ∈ wires, InClear [.disconnect] wire

/-- The packets of an engine that has not ended: in the clear until it has asked for outbound
keys, and sealed with those keys from then on. -/
inductive Speaking (config : Config) (proposal : Bytes) :
    Keying → List Bytes → Outbound → Prop where
  | bare {packets : List Bytes} {outbound : Outbound} :
      (∀ wire ∈ packets, InClear openingCodes wire) → outbound.Exposed packets.length →
      Speaking config proposal .bare packets outbound
  | agreed {a : Agreement} {before : List Bytes} {own : Bytes} {outbound : Outbound} :
      (∀ wire ∈ before, InClear openingCodes wire) → InClear [.newKeys] own →
      outbound.Exposed (before.length + 1) →
      Speaking config proposal (.agreed a) (before ++ [own]) outbound
  | used {a : Agreement} {before guarded : List Bytes} {own : Bytes} {outbound : Outbound} :
      (∀ wire ∈ before, InClear openingCodes wire) → InClear [.newKeys] own →
      outbound.Guarded (a.keys config proposal .clientToServer) (before.length + 1) guarded →
      Speaking config proposal (.used a) (before ++ own :: guarded) outbound

/-- The packets of an engine, whether it has ended or not. -/
inductive Spoken (config : Config) (proposal : Bytes) (history : List Record) (ended : Bool) :
    List Bytes → Prop where
  | bare {before last : List Bytes} : (∀ wire ∈ before, InClear openingCodes wire) → Leave last →
      Spoken config proposal history ended (before ++ last)
  | agreed {a : Agreement} {before last : List Bytes} {own : Bytes} :
      (∀ wire ∈ before, InClear openingCodes wire) → InClear [.newKeys] own →
      a.Shown config proposal history → Unarmed history → Leave last →
      (ended = false → last = []) → Spoken config proposal history ended (before ++ own :: last)
  | used {a : Agreement} {before guarded : List Bytes} {own : Bytes} {protection : Protection} :
      (∀ wire ∈ before, InClear openingCodes wire) → InClear [.newKeys] own →
      a.Shown config proposal history →
      Sealed (a.keys config proposal .clientToServer) (before.length + 1) guarded protection →
      Spoken config proposal history ended (before ++ own :: guarded)

variable {supply : Supply} {engine after : Engine} {trace : Trace} {config : Config}
  {proposal : Bytes} {history : List Record} {k k' : Keying} {packets wires : List Bytes}
  {actions : List Action}

section Performing

/-- Without keys every payload can be read. -/
theorem Performs.exposed {payloads : List Bytes} {codes : List MessageCode} {count : Nat}
    (performs : Performs supply (payloads.map .send) engine wires after)
    (exposed : engine.outbound.Exposed count)
    (coded : ∀ payload ∈ payloads, ∃ code ∈ codes, payload.head? = some code.toByte) :
    (∀ wire ∈ wires, InClear codes wire) ∧ wires.length = payloads.length ∧
      after.outbound.Exposed (count + wires.length) := by
  induction payloads generalizing engine wires count with
  | nil =>
    cases performs
    exact ⟨nofun, rfl, exposed⟩
  | cons payload rest ih =>
    cases performs with
    | send sent performs =>
      obtain ⟨code, listed, head⟩ := coded payload (.head _)
      obtain ⟨clear, more⟩ := exposed.send sent head listed
      obtain ⟨others, size, done⟩ :=
        ih performs more fun other later => coded other (.tail _ later)
      refine ⟨?_, ?_, ?_⟩
      · intro wire member
        rcases List.mem_cons.1 member with rfl | later
        · exact clear
        · exact others wire later
      · rw [List.length_cons, List.length_cons, size]
      · rwa [List.length_cons, Nat.add_comm _ 1, ← Nat.add_assoc]

/-- With keys that are kept every payload is sealed. -/
theorem Performs.guarded {keys : DirectionKeys} {first : Nat} {earlier : List Bytes}
    (performs : Performs supply actions engine wires after)
    (guarded : engine.outbound.Guarded keys first earlier) (stays : .closed ∉ actions)
    (kept : ∀ keys, .armOutbound keys ∉ actions) :
    after.outbound.Guarded keys first (earlier ++ wires) := by
  induction performs generalizing earlier with
  | nil => rwa [List.append_nil]
  | send sent _ ih =>
    have more := ih (guarded.send sent) (fun later => stays (.tail _ later))
      fun keys later => kept keys (.tail _ later)
    rwa [List.append_assoc] at more
  | armOutbound => exact absurd (.head _) (kept _)
  | armInbound _ _ ih | established _ ih | deliver _ ih =>
    exact ih guarded (fun later => stays (.tail _ later))
      fun keys later => kept keys (.tail _ later)
  | @compress outbound _ _ _ _ _ _ ih =>
    refine ih ?_ (fun later => stays (.tail _ later)) fun keys later => kept keys (.tail _ later)
    cases outbound with
    | true => exact guarded.activate
    | false => exact guarded
  | closed => exact absurd (.head _) stays

/-- What is asked for on the way to the keys, in packets. -/
theorem Speaking.advance (speaking : Speaking config proposal k packets engine.outbound)
    (moves : Moves config proposal k actions k') (stays : .closed ∉ actions)
    (performs : Performs supply actions engine wires after) :
    Speaking config proposal k' (packets ++ wires) after.outbound := by
  cases moves with
  | bare payloads coded =>
    cases speaking with
    | bare clear exposed =>
      obtain ⟨more, -, done⟩ := performs.exposed exposed coded
      refine .bare ?_ ?_
      · intro wire member
        rcases List.mem_append.1 member with earlier | later
        · exact clear wire earlier
        · exact more wire later
      · rwa [List.length_append]
  | agreed a =>
    cases speaking with
    | bare clear exposed =>
      have announces : Performs supply ([NewKeys.toBytes {}].map .send) engine wires after :=
        performs
      have coded : ∀ payload ∈ [NewKeys.toBytes {}], ∃ code ∈ [MessageCode.newKeys],
          payload.head? = some code.toByte := by
        simp
        rfl
      obtain ⟨more, size, done⟩ := announces.exposed exposed coded
      obtain ⟨own, rfl⟩ := List.length_eq_one_iff.1 size
      exact .agreed clear (more own (.head _)) done
  | waiting a =>
    cases performs
    rwa [List.append_nil]
  | switched a =>
    cases speaking with
    | agreed clear own exposed =>
      cases performs with
      | armInbound _ performs =>
        cases performs with
        | armOutbound armed performs =>
          have guarded := performs.guarded (exposed.arm armed) (by simp) (by simp)
          rw [List.append_assoc]
          exact .used clear own guarded
  | used a kept =>
    cases speaking with
    | used clear own guarded =>
      rw [List.append_assoc, List.cons_append]
      exact .used clear own (performs.guarded guarded stays fun keys => (kept keys).2)

theorem leave_nil : Leave [] := ⟨Nat.zero_le _, nofun⟩

theorem Speaking.spoken {outbound : Outbound} {h : Handshake} {ended : Bool}
    (speaking : Speaking config proposal k packets outbound)
    (keyed : Keyed config proposal history h k) :
    Spoken config proposal history ended packets := by
  cases speaking with
  | bare clear =>
    rw [← List.append_nil packets]
    exact .bare clear leave_nil
  | agreed clear own =>
    cases keyed with
    | agreed _ _ unarmed shown => exact .agreed clear own shown unarmed leave_nil fun _ => rfl
  | used clear own guarded =>
    cases keyed with
    | used _ _ shown =>
      obtain ⟨protection, sealing, -⟩ := guarded.seals
      exact .used clear own shown sealing

/-- An engine that sends nothing but, at most, one message of leave. -/
theorem Speaking.leave {payloads : List Bytes}
    (speaking : Speaking config proposal k packets engine.outbound)
    (shown : ∀ a, k = .agreed a ∨ k = .used a → a.Shown config proposal history)
    (unarmed : (∀ a, k ≠ .used a) → Unarmed history)
    (performs : Performs supply (payloads.map .send) engine wires after)
    (leaving : (∀ a, k ≠ .used a) → payloads.length ≤ 1 ∧
      ∀ payload ∈ payloads, payload.head? = some MessageCode.disconnect.toByte) :
    Spoken config proposal history true (packets ++ wires) := by
  have last {count : Nat} (exposed : engine.outbound.Exposed count) (unused : ∀ a, k ≠ .used a) :
      Leave wires := by
    obtain ⟨few, coded⟩ := leaving unused
    have listed : ∀ payload ∈ payloads, ∃ code ∈ [MessageCode.disconnect],
        payload.head? = some code.toByte := by
      intro payload member
      exact ⟨.disconnect, List.mem_singleton_self _, coded payload member⟩
    obtain ⟨clear, size, -⟩ := performs.exposed exposed listed
    rw [← size] at few
    exact ⟨few, clear⟩
  cases speaking with
  | bare clear exposed => exact .bare clear (last exposed fun _ same => nomatch same)
  | @agreed a _ _ _ clear own exposed =>
    have unused : ∀ b, Keying.agreed a ≠ .used b := fun _ same => nomatch same
    rw [List.append_assoc]
    exact .agreed clear own (shown a (.inl rfl)) (unarmed unused) (last exposed unused)
      fun running => nomatch running
  | @used a _ _ _ _ clear own guarded =>
    obtain ⟨protection, sealing, -⟩ := (performs.guarded guarded sends_stay sends_unarmed).seals
    rw [List.append_assoc, List.cons_append]
    exact .used clear own (shown a (.inr rfl)) sealing

end Performing

section Conversing

/-- The line that an engine which has introduced itself has sent. -/
def greeting (config : Config) (engine : Engine) : List Bytes :=
  if engine.started then [(Identification.ofSoftware config.software none).toBytes] else []

/-- The invariant of secrecy: what an engine has queued is its line, packets in the clear up
to its NEWKEYS, and behind that packets sealed with the outbound keys of the agreement. -/
inductive Conversing (config : Config) (proposal : Bytes) (history : List Record)
    (engine : Engine) : List Bytes → Prop where
  | running {k : Keying} {packets : List Bytes} : engine.finished = false →
      KeyExchangeInvariant config proposal history engine.handshake →
      Keyed config proposal history engine.handshake k →
      Speaking config proposal k packets engine.outbound →
      (engine.started = false → packets = []) →
      Conversing config proposal history engine (greeting config engine ++ packets)
  | ended {packets : List Bytes} : engine.finished = true →
      Spoken config proposal history true packets →
      Conversing config proposal history engine (greeting config engine ++ packets)

theorem lastWords_leave (error : Error) (engine : Engine) :
    (engine.lastWords error).length ≤ 1 ∧
      ∀ payload ∈ engine.lastWords error, payload.head? = some MessageCode.disconnect.toByte := by
  unfold lastWords
  split
  · refine ⟨Nat.le_refl _, ?_⟩
    intro payload member
    rw [List.mem_singleton.1 member]
    rfl
  · exact ⟨Nat.zero_le _, nofun⟩

/-- Before there is a channel, closing says nothing but the farewell. -/
theorem close_leave {h : Handshake} (channel : h.channel.state = .opening) :
    h.close.1.length ≤ 1 ∧
      ∀ payload ∈ h.close.1, payload.head? = some MessageCode.disconnect.toByte := by
  have silent : h.channel.close = (none, h.channel) := if_pos (.inr channel)
  unfold Handshake.close
  split
  · exact ⟨Nat.zero_le _, nofun⟩
  · rw [silent]
    simp only [Option.toList_none, List.nil_append]
    split
    · exact ⟨Nat.zero_le _, nofun⟩
    · refine ⟨Nat.le_refl _, ?_⟩
      intro payload member
      rw [List.mem_singleton.1 member]
      rfl

theorem Conversing.unended (running : engine.finished = false) {queued : List Bytes}
    (conversing : Conversing config proposal history engine queued) :
    ∃ k packets, queued = greeting config engine ++ packets ∧
      KeyExchangeInvariant config proposal history engine.handshake ∧
      Keyed config proposal history engine.handshake k ∧
      Speaking config proposal k packets engine.outbound ∧
      (engine.started = false → packets = []) := by
  cases conversing with
  | ended finished =>
    rw [running] at finished
    cases finished
  | running _ invariant keyed speaking unspoken =>
    exact ⟨_, _, rfl, invariant, keyed, speaking, unspoken⟩

theorem fresh_of_keyExchange {h : Handshake}
    (invariant : KeyExchangeInvariant config proposal history h)
    (phase : h.phase = .headerExchange) : Fresh config proposal h := by
  cases invariant with
  | waiting _ fresh => exact fresh
  | introduced other | asking other | exchanging other | closed other | bound other =>
    rw [phase] at other
    cases other

/-- The end of the connection, with what is said last. -/
theorem Conversing.leave {payloads : List Bytes} {start : Engine} {told : List Handshake.Call}
    (running : engine.finished = false)
    {queued : List Bytes} (conversing : Conversing config proposal history engine queued)
    (performs : Performs supply (payloads.map .send) start wires after)
    (outbound : start.outbound = engine.outbound) (started : start.started = engine.started)
    (unarmed : Early history engine.handshake →
      Unarmed (history ++ (Handshake.run told engine.handshake).1))
    (leaving : Early history engine.handshake → payloads.length ≤ 1 ∧
      ∀ payload ∈ payloads, payload.head? = some MessageCode.disconnect.toByte) :
    Conversing config proposal (history ++ (Handshake.run told engine.handshake).1) after.teardown
      (queued ++ wires) := by
  obtain ⟨k, packets, rfl, -, keyed, speaking, -⟩ := conversing.unended running
  have same : greeting config after.teardown = greeting config engine := by
    have kept : after.teardown.started = engine.started :=
      (performs.carries sends_stay).started.trans started
    rw [greeting, greeting, kept]
  rw [List.append_assoc, ← same]
  rw [← outbound] at speaking
  refine .ended rfl (speaking.leave (fun a known => keyed.shown known told) ?_ performs ?_)
  · exact fun unused => unarmed (keyed.early unused)
  · exact fun unused => leaving (keyed.early unused)

theorem Conversing.took {queued : List Bytes}
    (conversing : Conversing config proposal history engine queued) :
    Conversing config proposal history { engine with queue := [] } queued := by
  cases conversing with
  | running running invariant keyed speaking unspoken =>
    exact .running running invariant keyed speaking unspoken
  | ended finished spoken => exact .ended finished spoken

/-- A step that neither says nor tells anything. -/
theorem Conversing.aside {queued : List Bytes} (running : engine.finished = false)
    (conversing : Conversing config proposal history engine queued)
    (handshake : after.handshake = engine.handshake) (outbound : after.outbound = engine.outbound)
    (started : after.started = engine.started) (finished : after.finished = engine.finished) :
    Conversing config proposal history after queued := by
  have same : greeting config after = greeting config engine := by
    rw [greeting, greeting, started]
  obtain ⟨k, packets, rfl, invariant, keyed, speaking, unspoken⟩ := conversing.unended running
  rw [← handshake] at invariant keyed
  rw [← outbound] at speaking
  rw [← started] at unspoken
  rw [← same]
  exact .running (finished.trans running) invariant keyed speaking unspoken

/-- An engine that has not introduced itself has sent nothing. -/
theorem Conversing.introduce (sound : engine.Sound) (running : engine.finished = false)
    (unstarted : engine.started = false) {queued : List Bytes}
    (conversing : Conversing config proposal history engine queued) :
    Conversing config proposal history
      { engine with
        started := true, queue := engine.handshake.clientVersion.toBytes :: engine.queue }
      (queued ++ [engine.handshake.clientVersion.toBytes]) := by
  have phase := sound.unstarted running unstarted
  obtain ⟨k, packets, rfl, invariant, keyed, speaking, unspoken⟩ := conversing.unended running
  obtain rfl := unspoken unstarted
  have line : engine.handshake.clientVersion = .ofSoftware config.software none :=
    (fresh_of_keyExchange invariant phase).clientVersion
  have silent : greeting config engine = [] := by
    rw [greeting, unstarted]
    rfl
  rw [silent, line]
  exact .running running invariant keyed speaking nofun

/-- An engine goes on with actions that move its handshake on. -/
theorem Conversing.go {start : Engine} {longer : List Record} (running : engine.finished = false)
    {queued : List Bytes} (conversing : Conversing config proposal history engine queued)
    (performs : Performs supply actions start wires after) (stays : .closed ∉ actions)
    (outbound : start.outbound = engine.outbound) (started : start.started = engine.started)
    (finished : start.finished = engine.finished)
    (invariant : KeyExchangeInvariant config proposal longer start.handshake)
    (moves : ∀ k, Keyed config proposal history engine.handshake k →
      ∃ k', Moves config proposal k actions k' ∧ Keyed config proposal longer start.handshake k')
    (unspoken : engine.started = false → actions = []) :
    Conversing config proposal longer after (queued ++ wires) := by
  have carried := performs.carries stays
  obtain ⟨k, packets, rfl, -, keyed, speaking, silent⟩ := conversing.unended running
  obtain ⟨k', moved, keyed'⟩ := moves _ keyed
  have same : greeting config after = greeting config engine := by
    rw [greeting, greeting, carried.started, started]
  rw [← outbound] at speaking
  rw [← carried.handshake] at invariant keyed'
  rw [List.append_assoc, ← same]
  refine .running (carried.finished.trans (finished.trans running)) invariant keyed'
    (speaking.advance moved stays performs) ?_
  intro unstarted
  have unstarted' : engine.started = false := by rw [← started, ← carried.started, unstarted]
  obtain rfl := unspoken unstarted'
  cases performs
  rw [silent unstarted']
  rfl

/-- The server's introduction is answered by the proposal. -/
theorem moves_of_introduction {version : Identification} {h : Handshake}
    (opens : proposal.head? = some MessageCode.kexInit.toByte) (phase : h.phase = .headerExchange)
    (invariant : KeyExchangeInvariant config proposal history h)
    (keyed : Keyed config proposal history h k) :
    Moves config proposal k [.send h.clientProposal] .bare ∧
      Keyed config proposal (history ++ [⟨.version version, .ok [.send h.clientProposal]⟩])
        { h with serverVersion := some version, phase := .kexInit } .bare := by
  have proposed : h.clientProposal = proposal :=
    (fresh_of_keyExchange invariant phase).clientProposal
  cases keyed with
  | agreed other =>
    rw [phase] at other
    cases other
  | used secured =>
    rw [phase] at secured
    cases secured
  | bare _ channel unarmed =>
    constructor
    · refine .bare [h.clientProposal] ?_
      intro payload member
      rw [List.mem_singleton.1 member, proposed]
      exact ⟨.kexInit, by decide, opens⟩
    · exact .bare rfl channel (unarmed.concat (by simp))

/-- Data can be written as soon as the keys are in use. -/
theorem moves_of_write {h : Handshake} {data : Bytes} {messages : List Bytes}
    (written : h.write data = .ok messages) (keyed : Keyed config proposal history h k) :
    Moves config proposal k (messages.map .send) k ∧
      Keyed config proposal (history ++ (Handshake.run [.write data] h).1) h k := by
  have phase : h.phase = .established := by
    unfold Handshake.write at written
    split at written
    · assumption
    · cases written
    · cases written
  have shown (a : Agreement) (known : k = .agreed a ∨ k = .used a) :=
    keyed.shown known [.write data]
  cases keyed with
  | bare bare =>
    rw [phase] at bare
    cases bare
  | agreed other =>
    rw [phase] at other
    cases other
  | used secured late =>
    refine ⟨.used _ ?_, .used secured late (shown _ (.inr rfl))⟩
    simp

/-- While the engine has not introduced itself, no packet is answered. -/
theorem unspoken_of_sound {payload : Bytes} {entropy : Entropy} {left : Handshake}
    (sound : engine.Sound) (running : engine.finished = false)
    (accepted : onPacket entropy payload engine.handshake = .ok actions left)
    (unstarted : engine.started = false) : actions = [] := by
  have phase := sound.unstarted running unstarted
  cases reaction_of_onPacket accepted with
  | ignored => rfl
  | dropped => rfl
  | began other | asked other | chose other | replied other | armed other | welcomed _ _ other
  | confirmed other | delivered _ other | parted other =>
    rw [phase] at other
    cases other
  | requested _ _ other =>
    rcases other with other | ⟨_, other⟩ <;>
    · rw [phase] at other
      cases other
  | refused other =>
    rcases other with other | other <;>
    · rw [phase] at other
      cases other

/-- What one step adds to what was said. -/
theorem Step.converses (opens : proposal.head? = some MessageCode.kexInit.toByte)
    (sound : engine.Sound) (running : engine.finished = false) {queued : List Bytes}
    (conversing : Conversing config proposal history engine queued)
    (step : Step engine trace after) :
    Conversing config proposal (history ++ (Handshake.run trace.told engine.handshake).1) after
      (queued ++ trace.queued) := by
  cases step with
  | parted _ phase _ performs =>
    exact conversing.leave running performs rfl rfl (fun early => absurd phase early.phase)
      fun early => absurd phase early.phase
  | refused refusal performs =>
    rw [Trace.told_append, Trace.queued_append, refusal.silent.queued, List.nil_append]
    cases refusal with
    | line | packet =>
      exact conversing.leave running performs rfl rfl (fun early => early.unarmed.abort)
        fun _ => lastWords_leave ..
    | message _ refused =>
      exact conversing.leave running performs rfl rfl (fun early => early.unarmed.refused refused)
        fun _ => lastWords_leave ..
  | departed performs =>
    exact conversing.leave running performs rfl rfl (fun early => early.unarmed.close)
      fun early => close_leave early.channel
  | lost =>
    have nothing : Performs ⟨fun _ => .repeating []⟩ (([] : List Bytes).map .send) engine []
      engine := .nil
    exact conversing.leave running nothing rfl rfl (fun early => early.unarmed.abort)
      fun _ => ⟨Nat.zero_le _, nofun⟩
  | listened | fed | waited =>
    rw [List.append_nil]
    simp only [Handshake.run, List.append_nil]
    exact conversing.aside running rfl rfl rfl rfl
  | introduced unstarted =>
    simp only [Handshake.run, List.append_nil]
    exact conversing.introduce sound running unstarted
  | @met _ _ _ version _ _ _ _ _ _ phase started performs =>
    have stays : .closed ∉ [engine.handshake.clientProposal].map Action.send := sends_stay
    have carried := performs.carries stays
    obtain ⟨-, -, -, invariant, -⟩ := conversing.unended running
    have stands := invariant.run [.version version]
    simp only [Handshake.run, Handshake.call, onVersion_ok phase, outcome] at stands ⊢
    have gone := conversing.go running performs stays rfl rfl rfl stands
      (fun k keyed => ⟨.bare, moves_of_introduction opens phase invariant keyed⟩)
      fun unstarted => absurd (started.symm.trans unstarted) (by decide)
    exact gone.aside (carried.finished.trans running) rfl rfl rfl rfl
  | @handled supply payload _ _ _ _ _ _ accepted stays performs =>
    obtain ⟨-, -, -, invariant, -⟩ := conversing.unended running
    have stands := invariant.run [.packet (supply.source engine.drawn) payload]
    simp only [Handshake.run, Handshake.call, accepted, outcome] at stands ⊢
    exact conversing.go running performs stays rfl rfl rfl stands
      (fun k keyed => moves_of_accepted invariant keyed accepted stays)
      (unspoken_of_sound sound running accepted)
  | @wrote _ data _ _ _ written performs =>
    obtain ⟨-, -, -, invariant, -⟩ := conversing.unended running
    have stands := invariant.run [.write data]
    refine conversing.go running performs sends_stay rfl rfl rfl stands
      (fun k keyed => ⟨k, moves_of_write written keyed⟩) ?_
    intro unstarted
    have phase := sound.unstarted running unstarted
    simp only [Handshake.write, phase] at written
    cases written

theorem Path.converses (opens : proposal.head? = some MessageCode.kexInit.toByte)
    (sound : engine.Sound) (fresh : Conversing config proposal [] engine [])
    (path : Path engine trace after) :
    Conversing config proposal (Handshake.run trace.told engine.handshake).1 after
      trace.queued := by
  induction path with
  | refl => exact fresh
  | next earlier running step ih =>
    rw [Trace.told_append, Trace.queued_append, Handshake.run_append, ← earlier.handshake]
    exact step.converses opens (earlier.sound sound) running ih
  | @took trace between _ ih =>
    have told : trace.told ++ [] = trace.told := List.append_nil _
    have queued : trace.queued ++ [] = trace.queued := List.append_nil _
    rw [Trace.told_append, Trace.queued_append, told, queued]
    exact ih.took

end Conversing

section Runs

theorem unfolds_converses {entropy : Entropy} (created : Engine.create entropy config = .ok engine)
    {data : Bytes} {taken : List Bytes} {events : List Event} {ended : List Call}
    (unfolds : Unfolds engine data taken events ended after) :
    ∃ told, after.handshake = (Handshake.run told engine.handshake).2 ∧
      Conversing config engine.handshake.clientProposal (Handshake.run told engine.handshake).1
        after (taken ++ after.queue.reverse) := by
  have sound := create_sound created
  obtain ⟨told, queued, path⟩ := unfolds
  obtain rfl := create_eq created
  have fresh : Conversing config (Handshake.create entropy config).clientProposal []
      { handshake := .create entropy config, inbound := freshInbound config } [] :=
    .running rfl (create_keyExchangeInvariant entropy config) (.bare rfl rfl nofun)
      (.bare nofun Outbound.exposed_fresh) fun _ => rfl
  have opens : (Handshake.create entropy config).clientProposal.head? =
      some MessageCode.kexInit.toByte := rfl
  have all := path.queue
  rw [List.reverse_nil, List.nil_append] at all
  refine ⟨told, path.handshake, ?_⟩
  rw [all]
  exact path.converses opens sound fresh

theorem run_converses {entropy : Entropy} (created : Engine.create entropy config = .ok engine)
    (calls : List (Supply × Call)) :
    ∃ told, (run calls engine).engine.handshake = (Handshake.run told engine.handshake).2 ∧
      Conversing config engine.handshake.clientProposal (Handshake.run told engine.handshake).1
        (run calls engine).engine (run calls engine).output := by
  obtain ⟨_, _, _, _, _, _, unfolds, _⟩ :=
    run_unfolds calls (create_sound created) (create_drained created)
  exact unfolds_converses created unfolds

/-- All packets of a run. -/
theorem run_spoken {entropy : Entropy} (created : Engine.create entropy config = .ok engine)
    (calls : List (Supply × Call)) :
    ∃ told packets, (run calls engine).engine.handshake = (Handshake.run told engine.handshake).2 ∧
      (run calls engine).output = greeting config (run calls engine).engine ++ packets ∧
      Spoken config engine.handshake.clientProposal (Handshake.run told engine.handshake).1
        (run calls engine).engine.finished packets := by
  obtain ⟨told, handshake, conversing⟩ := run_converses created calls
  refine ⟨told, ?_⟩
  generalize (run calls engine).output = queued at conversing ⊢
  cases conversing with
  | @running k packets running _ keyed speaking =>
    exact ⟨packets, handshake, rfl, speaking.spoken keyed⟩
  | @ended packets finished spoken =>
    refine ⟨packets, handshake, rfl, ?_⟩
    rw [finished]
    exact spoken

def clearCodes : List MessageCode :=
  [.disconnect, .kexInit, .newKeys, .dhInit, .gexInit, .gexRequest]

/-- Nothing secret leaves in the clear. Whatever the calls and the bytes of the server are,
the packets of a client fall into two parts: messages of key agreement and of leave in the
clear, and behind them packets that are sealed with the keys of an agreement that the
server has signed, each with the number of all packets before it. -/
theorem run_sealed {entropy : Entropy} (created : Engine.create entropy config = .ok engine)
    (calls : List (Supply × Call)) :
    ∃ told opening guarded,
      (run calls engine).engine.handshake = (Handshake.run told engine.handshake).2 ∧
      (run calls engine).output =
        greeting config (run calls engine).engine ++ (opening ++ guarded) ∧
      (∀ wire ∈ opening, InClear clearCodes wire) ∧
      (guarded = [] ∨ ∃ (a : Agreement) (protection : Protection),
        a.Shown config engine.handshake.clientProposal (Handshake.run told engine.handshake).1 ∧
        Sealed (a.keys config engine.handshake.clientProposal .clientToServer) opening.length
          guarded protection) := by
  obtain ⟨told, packets, handshake, output, spoken⟩ := run_spoken created calls
  have opened {wire : Bytes} (clear : InClear openingCodes wire) : InClear clearCodes wire :=
    clear.mono (by decide)
  have own {wire : Bytes} (clear : InClear [.newKeys] wire) : InClear clearCodes wire :=
    clear.mono (by decide)
  have last {wire : Bytes} (clear : InClear [.disconnect] wire) : InClear clearCodes wire :=
    clear.mono (by decide)
  cases spoken with
  | @bare before leave clear leaving =>
    refine ⟨told, before ++ leave, [], handshake, ?_, ?_, .inl rfl⟩
    · rw [List.append_nil]
      exact output
    · intro wire member
      rcases List.mem_append.1 member with member | member
      · exact opened (clear wire member)
      · exact last (leaving.clear wire member)
  | @agreed a before leave switch clear switching _ _ leaving =>
    refine ⟨told, before ++ switch :: leave, [], handshake, ?_, ?_, .inl rfl⟩
    · rw [List.append_nil]
      exact output
    · intro wire member
      rcases List.mem_append.1 member with member | member
      · exact opened (clear wire member)
      · rcases List.mem_cons.1 member with rfl | member
        · exact own switching
        · exact last (leaving.clear wire member)
  | @used a before guarded switch protection clear switching shown sealing =>
    refine ⟨told, before ++ [switch], guarded, handshake, ?_, ?_, .inr ⟨a, protection, shown, ?_⟩⟩
    · rw [List.append_assoc]
      exact output
    · intro wire member
      rcases List.mem_append.1 member with member | member
      · exact opened (clear wire member)
      · rw [List.mem_singleton.1 member]
        exact own switching
    · rw [List.length_append]
      exact sealing

/-- A client that the small server has led to a session. -/
theorem run_sealed_established :
    ∃ calls : List (Supply × Call),
      Engine.create zeros smallClient = .ok smallEngine ∧
      (run calls smallEngine).engine.isEstablished = true ∧
      ∃ told opening guarded,
        (run calls smallEngine).engine.handshake =
          (Handshake.run told smallEngine.handshake).2 ∧
        (run calls smallEngine).output =
          greeting smallClient (run calls smallEngine).engine ++ (opening ++ guarded) ∧
        (∀ wire ∈ opening, InClear clearCodes wire) ∧
        (guarded = [] ∨ ∃ (a : Agreement) (protection : Protection),
          a.Shown smallClient smallEngine.handshake.clientProposal
            (Handshake.run told smallEngine.handshake).1 ∧
          Sealed (a.keys smallClient smallEngine.handshake.clientProposal .clientToServer)
            opening.length guarded protection) := by
  obtain ⟨wires, -, -, established, -⟩ := small_established
  exact ⟨_, small_created, established, run_sealed small_created _⟩

end Runs

end SecureShell.Engine
