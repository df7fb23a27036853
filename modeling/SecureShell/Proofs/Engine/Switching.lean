import SecureShell.Proofs.Engine.Secrecy
import SecureShell.Proofs.Handshake.Entrusting

/-! The packet of the server that makes an engine put its outbound keys to use. A run comes
to one at most. What was queued before it is in the clear, and all that is queued later is
sealed with these keys. -/
namespace SecureShell.Engine

section Switches

/-- Payloads are handled one after the other. -/
inductive Handles (supply : Supply) : Engine → List Bytes → List Event → Engine → Prop where
  | refl {engine : Engine} : Handles supply engine [] [] engine
  | next {engine between after : Engine} {payload : Bytes} {inbound : Inbound}
      {payloads : List Bytes} {events more : List Event} : engine.finished = false →
      Inbound.next engine.inbound = .ok (some payload) inbound →
      handleNext supply engine = .ok (some events) between →
      Handles supply between payloads more after →
      Handles supply engine (payload :: payloads) (events ++ more) after

/-- The next payload makes an engine put outbound keys to use. -/
def Arms (supply : Supply) (engine : Engine) (payload : Bytes) (keys : DirectionKeys) : Prop :=
  engine.finished = false ∧ ∃ inbound actions handshake,
    Inbound.next engine.inbound = .ok (some payload) inbound ∧
    Handshake.onPacket (supply.source engine.drawn) payload engine.handshake =
      .ok actions handshake ∧
    .armOutbound keys ∈ actions

/-- How an engine comes to its outbound keys. -/
structure Switch where
  /-- The payloads that are handled before the one that brings the keys. -/
  handled : List Bytes
  payload : Bytes
  /-- What the caller is to hear when that payload is next. -/
  heard : List Event
  /-- The lines and packets that are queued by then. -/
  queued : List Bytes
  keys : DirectionKeys

/-- While it receives bytes an engine comes to outbound keys. -/
inductive Switches (supply : Supply) (engine : Engine) : Call → Switch → Prop where
  | receive {data payload : Bytes} {handled : List Bytes} {events more : List Event}
      {begun last : Engine} {keys : DirectionKeys} :
      engine.finished = false → accept supply data engine.start = .ok events begun →
      Handles supply begun handled more last → Arms supply last payload keys →
      Switches supply engine (.receive data)
        ⟨handled, payload, events ++ more, last.queue.reverse, keys⟩

/-- No payload that waits brings outbound keys. -/
def Unkeyed (supply : Supply) (engine : Engine) : Prop :=
  ∀ payloads events last payload keys,
    Handles supply engine payloads events last → ¬ Arms supply last payload keys

/-- What a call tells its caller, and what it hands to the transport. -/
structure Reply where
  events : List Event
  refusal : Option Error
  taken : List Bytes

def refusal (run : EStateM Error Engine Unit) (engine : Engine) : Option Error :=
  match run engine with
  | .ok () _ => none
  | .error error _ => some error

def Call.refusal (supply : Supply) (engine : Engine) : Call → Option Error
  | .write data => Engine.refusal (Engine.write supply data) engine
  | .close => Engine.refusal (Engine.close supply) engine
  | .start | .receive _ | .transportClosed _ | .takeOutgoing => none

def reply (supply : Supply) (action : Call) (engine : Engine) : Reply :=
  ⟨(engine.call supply action).1, action.refusal supply engine, action.taken engine⟩

def Switch.behind (taken : List Bytes) (switch : Switch) : Switch :=
  { switch with queued := taken ++ switch.queued }

/-- One of the calls of a run puts outbound keys to use, after the calls that were answered. -/
inductive Switching : List (Supply × Call) → Engine → List Reply → Switch → Prop where
  | now {supply : Supply} {action : Call} {rest : List (Supply × Call)} {engine : Engine}
      {switch : Switch} : Switches supply engine action switch →
      Switching ((supply, action) :: rest) engine [] switch
  | later {supply : Supply} {action : Call} {rest : List (Supply × Call)} {engine : Engine}
      {replies : List Reply} {switch : Switch} :
      Switching rest (engine.call supply action).2 replies switch →
      Switching ((supply, action) :: rest) engine (reply supply action engine :: replies)
        (switch.behind (action.taken engine))

end Switches

variable {supply : Supply} {engine between after last : Engine} {trace : Trace}
  {keys : DirectionKeys} {first : Nat} {wires payloads : List Bytes} {payload : Bytes}
  {events : List Event} {answered : List Reply} {switch : Switch} {config : Config}

section Arms

theorem Arms.phase (arms : Arms supply engine payload keys) :
    engine.handshake.phase = .newKeys := by
  obtain ⟨-, inbound, actions, handshake, -, accepted, asks⟩ := arms
  exact ((Handshake.reaction_of_onPacket accepted).switches asks).1

/-- With the server's announcement its keys are put to use, and the first packet is sealed. -/
theorem Arms.step (arms : Arms supply engine payload keys) (sound : engine.Sound) :
    ∃ trace midway, handleNext supply engine = .ok (some []) midway ∧ Step engine trace midway ∧
      midway.handshake.phase.confidential = true ∧
      ∀ first, engine.outbound.Exposed first →
        midway.outbound.Guarded keys first trace.queued := by
  obtain ⟨running, inbound, actions, handshake, taken, accepted, asks⟩ := arms
  have reaction := Handshake.reaction_of_onPacket accepted
  obtain ⟨-, phase, opening, rfl⟩ := reaction.switches asks
  obtain ⟨packet, opener, opened, -, rest⟩ := Inbound.next_some taken
  have free : inbound.opener.head = none := by
    rw [rest]
    exact Opener.next_free opened
  obtain ⟨wires, midway, performs⟩ := performs_of_ready supply
    { engine with inbound, handshake, drawn := engine.drawn + 1 } sound.ready
    (sized_of_reaction reaction) fun _ _ => free
  have handling := handleNext_some supply taken
  rw [transition_ok _ (by exact accepted) performs] at handling
  have kept := (performs.carries (by simp)).handshake
  refine ⟨_, midway, handling, .handled taken accepted (by simp) performs, ?_, ?_⟩
  · rw [kept, phase, Phase.confidential]
  · intro first exposed
    cases performs with
    | armInbound _ performs =>
      cases performs with
      | armOutbound armed performs =>
        exact performs.guarded (exposed.arm armed) (by simp) (by simp)

theorem unkeyed_of_stop (sound : engine.Sound)
    (stops : engine.finished = false → ∀ events between,
      handleNext supply engine ≠ .ok (some events) between) : Unkeyed supply engine := by
  intro payloads events last payload keys handles arms
  cases handles with
  | refl =>
    obtain ⟨trace, midway, handled, -⟩ := arms.step sound
    exact stops arms.1 _ _ handled
  | next running _ handled => exact stops running _ _ handled

theorem Unkeyed.next (later : Unkeyed supply between) (sound : engine.Sound)
    (plain : between.handshake.phase.confidential = false)
    (handled : handleNext supply engine = .ok (some events) between) : Unkeyed supply engine := by
  intro payloads events last payload keys handles arms
  cases handles with
  | refl =>
    obtain ⟨trace, midway, handling, -, secret, -⟩ := arms.step sound
    rw [handled] at handling
    cases handling
    rw [plain] at secret
    cases secret
  | next _ _ handling handles =>
    rw [handled] at handling
    cases handling
    exact later _ _ _ _ _ handles arms

end Arms

section Guarding

/-- Outbound keys are in use, or the engine has ended. -/
def Switched (engine : Engine) : Prop :=
  engine.finished = false → engine.handshake.phase.confidential = true

/-- No step goes back to where the keys are not in use. -/
theorem Step.switched (secret : engine.handshake.phase.confidential = true)
    (step : Step engine trace after) : after.Switched := by
  cases step with
  | introduced | listened | fed | waited => exact fun _ => secret
  | met _ _ phase =>
    rw [phase] at secret
    cases secret
  | handled _ accepted stays performs =>
    intro _
    rw [(performs.carries stays).handshake]
    exact ((Handshake.reaction_of_onPacket accepted).confidential secret stays).1
  | wrote _ performs =>
    intro _
    rw [(performs.carries sends_stay).handshake]
    exact secret
  | parted | refused | departed | lost =>
    intro running
    cases running

theorem Path.switched (switched : engine.Switched) (path : Path engine trace after) :
    after.Switched := by
  induction path with
  | refl => exact switched
  | next _ running step ih => exact step.switched (ih running)
  | took _ ih => exact ih

theorem Answers.switched {data : Bytes} (answers : Answers engine data events after)
    (switched : engine.Switched) : after.Switched := by
  obtain ⟨told, queued, path, -⟩ := answers
  exact path.switched switched

/-- What an engine has queued since its outbound keys are in use is sealed with them, and so
is what it will queue. -/
structure Guards (keys : DirectionKeys) (first : Nat) (wires : List Bytes) (engine : Engine) :
    Prop where
  seals : ∃ protection, Sealed keys first wires protection
  guarded : engine.finished = false → engine.outbound.Guarded keys first wires

theorem guards_of_guarded (guarded : engine.outbound.Guarded keys first wires) :
    Guards keys first wires engine := by
  obtain ⟨protection, sealing, -⟩ := guarded.seals
  exact ⟨⟨protection, sealing⟩, fun _ => guarded⟩

theorem guards_of_ended {payloads more : List Bytes}
    (performs : Performs supply (payloads.map .send) engine more after)
    (guarded : engine.outbound.Guarded keys first wires) :
    Guards keys first (wires ++ more) after.teardown := by
  obtain ⟨protection, sealing, -⟩ := (performs.guarded guarded sends_stay sends_unarmed).seals
  exact ⟨⟨protection, sealing⟩, nofun⟩

theorem Sound.started_of_known (sound : engine.Sound) (running : engine.finished = false)
    (known : engine.handshake.phase ≠ .headerExchange) : engine.started = true := by
  refine sound.started running ?_
  cases header : engine.header with
  | none => rfl
  | some reader => exact absurd ((sound.introduced running).2 (by rw [header]; rfl)) known

theorem Step.guards (sound : engine.Sound) (running : engine.finished = false)
    (secret : engine.handshake.phase.confidential = true)
    (guards : Guards keys first wires engine) (step : Step engine trace after) :
    Guards keys first (wires ++ trace.queued) after := by
  have guarded := guards.guarded running
  have known : engine.handshake.phase ≠ .headerExchange := by
    intro phase
    rw [phase] at secret
    cases secret
  cases step with
  | introduced unstarted =>
    rw [sound.started_of_known running known] at unstarted
    cases unstarted
  | listened | fed | waited =>
    rw [List.append_nil]
    exact guards_of_guarded guarded
  | met _ _ phase => exact absurd phase known
  | handled _ accepted stays performs =>
    obtain ⟨-, kept⟩ := (Handshake.reaction_of_onPacket accepted).confidential secret stays
    exact guards_of_guarded (performs.guarded guarded stays kept)
  | parted _ _ _ performs | departed performs => exact guards_of_ended performs guarded
  | refused refusal performs =>
    rw [Trace.queued_append, refusal.silent.queued, List.nil_append]
    cases refusal <;> exact guards_of_ended performs guarded
  | wrote _ performs => exact guards_of_guarded (performs.guarded guarded sends_stay sends_unarmed)
  | lost =>
    rw [List.append_nil]
    exact ⟨guards.seals, nofun⟩

theorem Path.guards (sound : engine.Sound) (switched : engine.Switched)
    (guards : Guards keys first wires engine) (path : Path engine trace after) :
    Guards keys first (wires ++ trace.queued) after := by
  induction path with
  | refl =>
    rw [List.append_nil]
    exact guards
  | next earlier running step ih =>
    rw [Trace.queued_append, ← List.append_assoc]
    exact step.guards (earlier.sound sound) running (earlier.switched switched running) ih
  | took _ ih =>
    rw [Trace.queued_append, List.append_nil]
    exact ⟨ih.seals, ih.guarded⟩

end Guarding

section Calls

/-- A payload that is handled is a step. -/
theorem handleNext_answers (sound : engine.Sound) (running : engine.finished = false)
    (handled : handleNext supply engine = .ok (some events) between) :
    Answers engine [] events between := by
  cases taken : Inbound.next engine.inbound with
  | error error inbound =>
    rw [handleNext_error taken] at handled
    cases handled
  | ok found inbound =>
    cases found with
    | none =>
      rw [handleNext_waits taken] at handled
      cases handled
    | some payload =>
      cases treated : Handshake.onPacket (supply.source engine.drawn) payload
        engine.handshake with
      | error error handshake =>
        have handling := handleNext_some supply taken
        rw [transition_error (by exact treated), handled] at handling
        cases handling
      | ok actions handshake =>
        obtain ⟨after, handling, answers⟩ := handled_answers sound running taken treated
        rw [handling] at handled
        cases handled
        exact answers

theorem Handles.answers (sound : engine.Sound)
    (handles : Handles supply engine payloads events after) :
    Answers engine [] events after := by
  induction handles with
  | refl => exact .refl
  | next running _ handled _ ih =>
    have first := handleNext_answers sound running handled
    exact first.trans (ih (first.sound sound))

theorem Handles.drain (handles : Handles supply engine payloads events after) :
    engine.drain supply = (events ++ (after.drain supply).1, (after.drain supply).2) := by
  induction handles with
  | refl => rfl
  | next running _ handled _ ih => rw [drain_some running handled, ih, List.append_assoc]

/-- Up to the keys an engine has queued its line and packets in the clear. -/
theorem Conversing.exposed {proposal : Bytes} {history : List Handshake.Record}
    (conversing : Conversing config proposal history engine queued) (sound : engine.Sound)
    (running : engine.finished = false) (phase : engine.handshake.phase = .newKeys) :
    ∃ line packets, queued = line :: packets ∧ engine.outbound.Exposed packets.length := by
  have known : engine.started = true := by
    refine sound.started_of_known running ?_
    rw [phase]
    nofun
  obtain ⟨k, packets, rfl, -, keyed, speaking, -⟩ := conversing.unended running
  refine ⟨_, packets, by rw [greeting, if_pos known, List.singleton_append], ?_⟩
  cases keyed with
  | bare bare =>
    rw [phase] at bare
    cases bare
  | used _ other => exact absurd phase other
  | agreed =>
    cases speaking with
    | agreed _ _ exposed =>
      rw [List.length_append]
      exact exposed

/-- Bytes that are accepted by an engine that first introduces itself. -/
theorem accept_answers {data : Bytes} (sound : engine.Sound) (running : engine.finished = false)
    (accepted : accept supply data engine.start = .ok events after) :
    Answers engine data events after := by
  have begins := start_answers engine
  have running' := (start_finished engine).trans running
  rcases accept_cases supply data (begins.sound sound) running' (start_started running) with
    ⟨_, _, found, answers, -⟩ | ⟨_, _, found, -⟩
  · rw [accepted] at found
    cases found
    exact begins.trans answers
  · rw [accepted] at found
    cases found

/-- The way of a call to the last payload before the keys, and on from behind it. -/
theorem Switches.way {action : Call} (sound : engine.Sound)
    (switches : Switches supply engine action switch) :
    ∃ last, Answers engine action.received switch.heard last ∧
      Arms supply last switch.payload switch.keys ∧
      switch.queued = last.queue.reverse ∧ action.taken engine = [] ∧
      ∀ midway, handleNext supply last = .ok (some []) midway →
        (engine.call supply action).2 = (midway.drain supply).2 := by
  cases switches with
  | @receive data _ _ events more begun last _ running accepted handles arms =>
    have accepts := accept_answers sound running accepted
    have handled := handles.answers (accepts.sound sound)
    refine ⟨last, ?_, arms, rfl, rfl, ?_⟩
    · simpa only [Call.received, List.append_nil] using accepts.trans handled
    · intro midway handling
      rw [call, receive_ok running accepted, handles.drain, drain_some arms.1 handling]

end Calls

section Once

variable {switch' : Switch} {answered' : List Reply} {action : Call} {payload' : Bytes}
  {keys' : DirectionKeys} {last' : Engine} {payloads' : List Bytes} {events' : List Event}

theorem Answers.unarmed {data : Bytes} (answers : Answers engine data events last)
    (switched : engine.Switched) : ¬ Arms supply last payload keys := by
  intro arms
  have secret := answers.switched switched arms.1
  rw [arms.phase] at secret
  cases secret

theorem Arms.unkeyed (arms : Arms supply engine payload keys) (sound : engine.Sound)
    (handled : handleNext supply engine = .ok (some events) between) : Unkeyed supply between := by
  obtain ⟨trace, midway, handling, step, secret, -⟩ := arms.step sound
  rw [handled] at handling
  cases handling
  intro payloads later last payload' keys' handles
  exact (handles.answers (step.sound sound)).unarmed fun _ => secret

theorem Arms.unique (arms : Arms supply engine payload keys)
    (arms' : Arms supply engine payload' keys') : payload' = payload ∧ keys' = keys := by
  obtain ⟨-, inbound, actions, handshake, taken, accepted, asks⟩ := arms
  obtain ⟨-, inbound', actions', handshake', taken', accepted', asks'⟩ := arms'
  rw [taken] at taken'
  cases taken'
  rw [accepted] at accepted'
  cases accepted'
  obtain ⟨-, -, opening, rfl⟩ := (Handshake.reaction_of_onPacket accepted).switches asks
  simp only [List.mem_cons, Action.armOutbound.injEq, reduceCtorEq, List.not_mem_nil, or_false,
    false_or] at asks'
  exact ⟨rfl, asks'⟩

/-- The payloads that are handled before the keys are determined. -/
theorem Handles.unique (sound : engine.Sound) (handles : Handles supply engine payloads events last)
    (arms : Arms supply last payload keys)
    (handles' : Handles supply engine payloads' events' last')
    (arms' : Arms supply last' payload' keys') :
    payloads' = payloads ∧ events' = events ∧ last' = last := by
  induction handles generalizing payloads' events' with
  | refl =>
    cases handles' with
    | refl => exact ⟨rfl, rfl, rfl⟩
    | next _ _ handled later => exact absurd arms' (arms.unkeyed sound handled _ _ _ _ _ later)
  | next running taken handled later ih =>
    cases handles' with
    | refl => exact absurd arms (arms'.unkeyed sound handled _ _ _ _ _ later)
    | next _ taken' handled' later' =>
      rw [taken] at taken'
      cases taken'
      rw [handled] at handled'
      cases handled'
      have between := (handleNext_answers sound running handled).sound sound
      obtain ⟨rfl, rfl, rfl⟩ := ih between arms later'
      exact ⟨rfl, rfl, rfl⟩

theorem Switches.unique (sound : engine.Sound) (switches : Switches supply engine action switch)
    (switches' : Switches supply engine action switch') : switch' = switch := by
  obtain ⟨running, accepted, handles, arms⟩ := switches
  obtain ⟨-, accepted', handles', arms'⟩ := switches'
  rw [accepted] at accepted'
  cases accepted'
  have begun := (accept_answers sound running accepted).sound sound
  obtain ⟨rfl, rfl, rfl⟩ := handles.unique begun arms handles' arms'
  obtain ⟨rfl, rfl⟩ := arms.unique arms'
  rfl

theorem Switches.switched (sound : engine.Sound) (switches : Switches supply engine action switch) :
    (engine.call supply action).2.Switched := by
  obtain ⟨last, answers, arms, -, -, onwards⟩ := switches.way sound
  have soundLast := answers.sound sound
  obtain ⟨trace, midway, handling, step, secret, -⟩ := arms.step soundLast
  obtain ⟨drains, -⟩ := drain_answers supply (step.sound soundLast)
  rw [onwards midway handling]
  exact drains.switched fun _ => secret

/-- Keys that are in use are not replaced. -/
theorem Switching.unswitched {calls : List (Supply × Call)} (sound : engine.Sound)
    (drained : engine.Drained) (switching : Switching calls engine answered switch) :
    ¬ engine.Switched := by
  induction switching with
  | now switches =>
    intro switched
    obtain ⟨last, answers, arms, -⟩ := switches.way sound
    exact answers.unarmed switched arms
  | @later supply action _ _ _ _ _ ih =>
    intro switched
    obtain ⟨_, -, unfolds, after⟩ := call_unfolds supply action sound drained
    obtain ⟨told, queued, path⟩ := id unfolds
    exact ih (unfolds.sound sound) after (path.switched switched)

/-- A run puts outbound keys to use only once. -/
theorem Switching.unique {calls : List (Supply × Call)} (sound : engine.Sound)
    (drained : engine.Drained) (switching : Switching calls engine answered switch)
    (switching' : Switching calls engine answered' switch') :
    answered' = answered ∧ switch' = switch := by
  induction switching generalizing answered' switch' with
  | @now supply action _ _ _ switches =>
    obtain ⟨_, -, unfolds, after⟩ := call_unfolds supply action sound drained
    cases switching' with
    | now switches' => exact ⟨rfl, switches.unique sound switches'⟩
    | later later =>
      exact absurd (switches.switched sound) (later.unswitched (unfolds.sound sound) after)
  | @later supply action _ _ _ _ later ih =>
    obtain ⟨_, -, unfolds, after⟩ := call_unfolds supply action sound drained
    cases switching' with
    | now switches' =>
      exact absurd (switches'.switched sound) (later.unswitched (unfolds.sound sound) after)
    | later later' =>
      obtain ⟨rfl, rfl⟩ := ih (unfolds.sound sound) after later'
      exact ⟨rfl, rfl⟩

end Once

section Sealing

/-- The call that puts keys to use, and the calls around it. -/
theorem Switching.call {calls : List (Supply × Call)}
    (switching : Switching calls engine answered switch) :
    ∃ front supply action back last, calls = front ++ (supply, action) :: back ∧
      Switches supply (run front engine).engine action last ∧
      switch = last.behind (run front engine).taken := by
  induction switching with
  | now switches => exact ⟨[], _, _, _, _, rfl, switches, rfl⟩
  | later _ ih =>
    obtain ⟨front, supply, action, back, last, rfl, switches, rfl⟩ := ih
    refine ⟨_ :: front, supply, action, back, last, rfl, switches, ?_⟩
    simp only [run, Switch.behind, List.append_assoc]

/-- Where keys are put to use, all that is queued later is sealed with them, from the number
of the packets before on. -/
def SealedBehind (calls : List (Supply × Call)) (engine : Engine) (switch : Switch) : Prop :=
  ∃ line packets guarded protection, switch.queued = line :: packets ∧
    (run calls engine).output = switch.queued ++ guarded ∧
    Sealed switch.keys packets.length guarded protection

/-- All that is queued after the call that puts keys to use is sealed with them. -/
theorem Switches.sealed {entropy : Entropy} {front : List (Supply × Call)} {action : Call}
    (created : Engine.create entropy config = .ok engine)
    (switches : Switches supply (run front engine).engine action switch)
    (back : List (Supply × Call)) :
    SealedBehind (front ++ (supply, action) :: back) engine
      (switch.behind (run front engine).taken) := by
  have sound := create_sound created
  obtain ⟨_, _, _, _, _, _, opening, _⟩ := run_unfolds front sound (create_drained created)
  obtain ⟨last, answers, arms, waits, silent, onwards⟩ := switches.way (opening.sound sound)
  have soundLast := answers.sound (opening.sound sound)
  obtain ⟨_, -, conversing⟩ := unfolds_converses created (opening.trans answers.unfolds)
  rw [List.append_nil] at conversing
  obtain ⟨line, packets, clear, exposed⟩ := conversing.exposed soundLast arms.1 arms.phase
  obtain ⟨trace, midway, handling, step, secret, guarded⟩ := arms.step soundLast
  have guards := guards_of_guarded (guarded _ exposed)
  -- what follows is drained first, and then there are the calls behind
  have soundMidway := step.sound soundLast
  obtain ⟨drains, drained⟩ := drain_answers supply soundMidway
  obtain ⟨_, _, _, _, _, _, closing, _⟩ := run_unfolds back (drains.sound soundMidway) drained
  obtain ⟨_, queued, path⟩ := drains.unfolds.trans closing
  obtain ⟨⟨protection, sealing⟩, -⟩ := path.guards soundMidway (fun _ => secret) guards
  simp only [SealedBehind, Switch.behind, waits]
  refine ⟨line, packets, trace.queued ++ queued, protection, clear, ?_, sealing⟩
  have later : (run back (midway.drain supply).2).output =
      last.queue.reverse ++ (trace.queued ++ queued) := by
    rw [Run.output, ← List.append_assoc, ← step.queue.2]
    exact path.queue
  rw [Run.output, run_append]
  simp only [run, silent, onwards midway handling, List.nil_append, List.append_assoc]
  exact congrArg _ later

/-- A run that puts outbound keys to use does so once, and all that it queues later is sealed
with them. -/
structure SwitchesOnce (calls : List (Supply × Call)) (engine : Engine) (answered : List Reply)
    (switch : Switch) : Prop where
  switching : Switching calls engine answered switch
  once : ∀ answered' switch', Switching calls engine answered' switch' →
    answered' = answered ∧ switch' = switch
  sealed : SealedBehind calls engine switch

theorem Switching.switchesOnce {entropy : Entropy} {calls : List (Supply × Call)}
    (created : Engine.create entropy config = .ok engine)
    (switching : Switching calls engine answered switch) :
    SwitchesOnce calls engine answered switch := by
  have sound := create_sound created
  refine ⟨switching, fun _ _ => switching.unique sound (create_drained created), ?_⟩
  obtain ⟨front, supply, action, back, last, rfl, switches, rfl⟩ := switching.call
  exact switches.sealed created back

end Sealing

end SecureShell.Engine
