import SecureShell.Proofs.Engine.Performing
import SecureShell.Proofs.Engine.Runs
import SecureShell.Proofs.Handshake.Reaction
import SecureShell.Proofs.Handshake.Runs

/-! Calls taken apart. Whatever a caller does, an engine goes through steps of a few
kinds: it introduces itself, takes bytes of the server, handles one packet, sends what
the caller writes, or ends. A trace says what has come of steps. What every step
preserves is preserved by every run. -/
namespace SecureShell.Engine

/-- What has come of steps. -/
@[ext]
structure Trace where
  /-- What the handshake was told. -/
  told : List Handshake.Call := []
  /-- The bytes that were taken from the server. -/
  received : Bytes := []
  /-- The lines and packets that were queued. -/
  queued : List Bytes := []
  /-- The lines and packets that were handed to the transport. -/
  taken : List Bytes := []
  events : List Event := []
  /-- The calls that ended the connection. -/
  ended : List Call := []

namespace Trace

def append (first second : Trace) : Trace where
  told := first.told ++ second.told
  received := first.received ++ second.received
  queued := first.queued ++ second.queued
  taken := first.taken ++ second.taken
  events := first.events ++ second.events
  ended := first.ended ++ second.ended

instance : Append Trace := ⟨append⟩

@[simp] theorem told_append (first second : Trace) :
    (first ++ second).told = first.told ++ second.told := rfl

@[simp] theorem received_append (first second : Trace) :
    (first ++ second).received = first.received ++ second.received := rfl

@[simp] theorem queued_append (first second : Trace) :
    (first ++ second).queued = first.queued ++ second.queued := rfl

@[simp] theorem taken_append (first second : Trace) :
    (first ++ second).taken = first.taken ++ second.taken := rfl

@[simp] theorem events_append (first second : Trace) :
    (first ++ second).events = first.events ++ second.events := rfl

@[simp] theorem ended_append (first second : Trace) :
    (first ++ second).ended = first.ended ++ second.ended := rfl

theorem append_empty (trace : Trace) : trace ++ {} = trace := by
  apply Trace.ext <;> exact List.append_nil _

theorem append_assoc (first second third : Trace) :
    first ++ second ++ third = first ++ (second ++ third) := by
  apply Trace.ext <;> exact List.append_assoc ..

end Trace

/-- The payloads that are left to be sent when an error ends the connection. -/
def lastWords (error : Error) (engine : Engine) : List Bytes :=
  if engine.owesDisconnect error then [(disconnectFor error).toBytes] else []

/-- Bytes or a message of the server lead to an error. -/
inductive Refusal (supply : Supply) (engine : Engine) (error : Error) : Trace → Engine → Prop where
  | line {reader failed : LineReader} {data : Bytes} : engine.header = some reader →
      LineReader.feed data reader = .error error failed →
      Refusal supply engine error { received := data } { engine with header := some failed }
  | packet {inbound : Inbound} : Inbound.next engine.inbound = .error error inbound →
      Refusal supply engine error {} { engine with inbound }
  | message {payload : Bytes} {inbound : Inbound} {handshake : Handshake} :
      Inbound.next engine.inbound = .ok (some payload) inbound →
      Handshake.onPacket (supply.source engine.drawn) payload engine.handshake =
        .error error handshake →
      Refusal supply engine error { told := [.packet (supply.source engine.drawn) payload] }
        { engine with inbound, handshake, drawn := engine.drawn + 1 }

/-- Before it is told of, nothing is heard of an error, and nothing is sent. -/
structure Trace.Silent (trace : Trace) : Prop where
  queued : trace.queued = []
  taken : trace.taken = []
  events : trace.events = []
  ended : trace.ended = []

theorem Refusal.silent {supply : Supply} {engine failed : Engine} {error : Error} {trace : Trace}
    (refusal : Refusal supply engine error trace failed) : trace.Silent := by
  cases refusal <;> exact ⟨rfl, rfl, rfl, rfl⟩

/-- One step of an engine that has not ended. -/
inductive Step (engine : Engine) : Trace → Engine → Prop where
  | introduced : engine.started = false →
      Step engine { queued := [engine.handshake.clientVersion.toBytes] }
        { engine with
          started := true, queue := engine.handshake.clientVersion.toBytes :: engine.queue }
  /-- The line of the server is not yet complete. -/
  | listened {reader stopped : LineReader} {data : Bytes} : engine.header = some reader →
      LineReader.feed data reader = .ok none stopped →
      Step engine { received := data } { engine with header := some stopped }
  | met {supply : Supply} {reader stopped : LineReader} {version : Identification}
      {data rest : Bytes} {wires : List Bytes} {after : Engine} : engine.header = some reader →
      LineReader.feed data reader = .ok (some (version, rest)) stopped →
      engine.handshake.phase = .headerExchange → engine.started = true →
      Performs supply [.send engine.handshake.clientProposal]
        { engine with
          header := none
          handshake := { engine.handshake with serverVersion := some version, phase := .kexInit } }
        wires after →
      Step engine { told := [.version version], received := data, queued := wires }
        { after with inbound := after.inbound.feed rest }
  | fed (data : Bytes) : engine.header = none →
      Step engine { received := data } { engine with inbound := engine.inbound.feed data }
  /-- The next packet is not yet complete. -/
  | waited {inbound : Inbound} : Inbound.next engine.inbound = .ok none inbound →
      Step engine {} { engine with inbound }
  | handled {supply : Supply} {payload : Bytes} {inbound : Inbound} {actions : List Action}
      {handshake : Handshake} {wires : List Bytes} {after : Engine} :
      Inbound.next engine.inbound = .ok (some payload) inbound →
      Handshake.onPacket (supply.source engine.drawn) payload engine.handshake =
        .ok actions handshake →
      .closed ∉ actions →
      Performs supply actions { engine with inbound, handshake, drawn := engine.drawn + 1 } wires
        after →
      Step engine
        { told := [.packet (supply.source engine.drawn) payload], queued := wires
          events := actions.flatMap Action.events }
        after
  /-- The server has closed the channel. -/
  | parted {supply : Supply} {payload : Bytes} {inbound : Inbound} {replies : List Bytes}
      {handshake : Handshake} {wires : List Bytes} {after : Engine} :
      Inbound.next engine.inbound = .ok (some payload) inbound →
      engine.handshake.phase = .established →
      Handshake.onPacket (supply.source engine.drawn) payload engine.handshake =
        .ok (replies.map .send ++ [.closed]) handshake →
      Performs supply (replies.map .send)
        { engine with inbound, handshake, drawn := engine.drawn + 1 } wires after →
      Step engine
        { told := [.packet (supply.source engine.drawn) payload, .abort], queued := wires
          events := [.closed] }
        after.teardown
  | refused {supply : Supply} {error : Error} {trace : Trace} {wires : List Bytes}
      {failed after : Engine} : Refusal supply engine error trace failed →
      Performs supply ((failed.lastWords error).map .send) failed wires after →
      Step engine
        (trace ++ { told := [.abort], queued := wires, events := [.failed error] }) after.teardown
  | wrote {supply : Supply} {data : Bytes} {messages : List Bytes} {wires : List Bytes}
      {after : Engine} : engine.handshake.write data = .ok messages →
      Performs supply (messages.map .send) engine wires after →
      Step engine { told := [.write data], queued := wires } after
  | departed {supply : Supply} {wires : List Bytes} {after : Engine} :
      Performs supply (engine.handshake.close.1.map .send)
        { engine with handshake := engine.handshake.close.2 } wires after →
      Step engine { told := [.close, .abort], queued := wires, ended := [.close] } after.teardown
  | lost (cause : Option String) (reason : String) :
      Step engine
        { told := [.abort], events := [.failed (.io reason)], ended := [.transportClosed cause] }
        engine.teardown

/-- Steps one after the other; what waits for the transport may be taken at any time. -/
inductive Path (engine : Engine) : Trace → Engine → Prop where
  | refl : Path engine {} engine
  | next {trace more : Trace} {between after : Engine} : Path engine trace between →
      between.finished = false → Step between more after → Path engine (trace ++ more) after
  | took {trace : Trace} {between : Engine} : Path engine trace between →
      Path engine (trace ++ { taken := between.queue.reverse }) { between with queue := [] }

variable {supply : Supply} {engine between after : Engine} {trace more : Trace}

theorem Path.trans (first : Path engine trace between) (second : Path between more after) :
    Path engine (trace ++ more) after := by
  induction second with
  | refl =>
    rw [Trace.append_empty]
    exact first
  | next _ running step ih =>
    rw [← Trace.append_assoc]
    exact .next ih running step
  | took _ ih =>
    rw [← Trace.append_assoc]
    exact .took ih

theorem Step.path (running : engine.finished = false) (step : Step engine trace after) :
    Path engine trace after := Path.next .refl running step

theorem Path.emptied (path : Path engine trace after) :
    Path engine { trace with taken := trace.taken ++ after.queue.reverse }
      { after with queue := [] } := by
  have same : trace ++ { taken := after.queue.reverse } =
      { trace with taken := trace.taken ++ after.queue.reverse } := by
    apply Trace.ext <;> first | rfl | exact List.append_nil _
  exact same ▸ path.took

section Kept

theorem onVersion_ok {h : Handshake} {version : Identification}
    (phase : h.phase = .headerExchange) :
    Handshake.onVersion version h = .ok [.send h.clientProposal]
      { h with serverVersion := some version, phase := .kexInit } := by
  simp only [Handshake.onVersion, bind_apply, get_apply, phase]
  rfl

theorem Step.queue (step : Step engine trace after) :
    trace.taken = [] ∧ after.queue.reverse = engine.queue.reverse ++ trace.queued := by
  cases step with
  | introduced => exact ⟨rfl, List.reverse_cons⟩
  | listened | fed | waited | lost => exact ⟨rfl, (List.append_nil _).symm⟩
  | met _ _ _ _ performs =>
    exact ⟨rfl, (performs.carries (by simp)).queue⟩
  | handled _ _ stays performs => exact ⟨rfl, (performs.carries stays).queue⟩
  | parted _ _ _ performs | wrote _ performs | departed performs =>
    exact ⟨rfl, (performs.carries sends_stay).queue⟩
  | refused refusal performs =>
    have carried := (performs.carries sends_stay).queue
    cases refusal <;> exact ⟨rfl, carried⟩

/-- Whatever is queued waits for the transport until it is taken, in order. -/
theorem Path.queue (path : Path engine trace after) :
    trace.taken ++ after.queue.reverse = engine.queue.reverse ++ trace.queued := by
  induction path with
  | refl => exact (List.append_nil _).symm
  | next _ _ step ih =>
    obtain ⟨taken, queued⟩ := step.queue
    rw [Trace.taken_append, Trace.queued_append, taken, queued, List.append_nil,
      ← List.append_assoc, ih, List.append_assoc]
  | took _ ih =>
    rw [Trace.taken_append, Trace.queued_append, List.reverse_nil, List.append_nil,
      List.append_nil, ih]

theorem Refusal.handshake {error : Error} {failed : Engine}
    (refusal : Refusal supply engine error trace failed) :
    failed.handshake = (Handshake.run trace.told engine.handshake).2 := by
  cases refusal with
  | line | packet => rfl
  | message _ refused => simp only [Handshake.run, Handshake.call, refused, Handshake.outcome]

theorem Step.handshake (step : Step engine trace after) :
    after.handshake = (Handshake.run trace.told engine.handshake).2 := by
  cases step with
  | introduced | listened | fed | waited | lost => rfl
  | @met _ _ _ version _ _ _ after _ _ phase _ performs =>
    have kept := (performs.carries (by simp)).handshake
    have told : Handshake.onVersion version engine.handshake =
      .ok [.send engine.handshake.clientProposal]
        { engine.handshake with serverVersion := some version, phase := .kexInit } :=
      onVersion_ok phase
    simp only [Handshake.run, Handshake.call, told, Handshake.outcome]
    exact kept
  | handled _ accepted stays performs =>
    have kept := (performs.carries stays).handshake
    simp only [Handshake.run, Handshake.call, accepted, Handshake.outcome]
    exact kept
  | parted _ _ accepted performs =>
    have kept := (performs.carries sends_stay).handshake
    simp only [Handshake.run, Handshake.call, accepted, Handshake.outcome]
    exact congrArg Handshake.abort kept
  | refused refusal performs =>
    have kept := (performs.carries sends_stay).handshake
    rw [Trace.told_append, Handshake.run_append, ← refusal.handshake]
    exact congrArg Handshake.abort kept
  | wrote _ performs => exact (performs.carries sends_stay).handshake
  | departed performs => exact congrArg Handshake.abort (performs.carries sends_stay).handshake

theorem Path.handshake (path : Path engine trace after) :
    after.handshake = (Handshake.run trace.told engine.handshake).2 := by
  induction path with
  | refl => rfl
  | next _ _ step ih => rw [Trace.told_append, Handshake.run_append, step.handshake, ih]
  | took _ ih =>
    rw [Trace.told_append, List.append_nil]
    exact ih

/-- An engine that has ended never goes on. -/
theorem Path.finished (path : Path engine trace after) (ended : engine.finished = true) :
    trace.received = [] ∧ trace.queued = [] ∧ trace.events = [] ∧ after.finished = true := by
  induction path with
  | refl => exact ⟨rfl, rfl, rfl, ended⟩
  | next _ running _ ih =>
    obtain ⟨-, -, -, still⟩ := ih
    rw [still] at running
    cases running
  | took _ ih =>
    obtain ⟨received, queued, events, still⟩ := ih
    rw [Trace.received_append, Trace.queued_append, Trace.events_append, received, queued, events]
    exact ⟨rfl, rfl, rfl, still⟩

end Kept

section Sound

/-- An engine that can carry out whatever it is asked to: it knows the server as soon as
the handshake does, and has introduced itself by then. -/
structure Sound (engine : Engine) : Prop where
  ready : engine.outbound.Ready
  introduced : engine.finished = false →
    (engine.handshake.phase = .headerExchange ↔ engine.header.isSome = true)
  started : engine.finished = false → engine.header = none → engine.started = true

theorem create_sound {entropy : Entropy} {config : Config}
    (created : Engine.create entropy config = .ok engine) : engine.Sound := by
  obtain rfl := create_eq created
  refine ⟨Outbound.ready_fresh, fun _ => ⟨fun _ => rfl, fun _ => rfl⟩, ?_⟩
  intro _ impossible
  cases impossible

/-- An engine that has not introduced itself knows nothing of the server. -/
theorem Sound.unstarted (sound : engine.Sound) (running : engine.finished = false)
    (unstarted : engine.started = false) : engine.handshake.phase = .headerExchange := by
  refine (sound.introduced running).2 ?_
  cases header : engine.header with
  | none =>
    have started := sound.started running header
    rw [unstarted] at started
    cases started
  | some reader => rfl

theorem teardown_sound (engine : Engine) : engine.teardown.Sound :=
  ⟨Outbound.ready_fresh, nofun, nofun⟩

/-- The keys that a packet brings have the right lengths. -/
theorem sized_of_reaction {entropy : Entropy} {payload : Bytes} {h left : Handshake}
    {actions : List Action} (reaction : Handshake.Reaction entropy payload h actions left) :
    ∀ action ∈ actions, action.Sized := by
  cases reaction with
  | armed =>
    intro action member
    simp only [List.mem_cons, List.not_mem_nil, or_false] at member
    rcases member with rfl | rfl | rfl
    · exact DirectionKeys.derive_sized ..
    · exact DirectionKeys.derive_sized ..
    · exact trivial
  | ignored | dropped | began | asked | chose | replied | requested | refused | delivered
  | confirmed | parted =>
    intro action member
    cases action with
    | armOutbound | armInbound => simp at member
    | send | compress | established | deliver | closed => exact trivial
  | welcomed outbound inbound =>
    intro action member
    cases action with
    | armOutbound | armInbound => cases outbound <;> cases inbound <;> simp at member
    | send | compress | established | deliver | closed => exact trivial

theorem Sound.carries {start : Engine} {wires : List Bytes} (sound : Sound engine)
    (carries : Carries start wires after) (ready : after.outbound.Ready)
    (phase : start.handshake.phase = .headerExchange ↔ engine.handshake.phase = .headerExchange)
    (header : start.header = engine.header) (started : start.started = engine.started)
    (finished : start.finished = engine.finished) : after.Sound := by
  refine ⟨ready, ?_, ?_⟩
  · rw [carries.finished, carries.handshake, carries.header, header, phase, finished]
    exact sound.introduced
  · rw [carries.finished, carries.header, carries.started, header, started, finished]
    exact sound.started

theorem Step.sound (sound : engine.Sound) (step : Step engine trace after) : after.Sound := by
  cases step with
  | introduced => exact ⟨sound.ready, sound.introduced, fun _ _ => rfl⟩
  | listened known =>
    refine ⟨sound.ready, ?_, nofun⟩
    intro running
    have introduced := sound.introduced running
    rw [known] at introduced
    exact introduced
  | met _ _ _ started performs =>
    have carried := performs.carries (by simp)
    have sized : ∀ action ∈ [engine.handshake.clientProposal].map Action.send, action.Sized :=
      sends_sized
    refine ⟨performs.ready sized sound.ready, ?_, fun _ _ => carried.started.trans started⟩
    intro _
    rw [carried.handshake, carried.header]
    exact ⟨nofun, nofun⟩
  | fed | waited => exact ⟨sound.ready, sound.introduced, sound.started⟩
  | handled _ accepted stays performs =>
    have reaction := Handshake.reaction_of_onPacket accepted
    exact sound.carries (performs.carries stays)
      (performs.ready (sized_of_reaction reaction) sound.ready)
      reaction.introduced rfl rfl rfl
  | wrote _ performs =>
    exact sound.carries (performs.carries sends_stay) (performs.ready sends_sized sound.ready)
      .rfl rfl rfl rfl
  | parted | refused | departed | lost => exact teardown_sound _

theorem Path.sound (sound : engine.Sound) (path : Path engine trace after) : after.Sound := by
  induction path with
  | refl => exact sound
  | next _ _ step ih => exact step.sound ih
  | took _ ih => exact ⟨ih.ready, ih.introduced, ih.started⟩

end Sound

end SecureShell.Engine
