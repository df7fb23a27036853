import SecureShell.Proofs.Engine.Grammar
import SecureShell.Proofs.Engine.Script

/-! The loop of a session, turn by turn. A session that has not ended has reported all
events of its engine, has written all its packets, and keeps the data that it could not
yet send; one that has ended has reported its end as the last event. Each turn, with its
own random bytes and its own state of the transport, preserves this. -/
namespace SecureShell

section UpToEnd

variable {events front : List Event} {last : Event}

theorem Engine.Underway.unended (underway : Engine.Underway events) :
    ∀ event ∈ events, event.isEnd = false := by
  cases underway with
  | silent => exact nofun
  | established data =>
    intro event member
    rcases List.mem_cons.1 member with rfl | member
    · rfl
    · obtain ⟨piece, -, rfl⟩ := List.mem_map.1 member
      rfl

theorem upToEnd_unended (unended : ∀ event ∈ events, event.isEnd = false) :
    Event.upToEnd events = events := by
  induction events with
  | nil => rfl
  | cons event rest ih =>
    obtain ⟨first, others⟩ := List.forall_mem_cons.1 unended
    rw [Event.upToEnd, first, ih others]
    rfl

theorem upToEnd_end (unended : ∀ event ∈ front, event.isEnd = false) (ends : last.isEnd = true)
    (dropped : List Event) : Event.upToEnd (front ++ last :: dropped) = front ++ [last] := by
  induction front with
  | nil =>
    rw [List.nil_append, Event.upToEnd, ends]
    rfl
  | cons event rest ih =>
    obtain ⟨first, others⟩ := List.forall_mem_cons.1 unended
    rw [List.cons_append, Event.upToEnd, first, ih others]
    rfl

/-- Where events bring a course to its conclusion, all of them are kept. -/
theorem upToEnd_concluded {earlier : List Event} (underway : Engine.Underway earlier)
    (concluded : Engine.Concluded (earlier ++ events)) (dropped : List Event) :
    Event.upToEnd (events ++ dropped) = events := by
  obtain ⟨front, last, split, before, ends⟩ := concluded
  rcases List.eq_nil_or_concat events with rfl | ⟨first, final, rfl⟩
  · rw [List.append_nil] at split
    have unended := underway.unended last (split ▸ List.mem_append_right _ (.head _))
    exact absurd (unended.symm.trans ends) (by decide)
  · rw [List.concat_eq_append, ← List.append_assoc] at split
    obtain ⟨rfl, same⟩ := List.append_inj' split rfl
    obtain rfl : final = last := (List.cons.inj same).1
    rw [List.concat_eq_append, List.append_assoc]
    exact upToEnd_end (fun event member => before.unended event (List.mem_append_right _ member))
      ends dropped

end UpToEnd

def Stimulus.given : Stimulus → Bytes
  | .write data => data
  | .received _ | .streamEnded | .readFailed _ | .close => []

namespace Session

theorem append_silent (report : Report) : report.append {} = report := by
  simp [Report.append]

theorem append_assoc (first second third : Report) :
    (first.append second).append third = first.append (second.append third) := by
  simp [Report.append]

theorem live_finished {session : Session} (finished : session.finished = true)
    (turns : List Turn) : live turns session = ({}, session) := by
  cases turns with
  | nil => rfl
  | cons turn rest => rw [live, if_pos finished]

theorem live_append (first second : List Turn) (session : Session) :
    live (first ++ second) session =
      let (front, between) := live first session
      let (back, after) := live second between
      (front.append back, after) := by
  induction first generalizing session with
  | nil => simp [live, Report.append]
  | cons turn rest ih =>
    by_cases finished : session.finished = true
    · simp only [List.cons_append, live, if_pos finished, live_finished finished, append_silent]
    · simp only [List.cons_append, live, if_neg finished, ih, append_assoc]

end Session

namespace Engine

open Handshake (ConnectionInvariant written)

variable {config : Config}

/-- The handshake takes all that is written while the session is established. -/
theorem written_writes {h : Handshake} (invariant : ConnectionInvariant config h)
    (phase : h.phase = .established)
    (pieces : List Bytes) :
    written (Handshake.run (pieces.map .write) h).1 = pieces.flatten := by
  obtain ⟨opened, -⟩ := invariant.opened phase
  induction pieces with
  | nil => rfl
  | cons data rest ih =>
    obtain ⟨messages, taken⟩ : ∃ messages, h.write data = .ok messages := by
      simp [Handshake.write, phase, SessionChannel.dataMessages, opened]
    have told : (Handshake.run ((data :: rest).map .write) h).1 =
        ⟨.write data, .ok (messages.map .send)⟩ :: (Handshake.run (rest.map .write) h).1 := by
      simp only [List.map_cons, Handshake.run, Handshake.call, taken, Except.map]
    rw [told, written, List.flatMap_cons, ← written, ih]
    rfl

/-- What the caller does not write is not taken. -/
theorem written_answers {told : List Handshake.Call} {h : Handshake}
    (silent : ∀ data, .write data ∉ told) : written (Handshake.run told h).1 = [] := by
  induction told generalizing h with
  | nil => rfl
  | cons call rest ih =>
    have others : ∀ data, .write data ∉ rest := fun data member => silent data (.tail _ member)
    simp only [Handshake.run, written, List.flatMap_cons]
    rw [← written, ih others, List.append_nil]
    cases call with
    | write data => exact absurd (.head _) (silent data)
    | version | packet | close | abort => rfl

end Engine

namespace Session

open Handshake (ConnectionInvariant written)
open Engine (Path Step Concluded)

variable {supply : Supply} {start engine : Engine} {trace : Engine.Trace} {entropy : Entropy}
  {config : Config} {session : Session}

/-- All that was queued can be written once the session is established. -/
theorem writeQueued_ok (sound : engine.Sound) (running : engine.finished = false)
    (invariant : ConnectionInvariant config engine.handshake)
    (phase : engine.handshake.phase = .established)
    (supply : Supply) (pieces : List Bytes) :
    ∃ wires after, writeQueued supply pieces engine = ([], after) ∧
      Path engine ⟨pieces.map .write, [], wires, [], [], []⟩ after ∧
      after.handshake = engine.handshake ∧ after.inbound = engine.inbound ∧
      after.finished = false := by
  induction pieces generalizing engine with
  | nil => exact ⟨[], engine, rfl, .refl, rfl, rfl, running⟩
  | cons data rest ih =>
    obtain ⟨wires, between, wrote, step, handshake, inbound, still⟩ :=
      Engine.write_ok sound running invariant phase supply data
    obtain ⟨more, after, others, path, handshake', inbound', still'⟩ :=
      ih (step.sound sound) still (handshake ▸ invariant) (handshake ▸ phase)
    refine ⟨wires ++ more, after, ?_, (step.path running).trans path, handshake'.trans handshake,
      inbound'.trans inbound, still'⟩
    simp only [writeQueued, command, wrote]
    exact others

theorem writeQueued_finished (supply : Supply) (finished : engine.finished = true)
    (pieces : List Bytes) :
    ∃ events, writeQueued supply pieces engine = (events, engine) := by
  cases pieces with
  | nil => exact ⟨[], rfl⟩
  | cons data rest =>
    have refused : Engine.write supply data engine = .error .closed engine := if_pos finished
    exact ⟨[.failed .closed], by simp only [writeQueued, command, refused]⟩

/-- Takes a stimulus and sends what was queued, before anything is written to the
transport. -/
def respond (supply : Supply) (stimulus : Stimulus) (session : Session) : List Event × Session :=
  let (events, session) := session.react supply stimulus
  session.release supply events

theorem turn_eq (supply : Supply) (broken : Option String) (stimulus : Stimulus)
    (session : Session) :
    session.turn supply broken stimulus =
      (session.respond supply stimulus).2.flush broken (session.respond supply stimulus).1 := rfl

/-- What becomes of a session that is given some data, with the events of the response. -/
inductive Responds (earlier : List Event) (given : Bytes) (session : Session) :
    List Event → Session → Prop where
  | going {told : List Handshake.Call} {received : Bytes} {wires : List Bytes} {events : List Event}
      {after : Session} : after.finished = false →
      Path session.engine ⟨told, received, wires, [], events, []⟩ after.engine →
      after.engine.Drained →
      written (Handshake.run told session.engine.handshake).1 ++ after.queued.flatten =
        session.queued.flatten ++ given →
      (after.engine.isEstablished = true → after.queued = []) →
      Responds earlier given session events after
  /-- The events up to the end are all that the engine tells, or the caller's own close. -/
  | ended {told : List Handshake.Call} {received : Bytes} {wires : List Bytes}
      {heard events dropped : List Event} {calls : List Engine.Call} {after : Session} :
      after.finished = true →
      Path session.engine ⟨told, received, wires, [], heard, calls⟩ after.engine →
      Concluded (earlier ++ events) → (∀ event ∈ heard, event ∈ events) →
      Responds earlier given session (events ++ dropped) after

theorem Responds.over {earlier heard events : List Event} {given received : Bytes}
    {told : List Handshake.Call} {wires : List Bytes} {calls : List Engine.Call} {after : Session}
    (finished : after.finished = true)
    (path : Path session.engine ⟨told, received, wires, [], heard, calls⟩ after.engine)
    (concluded : Concluded (earlier ++ events)) (listed : ∀ event ∈ heard, event ∈ events) :
    Responds earlier given session events after := by
  rw [← List.append_nil events]
  exact .ended finished path concluded listed

/-- The invariant between two turns while a session has not ended: every packet that has
arrived was handled, and no data waits once the session is established. -/
structure Waits (start : Engine) (trace : Engine.Trace) (session : Session) : Prop where
  running : session.finished = false
  path : Path start trace session.engine
  drained : session.engine.Drained
  released : session.engine.isEstablished = true → session.queued = []

variable {events : List Event} {given received : Bytes} {after : Engine}

theorem established_iff : engine.isEstablished = true ↔ engine.handshake.phase = .established := by
  simp [Engine.isEstablished]

section Waits

variable (created : Engine.create entropy config = .ok start) (waits : Waits start trace session)
include created waits

theorem Waits.sound : session.engine.Sound := waits.path.sound (Engine.create_sound created)

theorem Waits.course : Engine.Course session.engine trace.events :=
  waits.path.course (Engine.create_course created)

theorem Waits.phase_of_established (answers : Engine.Answers session.engine received events after)
    (running : after.finished = false) (established : events.any Event.isEstablished = true) :
    after.handshake.phase = .established := by
  obtain ⟨told, queued, path, -⟩ := answers
  by_contra phase
  have none : trace.events ++ events = [] :=
    (path.course (waits.course created)).early running phase
  rw [(List.append_eq_nil_iff.1 none).2] at established
  cases established

/-- An engine that has become established has told so. -/
theorem Waits.established_of_phase (answers : Engine.Answers session.engine received events after)
    (running : after.finished = false) (phase : after.handshake.phase = .established) :
    session.engine.isEstablished = true ∨ events.any Event.isEstablished = true := by
  obtain ⟨told, queued, path, -⟩ := answers
  by_cases before : session.engine.handshake.phase = .established
  · exact .inl (established_iff.2 before)
  · obtain ⟨data, all⟩ : ∃ data : List ChannelData,
        trace.events ++ events = .established :: data.map .data :=
      (path.course (waits.course created)).late running phase
    rw [(waits.course created).early waits.running before, List.nil_append] at all
    exact .inr (by rw [all]; rfl)

/-- An engine that has ended takes nothing of what was queued. -/
theorem Waits.release_ended (supply : Supply)
    (answers : Engine.Answers session.engine received events after)
    (finished : after.finished = true) :
    Responds trace.events given session
      (release supply events { session with engine := after }).1
      (release supply events { session with engine := after }).2 := by
  obtain ⟨told, wires, path, -⟩ := answers
  have concluded : Concluded (trace.events ++ events) :=
    path.concludes waits.running (waits.course created) nofun finished
  by_cases established : events.any Event.isEstablished = true
  · obtain ⟨more, refused⟩ := writeQueued_finished supply finished session.queued
    simp only [release, if_pos established, refused]
    exact .ended finished path concluded fun _ heard => heard
  · rw [release, if_neg established]
    exact .over finished path concluded fun _ heard => heard

/-- Once the session is established, all that was queued is sent. -/
theorem Waits.release_established (supply : Supply)
    (answers : Engine.Answers session.engine received events after) (drained : after.Drained)
    (running : after.finished = false) (established : events.any Event.isEstablished = true) :
    Responds trace.events [] session
      (release supply events { session with engine := after }).1
      (release supply events { session with engine := after }).2 := by
  have phase := waits.phase_of_established created answers running established
  have sound := answers.sound (waits.sound created)
  obtain ⟨told, wires, path, silent⟩ := answers
  have invariant := (waits.path.trans path).connectionInvariant created running
  obtain ⟨more, final, wrote, later, -, inbound, still⟩ :=
    writeQueued_ok sound running invariant phase supply session.queued
  simp only [release, if_pos established, wrote]
  refine .going still (path.trans later) ?_ ?_ fun _ => rfl
  · intro _
    rw [inbound]
    exact drained running
  · have handshake : after.handshake = (Handshake.run told session.engine.handshake).2 :=
      path.handshake
    simp only [Handshake.run_append, Handshake.written_append]
    rw [Engine.written_answers silent, ← handshake, Engine.written_writes invariant phase]
    rw [List.append_nil, List.flatten_nil, List.append_nil, List.nil_append]

/-- Until then it waits. -/
theorem Waits.release_unestablished (supply : Supply)
    (answers : Engine.Answers session.engine received events after) (drained : after.Drained)
    (running : after.finished = false)
    (unestablished : ¬ events.any Event.isEstablished = true) :
    Responds trace.events [] session
      (release supply events { session with engine := after }).1
      (release supply events { session with engine := after }).2 := by
  have released (established : after.isEstablished = true) : session.queued = [] := by
    rcases waits.established_of_phase created answers running (established_iff.1 established) with
      before | told
    · exact waits.released before
    · exact absurd told unestablished
  obtain ⟨told, wires, path, silent⟩ := answers
  rw [release, if_neg unestablished]
  refine .going running path drained ?_ released
  rw [Engine.written_answers silent, List.append_nil]
  rfl

/-- Bytes of the server may establish the session, and then all that was queued is sent. -/
theorem Waits.respond_received (supply : Supply) (data : Bytes) :
    Responds trace.events [] session (session.respond supply (.received data)).1
      (session.respond supply (.received data)).2 := by
  obtain ⟨answers, drained⟩ :=
    Engine.receive_answers supply data (waits.sound created) waits.running
  have response : session.respond supply (.received data) =
      release supply (session.engine.receive supply data).1
        { session with engine := (session.engine.receive supply data).2 } := rfl
  rw [response]
  rcases Bool.eq_false_or_eq_true (session.engine.receive supply data).2.finished with
    finished | running
  · exact waits.release_ended created supply answers finished
  by_cases established :
      (session.engine.receive supply data).1.any Event.isEstablished = true
  · exact waits.release_established created supply answers drained running established
  · exact waits.release_unestablished created supply answers drained running established

/-- The end of the transport ends the session. -/
theorem Waits.respond_lost (supply : Supply) (cause : Option String) :
    ∃ reason, release supply (session.engine.transportClosed cause).1
        { session with engine := (session.engine.transportClosed cause).2 } =
      ([.failed (.io reason)], { session with engine := session.engine.teardown }) ∧
      Responds trace.events [] session [.failed (.io reason)]
        { session with engine := session.engine.teardown } := by
  have running : session.engine.finished = false := waits.running
  have underway := (waits.course created).underway running
  rw [Engine.transportClosed, if_neg (by simp [running])]
  exact ⟨_, rfl, .over rfl (Step.path running (.lost cause _)) ⟨trace.events, _, rfl, underway, rfl⟩
    fun _ heard => heard⟩

/-- The caller's close ends the session. -/
theorem Waits.respond_close (supply : Supply) :
    Responds trace.events [] session (session.respond supply .close).1
      (session.respond supply .close).2 := by
  have running : session.engine.finished = false := waits.running
  have underway := (waits.course created).underway running
  obtain ⟨wires, after, performs⟩ := Engine.performs_sends supply
    { session.engine with handshake := session.engine.handshake.close.2 }
    (waits.sound created).ready session.engine.handshake.close.1
  have closed := Engine.close_ok running performs
  have response : session.respond supply .close =
      ([.closed], { session with engine := after.teardown }) := by
    simp only [respond, react, closeEngine, command, closed]
    rfl
  rw [response]
  have path := (Step.departed performs).path running
  exact .over rfl path ⟨trace.events, _, rfl, underway, rfl⟩ nofun

/-- Data is sent at once if the session is established, and waits otherwise. -/
theorem Waits.respond_write (supply : Supply) (data : Bytes) :
    Responds trace.events data session (session.respond supply (.write data)).1
      (session.respond supply (.write data)).2 := by
  have running : session.engine.finished = false := waits.running
  by_cases established : session.engine.isEstablished = true
  · have phase := established_iff.1 established
    have invariant := waits.path.connectionInvariant created running
    obtain ⟨wires, after, wrote, step, handshake, inbound, still⟩ :=
      Engine.write_ok (waits.sound created) running invariant phase supply data
    have response : session.respond supply (.write data) =
        ([], { session with engine := after }) := by
      simp only [respond, react, established, command, wrote, failure]
      rfl
    have taken := Engine.written_writes invariant phase [data]
    rw [response]
    refine .going still (step.path running) ?_ ?_ fun _ => waits.released established
    · intro _
      rw [inbound]
      exact waits.drained running
    · rw [waits.released established, List.flatten_nil, List.append_nil, List.nil_append]
      exact taken.trans (List.append_nil data)
  · have response : session.respond supply (.write data) =
        ([], { session with queued := session.queued ++ [data] }) := by
      simp only [respond, react, established]
      rfl
    rw [response]
    refine .going running .refl waits.drained ?_ fun phase => absurd phase established
    simp [written, Handshake.run]

/-- What a session makes of a stimulus. -/
theorem Waits.respond (supply : Supply) (stimulus : Stimulus) :
    Responds trace.events stimulus.given session (session.respond supply stimulus).1
      (session.respond supply stimulus).2 := by
  cases stimulus with
  | received data => exact waits.respond_received created supply data
  | write data => exact waits.respond_write created supply data
  | close => exact waits.respond_close created supply
  | streamEnded =>
    obtain ⟨reason, response, responds⟩ := waits.respond_lost created supply none
    rw [show session.respond supply .streamEnded = _ from response]
    exact responds
  | readFailed cause =>
    obtain ⟨reason, response, responds⟩ := waits.respond_lost created supply (some cause)
    rw [show session.respond supply (.readFailed cause) = _ from response]
    exact responds

end Waits

section Lives

/-- The invariant of the loop, for a session that was given some data: its report is what the
engine has told and queued, up to the end. -/
inductive Lives (start : Engine) (given : Bytes) : Report → Session → Prop where
  /-- Everything that the engine tells and queues is reported and written, and the data
  that it was given is sent or waits. -/
  | going {trace : Engine.Trace} {session : Session} : Waits start trace session →
      session.engine.outgoing = [] →
      written (Handshake.run trace.told start.handshake).1 ++ session.queued.flatten = given →
      Lives start given ⟨trace.events, trace.queued.flatten⟩ session
  | ended {trace : Engine.Trace} {report : Report} {session : Session} : session.finished = true →
      Path start trace session.engine → Concluded report.events →
      (∀ event ∈ trace.events, event ∈ report.events) → report.written <+: trace.queued.flatten →
      Lives start given report session

theorem outgoing_of_path {more : Engine.Trace} (path : Path engine more after)
    (none : engine.outgoing = []) (kept : more.taken = []) :
    after.outgoing = more.queued.flatten := by
  have queue := congrArg List.flatten path.queue
  rw [kept, List.nil_append, List.flatten_append] at queue
  rw [Engine.outgoing, queue, ← Engine.outgoing, none, List.nil_append]

/-- What waits for the transport is written, or the transport is broken. -/
theorem flush_cases (broken : Option String) (events : List Event) (session : Session) :
    let emptied : Engine := { session.engine with queue := [] }
    session.flush broken events =
        (⟨Event.upToEnd events, session.engine.outgoing⟩, { session with engine := emptied }) ∨
      session.engine.outgoing = [] ∧
        session.flush broken events = (⟨Event.upToEnd events, []⟩, session) ∨
      ∃ reason, session.flush broken events =
        (⟨Event.upToEnd (events ++ (emptied.transportClosed (some reason)).1), []⟩,
          { session with engine := (emptied.transportClosed (some reason)).2 }) := by
  unfold flush Engine.takeOutgoing
  dsimp only
  split
  · rename_i empty
    exact .inr (.inl ⟨List.isEmpty_iff.1 empty, rfl⟩)
  · cases broken with
    | none => exact .inl rfl
    | some reason => exact .inr (.inr ⟨reason, rfl⟩)

section Flush

variable {earlier : Bytes} {told : List Handshake.Call} {wires : List Bytes}
  {heard dropped : List Event} {calls : List Engine.Call} {afterwards : Session}

/-- The end of a turn of a session that goes on. -/
theorem Waits.flush_going (created : Engine.create entropy config = .ok start)
    (waits : Waits start trace session) (none : session.engine.outgoing = [])
    (kept : written (Handshake.run trace.told start.handshake).1 ++ session.queued.flatten =
      earlier)
    (running : afterwards.finished = false)
    (path : Path session.engine ⟨told, received, wires, [], events, []⟩ afterwards.engine)
    (drained : afterwards.engine.Drained)
    (taken : written (Handshake.run told session.engine.handshake).1 ++ afterwards.queued.flatten =
      session.queued.flatten ++ given)
    (released : afterwards.engine.isEstablished = true → afterwards.queued = [])
    (broken : Option String) :
    Lives start (earlier ++ given)
      (Report.append ⟨trace.events, trace.queued.flatten⟩ (afterwards.flush broken events).1)
      (afterwards.flush broken events).2 := by
  have whole := waits.path.trans path
  have course : Engine.Course afterwards.engine (trace.events ++ events) :=
    whole.course (Engine.create_course created)
  have underway := course.underway running
  have later : ∀ event ∈ events, event.isEnd = false := fun event member =>
    underway.unended event (List.mem_append_right _ member)
  have out : afterwards.engine.outgoing = wires.flatten := outgoing_of_path path none rfl
  have queued : trace.queued.flatten ++ wires.flatten = (trace.queued ++ wires).flatten :=
    List.flatten_append.symm
  have data : written (Handshake.run (trace.told ++ told) start.handshake).1 ++
      afterwards.queued.flatten = earlier ++ given := by
    rw [Handshake.run_append, Handshake.written_append, ← waits.path.handshake, List.append_assoc,
      taken, ← List.append_assoc, kept]
  rcases flush_cases broken events afterwards with flushed | ⟨empty, flushed⟩ | ⟨reason, flushed⟩
  · rw [flushed, upToEnd_unended later, out, Report.append, queued]
    have waiting : Waits start _
        { afterwards with engine := { afterwards.engine with queue := [] } } :=
      ⟨running, whole.emptied, drained, released⟩
    exact .going waiting rfl data
  · rw [flushed, upToEnd_unended later, Report.append, ← empty, out, queued]
    have waiting : Waits start _ afterwards := ⟨running, whole, drained, released⟩
    exact .going waiting empty data
  · have lost : Engine.transportClosed (some reason) { afterwards.engine with queue := [] } =
        ([.failed (.io reason)], Engine.teardown { afterwards.engine with queue := [] }) :=
      if_neg (by simp [show afterwards.engine.finished = false from running])
    have ended := whole.emptied.next running (.lost (some reason) reason)
    rw [flushed, lost, upToEnd_end later rfl, Report.append, ← List.append_assoc]
    refine .ended rfl ended ⟨_, _, rfl, underway, rfl⟩ (fun _ member => member) ?_
    rw [List.append_nil, Engine.Trace.queued_append, List.append_nil]
    exact queued ▸ List.prefix_append _ _

/-- The end of the last turn. -/
theorem Waits.flush_ended (created : Engine.create entropy config = .ok start)
    (waits : Waits start trace session) (none : session.engine.outgoing = [])
    (finished : afterwards.finished = true)
    (path : Path session.engine ⟨told, received, wires, [], heard, calls⟩ afterwards.engine)
    (concluded : Concluded (trace.events ++ events)) (listed : ∀ event ∈ heard, event ∈ events)
    (broken : Option String) :
    Lives start given
      (Report.append ⟨trace.events, trace.queued.flatten⟩
        (afterwards.flush broken (events ++ dropped)).1)
      (afterwards.flush broken (events ++ dropped)).2 := by
  have underway := (waits.course created).underway waits.running
  have whole := waits.path.trans path
  have out : afterwards.engine.outgoing = wires.flatten := outgoing_of_path path none rfl
  have queued : trace.queued.flatten ++ wires.flatten = (trace.queued ++ wires).flatten :=
    List.flatten_append.symm
  have all : ∀ event ∈ trace.events ++ heard, event ∈ trace.events ++ events := by
    intro event member
    rcases List.mem_append.1 member with member | member
    · exact List.mem_append_left _ member
    · exact List.mem_append_right _ (listed event member)
  rcases flush_cases broken (events ++ dropped) afterwards with
    flushed | ⟨empty, flushed⟩ | ⟨reason, flushed⟩
  · rw [flushed, upToEnd_concluded underway concluded, out, Report.append, queued]
    exact .ended finished whole.emptied concluded all (List.prefix_refl _)
  · rw [flushed, upToEnd_concluded underway concluded, Report.append, ← empty, out, queued]
    exact .ended finished whole concluded all (List.prefix_refl _)
  · have still : Engine.transportClosed (some reason) { afterwards.engine with queue := [] } =
        ([], { afterwards.engine with queue := [] }) := if_pos finished
    rw [flushed, still, List.append_nil, upToEnd_concluded underway concluded, Report.append,
      List.append_nil]
    refine .ended finished whole.emptied concluded all ?_
    exact queued ▸ List.prefix_append _ _

end Flush

/-- What a turn makes of a session. -/
theorem Lives.turn {report : Report} {earlier : Bytes}
    (created : Engine.create entropy config = .ok start)
    (lives : Lives start earlier report session) (running : session.finished = false)
    (turn : Turn) :
    Lives start (earlier ++ turn.stimulus.given)
      (report.append (session.turn turn.supply turn.broken turn.stimulus).1)
      (session.turn turn.supply turn.broken turn.stimulus).2 := by
  rw [turn_eq]
  cases lives with
  | ended finished => exact absurd (running.symm.trans finished) (by decide)
  | going waits none kept =>
    have responds := waits.respond created turn.supply turn.stimulus
    generalize (session.respond turn.supply turn.stimulus).1 = events at responds ⊢
    generalize (session.respond turn.supply turn.stimulus).2 = after at responds ⊢
    cases responds with
    | going still path drained taken released =>
      exact waits.flush_going created none kept still path drained taken released turn.broken
    | ended finished path concluded listed =>
      exact waits.flush_ended created none finished path concluded listed turn.broken

theorem Lives.live {report : Report} {earlier : Bytes}
    (created : Engine.create entropy config = .ok start)
    (lives : Lives start earlier report session) (turns : List Turn) :
    Lives start (earlier ++ turns.flatMap (·.stimulus.given)) (report.append (live turns session).1)
      (Session.live turns session).2 := by
  induction turns generalizing session report earlier with
  | nil =>
    rw [List.flatMap_nil, List.append_nil, Session.live, append_silent]
    exact lives
  | cons turn rest ih =>
    rcases Bool.eq_false_or_eq_true session.finished with finished | running
    · rw [live_finished finished, append_silent]
      cases lives with
      | going waits => exact absurd (waits.running.symm.trans finished) (by decide)
      | ended _ path concluded listed sent => exact .ended finished path concluded listed sent
    · have more := ih (lives.turn created running turn)
      simp only [Session.live, running, Bool.false_eq_true, if_false, List.flatMap_cons]
      rw [← append_assoc, ← List.append_assoc]
      exact more

theorem begin_lives {broken : Option String} {first : Report}
    (begun : Session.begin entropy broken config = .ok (first, session)) :
    ∃ start, Engine.create entropy config = .ok start ∧ Lives start [] first session := by
  obtain ⟨start, created, flushed⟩ := exceptBind_eq_ok_iff.1 begun
  obtain ⟨rfl, rfl⟩ := Prod.mk.inj (Except.ok.inj flushed)
  have waits : Waits start {} { engine := start } := by
    obtain rfl := Engine.create_eq created
    exact ⟨rfl, .refl, Engine.create_drained created, fun _ => rfl⟩
  have empty : start.outgoing = [] := by
    rw [Engine.create_eq created]
    rfl
  have running : Session.finished { engine := start.start } = false :=
    (Engine.start_finished start).trans waits.running
  obtain ⟨told, wires, path, silent⟩ := Engine.start_answers start
  refine ⟨start, created, waits.flush_going created empty rfl running path
    (Engine.start_drained waits.drained) ?_ (fun _ => rfl) broken⟩
  rw [Engine.written_answers silent]
  rfl

theorem live_lives {broken : Option String} {first : Report}
    (begun : Session.begin entropy broken config = .ok (first, session)) (turns : List Turn) :
    ∃ start, Engine.create entropy config = .ok start ∧
      Lives start (turns.flatMap (·.stimulus.given)) (first.append (Session.live turns session).1)
        (Session.live turns session).2 := by
  obtain ⟨start, created, lives⟩ := begin_lives begun
  exact ⟨start, created, lives.live created turns⟩

end Lives

end Session

end SecureShell
