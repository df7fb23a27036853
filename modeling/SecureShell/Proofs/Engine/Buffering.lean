import SecureShell.Proofs.Engine.Chunking
import SecureShell.Proofs.Engine.Unfolding
import SecureShell.Proofs.Leaves
import SecureShell.Proofs.Negotiation
import SecureShell.Proofs.Pipeline.Unpacking

/-! What a client holds of the bytes of a server. Every packet that is handled takes at
least nine bytes off what has arrived, so a client that receives comes to an end; what is
left then is less than one packet, or part of a line. This holds whatever the server
sends. -/
namespace SecureShell

section Lines

namespace LineReader

/-- A reader that holds little: part of one line, behind a few that were skipped. -/
structure Bounded (reader : LineReader) : Prop where
  line : reader.line.length ≤ 257
  skipped : reader.skipped ≤ 32

variable {reader stopped : LineReader}

theorem bounded_fresh : Bounded {} := ⟨Nat.zero_le _, Nat.zero_le _⟩

theorem Bounded.step (bounded : reader.Bounded) (byte : UInt8) :
    Leaves (fun _ after => after.Bounded) (fun _ => True) (step byte reader) := by
  have nothing : ([] : Bytes).length ≤ 257 := Nat.zero_le _
  refine .get (.ite (fun _ => ?_) fun _ => .ite (fun _ => .set ?_) fun _ => .set ?_)
  · refine .ite (fun _ => trivial) fun fits => .set ?_
    have room : reader.line.length ≤ 256 := Nat.not_lt.1 fits
    have longer : (reader.line ++ [byte]).length ≤ 257 := by
      rw [List.length_append]
      exact Nat.succ_le_succ room
    exact ⟨longer, bounded.skipped⟩
  · have emptied : Bounded { reader with line := [] } := ⟨nothing, bounded.skipped⟩
    cases Bytes.toText? reader.line with
    | none => exact trivial
    | some text =>
      dsimp only
      cases Identification.parse text with
      | ok => exact emptied
      | error => exact trivial
  · refine .ite (fun _ => trivial) fun few => ?_
    exact ⟨nothing, Nat.not_lt.1 few⟩

/-- Bytes that are taken leave little, and no more than they are behind the line. -/
theorem Bounded.feed {data : Bytes} {found : Option (Identification × Bytes)}
    (bounded : reader.Bounded) (read : feed data reader = .ok found stopped) :
    stopped.Bounded ∧ ∀ version rest, found = some (version, rest) → rest.length ≤ data.length := by
  induction data generalizing reader with
  | nil =>
    cases read
    exact ⟨bounded, nofun⟩
  | cons byte rest ih =>
    obtain ⟨introduced, between, stepped, read⟩ := bind_eq_ok_iff.1 read
    have after : between.Bounded := by
      have leaves := bounded.step byte
      rw [stepped] at leaves
      exact leaves
    cases introduced with
    | some version =>
      cases read
      refine ⟨after, ?_⟩
      rintro _ _ ⟨⟩
      exact Nat.le_succ _
    | none =>
      obtain ⟨kept, shorter⟩ := ih after read
      exact ⟨kept, fun version behind same => Nat.le_succ_of_le (shorter version behind same)⟩

end LineReader

end Lines

section Packets

theorem Packet.Waits.length_lt {limit : Nat} {keys : Option Protection} {stream : Bytes}
    (waits : Packet.Waits limit keys stream) (room : 16 ≤ limit) :
    stream.length < 4 + limit + Protection.tagSize keys := by
  rcases waits with short | ⟨head, between, -, acceptable, short⟩
  · have block : Protection.blockSize keys ≤ 16 :=
      Nat.le_trans (Nat.le_max_left _ _) (Protection.blockSize_le keys)
    omega
  · have most := acceptable.most
    omega

theorem Opener.Holds.size {opener : Opener} {keys : Option Protection} {unread : Bytes}
    (regular : Protection.Regular keys) (holds : opener.Holds keys unread) :
    opener.buffered = unread.length ∧ opener.tagSize = Protection.tagSize keys := by
  cases holds with
  | fresh free => exact ⟨by simp [buffered, free], rfl⟩
  | begun begun =>
    obtain ⟨length, -, alike⟩ := Protection.decrypt_ok regular begun.decrypted
    refine ⟨?_, alike.tagSize⟩
    rw [buffered, begun.held, List.length_append, Nat.add_comm, ← length]
    rfl

namespace Inbound

/-- An inbound side that holds what has arrived, and takes packets within the limit. -/
structure Holding (limit : Nat) (inbound : Inbound) : Prop where
  steady : inbound.Steady
  limit : inbound.opener.limit = limit

/-- A packet is taken off what has arrived, with its tag behind it. -/
structure Removes (limit : Nat) (inbound : Inbound) (packet : Bytes) (after : Inbound) : Prop where
  length : packet.length = 4 + Packet.declared packet
  least : 9 ≤ packet.length
  most : packet.length ≤ 4 + limit
  buffered : inbound.buffered = packet.length + inbound.opener.tagSize + after.buffered

variable {limit : Nat} {inbound after : Inbound} {packet payload : Bytes}

theorem Removes.shrinks (removes : inbound.Removes limit packet after) :
    after.buffered ≤ inbound.buffered := by
  rw [removes.buffered]
  exact Nat.le_add_left _ _

theorem buffered_feed (data : Bytes) :
    (inbound.feed data).buffered = inbound.buffered + data.length := by
  rw [buffered, buffered, feed, Opener.feed, Opener.buffered, Opener.buffered, List.length_append,
    Nat.add_right_comm]

theorem Holding.feed (holding : inbound.Holding limit) (data : Bytes) :
    (inbound.feed data).Holding limit := ⟨holding.steady.feed data, holding.limit⟩

/-- What waits for more bytes has kept those it has, and holds less than one packet. -/
theorem Holding.waits (holding : inbound.Holding limit) (waits : next inbound = .ok none after) :
    after.Holding limit ∧ after.buffered = inbound.buffered ∧
      (16 ≤ limit → after.buffered < 4 + limit + after.opener.tagSize) := by
  have steady : after.Steady := holding.steady.next waits
  obtain ⟨keys, unread, regular, holds⟩ := holding.steady.holds
  obtain ⟨stopped, waiting, rfl⟩ := next_none waits
  obtain ⟨held, -, same, short⟩ := Opener.next_waits regular holds waiting
  obtain ⟨before, -⟩ := holds.size regular
  obtain ⟨buffered, tagSize⟩ := held.size regular
  refine ⟨⟨steady, same.trans holding.limit⟩, buffered.trans before.symm, fun room => ?_⟩
  rw [holding.limit] at short
  rw [Inbound.buffered, buffered, tagSize]
  exact short.length_lt room

/-- A payload comes of a whole packet, which is taken off what has arrived. -/
theorem Holding.removes (holding : inbound.Holding limit)
    (found : next inbound = .ok (some payload) after) :
    after.Holding limit ∧ ∃ packet, inbound.Removes limit packet after ∧
      unpack packet { inbound with opener := after.opener } = .ok payload after := by
  have steady : after.Steady := holding.steady.next found
  obtain ⟨keys, unread, regular, holds⟩ := holding.steady.holds
  obtain ⟨packet, opener, opened, unpacked, rfl⟩ := next_some found
  obtain ⟨body, rest, left, split, decrypts, taken⟩ := Opener.next_takes regular holds opened
  obtain ⟨length, -, -⟩ := Protection.decrypt_ok regular decrypts.decrypted
  obtain ⟨buffered, tagSize⟩ := holds.size regular
  rw [decrypts.length] at length
  have least := decrypts.acceptable.least
  have most := decrypts.acceptable.most
  rw [holding.limit] at most
  have limitLeft : after.opener.limit = limit := by
    rw [taken]
    exact holding.limit
  have behind : after.buffered = rest.length := by
    rw [Inbound.buffered, taken]
    rfl
  refine ⟨⟨steady, limitLeft⟩, packet, ⟨length, by omega, by omega, ?_⟩, unpacked⟩
  rw [behind, Inbound.buffered, buffered, tagSize, split, List.length_append,
    List.length_append, Protection.length_tagOf, decrypts.length, length]
  omega

theorem buffered_arm {keys : DirectionKeys} (armed : inbound.arm keys = .ok after) :
    after.buffered = inbound.buffered := by
  obtain ⟨protection, -, rfl⟩ := arm_ok armed
  rfl

theorem Holding.arm {keys : DirectionKeys} (holding : inbound.Holding limit)
    (armed : inbound.arm keys = .ok after) : after.Holding limit := by
  have steady : after.Steady := holding.steady.arm armed
  obtain ⟨protection, -, rfl⟩ := arm_ok armed
  exact ⟨steady, holding.limit⟩

theorem Holding.activate (holding : inbound.Holding limit) :
    inbound.activateCompression.Holding limit := ⟨holding.steady.activate, holding.limit⟩

end Inbound

end Packets

namespace Engine

variable {supply : Supply} {config : Config} {actions : List Action} {engine after : Engine}
  {wires : List Bytes} {trace : Trace}

section Bounds

/-- Bounds on what an engine buffers of the server's bytes: the part of one packet that the
configured packet length allows, and the part of one identification line. -/
structure BufferBounded (config : Config) (engine : Engine) : Prop where
  inbound : engine.inbound.Holding config.maxPacketLength
  line : ∀ reader, engine.header = some reader → reader.Bounded

theorem Performs.buffered (performs : Performs supply actions engine wires after) :
    after.inbound.buffered ≤ engine.inbound.buffered := by
  induction performs with
  | nil => exact Nat.le_refl _
  | send _ _ ih | armOutbound _ _ ih | established _ ih | deliver _ ih => exact ih
  | armInbound armed _ ih => exact Nat.le_trans ih (Nat.le_of_eq (Inbound.buffered_arm armed))
  | @compress _ inbound _ _ _ _ _ ih => cases inbound <;> exact ih
  | closed _ ih => exact Nat.le_trans ih (Nat.zero_le _)

/-- What a transition asks for leaves it in order, unless the connection ends. -/
theorem Performs.bufferBounded (performs : Performs supply actions engine wires after)
    (stays : .closed ∉ actions) (bounded : engine.BufferBounded config) :
    after.BufferBounded config := by
  induction performs with
  | nil => exact bounded
  | send _ _ ih | armOutbound _ _ ih | established _ ih | deliver _ ih =>
    exact ih (fun later => stays (.tail _ later)) ⟨bounded.inbound, bounded.line⟩
  | armInbound armed _ ih =>
    exact ih (fun later => stays (.tail _ later)) ⟨bounded.inbound.arm armed, bounded.line⟩
  | @compress _ inbound _ _ _ _ _ ih =>
    refine ih (fun later => stays (.tail _ later)) ⟨?_, bounded.line⟩
    cases inbound with
    | true => exact bounded.inbound.activate
    | false => exact bounded.inbound
  | closed => exact absurd (.head _) stays

theorem create_bufferBounded {entropy : Entropy}
    (created : Engine.create entropy config = .ok engine) :
    engine.BufferBounded config := by
  obtain rfl := create_eq created
  refine ⟨⟨.create _ _, rfl⟩, ?_⟩
  rintro reader ⟨⟩
  exact LineReader.bounded_fresh

/-- What every step preserves, unless the connection ends. -/
theorem Step.bufferBounded (bounded : engine.BufferBounded config) (step : Step engine trace after)
    (running : after.finished = false) : after.BufferBounded config := by
  cases step with
  | introduced => exact ⟨bounded.inbound, bounded.line⟩
  | listened known read =>
    refine ⟨bounded.inbound, ?_⟩
    rintro reader ⟨⟩
    exact ((bounded.line _ known).feed read).1
  | met _ _ _ _ performs =>
    have between : BufferBounded config _ :=
      performs.bufferBounded (by simp) ⟨bounded.inbound, nofun⟩
    exact ⟨between.inbound.feed _, between.line⟩
  | fed data => exact ⟨bounded.inbound.feed data, bounded.line⟩
  | waited waits => exact ⟨(bounded.inbound.waits waits).1, bounded.line⟩
  | handled found _ stays performs =>
    exact performs.bufferBounded stays ⟨(bounded.inbound.removes found).1, bounded.line⟩
  | wrote _ performs => exact performs.bufferBounded sends_stay bounded
  | parted | refused | departed | lost => cases running

theorem Path.bufferBounded (bounded : engine.BufferBounded config) (path : Path engine trace after)
    (running : after.finished = false) : after.BufferBounded config := by
  induction path with
  | refl => exact bounded
  | next _ between step ih => exact step.bufferBounded (ih between) running
  | took _ ih => exact ⟨(ih running).inbound, (ih running).line⟩

/-- A client that has not ended, and has nothing left to handle, holds little. -/
theorem BufferBounded.drained (bounded : engine.BufferBounded config) (drained : engine.Drained)
    (running : engine.finished = false) (room : 16 ≤ config.maxPacketLength) :
    engine.inbound.buffered < 4 + config.maxPacketLength + engine.inbound.opener.tagSize :=
  (bounded.inbound.waits (drained running)).2.2 room

/-- Nothing is held that was not sent. -/
theorem Step.buffered (bounded : engine.BufferBounded config) (step : Step engine trace after) :
    after.inbound.buffered ≤ engine.inbound.buffered + trace.received.length := by
  cases step with
  | introduced | listened => exact Nat.le_add_right _ _
  | met _ read _ _ performs =>
    have kept := performs.buffered
    have shorter := (bounded.line _ ‹_›).feed read
    have fewer := shorter.2 _ _ rfl
    rw [Inbound.buffered_feed]
    exact Nat.add_le_add kept fewer
  | fed data => exact Nat.le_of_eq (Inbound.buffered_feed data)
  | waited waits => exact Nat.le_of_eq (bounded.inbound.waits waits).2.1
  | handled found _ _ performs =>
    obtain ⟨-, packet, removes, -⟩ := bounded.inbound.removes found
    exact Nat.le_trans performs.buffered removes.shrinks
  | wrote _ performs => exact performs.buffered
  | parted | refused | departed | lost => exact Nat.zero_le _

theorem Path.buffered (bounded : engine.BufferBounded config) (path : Path engine trace after) :
    after.inbound.buffered ≤ engine.inbound.buffered + trace.received.length := by
  induction path with
  | refl => exact Nat.le_refl _
  | next earlier running step ih =>
    have more := step.buffered (earlier.bufferBounded bounded running)
    rw [Trace.received_append, List.length_append]
    omega
  | took _ ih =>
    rw [Trace.received_append, List.append_nil]
    exact ih

end Bounds

section Draining

/-- Packets are handled one after the other, as many as the number says. -/
inductive Rounds (supply : Supply) : Engine → Nat → Engine → Prop where
  | none {engine : Engine} : Rounds supply engine 0 engine
  | next {count : Nat} {engine between after : Engine} {events : List Event} :
      engine.finished = false → handleNext supply engine = .ok (some events) between →
      Rounds supply between count after → Rounds supply engine (count + 1) after

/-- No more packets are handled: the connection has ended, waits for more bytes, or fails. -/
inductive Halts (supply : Supply) (engine : Engine) : Engine → Prop where
  | finished : engine.finished = true → Halts supply engine engine
  | waits {stopped : Engine} : engine.finished = false →
      handleNext supply engine = .ok none stopped → Halts supply engine stopped
  | failed {error : Error} {failed : Engine} : engine.finished = false →
      handleNext supply engine = .error error failed →
      Halts supply engine (failed.fail supply error).2

/-- The invariant of receiving: every transition can be carried out, and while the
connection lasts the buffers are bounded. -/
structure BufferInvariant (config : Config) (engine : Engine) : Prop where
  sound : engine.Sound
  bounded : engine.finished = false → engine.BufferBounded config

theorem Path.bufferInvariant (invariant : engine.BufferInvariant config)
    (path : Path engine trace after)
    (running : engine.finished = false) : after.BufferInvariant config :=
  ⟨path.sound invariant.sound, path.bufferBounded (invariant.bounded running)⟩

/-- A packet that is handled takes nine bytes at least. -/
theorem BufferInvariant.round {events : List Event} (invariant : engine.BufferInvariant config)
    (running : engine.finished = false)
    (handled : handleNext supply engine = .ok (some events) after) :
    after.BufferInvariant config ∧ 9 + after.inbound.buffered ≤ engine.inbound.buffered := by
  cases taken : Inbound.next engine.inbound with
  | error error inbound =>
    rw [handleNext_error taken] at handled
    cases handled
  | ok found inbound =>
    cases found with
    | none =>
      rw [handleNext_waits taken] at handled
      cases handled
    | some payload =>
      obtain ⟨-, packet, removes, -⟩ := (invariant.bounded running).inbound.removes taken
      cases treated : Handshake.onPacket (supply.source engine.drawn) payload
        engine.handshake with
      | error error handshake =>
        rw [handleNext_some supply taken, transition_error (by exact treated)] at handled
        cases handled
      | ok actions handshake =>
        obtain ⟨reached, handling, answers⟩ := handled_answers invariant.sound running taken treated
        obtain ⟨wires, reached', performs, handling'⟩ :=
          handled_performs invariant.sound taken treated
        rw [handled] at handling handling'
        cases handling
        cases handling'
        obtain ⟨told, queued, path, -⟩ := answers
        have least := removes.least
        have before := removes.buffered
        have kept : after.inbound.buffered ≤ inbound.buffered := performs.buffered
        exact ⟨path.bufferInvariant invariant running, by omega⟩

/-- However many packets are handled, each has taken its bytes. -/
theorem Rounds.shrinks {count : Nat} (rounds : Rounds supply engine count after)
    (invariant : engine.BufferInvariant config) :
    after.BufferInvariant config ∧
      9 * count + after.inbound.buffered ≤ engine.inbound.buffered := by
  induction rounds with
  | none => exact ⟨invariant, by omega⟩
  | next running handled _ ih =>
    obtain ⟨between, first⟩ := invariant.round running handled
    obtain ⟨reached, later⟩ := ih between
    exact ⟨reached, by omega⟩

/-- Draining comes to an end. -/
theorem drain_halts (supply : Supply) (engine : Engine) :
    ∃ count last, Rounds supply engine count last ∧ Halts supply last (engine.drain supply).2 := by
  -- every payload that is handled shortens the backlog
  induction size : engine.backlog using Nat.strongRecOn generalizing engine with
  | _ n ih =>
    rcases Bool.eq_false_or_eq_true engine.finished with ended | running
    · rw [drain_finished ended]
      exact ⟨0, engine, .none, .finished ended⟩
    cases handled : handleNext supply engine with
    | error error failed =>
      rw [drain_error running handled]
      exact ⟨0, engine, .none, .failed running handled⟩
    | ok found after =>
      cases found with
      | none =>
        rw [drain_none running handled]
        exact ⟨0, engine, .none, .waits running handled⟩
      | some events =>
        obtain ⟨count, last, rounds, halts⟩ :=
          ih after.backlog (size ▸ backlog_handleNext handled) after rfl
        rw [drain_some running handled]
        exact ⟨count + 1, last, .next running handled rounds, halts⟩

end Draining

section Runs

variable {start : Engine} {entropy : Entropy}

/-- How an engine receives bytes, and what it holds then. -/
structure Receives (config : Config) (supply : Supply) (data : Bytes) (engine after : Engine) :
    Prop where
  /-- The line of the server is refused, or packets are handled until none is left. -/
  halts : (∃ error failed, accept supply data engine.start = .error error failed ∧
      after = (failed.fail supply error).2) ∨
    ∃ events fed count last, accept supply data engine.start = .ok events fed ∧
      Rounds supply fed count last ∧ Halts supply last after
  /-- There are as many packets at most as nine bytes each allow. -/
  shrinks {events : List Event} {fed reached : Engine} {count : Nat} :
    accept supply data engine.start = .ok events fed → Rounds supply fed count reached →
    9 * count + reached.inbound.buffered ≤ engine.inbound.buffered + data.length
  /-- Each payload comes of a whole packet, which is taken off what has arrived. -/
  removes {events : List Event} {fed reached : Engine} {count : Nat} {payload : Bytes}
    {inbound : Inbound} :
    accept supply data engine.start = .ok events fed → Rounds supply fed count reached →
    reached.finished = false → Inbound.next reached.inbound = .ok (some payload) inbound →
    ∃ packet, reached.inbound.Removes config.maxPacketLength packet inbound ∧
      Inbound.unpack packet { reached.inbound with opener := inbound.opener } =
        .ok payload inbound
  buffered : after.finished = false →
    after.inbound.buffered < 4 + config.maxPacketLength + after.inbound.opener.tagSize
  line : after.finished = false → ∀ reader, after.header = some reader →
    reader.line.length ≤ 257 ∧ reader.skipped ≤ 32

/-- Bytes that are taken make an engine hold no more than those. -/
theorem BufferInvariant.accepts {events : List Event} {fed : Engine} {data : Bytes}
    (invariant : engine.BufferInvariant config) (running : engine.finished = false)
    (accepted : accept supply data engine.start = .ok events fed) :
    fed.BufferInvariant config ∧ fed.inbound.buffered ≤ engine.inbound.buffered + data.length := by
  obtain ⟨toldStart, queuedStart, pathStart, -⟩ := start_answers engine
  have invariantStart : engine.start.BufferInvariant config :=
    pathStart.bufferInvariant invariant running
  have runningStart : engine.start.finished = false := (start_finished engine).trans running
  rcases accept_cases supply data invariantStart.sound runningStart (start_started running) with
    ⟨_, _, accepted', ⟨told, queued, path, -⟩, -⟩ | ⟨_, _, refused, -⟩
  · rw [accepted'] at accepted
    cases accepted
    have before := pathStart.buffered (invariant.bounded running)
    exact ⟨path.bufferInvariant invariantStart runningStart,
      Nat.le_trans (path.buffered (invariantStart.bounded runningStart))
        (Nat.add_le_add_right before _)⟩
  · rw [refused] at accepted
    cases accepted

/-- Receiving comes to an end, and little is held behind it: unless the connection has
ended, less than one packet and part of one line, whatever the server has sent. -/
theorem BufferInvariant.receives (invariant : engine.BufferInvariant config)
    (running : engine.finished = false)
    (room : 16 ≤ config.maxPacketLength) (supply : Supply) (data : Bytes) :
    Receives config supply data engine (engine.receive supply data).2 := by
  obtain ⟨⟨told, queued, path, -⟩, drained⟩ := receive_answers supply data invariant.sound running
  have reached : (engine.receive supply data).2.BufferInvariant config :=
    path.bufferInvariant invariant running
  constructor
  case halts =>
    cases accepted : accept supply data engine.start with
    | error error failed =>
      exact .inl ⟨error, failed, rfl, congrArg Prod.snd (receive_error running accepted)⟩
    | ok events fed =>
      obtain ⟨count, last, rounds, halts⟩ := drain_halts supply fed
      rw [receive_ok running accepted]
      exact .inr ⟨events, fed, count, last, rfl, rounds, halts⟩
  case shrinks =>
    intro events fed reached count accepted rounds
    obtain ⟨invariantFed, fewer⟩ := invariant.accepts running accepted
    exact Nat.le_trans (rounds.shrinks invariantFed).2 fewer
  case removes =>
    intro events fed reached count payload inbound accepted rounds goes found
    have invariantReached := (rounds.shrinks (invariant.accepts running accepted).1).1
    exact ((invariantReached.bounded goes).inbound.removes found).2
  case buffered => exact fun goes => (reached.bounded goes).drained drained goes room
  case line =>
    intro goes reader known
    have bounded := (reached.bounded goes).line reader known
    exact ⟨bounded.line, bounded.skipped⟩

/-- Whatever the calls and the bytes of the server were, an engine that has not ended
receives more of them in as many rounds as there are packets, and holds little then. -/
theorem run_receives (created : Engine.create entropy config = .ok start)
    (calls : List (Supply × Call)) (running : (run calls start).engine.finished = false)
    (supply : Supply) (data : Bytes) :
    Receives config supply data (run calls start).engine
      ((run calls start).engine.receive supply data).2 := by
  obtain ⟨_, _, _, -, -, -, ⟨told, queued, path⟩, -⟩ :=
    run_unfolds calls (create_sound created) (create_drained created)
  have fresh : start.BufferInvariant config :=
    ⟨create_sound created, fun _ => create_bufferBounded created⟩
  have begins : start.finished = false := by
    rw [create_eq created]
  have room : 16 ≤ config.maxPacketLength :=
    Nat.le_trans (by decide) (Config.check_passed (create_checked created)).1
  exact (path.bufferInvariant fresh begins).receives running room supply data

/-- A client that knows the server, and is sent a message to ignore and part of a packet. -/
theorem run_receives_part :
    let start : Engine :=
      { handshake := .create (.repeating [0]) plainClient, inbound := freshInbound plainClient }
    let calls : List (Supply × Call) :=
      [(Entropy.repeating [0], .receive (Identification.ofSoftware "server" none).toBytes)]
    let supply : Supply := Entropy.repeating [0]
    let data : Bytes := [0, 0, 0, 12, 10, 2, 0, 0, 0, 0, 0, 0, 0, 0, 0, 0, 0, 0, 0, 12, 10]
    Engine.create (.repeating [0]) plainClient = .ok start ∧
      (run calls start).engine.finished = false ∧
      Receives plainClient supply data (run calls start).engine
        ((run calls start).engine.receive supply data).2 := by
  intro start calls supply data
  have created : Engine.create (.repeating [0]) plainClient = .ok start := by rfl
  have running : (run calls start).engine.finished = false := by decide +kernel
  exact ⟨created, running, run_receives created calls running supply data⟩

end Runs

end Engine

end SecureShell
