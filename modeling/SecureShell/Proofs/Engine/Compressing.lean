import SecureShell.Proofs.Engine.Delivery
import SecureShell.Proofs.Engine.Script

/-! When packets are compressed. The packet with which the server accepts the user is the
switch, in both directions: what was sent and taken up to it is packed as it is, and what
follows goes through one stream for each direction that was agreed to be compressed. The
streams are begun once and run to the end of the connection. -/
namespace SecureShell

namespace Handshake.Agreement

/-- What becomes of the payloads that are sent once the user is accepted. -/
def packs (a : Agreement) (payloads : List Bytes) : List Bytes :=
  match a.negotiated.compressionOut with
  | .zlibDelayed => (Compressor.activate {}).bodies payloads
  | .none => payloads

/-- How the packets are unpacked that are taken once the user is accepted. -/
def Unpacks (a : Agreement) (d : Decompressor) (takes : List Take) (left : Decompressor) : Prop :=
  match a.negotiated.compressionIn with
  | .zlibDelayed => Inflates d.activate takes left
  | .none => (∀ take ∈ takes, take.Plain) ∧ left = d

end Handshake.Agreement

namespace Engine

open Handshake
open Pipeline (Command)

variable {config : Config} {proposal opening : Bytes} {history early late : List Record}
  {success : Record} {a : Agreement} {actions : List Action} {commands : List Command}
  {last : List Bytes} {takes : List Take} {d left : Decompressor}

section Sent

theorem asked_plain (plain : ∀ record ∈ history, record.Plain) (outbound inbound : Bool) :
    .compress outbound inbound ∉ asked history := by
  intro asking
  obtain ⟨record, member, asking⟩ := List.mem_flatMap.1 asking
  exact (plain record member).uncompressed outbound inbound asking

/-- Commands do not compress unless that is asked for. -/
theorem steady_of_plain (last : List Bytes)
    (plain : ∀ outbound inbound, .compress outbound inbound ∉ actions)
    (same : commands.map Command.action = actions.filterMap Action.outgoing? ++ last.map .send) :
    .compress ∉ commands := by
  intro member
  have asking : Command.action .compress ∈ commands.map Command.action :=
    List.mem_map_of_mem member
  rw [same, List.mem_append] at asking
  rcases asking with asking | final
  · obtain ⟨action, listed, outgoing⟩ := List.mem_filterMap.1 asking
    cases action with
    | compress outbound inbound => exact plain outbound inbound listed
    | send | armOutbound | armInbound | established | deliver | closed => cases outgoing
  · obtain ⟨payload, -, impossible⟩ := List.mem_map.1 final
    cases impossible

theorem payloads_obeying (last : List Bytes)
    (same : commands.map Command.action = actions.filterMap Action.outgoing? ++ last.map .send) :
    Command.payloads commands = actions.filterMap Action.payload? ++ last := by
  rw [payloads_commands, same, List.filterMap_append, payloads_outgoing, payloads_sends]

theorem bodies_plain (plain : ∀ record ∈ history, record.Plain)
    (obeys : Obeys history last commands) :
    Command.payloads (Command.packed {} commands) =
      (asked history).filterMap Action.payload? ++ last := by
  rw [Command.payloads_packed (steady_of_plain last (asked_plain plain) obeys),
    Compressor.bodies_inert rfl, payloads_obeying last obeys]

theorem outgoing_activation (negotiated : Negotiated) :
    negotiated.activation.filterMap Action.outgoing? =
      if negotiated.compressionOut.delayed then [.compress true false] else [] := by
  rw [Negotiated.activation]
  cases negotiated.compressionOut.delayed <;> cases negotiated.compressionIn.delayed <;> rfl

/-- What a sender packs that begins with the compression that was agreed on. -/
theorem bodies_activated (plain : ∀ outbound inbound, .compress outbound inbound ∉ actions)
    (same : commands.map Command.action =
      (a.negotiated.activation ++ actions).filterMap Action.outgoing? ++ last.map .send) :
    Command.payloads (Command.packed {} commands) =
      a.packs (actions.filterMap Action.payload? ++ last) := by
  rw [List.filterMap_append, outgoing_activation, List.append_assoc] at same
  rw [Agreement.packs]
  cases method : a.negotiated.compressionOut with
  | zlibDelayed =>
    rw [method] at same
    obtain ⟨command, rest, rfl, switch, later⟩ := List.map_eq_cons_iff.1 same
    obtain rfl : command = .compress := by
      cases command with
      | compress => rfl
      | send | arm => cases switch
    rw [Command.packed, Command.payloads_packed (steady_of_plain last plain later),
      payloads_obeying last later]
  | none =>
    rw [method] at same
    rw [Command.payloads_packed (steady_of_plain last plain same), Compressor.bodies_inert rfl,
      payloads_obeying last same]

/-- What a sender packs that is told to compress where the user is accepted. -/
theorem bodies_welcomed
    (welcomed : Welcomed config proposal history early success late a opening)
    (obeys : Obeys history last commands) :
    Command.payloads (Command.packed {} commands) =
      (asked early).filterMap Action.payload? ++
        a.packs (opening :: ((asked late).filterMap Action.payload? ++ last)) := by
  obtain ⟨rfl, before, welcome, after⟩ := welcomed
  have told : asked (early ++ success :: late) =
      asked early ++ (a.negotiated.activation ++ (.send opening :: asked late)) := by
    rw [asked, List.flatMap_append, List.flatMap_cons, asked_of_ok welcome.answered,
      List.append_assoc]
    rfl
  rw [Obeys, told, List.filterMap_append, List.append_assoc, List.map_eq_append_iff] at obeys
  -- the commands fall into those before the user is accepted and those behind it
  obtain ⟨first, behind, rfl, same, obeys⟩ := obeys
  rw [← List.append_nil (List.filterMap _ _)] at same
  have steady (outbound inbound : Bool) :
      .compress outbound inbound ∉ Action.send opening :: asked late := by
    intro member
    cases member with
    | tail _ member => exact asked_plain after outbound inbound member
  rw [Command.packed_append rfl (steady_of_plain [] (asked_plain before) same),
    Command.payloads_append, payloads_obeying [] same, List.append_nil,
    bodies_activated steady obeys]
  rfl

end Sent

section Runs

/-- What is packed for a history and a last message, and how packets are unpacked. -/
inductive Compresses (config : Config) (proposal : Bytes) (history : List Record)
    (last bodies : List Bytes) (takes : List Take) (left : Decompressor) : Prop where
  /-- The user is not accepted: nothing is compressed. -/
  | never : (∀ record ∈ history, record.Plain) →
      bodies = (asked history).filterMap Action.payload? ++ last →
      (∀ take ∈ takes, take.Plain) → left = (bareEar config).decompressor →
      Compresses config proposal history last bodies takes left
  /-- What comes before the user is accepted is not compressed. What comes behind it is
  compressed, if that was agreed on for its direction. -/
  | since {early late : List Record} {success : Record} {a : Agreement} {opening : Bytes}
      {before behind : List Take} :
      Welcomed config proposal history early success late a opening →
      bodies = (asked early).filterMap Action.payload? ++
        a.packs (opening :: ((asked late).filterMap Action.payload? ++ last)) →
      takes = before ++ behind → accepted (early ++ [success]) = before.map Take.heard →
      (∀ take ∈ before, take.Plain) → a.Unpacks (bareEar config).decompressor behind left →
      Compresses config proposal history last bodies takes left

/-- How far an engine has come: the packets that it has queued, with the commands that they
come of, and the packets that it has taken, with what is needed for the next one and the
bytes behind them. -/
structure Compressing (config : Config) (start : Engine) (trace : Trace) (engine : Engine)
    (commands : List Command) (last wires : List Bytes) (takes : List Take) (ear : Ear)
    (rest : Bytes) : Prop where
  queued : trace.queued = greeting config engine ++ wires
  parting : Parting last
  obeys : Obeys (Handshake.run trace.told start.handshake).1 last commands
  /-- The packets are those of a sender that never compresses, and is given the bodies. -/
  sent : ∃ outbound, Command.packets commands {} = .ok wires outbound ∧
    Command.packets (Command.packed {} commands) {} = .ok wires outbound.bare
  stream : behindLine trace.received = takes.flatMap Take.wire ++ rest
  taken : Taken config start.handshake.clientProposal
    (Handshake.run trace.told start.handshake).1 takes ear
  accepts : accepted (Handshake.run trace.told start.handshake).1 = takes.map Take.heard
  next : engine.finished = false → engine.inbound.deframer.idle = true ∧
    engine.inbound.decompressor = ear.decompressor
  compresses : Compresses config start.handshake.clientProposal
    (Handshake.run trace.told start.handshake).1 last
    (Command.payloads (Command.packed {} commands)) takes ear.decompressor

/-- Packets that are sent and taken in step with a history are compressed as it says. -/
theorem compresses_of_unpacks {entropy : Entropy} {calls : List Handshake.Call}
    (obeys : Obeys (Handshake.run calls (.create entropy config)).1 last commands)
    (unpacked : Unpacks (bareEar config).decompressor
      (Handshake.run calls (.create entropy config)).1 takes left) :
    Compresses config (Handshake.create entropy config).clientProposal
      (Handshake.run calls (.create entropy config)).1 last
      (Command.payloads (Command.packed {} commands)) takes left := by
  have inert : (bareEar config).decompressor.active = false := rfl
  rcases run_welcomes entropy config calls with
    plain | ⟨early, success, late, a, opening, welcomed⟩
  · obtain ⟨through, same⟩ := (unpacked.inflates plain).plain inert
    exact .never plain (bodies_plain plain obeys) through same
  · obtain ⟨before, behind, split, heard, through, inflates⟩ := unpacked.welcomed welcomed inert
    refine .since welcomed (bodies_welcomed welcomed obeys) split heard through ?_
    rw [Agreement.Unpacks]
    cases method : a.negotiated.compressionIn with
    | zlibDelayed =>
      rw [method] at inflates
      exact inflates
    | none =>
      rw [method] at inflates
      exact inflates.plain inert

/-- However far an engine has come, its packets are compressed as its history says. -/
theorem Path.compresses {entropy : Entropy} {start engine : Engine} {trace : Trace}
    (created : Engine.create entropy config = .ok start) (path : Path start trace engine) :
    ∃ commands last wires takes ear rest,
      Compressing config start trace engine commands last wires takes ear rest := by
  have narrates := path.narrates (create_sound created) (create_narrates created)
  obtain ⟨last, kinds, commands, wires, outbound, story, -, parting, said, -⟩ := narrates.story
  obtain rfl := create_eq created
  have attending := path.attends rfl (attends_create entropy config)
  have sent : ∃ outbound, Command.packets commands {} = .ok wires outbound ∧
      Command.packets (Command.packed {} commands) {} = .ok wires outbound.bare :=
    ⟨outbound, said.sent, Command.packets_packed said.sent⟩
  cases attending with
  | @running k takes keys rest attends =>
    have taken := attends.listening.taken fun a known => attends.keyed.shown known []
    simp only [Handshake.run, List.append_nil] at taken
    exact ⟨commands, last, wires, takes, _, rest, story, parting, said.obeys, sent,
      attends.met.behindLine_eq, taken, attends.tells.unpacks.accepts,
      fun _ => ⟨attends.still, rfl⟩, compresses_of_unpacks said.obeys attends.tells.unpacks⟩
  | @gone takes ear _ _ finished taken tells _ ends =>
    obtain ⟨rest, stream, -⟩ := ends []
    rw [List.append_nil] at stream
    refine ⟨commands, last, wires, takes, ear, rest, story, parting, said.obeys, sent, stream,
      taken, tells.unpacks.accepts, fun running => ?_,
      compresses_of_unpacks said.obeys tells.unpacks⟩
    rw [finished] at running
    cases running

/-- Compression begins with the acceptance of the user. Whatever the calls and the bytes of
the server are, a run is a path that has queued its output and taken its input; and however
far a path has come, what it has sent and taken before the user is accepted is not
compressed, and what it sends and takes later goes through one stream for each direction
that was agreed to be compressed, the opening of the channel first. -/
theorem run_compresses {entropy : Entropy} {start : Engine}
    (created : Engine.create entropy config = .ok start) (calls : List (Supply × Call)) :
    (∃ trace ignored, Path start trace (run calls start).engine ∧
      received calls = trace.received ++ ignored ∧ trace.events = (run calls start).events ∧
      (run calls start).output = trace.queued) ∧
    ∀ trace engine, Path start trace engine → ∃ commands last wires takes ear rest,
      Compressing config start trace engine commands last wires takes ear rest := by
  obtain ⟨data, ignored, ended, looked, _, _, ⟨told, queued, path⟩, _⟩ :=
    run_unfolds calls (create_sound created) (create_drained created)
  have all := path.queue
  have empty : start.queue.reverse = [] := by
    rw [create_eq created]
    rfl
  rw [empty, List.nil_append] at all
  exact ⟨⟨_, ignored, path, looked, rfl, all⟩, fun _ _ path => path.compresses created⟩

/-- A client that the small server has led to a session, which is compressed. -/
theorem run_compresses_established :
    ∃ calls : List (Supply × Call),
      Engine.create zeros smallClient = .ok smallEngine ∧
      (run calls smallEngine).engine.isEstablished = true ∧
      (run calls smallEngine).engine.outbound.compressing = true ∧
      (∃ trace ignored, Path smallEngine trace (run calls smallEngine).engine ∧
        received calls = trace.received ++ ignored ∧
        trace.events = (run calls smallEngine).events ∧
        (run calls smallEngine).output = trace.queued) ∧
      ∀ trace engine, Path smallEngine trace engine → ∃ commands last wires takes ear rest,
        Compressing smallClient smallEngine trace engine commands last wires takes ear rest := by
  obtain ⟨wires, -, -, established, compressing⟩ := small_established
  exact ⟨_, small_created, established, compressing, run_compresses small_created _⟩

end Runs

end Engine

end SecureShell
