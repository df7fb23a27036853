import SecureShell.Proofs.Session.Meeting

/-! What becomes of the data that a caller writes: it waits until the session is
established, and from then on all of it has been sent at the end of each turn, in the
order in which it was written. -/
namespace SecureShell.Session

open Engine (greeting Sent smallEngine)
open Handshake (written zeros smallClient)
open Pipeline (Command)

variable {entropy : Entropy} {config : Config} {broken : Option String} {first report : Report}
  {session : Session} {start : Engine} {given : Bytes}

/-- An established session has sent all that it was given. -/
theorem Lives.sent (created : Engine.create entropy config = .ok start)
    (lives : Lives start given report session) (running : session.finished = false)
    (established : session.engine.isEstablished = true) :
    session.queued = [] ∧ ∃ commands wires, Sent start session.engine commands wires ∧
      report.written = (greeting config session.engine).flatten ++ wires.flatten ∧
      (Command.payloads commands).flatMap dataOf = given := by
  cases lives with
  | ended finished => exact absurd (running.symm.trans finished) (by decide)
  | @going trace _ waits _ kept =>
    have narrates := waits.path.narrates (Engine.create_sound created)
      (Engine.create_narrates created)
    obtain ⟨last, kinds, commands, wires, outbound, story, -, parting, said, -⟩ := narrates.story
    rw [waits.released established, List.flatten_nil, List.append_nil] at kept
    refine ⟨waits.released established, commands, wires,
      ⟨trace, last, outbound, waits.path, said.sent, parting, said.obeys⟩, ?_, ?_⟩
    · rw [story, List.flatten_append]
    · rw [said.carries, kept]

/-- Before the session is established no data is sent. -/
theorem Lives.unsent (created : Engine.create entropy config = .ok start)
    (lives : Lives start given report session) (unheard : .established ∉ report.events) :
    ∃ commands wires, Sent start session.engine commands wires ∧
      report.written <+: (greeting config session.engine).flatten ++ wires.flatten ∧
      ∀ payload ∈ Command.payloads commands,
        payload.head? ≠ some MessageCode.channelData.toByte := by
  obtain ⟨trace, path, quiet, sent⟩ : ∃ trace, Engine.Path start trace session.engine ∧
      .established ∉ trace.events ∧ report.written <+: trace.queued.flatten := by
    cases lives with
    | going waits => exact ⟨_, waits.path, unheard, List.prefix_refl _⟩
    | ended _ path _ listed sent => exact ⟨_, path, mt (listed _) unheard, sent⟩
  have narrates := path.narrates (Engine.create_sound created) (Engine.create_narrates created)
  obtain ⟨last, kinds, commands, wires, outbound, story, -, parting, said, -⟩ := narrates.story
  have unnamed : Handshake.named (Handshake.run trace.told start.handshake).1 = none := by
    rw [Handshake.named, path.unnamed quiet]
    rfl
  rw [story, List.flatten_append] at sent
  refine ⟨commands, wires, ⟨trace, last, outbound, path, said.sent, parting, said.obeys⟩, sent, ?_⟩
  intro payload member head
  have utters := said.utters
  rw [unnamed] at utters
  obtain ⟨kind, -, uttered⟩ := kind_of_mem utters member
  obtain rfl := uttered.data_of_head head
  cases uttered with
  | data named => cases named

/-- No write is lost, repeated or moved. At the end of every turn of an established
session nothing is queued, and the data in the messages that were sent is the data of all
writes, in order. Before the session is established no message of data is sent. -/
theorem live_written (begun : Session.begin entropy broken config = .ok (first, session))
    (turns : List Turn) :
    let report := first.append (live turns session).1
    let after := (live turns session).2
    ∃ start, Engine.create entropy config = .ok start ∧
      (after.finished = false → after.engine.isEstablished = true →
        after.queued = [] ∧ ∃ commands wires, Sent start after.engine commands wires ∧
          report.written = (greeting config after.engine).flatten ++ wires.flatten ∧
          (Command.payloads commands).flatMap dataOf = turns.flatMap (·.stimulus.given)) ∧
      (.established ∉ report.events → ∃ commands wires, Sent start after.engine commands wires ∧
        report.written <+: (greeting config after.engine).flatten ++ wires.flatten ∧
        ∀ payload ∈ Command.payloads commands,
          payload.head? ≠ some MessageCode.channelData.toByte) := by
  obtain ⟨start, created, lives⟩ := live_lives begun turns
  exact ⟨start, created, lives.sent created, lives.unsent created⟩

/-- The first data waits until the small server has led to the established session, in which
the second is written. -/
theorem live_written_established :
    ∃ wires : List Bytes,
      let turns : List Turn :=
        ⟨zeros, none, .write [104]⟩ :: receives zeros wires ++ [⟨zeros, none, .write [105]⟩]
      let report := smallBegun.1.append (live turns smallBegun.2).1
      let after := (live turns smallBegun.2).2
      Session.begin zeros none smallClient = .ok smallBegun ∧
        after.finished = false ∧ after.engine.isEstablished = true ∧ after.queued = [] ∧
        ∃ start commands packets, Sent start after.engine commands packets ∧
          report.written = (greeting smallClient after.engine).flatten ++ packets.flatten ∧
          (Command.payloads commands).flatMap dataOf = [104, 105] := by
  obtain ⟨wires, h, heard, listens, established, messages, taken⟩ := early_established
  let turns : List Turn :=
    ⟨zeros, none, .write [104]⟩ :: receives zeros wires ++ [⟨zeros, none, .write [105]⟩]
  have begun : Session.begin zeros none smallClient = .ok (smallBegun.1, smallBegun.2) := by rfl
  have early : (smallBegun.2.turn zeros none (.write [104])).2 = earlySession := by rfl
  have last : (live turns smallBegun.2).2 =
      ((live (receives zeros wires) earlySession).2.turn zeros none (.write [105])).2 := by
    simp only [turns, List.cons_append]
    rw [live_cons_snd rfl, early, live_append, live_cons_snd listens.running]
    rfl
  have written := listens_turn_write listens established taken zeros
  rw [← last] at written
  have settled : (live turns smallBegun.2).2.engine.isEstablished = true := by
    rw [established_iff, written.handshake, established]
  obtain ⟨start, -, sent, -⟩ := live_written begun turns
  obtain ⟨released, commands, packets, sent, all, same⟩ := sent written.running settled
  refine ⟨wires, begun, written.running, settled, released, start, commands, packets, sent, all, ?_⟩
  have silent : (receives zeros wires).flatMap (·.stimulus.given) = [] := by
    simp [receives, List.flatMap_map, Stimulus.given]
  rw [same]
  simp only [turns, List.flatMap_append, List.cons_append, List.flatMap_cons, silent]
  rfl

end SecureShell.Session
