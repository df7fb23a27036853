import SecureShell.Proofs.Engine.Script
import SecureShell.Proofs.Handshake.Requests

/-! The requests of a user on the wire. An engine gives its handshake up with the first
error, so that what its handshake goes through is a dialogue up to its end, and the
requests in its packets are those of the dialogue. -/
namespace SecureShell.Engine

open Handshake
open Pipeline (Command)

variable {engine after : Engine} {trace : Trace} {config : Config}

section Ending

/-- Calls that an engine has made, and the error that it has told of if one has ended them. -/
def Conducts (h : Handshake) (trace : Trace) (ending : Option Error) : Prop :=
  Goes h trace.told ending ∧
    ∀ error, ending = some error → ∃ earlier, trace.events = earlier ++ [.failed error]

theorem conducts_of_goes {h : Handshake} (goes : Goes h trace.told none) : Conducts h trace none :=
  ⟨goes, fun _ none => by cases none⟩

theorem goes_abort (h : Handshake) : Goes h [.abort] none := .next rfl (.nil _)

/-- What one step tells the handshake. Only a message that is refused fails, and the engine
goes no further. -/
theorem Step.conducts (step : Step engine trace after) :
    ∃ ending, Conducts engine.handshake trace ending ∧ (after.finished = false → ending = none) := by
  cases step with
  | introduced | listened | fed | waited =>
    exact ⟨none, conducts_of_goes (.nil _), fun _ => rfl⟩
  | @met _ _ _ version _ _ _ _ _ _ phase =>
    have called : engine.handshake.call (.version version) = _ :=
      congrArg outcome (onVersion_ok phase)
    exact ⟨none, conducts_of_goes (.next called (.nil _)), fun _ => rfl⟩
  | @handled supply payload _ _ _ _ _ _ accepted =>
    have called : engine.handshake.call (.packet (supply.source engine.drawn) payload) = _ :=
      congrArg outcome accepted
    exact ⟨none, conducts_of_goes (.next called (.nil _)), fun _ => rfl⟩
  | @parted supply payload _ _ _ _ _ _ _ accepted =>
    have called : engine.handshake.call (.packet (supply.source engine.drawn) payload) = _ :=
      congrArg outcome accepted
    exact ⟨none, conducts_of_goes (.next called (goes_abort _)), fun _ => rfl⟩
  | @refused _ error _ _ _ _ refusal =>
    cases refusal with
    -- the handshake never hears of what cannot be read
    | line | packet => exact ⟨none, conducts_of_goes (goes_abort _), fun _ => rfl⟩
    | message _ failed =>
      refine ⟨some error, ⟨.halted failed, ?_⟩, fun going => by cases going⟩
      intro other same
      cases same
      exact ⟨[], rfl⟩
  | @wrote _ data messages _ _ taken =>
    have called : engine.handshake.call (.write data) =
        (.ok (messages.map .send), engine.handshake) := by
      rw [Handshake.call, taken]
      rfl
    exact ⟨none, conducts_of_goes (.next called (.nil _)), fun _ => rfl⟩
  | departed => exact ⟨none, conducts_of_goes (.next rfl (goes_abort _)), fun _ => rfl⟩
  | lost => exact ⟨none, conducts_of_goes (goes_abort _), fun _ => rfl⟩

/-- What the steps of a path tell the handshake. -/
theorem Path.conducts (path : Path engine trace after) :
    ∃ ending, Conducts engine.handshake trace ending ∧ (after.finished = false → ending = none) := by
  induction path with
  | refl => exact ⟨none, conducts_of_goes (.nil _), fun _ => rfl⟩
  | next earlier running step ih =>
    obtain ⟨before, ⟨goes, -⟩, steady⟩ := ih
    obtain rfl := steady running
    obtain ⟨ending, ⟨further, told⟩, still⟩ := step.conducts
    rw [earlier.handshake] at further
    refine ⟨ending, ⟨goes.append further, ?_⟩, still⟩
    intro error ended
    obtain ⟨front, events⟩ := told error ended
    rw [Trace.events_append, events, ← List.append_assoc]
    exact ⟨_, rfl⟩
  | took _ ih =>
    obtain ⟨ending, ⟨goes, told⟩, still⟩ := ih
    refine ⟨ending, ⟨?_, ?_⟩, still⟩
    · rw [Trace.told_append, List.append_nil]
      exact goes
    · rw [Trace.events_append, List.append_nil]
      exact told

end Ending

section Wire

def isRequest (payload : Bytes) : Bool :=
  payload.head? == some MessageCode.userauthRequest.toByte

theorem filter_payloads (actions : List Action) :
    (actions.filterMap Action.payload?).filter isRequest =
      actions.filterMap (·.sent? .userauthRequest) := by
  rw [List.filter_filterMap]
  congr 1
  funext action
  cases action with
  | send payload =>
    simp only [Action.payload?, Action.sent?, isRequest, Option.filter, beq_iff_eq]
  | _ => rfl

/-- The requests in the packets of an engine are those that its handshake has asked for. -/
theorem Obeys.requests {history : List Record} {last : List Bytes} {commands : List Command}
    (obeys : Obeys history last commands) (parting : Parting last) :
    (Command.payloads commands).filter isRequest = requested history := by
  have silent : last.filter isRequest = [] := by
    rw [List.filter_eq_nil_iff]
    intro payload leave
    rw [isRequest, parting.2 payload leave]
    decide
  rw [payloads_commands, obeys, List.filterMap_append, payloads_outgoing, payloads_sends,
    List.filter_append, silent, List.append_nil, filter_payloads]
  rfl

end Wire

/-- The requests of a user. Whatever the calls and the bytes of the server are, the
requests in the packets of an engine are those of a dialogue, in which each answers the
message of the server that calls for it and the key signs the session that key agreement
has named. The service, when it is accepted, and the first failure, when it lists the
method of the credential, are always answered; every other failure that comes in the course
of authentication ends the connection. -/
theorem run_requests {entropy : Entropy} (created : Engine.create entropy config = .ok engine)
    (calls : List (Supply × Call)) :
    ∃ trace ignored stage said rest requests commands wires outbound last,
      Path engine trace (run calls engine).engine ∧
      received calls = trace.received ++ ignored ∧ trace.events = (run calls engine).events ∧
      (run calls engine).output = greeting config (run calls engine).engine ++ wires ∧
      Command.packets commands {} = .ok wires outbound ∧ Parting last ∧
      Obeys (Handshake.run trace.told engine.handshake).1 last commands ∧
      (Command.payloads commands).filter isRequest = requests ∧
      (Handshake.run trace.told engine.handshake).1 = said ++ rest ∧
      Dialogue config engine.handshake.clientProposal stage said requests ∧
      requested rest = [] ∧
      ∀ front fresh payload back, trace.told = front ++ .packet fresh payload :: back →
        Heeds config (Handshake.run front engine.handshake).2 fresh payload ∧
        ∀ error failed,
          onPacket fresh payload (Handshake.run front engine.handshake).2 = .error error failed →
            back = [.abort] ∧ ∃ earlier, trace.events = earlier ++ [.failed error] := by
  obtain ⟨data, ignored, ended, looked, _, _, ⟨told, queued, path⟩, _⟩ :=
    run_unfolds calls (create_sound created) (create_drained created)
  obtain ⟨last, kinds, commands, wires, outbound, story, -, parting, spoken, -⟩ :=
    (path.narrates (create_sound created) (create_narrates created)).story
  obtain ⟨ending, ⟨goes, halted⟩, -⟩ := path.conducts
  obtain rfl := create_eq created
  have output := path.queue.trans story
  obtain ⟨stage, said, rest, requests, whole, dialogue, unasked⟩ := Goes.dialogue goes
  refine ⟨_, ignored, stage, said, rest, requests, commands, wires, outbound, last, path, looked,
    rfl, output, spoken.sent, parting, spoken.obeys, ?_, whole, dialogue, unasked, ?_⟩
  · rw [spoken.obeys.requests parting, whole, requested_append, unasked, List.append_nil,
      dialogue.requested]
  · intro front fresh payload back split
    rw [split] at goes
    refine ⟨Goes.heeds goes, fun error failed refused => ?_⟩
    obtain ⟨final, ended⟩ := goes.split.2 error failed refused
    exact ⟨final, halted error ended⟩

/-- A client that the small server has led to a session. -/
theorem run_requests_established :
    ∃ calls : List (Supply × Call),
      Engine.create zeros smallClient = .ok smallEngine ∧
      (run calls smallEngine).engine.isEstablished = true ∧
      ∃ trace stage said rest requests commands wires outbound,
        Path smallEngine trace (run calls smallEngine).engine ∧
        (run calls smallEngine).output =
          greeting smallClient (run calls smallEngine).engine ++ wires ∧
        Command.packets commands {} = .ok wires outbound ∧
        (Command.payloads commands).filter isRequest = requests ∧
        (Handshake.run trace.told smallEngine.handshake).1 = said ++ rest ∧
        Dialogue smallClient smallEngine.handshake.clientProposal stage said requests ∧
        requested rest = [] := by
  obtain ⟨wires, -, -, established, -⟩ := small_established
  obtain ⟨trace, -, stage, said, rest, requests, commands, wires, outbound, -, path, -, -, output,
    packets, -, -, sent, whole, dialogue, unasked, -⟩ :=
    run_requests small_created (receives zeros wires)
  exact ⟨_, small_created, established, trace, stage, said, rest, requests, commands, wires,
    outbound, path, output, packets, sent, whole, dialogue, unasked⟩

end SecureShell.Engine
