import SecureShell.Proofs.Engine.Settling

/-! Receiving does not depend on how the bytes of the server are cut: an engine that
has received one part and then another is the engine that has received both at once,
with the same events. This holds of every engine that calls can lead to, wherever the
cut falls. -/
namespace SecureShell.Engine

variable {supply : Supply}

section Appended

variable {engine : Engine} (data later : Bytes)

/-- Receiving goes on where it stopped, once the server is known. -/
theorem receive_append_settled (settled : settle engine = engine) :
    engine.receive supply (data ++ later) =
      let (events, stopped) := engine.receive supply data
      let (more, done) := stopped.receive supply later
      (events ++ more, done) := by
  rcases Bool.eq_false_or_eq_true engine.finished with ended | running
  · simp [receive_finished _ ended]
  have heard : engine.hear data = { engine with inbound := engine.inbound.feed data } :=
    hear_running data running
  have twice : engine.hear (data ++ later) = (engine.hear data).hear later := by
    have running' : (engine.hear data).finished = false := by rw [heard, running]
    rw [hear_running later running', hear_running _ running, heard, Inbound.feed_feed]
  rw [receive_settled _ settled, receive_settled _ settled, twice, drain_hear]
  simp only [receive_settled later (drain_settle (hear_settle data settled))]

/-- Of bytes that are refused, those that follow the reason are not looked at. -/
theorem receive_append_refused {error : Error} {failed : Engine} (running : engine.finished = false)
    (started : engine.started = true) (part : accept supply data engine = .error error failed)
    (whole : accept supply (data ++ later) engine = .error error failed) :
    engine.receive supply (data ++ later) =
      let (events, stopped) := engine.receive supply data
      let (more, done) := stopped.receive supply later
      (events ++ more, done) := by
  have dead : (failed.fail supply error).2.finished = true := rfl
  simp only [receive_refused running started whole, receive_refused running started part,
    receive_finished later dead, List.append_nil]

/-- Receiving goes on where it stopped, while the server introduces itself. -/
theorem receive_append_introduction {reader : LineReader} (running : engine.finished = false)
    (started : engine.started = true) (known : engine.header = some reader)
    (composed : engine.Composed) :
    engine.receive supply (data ++ later) =
      let (events, stopped) := engine.receive supply data
      let (more, done) := stopped.receive supply later
      (events ++ more, done) := by
  obtain ⟨empty, free⟩ := composed (by rw [known]; rfl)
  have acceptedPart : accept supply data engine = _ := accept_line known
  have accepted : accept supply (data ++ later) engine = _ := accept_line known
  rw [LineReader.feed_append] at accepted
  cases read : LineReader.feed data reader with
  | error error failed =>
    rw [read] at accepted acceptedPart
    exact receive_append_refused data later running started acceptedPart accepted
  | ok found stopped =>
    rw [read] at accepted acceptedPart
    cases found with
    | none =>
      -- the line is not complete: the reader alone has moved, and goes on with the next part
      have drained : drain supply { engine with header := some stopped } = _ :=
        drain_empty empty free
      have resumed : accept supply later { engine with header := some stopped } =
        accept supply (data ++ later) engine := by
        rw [accepted, accept_line rfl]
      have same : start { engine with header := some stopped } =
          { engine with header := some stopped } := start_of_started started
      have received : receive supply later { engine with header := some stopped } =
          engine.receive supply (data ++ later) := by
        rw [receive, receive, start_of_started started, same, resumed, if_neg (by simp [running]),
          if_neg (by simp [running])]
      simp only [receive_accepted running started acceptedPart, drained, List.nil_append, received]
    | some found =>
      obtain ⟨version, rest⟩ := found
      simp only at accepted acceptedPart
      cases introduced : transition supply (Handshake.onVersion version)
          { engine with header := none } with
      | error error failed =>
        rw [introduced] at accepted acceptedPart
        exact receive_append_refused data later running started acceptedPart accepted
      | ok events after =>
        rw [introduced] at accepted acceptedPart
        have settled : settle after = after := introduction_settle started introduced
        have running' : after.finished = false := (introduction_finished introduced).trans running
        -- what is left of the line is received like the bytes after it
        have received (bytes : Bytes) : after.receive supply bytes =
            drain supply { after with inbound := after.inbound.feed bytes } := by
          rw [receive_settled bytes settled, hear_running bytes running']
        have resumed := received (rest ++ later)
        rw [receive_append_settled rest later settled, received rest] at resumed
        simp only [receive_accepted running started accepted,
          receive_accepted running started acceptedPart, ← resumed, List.append_assoc]

/-- Receiving goes on where it stopped. -/
theorem receive_append (composed : engine.Composed) :
    engine.receive supply (data ++ later) =
      let (events, stopped) := engine.receive supply data
      let (more, done) := stopped.receive supply later
      (events ++ more, done) := by
  rcases Bool.eq_false_or_eq_true engine.finished with ended | running
  · simp [receive, ended]
  have running' : engine.start.finished = false := (start_finished engine).trans running
  have started : engine.start.started = true := start_started running
  rw [← receive_start, ← receive_start engine data]
  cases known : engine.start.header with
  | none =>
    apply receive_append_settled
    rw [settle, ← started, ← known]
  | some reader =>
    apply receive_append_introduction _ _ running' started known
    unfold start
    split <;> exact composed

end Appended

def receiveAll (supply : Supply) : List Bytes → Engine → List Event × Engine
  | [], engine => ([], engine)
  | piece :: rest, engine =>
    let (events, engine) := engine.receive supply piece
    let (more, engine) := receiveAll supply rest engine
    (events ++ more, engine)

/-- However the bytes of the server are cut, an engine that calls have led to gives the
events and becomes the engine that it would if they came at once. -/
theorem receiveAll_flatten {engine : Engine} (reached : Reachable engine) {pieces : List Bytes}
    (cut : pieces ≠ []) :
    receiveAll supply pieces engine = engine.receive supply pieces.flatten := by
  induction pieces generalizing engine with
  | nil => exact absurd rfl cut
  | cons piece rest ih =>
    cases rest with
    | nil => simp [receiveAll]
    | cons next rest =>
      have after : Reachable (engine.receive supply piece).2 := .called supply (.receive piece) reached
      have resumed := ih after (List.cons_ne_nil next rest)
      rw [List.flatten_cons, receive_append piece _ reached.composed, receiveAll]
      simp only [resumed]

def plainClient : Config where
  software := "client"
  username := "user"
  credential := .password "secret"

/-- A line that comes in two pieces, cut between its letters. -/
theorem receiveAll_flatten_line :
    let engine : Engine :=
      { handshake := .create (.repeating [0]) plainClient, inbound := freshInbound plainClient }
    Reachable engine ∧ receiveAll (Entropy.repeating [0]) [[83, 83], [72, 45, 13, 10]] engine =
      engine.receive (Entropy.repeating [0]) [83, 83, 72, 45, 13, 10] := by
  have created : Engine.create (.repeating [0]) plainClient = .ok
      { handshake := .create (.repeating [0]) plainClient
        inbound := freshInbound plainClient } := by rfl
  have reached := Reachable.created created
  exact ⟨reached, receiveAll_flatten reached (by decide)⟩

end SecureShell.Engine
