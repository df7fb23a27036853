import SecureShell.Proofs.Session.Turns

/-! What a session reports: that it is established, at most once and before any data, and
exactly one end, as the last event, in the turn in which it ends. -/
namespace SecureShell.Session

open Engine (Underway Concluded)

variable {entropy : Entropy} {config : Config} {broken : Option String} {first report : Report}
  {session : Session} {start : Engine} {given : Bytes}

theorem Lives.reports (created : Engine.create entropy config = .ok start)
    (lives : Lives start given report session) :
    (session.finished = true → Concluded report.events) ∧
      (session.finished = false → Underway report.events) := by
  cases lives with
  | going waits =>
    have underway := (waits.course created).underway waits.running
    exact ⟨fun ended => absurd (waits.running.symm.trans ended) (by decide), fun _ => underway⟩
  | ended finished _ concluded =>
    exact ⟨fun _ => concluded, fun running => absurd (running.symm.trans finished) (by decide)⟩

/-- A session reports exactly one outcome. Whatever wakes the loop and whenever the
transport breaks, a session that has ended has reported one end, as the last of its
events, and takes part in nothing more; one that has not ended has reported no end. -/
theorem live_concluded (begun : Session.begin entropy broken config = .ok (first, session))
    (turns : List Turn) :
    let events := first.events ++ (live turns session).1.events
    let after := (live turns session).2
    (after.finished = true → Concluded events ∧
      ∀ more, live (turns ++ more) session = live turns session) ∧
    (after.finished = false → Underway events) := by
  obtain ⟨start, created, lives⟩ := live_lives begun turns
  obtain ⟨concluded, underway⟩ := lives.reports created
  refine ⟨fun finished => ⟨concluded finished, fun more => ?_⟩, underway⟩
  rw [live_append]
  simp only [live_finished finished, append_silent]

/-- A client whose stream ends before the server has said anything, and which is closed
too late. -/
theorem live_concluded_lost :
    let engine : Engine :=
      { handshake := .create (.repeating [0]) Engine.plainClient
        inbound := Engine.freshInbound Engine.plainClient }
    let begun := Session.flush none [] { engine := engine.start }
    let turns : List Turn := [⟨Entropy.repeating [0], none, .streamEnded⟩,
      ⟨Entropy.repeating [0], none, .close⟩]
    let events := begun.1.events ++ (live turns begun.2).1.events
    Session.begin (.repeating [0]) none Engine.plainClient = .ok begun ∧
      (live turns begun.2).2.finished = true ∧ Concluded events := by
  intro engine begun turns events
  have opened :
      Session.begin (.repeating [0]) none Engine.plainClient = .ok (begun.1, begun.2) := by
    rfl
  have finished : (live turns begun.2).2.finished = true := by rfl
  exact ⟨opened, finished, ((live_concluded opened turns).1 finished).1⟩

end SecureShell.Session
