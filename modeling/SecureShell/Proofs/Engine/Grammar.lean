import SecureShell.Proofs.Engine.Chunking
import SecureShell.Proofs.Engine.Meeting
import SecureShell.Session

/-! What a caller hears in the course of a connection: nothing, or that the session is
established and then its data, and at the end at most one event, behind which there is
nothing more. An engine that has ended stays as it is, whatever is done with it. -/
namespace SecureShell.Engine

/-- The events that may come before the end of a connection. -/
inductive Underway : List Event → Prop where
  | silent : Underway []
  | established (data : List ChannelData) : Underway (.established :: data.map .data)

/-- The events of a connection that may have ended: at most one end, and as the last. -/
inductive Orderly : List Event → Prop where
  | underway {events : List Event} : Underway events → Orderly events
  | closed {events : List Event} : Underway events → Orderly (events ++ [.closed])
  | failed {events : List Event} (error : Error) : Underway events →
      Orderly (events ++ [.failed error])

/-- The events of a connection that has told of its end, once and as the last. -/
def Concluded (events : List Event) : Prop :=
  ∃ front last, events = front ++ [last] ∧ Underway front ∧ last.isEnd = true

/-- An engine on which no call has any effect, but that what waits for the transport can
still be taken. -/
structure Ended (engine : Engine) : Prop where
  start : engine.start = engine
  receive : ∀ supply data, engine.receive supply data = ([], engine)
  transportClosed : ∀ cause, engine.transportClosed cause = ([], engine)
  write : ∀ supply data, write supply data engine = .error .closed engine
  close : ∀ supply, close supply engine = .error .closed engine
  forever : ∀ calls, (run calls engine).events = [] ∧
    (run calls engine).output = engine.queue.reverse ∧ (run calls engine).engine.finished = true

variable {supply : Supply} {engine after : Engine} {trace : Trace} {events : List Event}

section Course

/-- The invariant of events: nothing is told before the connection is established, then that it
is, and nothing but data until it ends; what an engine that has ended has told is in order. -/
inductive Course (engine : Engine) : List Event → Prop where
  | silent : engine.finished = false → engine.handshake.phase ≠ .established → Course engine []
  | established (data : List ChannelData) : engine.finished = false →
      engine.handshake.phase = .established → Course engine (.established :: data.map .data)
  | ended {events : List Event} : engine.finished = true → Orderly events → Course engine events

theorem Course.orderly (course : Course engine events) : Orderly events := by
  cases course with
  | silent => exact .underway .silent
  | established data => exact .underway (.established data)
  | ended _ orderly => exact orderly

theorem Course.early (course : Course engine events) (running : engine.finished = false)
    (phase : engine.handshake.phase ≠ .established) : events = [] := by
  cases course with
  | silent => rfl
  | established _ _ established => exact absurd established phase
  | ended finished =>
    rw [running] at finished
    cases finished

theorem Course.late (course : Course engine events) (running : engine.finished = false)
    (phase : engine.handshake.phase = .established) :
    ∃ data : List ChannelData, events = .established :: data.map .data := by
  cases course with
  | silent _ early => exact absurd phase early
  | established data => exact ⟨data, rfl⟩
  | ended finished =>
    rw [running] at finished
    cases finished

theorem Course.underway (course : Course engine events) (running : engine.finished = false) :
    Underway events := by
  by_cases phase : engine.handshake.phase = .established
  · obtain ⟨data, rfl⟩ := course.late running phase
    exact .established data
  · rw [course.early running phase]
    exact .silent

theorem Course.kept (course : Course engine events) (running : engine.finished = false)
    (finished : after.finished = false)
    (phase : after.handshake.phase = .established ↔ engine.handshake.phase = .established) :
    Course after events := by
  by_cases established : engine.handshake.phase = .established
  · obtain ⟨data, rfl⟩ := course.late running established
    exact .established data finished (phase.2 established)
  · rw [course.early running established]
    exact .silent finished (mt phase.1 established)

theorem Course.took (course : Course engine events) :
    Course { engine with queue := [] } events := by
  cases course with
  | silent running early => exact .silent running early
  | established data running late => exact .established data running late
  | ended finished orderly => exact .ended finished orderly

/-- A packet that does not end the connection establishes the session, brings data, or
is not heard of. -/
theorem heard_of_reaction {entropy : Entropy} {payload : Bytes} {h left : Handshake}
    {actions : List Action} (reaction : Handshake.Reaction entropy payload h actions left)
    (stays : .closed ∉ actions) :
    (actions.flatMap Action.events = [] ∧ (left.phase = .established ↔ h.phase = .established)) ∨
      (actions.flatMap Action.events = [.established] ∧ h.phase = .channelOpen ∧
        left.phase = .established) ∨
      ∃ data, actions.flatMap Action.events = [.data data] ∧ h.phase = .established ∧
        left.phase = .established ∧ Handshake.CarriesData payload data := by
  cases reaction with
  | ignored | dropped | refused => exact .inl ⟨rfl, .rfl⟩
  | began phase | asked phase | chose phase | replied phase | armed phase =>
    rw [phase]
    exact .inl ⟨rfl, nofun, nofun⟩
  | requested stage _ phase =>
    rcases phase with phase | ⟨before, phase⟩ <;>
    · rw [phase]
      exact .inl ⟨rfl, nofun, nofun⟩
  | welcomed outbound inbound phase =>
    rw [phase]
    refine .inl ⟨?_, nofun, nofun⟩
    cases outbound <;> cases inbound <;> rfl
  | confirmed phase =>
    refine .inr (.inl ⟨?_, phase, rfl⟩)
    rw [List.flatMap_append, sends_events]
    rfl
  | delivered _ phase carried => exact .inr (.inr ⟨_, rfl, phase, phase, carried⟩)
  | parted => exact absurd (List.mem_append_right _ (.head _)) stays

/-- What one step adds to what was heard. -/
theorem Step.course (running : engine.finished = false) (course : Course engine events)
    (step : Step engine trace after) : Course after (events ++ trace.events) := by
  have underway := course.underway running
  cases step with
  | introduced | listened | fed | waited =>
    rw [List.append_nil]
    exact course.kept running running .rfl
  | met _ _ phase _ performs =>
    have carried := performs.carries (by simp)
    rw [List.append_nil]
    refine course.kept running (carried.finished.trans running) ?_
    rw [carried.handshake, phase]
    exact ⟨nofun, nofun⟩
  | wrote _ performs =>
    have carried := performs.carries sends_stay
    rw [List.append_nil]
    refine course.kept running (carried.finished.trans running) ?_
    rw [carried.handshake]
  | handled _ accepted stays performs =>
    have carried := performs.carries stays
    have running' := carried.finished.trans running
    rcases heard_of_reaction (Handshake.reaction_of_onPacket accepted) stays with
      ⟨silent, phase⟩ | ⟨heard, before, phase⟩ | ⟨data, heard, before, phase, -⟩
    · rw [silent, List.append_nil]
      refine course.kept running running' ?_
      rw [carried.handshake]
      exact phase
    · have phase' : after.handshake.phase = .established := by rwa [carried.handshake]
      have early : engine.handshake.phase ≠ .established := by
        rw [before]
        nofun
      rw [heard, course.early running early]
      exact .established [] running' phase'
    · have phase' : after.handshake.phase = .established := by rwa [carried.handshake]
      obtain ⟨earlier, rfl⟩ := course.late running before
      have more := Course.established (earlier ++ [data]) running' phase'
      rw [List.map_append] at more
      rw [heard]
      exact more
  | parted => exact .ended rfl (.closed underway)
  | refused refusal =>
    rw [Trace.events_append, refusal.silent.events]
    exact .ended rfl (.failed _ underway)
  | lost => exact .ended rfl (.failed _ underway)
  | departed =>
    rw [List.append_nil]
    exact .ended rfl course.orderly

theorem create_course {entropy : Entropy} {config : Config}
    (created : Engine.create entropy config = .ok engine) : Course engine [] := by
  obtain rfl := create_eq created
  exact .silent rfl nofun

/-- What a caller has heard is in step with the engine. -/
theorem Path.course (course : Course engine events) (path : Path engine trace after) :
    Course after (events ++ trace.events) := by
  induction path with
  | refl =>
    rw [List.append_nil]
    exact course
  | next _ running step ih =>
    rw [Trace.events_append, ← List.append_assoc]
    exact step.course running ih
  | took _ ih =>
    rw [Trace.events_append, List.append_nil]
    exact ih.took

/-- A step that ends the connection, but for the caller's own close, tells of it. -/
theorem Step.concludes (running : engine.finished = false) (course : Course engine events)
    (step : Step engine trace after) (uncalled : .close ∉ trace.ended)
    (finished : after.finished = true) : Concluded (events ++ trace.events) := by
  have underway := course.underway running
  cases step with
  | introduced | listened | fed | waited =>
    exact absurd (running.symm.trans finished) (by decide)
  | met _ _ _ _ performs =>
    have still := (performs.carries (by simp)).finished.trans running
    exact absurd (still.symm.trans finished) (by decide)
  | wrote _ performs =>
    have still := (performs.carries sends_stay).finished.trans running
    exact absurd (still.symm.trans finished) (by decide)
  | handled _ _ stays performs =>
    have still := (performs.carries stays).finished.trans running
    exact absurd (still.symm.trans finished) (by decide)
  | parted => exact ⟨events, .closed, rfl, underway, rfl⟩
  | refused refusal =>
    rw [Trace.events_append, refusal.silent.events]
    exact ⟨events, .failed _, rfl, underway, rfl⟩
  | lost => exact ⟨events, .failed _, rfl, underway, rfl⟩
  | departed => exact absurd (.head _) uncalled

/-- A connection that ends, but for the caller's own close, tells of its end. -/
theorem Path.concludes (running : engine.finished = false) (course : Course engine events)
    (path : Path engine trace after) (uncalled : .close ∉ trace.ended)
    (finished : after.finished = true) : Concluded (events ++ trace.events) := by
  induction path with
  | refl => exact absurd (running.symm.trans finished) (by decide)
  | next earlier still step _ =>
    rw [Trace.events_append, ← List.append_assoc]
    exact step.concludes still (earlier.course course)
      (fun called => uncalled (List.mem_append_right _ called)) finished
  | took _ ih =>
    rw [Trace.events_append, List.append_nil]
    exact ih (fun called => uncalled (List.mem_append_left _ called)) finished

end Course

section Ended

/-- An engine that has ended has ended for good. -/
theorem ended_of_finished (ended : engine.finished = true) : engine.Ended where
  start := if_pos (by simp [ended])
  receive _ data := receive_finished data ended
  transportClosed _ := if_pos ended
  write _ _ := if_pos ended
  close _ := if_pos ended
  forever calls := by
    induction calls generalizing engine with
    | nil => exact ⟨rfl, rfl, ended⟩
    | cons call rest ih =>
      obtain ⟨supply, action⟩ := call
      obtain ⟨silent, queued, still⟩ :=
        @ih { engine with queue := if action = .takeOutgoing then [] else engine.queue } ended
      have made : run ((supply, action) :: rest) engine =
          ⟨(engine.call supply action).1 ++ (run rest (engine.call supply action).2).events,
            action.taken engine ++ (run rest (engine.call supply action).2).taken,
            (run rest (engine.call supply action).2).engine⟩ := rfl
      rw [call_finished action ended] at made
      rw [made]
      refine ⟨silent, ?_, still⟩
      rw [Run.output] at queued ⊢
      rw [List.append_assoc, queued]
      cases action with
      | takeOutgoing => exact List.append_nil _
      | start | receive | write | close | transportClosed => rfl

theorem close_finished (supply : Supply) (engine : Engine) :
    (engine.call supply .close).2.finished = true := by
  rcases Bool.eq_false_or_eq_true engine.finished with ended | running
  · rw [call_finished _ ended]
    exact ended
  · simp only [call, left, close, if_neg (show ¬ engine.finished = true by simp [running])]
    cases sendAll supply engine.handshake.close.1
      { engine with handshake := engine.handshake.close.2 } <;> rfl

theorem finished_of_close {calls : List (Supply × Call)} (closed : .close ∈ calls.map (·.2)) :
    (run calls engine).engine.finished = true := by
  induction calls generalizing engine with
  | nil => cases closed
  | cons call rest ih =>
    obtain ⟨supply, action⟩ := call
    rw [List.map_cons, List.mem_cons] at closed
    rcases closed with rfl | later
    · exact run_finished rest (close_finished supply engine)
    · exact ih later

/-- A write that fails was refused by the handshake, or has ended the connection. -/
theorem write_error {data : Bytes} {error : Error} {failed : Engine}
    (refused : write supply data engine = .error error failed) :
    (failed = engine ∧ engine.handshake.write data = .error error) ∨ failed.finished = true := by
  unfold write at refused
  split at refused
  · rename_i ended
    cases refused
    exact .inr ended
  · split at refused
    · cases refused
      exact .inl ⟨rfl, by assumption⟩
    · split at refused
      · cases refused
      · cases refused
        exact .inr rfl

theorem Course.finished (course : Course engine events) (ending : events.any Event.isEnd = true) :
    engine.finished = true := by
  rcases Bool.eq_false_or_eq_true engine.finished with ended | running
  · exact ended
  cases course.underway running with
  | silent => cases ending
  | established data =>
    simp [Event.isEnd] at ending

end Ended

/-- Whatever a caller does, what it hears is in order. An engine that has told of its
end, that the caller has closed, or on which a write has failed while it was sent, has
ended, and stays so. -/
theorem run_orderly {entropy : Entropy} {config : Config} {engine : Engine}
    (created : Engine.create entropy config = .ok engine) (calls : List (Supply × Call)) :
    Orderly (run calls engine).events ∧
      ((run calls engine).events.any Event.isEnd = true ∨ .close ∈ calls.map (·.2) →
        (run calls engine).engine.finished = true) ∧
      (∀ supply data error failed,
        write supply data (run calls engine).engine = .error error failed →
        (failed = (run calls engine).engine ∧
          (run calls engine).engine.handshake.write data = .error error) ∨ failed.Ended) ∧
      ((run calls engine).engine.finished = true → (run calls engine).engine.Ended) := by
  obtain ⟨_, _, _, _, _, _, ⟨told, queued, path⟩, _⟩ :=
    run_unfolds calls (create_sound created) (create_drained created)
  have course : Course (run calls engine).engine (run calls engine).events :=
    path.course (create_course created)
  refine ⟨course.orderly, ?_, ?_, ended_of_finished⟩
  · rintro (ending | closed)
    · exact course.finished ending
    · exact finished_of_close closed
  · intro supply data error failed refused
    rcases write_error refused with unchanged | ended
    · exact .inl unchanged
    · exact .inr (ended_of_finished ended)

/-- A client that the small server has led to a session, and that is closed then. -/
theorem run_orderly_closed :
    let leave : List (Supply × Call) := [(Handshake.zeros, .close)]
    ∃ calls : List (Supply × Call),
      Engine.create Handshake.zeros Handshake.smallClient = .ok smallEngine ∧
      (run calls smallEngine).engine.isEstablished = true ∧
      (run calls smallEngine).events = [.established] ∧
      Orderly (run (calls ++ leave) smallEngine).events ∧
      (run (calls ++ leave) smallEngine).engine.Ended := by
  intro leave
  obtain ⟨wires, events, -, established, -⟩ := small_established
  let calls := receives Handshake.zeros wires
  obtain ⟨orderly, finished, -, ended⟩ := run_orderly small_created (calls ++ leave)
  have closed : .close ∈ (calls ++ leave).map (·.2) := by simp [leave]
  exact ⟨calls, small_created, established, events, orderly, ended (finished (.inr closed))⟩

end SecureShell.Engine
