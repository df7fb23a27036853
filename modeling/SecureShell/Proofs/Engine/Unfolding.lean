import SecureShell.Proofs.Engine.Settling
import SecureShell.Proofs.Engine.Steps
import SecureShell.Proofs.Pipeline.Opening

/-! Calls as steps. Every call of an engine that can carry out what it is asked to is a
sequence of steps, and so is every run; nothing that has wholly arrived is left to be
handled at the end. -/
namespace SecureShell.Engine

variable {supply : Supply} {engine between after : Engine} {trace more : Trace}

section Computation

theorem transition_ok (engine : Engine) {run : Handshake.Transition} {actions : List Action}
    {handshake : Handshake} {wires : List Bytes}
    (moved : run engine.handshake = .ok actions handshake)
    (performs : Performs supply actions { engine with handshake } wires after) :
    transition supply run engine = .ok (actions.flatMap Action.events) after := by
  simp only [transition, focus, bind_apply, moved]
  exact performs.performAll

section Library

variable {σ : Type} [Deflation σ] {engine : Engine σ}

theorem transition_error {run : Handshake.Transition} {error : Error} {handshake : Handshake}
    (failed : run engine.handshake = .error error handshake) :
    transition supply run engine = .error error { engine with handshake } := by
  simp only [transition, focus, bind_apply, failed]

theorem handleNext_waits {inbound : Inbound}
    (waits : Inbound.next engine.inbound = .ok none inbound) :
    handleNext supply engine = .ok none { engine with inbound } := by
  simp only [handleNext, focus, bind_apply, waits, pure_apply]

theorem handleNext_error {error : Error} {inbound : Inbound}
    (refused : Inbound.next engine.inbound = .error error inbound) :
    handleNext supply engine = .error error { engine with inbound } := by
  simp only [handleNext, focus, bind_apply, refused]

theorem handleNext_some (supply : Supply) {payload : Bytes} {inbound : Inbound}
    (taken : Inbound.next engine.inbound = .ok (some payload) inbound) :
    handleNext supply engine =
      match transition supply (Handshake.onPacket (supply.source engine.drawn) payload)
        { engine with inbound, drawn := engine.drawn + 1 } with
      | .ok events after => .ok (some events) after
      | .error error failed => .error error failed := by
  simp only [handleNext, focus, bind_apply, taken, draw]
  cases transition supply (Handshake.onPacket (supply.source engine.drawn) payload)
    { engine with inbound, drawn := engine.drawn + 1 } <;> rfl

end Library

theorem close_ok {wires : List Bytes} (running : engine.finished = false)
    (performs : Performs supply (engine.handshake.close.1.map .send)
      { engine with handshake := engine.handshake.close.2 } wires after) :
    close supply engine = .ok () after.teardown := by
  unfold close
  rw [if_neg (by simp [running])]
  simp only [performs.sendAll]

theorem close_eq {wires : List Bytes} (running : engine.finished = false)
    (performs : Performs supply (engine.handshake.close.1.map .send)
      { engine with handshake := engine.handshake.close.2 } wires after) :
    left (close supply) engine = after.teardown := by
  rw [left, close_ok running performs]

/-- A connection that fails ends with its last words. -/
theorem fail_eq {error : Error} {wires : List Bytes}
    (performs : Performs supply ((engine.lastWords error).map .send) engine wires after) :
    engine.fail supply error = ([.failed error], after.teardown) := by
  unfold lastWords at performs
  unfold fail
  split at performs
  · rename_i owed
    cases performs with
    | send sent performs =>
      cases performs
      simp only [if_pos owed, sendPayload_ok sent]
  · rename_i unowed
    cases performs
    simp only [if_neg unowed]

end Computation

section Calls

/-- Nothing is left to be handled. -/
def Drained (engine : Engine) : Prop :=
  engine.finished = false → Inbound.next engine.inbound = .ok none engine.inbound

theorem teardown_drained (engine : Engine) : engine.teardown.Drained := nofun

/-- There are steps from one engine to another that take these bytes, hand these lines
and packets to the transport, bring about these events, and end with these calls. -/
def Unfolds (engine : Engine) (received : Bytes) (taken : List Bytes) (events : List Event)
    (ended : List Call) (after : Engine) : Prop :=
  ∃ told queued, Path engine ⟨told, received, queued, taken, events, ended⟩ after

theorem Unfolds.refl : Unfolds engine [] [] [] [] engine := ⟨[], [], .refl⟩

theorem Unfolds.trans {data later : Bytes} {taken further : List Bytes} {events behind : List Event}
    {ended final : List Call} (first : Unfolds engine data taken events ended between)
    (second : Unfolds between later further behind final after) :
    Unfolds engine (data ++ later) (taken ++ further) (events ++ behind) (ended ++ final)
      after := by
  obtain ⟨told, queued, path⟩ := first
  obtain ⟨more, next, further⟩ := second
  exact ⟨told ++ more, queued ++ next, path.trans further⟩

theorem Unfolds.step (running : engine.finished = false) (step : Step engine trace after) :
    Unfolds engine trace.received trace.taken trace.events trace.ended after :=
  ⟨trace.told, trace.queued, step.path running⟩

theorem Unfolds.sound {data : Bytes} {taken : List Bytes} {events : List Event}
    {ended : List Call} (unfolds : Unfolds engine data taken events ended after)
    (sound : engine.Sound) : after.Sound := by
  obtain ⟨told, queued, path⟩ := unfolds
  exact path.sound sound

/-- Steps that come of what the server has sent; the caller neither writes, closes nor
takes anything. -/
def Answers (engine : Engine) (received : Bytes) (events : List Event) (after : Engine) : Prop :=
  ∃ told queued, Path engine ⟨told, received, queued, [], events, []⟩ after ∧
    ∀ data, .write data ∉ told

theorem Answers.unfolds {data : Bytes} {events : List Event}
    (answers : Answers engine data events after) : Unfolds engine data [] events [] after := by
  obtain ⟨told, queued, path, -⟩ := answers
  exact ⟨told, queued, path⟩

theorem Answers.sound {data : Bytes} {events : List Event}
    (answers : Answers engine data events after) (sound : engine.Sound) : after.Sound :=
  answers.unfolds.sound sound

theorem Answers.refl : Answers engine [] [] engine := ⟨[], [], .refl, nofun⟩

theorem Answers.trans {data later : Bytes} {events behind : List Event}
    (first : Answers engine data events between) (second : Answers between later behind after) :
    Answers engine (data ++ later) (events ++ behind) after := by
  obtain ⟨told, queued, path, silent⟩ := first
  obtain ⟨more, next, further, still⟩ := second
  refine ⟨told ++ more, queued ++ next, path.trans further, fun data member => ?_⟩
  exact (List.mem_append.1 member).elim (silent data) (still data)

theorem Answers.step {told : List Handshake.Call} {data : Bytes} {queued : List Bytes}
    {events : List Event} (running : engine.finished = false)
    (step : Step engine ⟨told, data, queued, [], events, []⟩ after)
    (silent : ∀ data, .write data ∉ told) : Answers engine data events after :=
  ⟨told, queued, step.path running, silent⟩

/-- A failure is a step, whatever has failed. -/
theorem refused_answers {error : Error} {failed : Engine} (sound : engine.Sound)
    (running : engine.finished = false) (refusal : Refusal supply engine error trace failed) :
    Answers engine trace.received (failed.fail supply error).1 (failed.fail supply error).2 := by
  have ready : failed.outbound.Ready := by cases refusal <;> exact sound.ready
  obtain ⟨wires, after, performs⟩ := performs_sends supply failed ready (failed.lastWords error)
  rw [fail_eq performs]
  have path := Step.path running (.refused refusal performs)
  have answers : Answers engine (trace.received ++ []) [.failed error] after.teardown := by
    cases refusal with
    | line | packet | message => exact ⟨_, _, path, by simp⟩
  rwa [List.append_nil] at answers

/-- What a packet that is accepted asks for can be carried out. -/
theorem handled_performs {payload : Bytes} {inbound : Inbound} {actions : List Action}
    {handshake : Handshake} (sound : engine.Sound)
    (taken : Inbound.next engine.inbound = .ok (some payload) inbound)
    (accepted : Handshake.onPacket (supply.source engine.drawn) payload engine.handshake =
      .ok actions handshake) :
    ∃ wires after,
      Performs supply actions { engine with inbound, handshake, drawn := engine.drawn + 1 } wires
        after ∧
      handleNext supply engine = .ok (some (actions.flatMap Action.events)) after := by
  have reaction := Handshake.reaction_of_onPacket accepted
  obtain ⟨packet, opener, opened, -, rest⟩ := Inbound.next_some taken
  have free : inbound.opener.head = none := by
    rw [rest]
    exact Opener.next_free opened
  obtain ⟨wires, after, performs⟩ := performs_of_ready supply
    { engine with inbound, handshake, drawn := engine.drawn + 1 } sound.ready
    (sized_of_reaction reaction) fun _ _ => free
  have handling := handleNext_some supply taken
  rw [transition_ok _ (by exact accepted) performs] at handling
  exact ⟨wires, after, performs, handling⟩

/-- A packet that is accepted is a step. -/
theorem handled_answers {payload : Bytes} {inbound : Inbound} {actions : List Action}
    {handshake : Handshake} (sound : engine.Sound) (running : engine.finished = false)
    (taken : Inbound.next engine.inbound = .ok (some payload) inbound)
    (accepted : Handshake.onPacket (supply.source engine.drawn) payload engine.handshake =
      .ok actions handshake) :
    ∃ after, handleNext supply engine = .ok (some (actions.flatMap Action.events)) after ∧
      Answers engine [] (actions.flatMap Action.events) after := by
  obtain ⟨wires, after, performs, handling⟩ := handled_performs sound taken accepted
  refine ⟨after, handling, ?_⟩
  rcases (Handshake.reaction_of_onPacket accepted).ends with stays | ⟨phase, replies, rfl⟩
  · exact .step running (.handled taken accepted stays performs) (by simp)
  · obtain ⟨between, front, back, sending, closing, rfl⟩ := performs.append_inv
    cases closing with
    | closed closing =>
      cases closing
      rw [List.flatMap_append, sends_events]
      exact .step running (.parted taken phase accepted sending) (by simp)

/-- Draining an engine is a sequence of steps. -/
theorem drain_answers (supply : Supply) (sound : engine.Sound) :
    Answers engine [] (engine.drain supply).1 (engine.drain supply).2 ∧
      Drained (engine.drain supply).2 := by
  -- every payload that is handled shortens the backlog
  induction size : engine.backlog using Nat.strongRecOn generalizing engine with
  | _ n ih =>
    rcases Bool.eq_false_or_eq_true engine.finished with ended | running
    · rw [drain_finished ended]
      refine ⟨.refl, fun unfinished => ?_⟩
      rw [ended] at unfinished
      cases unfinished
    cases taken : Inbound.next engine.inbound with
    | error error inbound =>
      rw [drain_error running (handleNext_error taken)]
      exact ⟨refused_answers sound running (.packet taken), nofun⟩
    | ok found inbound =>
      cases found with
      | none =>
        rw [drain_none running (handleNext_waits taken)]
        exact ⟨.step running (.waited taken) nofun, fun _ => Inbound.next_again taken⟩
      | some payload =>
        have handling := handleNext_some supply taken
        cases treated : Handshake.onPacket (supply.source engine.drawn) payload
          engine.handshake with
        | error error handshake =>
          rw [transition_error (by exact treated)] at handling
          rw [drain_error running handling]
          exact ⟨refused_answers sound running (.message taken treated), nofun⟩
        | ok actions handshake =>
          obtain ⟨after, handled, answers⟩ := handled_answers sound running taken treated
          obtain ⟨later, drained⟩ :=
            ih after.backlog (size ▸ backlog_handleNext handled) (answers.sound sound) rfl
          rw [drain_some running handled]
          exact ⟨answers.trans later, drained⟩

/-- The bytes of the server that an engine looks at. -/
def heard (action : Call) (engine : Engine) : Bytes :=
  if engine.finished then [] else action.received

theorem start_answers (engine : Engine) : Answers engine [] [] engine.start := by
  unfold start
  split
  · exact .refl
  · rename_i idle
    rw [Bool.or_eq_true, not_or, Bool.not_eq_true, Bool.not_eq_true] at idle
    exact .step idle.2 (.introduced idle.1) nofun

theorem start_drained (drained : engine.Drained) : engine.start.Drained := by
  unfold start
  split <;> exact drained

/-- Bytes up to the first packet are taken in a step, or refused. -/
theorem accept_cases (supply : Supply) (data : Bytes) (sound : engine.Sound)
    (running : engine.finished = false) (started : engine.started = true) :
    (∃ events begun, accept supply data engine = .ok events begun ∧
        Answers engine data events begun ∧
        (begun.handshake = engine.handshake ∨ begun.handshake.phase = .kexInit)) ∨
      ∃ error failed, accept supply data engine = .error error failed ∧
        Refusal supply engine error { received := data } failed := by
  cases known : engine.header with
  | none => exact .inl ⟨_, _, accept_settled known, .step running (.fed data known) nofun, .inl rfl⟩
  | some reader =>
    have accepting : accept supply data engine = _ := accept_line known
    cases read : LineReader.feed data reader with
    | error error failed =>
      rw [read] at accepting
      exact .inr ⟨_, _, accepting, .line known read⟩
    | ok found stopped =>
      rw [read] at accepting
      cases found with
      | none =>
        exact .inl ⟨_, _, accepting, .step running (.listened known read) nofun, .inl rfl⟩
      | some found =>
        obtain ⟨version, rest⟩ := found
        have phase : engine.handshake.phase = .headerExchange :=
          (sound.introduced running).2 (by rw [known]; rfl)
        obtain ⟨wires, after, performs⟩ := performs_sends supply
          { engine with
            header := none
            handshake := { engine.handshake with
              serverVersion := some version, phase := .kexInit } }
          sound.ready [engine.handshake.clientProposal]
        have introduced : transition supply (Handshake.onVersion version)
            { engine with header := none } = .ok [] after :=
          transition_ok { engine with header := none } (onVersion_ok phase) performs
        simp only [introduced] at accepting
        have met := Answers.step running (.met known read phase started performs) (by simp)
        have kept := (performs.carries (by simp)).handshake
        exact .inl ⟨_, _, accepting, met, .inr (congrArg Handshake.phase kept)⟩

/-- Receiving is a sequence of steps. -/
theorem receive_answers (supply : Supply) (data : Bytes) (sound : engine.Sound)
    (running : engine.finished = false) :
    Answers engine data (engine.receive supply data).1 (engine.receive supply data).2 ∧
      Drained (engine.receive supply data).2 := by
  have begun := start_answers engine
  have ready := begun.sound sound
  have running' : engine.start.finished = false := (start_finished engine).trans running
  rcases accept_cases supply data ready running' (start_started running) with
    ⟨events, between, accepted, answers, -⟩ | ⟨error, failed, refused, refusal⟩
  · obtain ⟨drained, done⟩ := drain_answers supply (answers.sound ready)
    rw [receive_ok running accepted]
    refine ⟨?_, done⟩
    simpa only [List.nil_append, List.append_nil] using begun.trans (answers.trans drained)
  · rw [receive_error running refused]
    exact ⟨begun.trans (refused_answers ready running' refusal), nofun⟩

/-- A call to an engine that has ended does nothing but take what waits for the transport. -/
theorem call_finished {σ : Type} [Deflation σ] {engine : Engine σ} (action : Call)
    (ended : engine.finished = true) :
    engine.call supply action =
      ([], { engine with queue := if action = .takeOutgoing then [] else engine.queue }) := by
  cases action with
  | start =>
    have same : engine.start = engine := if_pos (by simp [ended])
    exact congrArg (Prod.mk []) same
  | receive data => exact receive_finished data ended
  | write data =>
    have same : left (write supply data) engine = engine := by rw [left, write, if_pos ended]
    exact congrArg (Prod.mk []) same
  | close =>
    have same : left (close supply) engine = engine := by rw [left, close, if_pos ended]
    exact congrArg (Prod.mk []) same
  | transportClosed cause =>
    have same : engine.transportClosed cause = ([], engine) := if_pos ended
    exact same
  | takeOutgoing => rfl

theorem run_finished {σ : Type} [Deflation σ] {engine : Engine σ} (calls : List (Supply × Call))
    (ended : engine.finished = true) : (run calls engine).engine.finished = true := by
  induction calls generalizing engine with
  | nil => exact ended
  | cons call rest ih =>
    obtain ⟨supply, action⟩ := call
    have still : (engine.call supply action).2.finished = true := by
      rw [call_finished action ended]
      exact ended
    exact ih still

/-- Every call is a sequence of steps. -/
theorem call_unfolds (supply : Supply) (action : Call) (sound : engine.Sound)
    (drained : engine.Drained) :
    ∃ ended, ended ⊆ [action] ∧
      Unfolds engine (engine.heard action) (action.taken engine) (engine.call supply action).1 ended
        (engine.call supply action).2 ∧
      Drained (engine.call supply action).2 := by
  rcases Bool.eq_false_or_eq_true engine.finished with ended | running
  · have unheard : engine.heard action = [] := if_pos ended
    rw [unheard, call_finished action ended]
    refine ⟨[], List.nil_subset _, ?_, drained⟩
    cases action with
    | takeOutgoing => exact ⟨[], [], .took .refl⟩
    | start | receive | write | close | transportClosed => exact .refl
  have attentive : engine.heard action = action.received := if_neg (by simp [running])
  rw [attentive]
  cases action with
  | start =>
    exact ⟨[], List.nil_subset _, (start_answers engine).unfolds, start_drained drained⟩
  | receive data =>
    obtain ⟨answers, done⟩ := receive_answers supply data sound running
    exact ⟨[], List.nil_subset _, answers.unfolds, done⟩
  | write data =>
    cases written : engine.handshake.write data with
    | error error =>
      have same : left (write supply data) engine = engine := by
        simp only [left, write, running, written, Bool.false_eq_true, if_false]
      rw [call, same]
      exact ⟨[], List.nil_subset _, .refl, drained⟩
    | ok messages =>
      obtain ⟨wires, after, performs⟩ := performs_sends supply engine sound.ready messages
      have moved : left (write supply data) engine = after := by
        simp only [left, write, running, written, performs.sendAll, Bool.false_eq_true, if_false]
      rw [call, moved]
      refine ⟨[], List.nil_subset _, Unfolds.step running (.wrote written performs), ?_⟩
      intro _
      rw [performs.inbound]
      exact drained running
  | close =>
    obtain ⟨wires, after, performs⟩ := performs_sends supply
      { engine with handshake := engine.handshake.close.2 } sound.ready
      engine.handshake.close.1
    rw [call, close_eq running performs]
    exact ⟨[.close], List.Subset.refl _, Unfolds.step running (.departed performs),
      teardown_drained _⟩
  | transportClosed cause =>
    rw [call, transportClosed, if_neg (by simp [running])]
    exact ⟨[.transportClosed cause], List.Subset.refl _, Unfolds.step running (.lost cause _),
      teardown_drained _⟩
  | takeOutgoing => exact ⟨[], List.nil_subset _, ⟨[], [], .took .refl⟩, drained⟩

theorem create_drained {entropy : Entropy} {config : Config}
    (created : Engine.create entropy config = .ok engine) : engine.Drained := by
  obtain rfl := create_eq created
  exact fun _ => rfl

/-- Every run is a sequence of steps. An engine that has not ended has looked at all
bytes of the server. -/
theorem run_unfolds (calls : List (Supply × Call)) (sound : engine.Sound)
    (drained : engine.Drained) :
    ∃ data ignored ended, received calls = data ++ ignored ∧
      ((run calls engine).engine.finished = false → ignored = []) ∧ ended ⊆ calls.map (·.2) ∧
      Unfolds engine data (run calls engine).taken (run calls engine).events ended
        (run calls engine).engine ∧
      Drained (run calls engine).engine := by
  induction calls generalizing engine with
  | nil => exact ⟨[], [], [], rfl, fun _ => rfl, List.nil_subset _, .refl, drained⟩
  | cons call rest ih =>
    obtain ⟨supply, action⟩ := call
    obtain ⟨first, listed, unfolds, between⟩ := call_unfolds supply action sound drained
    obtain ⟨data, ignored, ended, all, looked, within, further, done⟩ :=
      ih (unfolds.sound sound) between
    have together := unfolds.trans further
    have known : first ++ ended ⊆ action :: rest.map (·.2) := by
      refine List.append_subset.2 ⟨List.Subset.trans listed ?_, List.Subset.trans within ?_⟩
      · exact List.cons_subset_cons _ (List.nil_subset _)
      · exact List.subset_cons_self ..
    rcases Bool.eq_false_or_eq_true engine.finished with gone | running
    · -- nothing has been looked at, and nothing will be
      have unheard : engine.heard action = [] := if_pos gone
      obtain ⟨told, queued, path⟩ := unfolds
      have gone' := (path.finished gone).2.2.2
      obtain ⟨told', queued', path'⟩ := further
      obtain ⟨unread, -, -, gone''⟩ := path'.finished gone'
      obtain rfl : data = [] := unread
      refine ⟨[], received ((supply, action) :: rest), first ++ ended, rfl, ?_, known, ?_, done⟩
      · intro running
        exact absurd (gone''.symm.trans running) (by decide)
      · rw [unheard] at together
        exact together
    · have heard : engine.heard action = action.received := if_neg (by simp [running])
      refine ⟨action.received ++ data, ignored, first ++ ended, ?_, looked, known, ?_, done⟩
      · rw [received, List.flatMap_cons, ← received, all, List.append_assoc]
      · rw [heard] at together
        exact together

end Calls

end SecureShell.Engine
