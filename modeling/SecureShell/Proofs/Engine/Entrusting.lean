import SecureShell.Proofs.Engine.Switching

/-! Engines that differ in what they have been entrusted with. Calls have the same outcome
for both until a packet of the server makes one put its outbound keys to use; then it makes
the other do so too, with the same keys. -/
namespace SecureShell.Engine

def entrust (secrets : Secrets) (engine : Engine) : Engine :=
  { engine with handshake := engine.handshake.entrust secrets }

variable {secrets : Secrets} {supply : Supply} {engine after : Engine} {data : Bytes}

theorem entrust_unnoticed : Unnoticed (entrust secrets) where
  outbound _ := rfl
  drawn _ := rfl
  putOutbound _ _ := rfl
  putDrawn _ _ := rfl
  enqueue _ _ := rfl
  armInbound _ _ := rfl
  compressInbound _ := rfl
  teardown _ := rfl

section Mirroring

theorem transition_mirrors {run : Handshake.Transition}
    (mirrors : Mirrors (Handshake.entrust secrets) engine.handshake run run) :
    Mirrors (entrust secrets) engine (transition supply run) (transition supply run) :=
  .bind (.focus rfl (fun _ => rfl) mirrors) fun actions t _ =>
    (entrust_unnoticed.performAll actions).mirrors t

theorem handleNext_mirrors (plain : engine.handshake.phase.confidential = false) :
    Mirrors (entrust secrets) engine (handleNext supply) (handleNext supply) := by
  have opening : Overlooks (entrust secrets)
      (focus Engine.inbound (fun inbound engine => { engine with inbound }) Inbound.next) :=
    .focus (fun _ => rfl) fun _ _ => rfl
  apply Mirrors.bind (opening.mirrors engine)
  intro found opened taken
  obtain ⟨inbound, -, rfl⟩ := focus_eq_ok_iff.1 taken
  cases found with
  | none => exact .pure none
  | some payload =>
    apply Mirrors.bind (entrust_unnoticed.draw.mirrors _)
    intro entropy between drawn
    cases drawn
    refine .bind (transition_mirrors (Handshake.onPacket_mirrors _ plain)) ?_
    intro events after _
    exact .pure (some events)

theorem accept_overlooks : Overlooks (entrust secrets) (accept supply data) := by
  apply Overlooks.get
  intro engine
  have same : (engine.entrust secrets).header = engine.header := rfl
  rw [same]
  cases engine.header with
  | none => exact Overlooks.before (.modify fun _ => rfl) fun _ _ => .pure []
  | some reader =>
    have reading : Overlooks (entrust secrets) (readHeader reader data) := by
      intro engine
      simp only [readHeader]
      rcases LineReader.feed data reader with ⟨_ | found, stopped⟩ | ⟨error, failed⟩ <;> rfl
    apply reading.before
    intro found between
    cases found with
    | none => exact .pure []
    | some found =>
      refine .bind (transition_mirrors (Handshake.overlooks_onVersion found.1 _)) ?_
      intro events after _
      exact Overlooks.before (.modify fun _ => rfl) fun _ _ => .pure events

theorem left_overlooks {f : Engine → Engine} {run : EStateM Error Engine Unit}
    (overlooks : Overlooks f run) (engine : Engine) :
    left run (f engine) = f (left run engine) := by
  have same := overlooks engine
  unfold left
  cases ran : run engine with
  | ok _ after =>
    rw [ran] at same
    rw [same, mapState]
  | error error after =>
    rw [ran] at same
    rw [same, mapState]

theorem fail_entrust (supply : Supply) (error : Error) (engine : Engine) :
    (engine.entrust secrets).fail supply error =
      (engine.fail supply error).map id (entrust secrets) := by
  have owed : (engine.entrust secrets).owesDisconnect error = engine.owesDisconnect error := rfl
  have sent : sendPayload supply (disconnectFor error).toBytes (engine.entrust secrets) = _ :=
    entrust_unnoticed.sendPayload _ engine
  simp only [fail, owed]
  split
  · rw [sent]
    cases sendPayload supply (disconnectFor error).toBytes engine <;> rfl
  · rfl

theorem start_entrust (engine : Engine) :
    (engine.entrust secrets).start = engine.start.entrust secrets := by
  have same : ((engine.entrust secrets).started || (engine.entrust secrets).finished) =
    (engine.started || engine.finished) := rfl
  rw [start, start, same]
  split <;> rfl

theorem write_overlooks : Overlooks (entrust secrets) (write supply data) := by
  intro engine
  have ended : (engine.entrust secrets).finished = engine.finished := rfl
  have written : (engine.entrust secrets).handshake.write data = engine.handshake.write data := rfl
  simp only [write, ended, written]
  split
  · rfl
  · cases engine.handshake.write data with
    | error error => rfl
    | ok messages =>
      have sent : sendAll supply messages (engine.entrust secrets) = _ :=
        entrust_unnoticed.sendAll messages engine
      simp only [sent]
      cases sendAll supply messages engine <;> rfl

theorem close_overlooks : Overlooks (entrust secrets) (close supply) := by
  intro engine
  have same : (engine.entrust secrets).finished = engine.finished := rfl
  have closed : (engine.entrust secrets).handshake.close = _ := engine.handshake.close_entrust
  rcases Bool.eq_false_or_eq_true engine.finished with ended | running
  · rw [close, close, if_pos (same.trans ended), if_pos ended, mapState]
  have sent : sendAll supply engine.handshake.close.1
      { engine.entrust secrets with
        handshake := engine.handshake.close.2.entrust secrets } = _ :=
    entrust_unnoticed.sendAll engine.handshake.close.1
      { engine with handshake := engine.handshake.close.2 }
  rw [close, close, if_neg (by simp [same, running]), if_neg (by simp [running]), closed]
  simp only [sent]
  cases sendAll supply engine.handshake.close.1
    { engine with handshake := engine.handshake.close.2 } <;> rfl

end Mirroring

section Switching

variable {between : Engine} {payload : Bytes} {inbound : Inbound} {events : List Event}
  {keys : DirectionKeys}

theorem Arms.entrust (arms : Arms supply engine payload keys) :
    Arms supply (engine.entrust secrets) payload keys := by
  have plain : engine.handshake.phase.confidential = false := by
    rw [arms.phase, Phase.confidential]
  obtain ⟨running, inbound, actions, handshake, taken, accepted, asks⟩ := arms
  have accepted' : Handshake.onPacket (supply.source engine.drawn) payload
      (engine.handshake.entrust secrets) = _ := Handshake.onPacket_mirrors _ plain
  rw [accepted] at accepted'
  exact ⟨running, inbound, actions, _, taken, accepted', asks⟩

/-- What is next for an engine whose keys are not in use. -/
inductive Upcoming (supply : Supply) (engine : Engine) : Prop where
  | waits {stopped : Engine} : handleNext supply engine = .ok none stopped →
      stopped.handshake = engine.handshake → Upcoming supply engine
  | fails {error : Error} {failed : Engine} : handleNext supply engine = .error error failed →
      Upcoming supply engine
  /-- The answer is sent in the clear. -/
  | answers {after : Engine} {payload : Bytes} {inbound : Inbound} :
      Inbound.next engine.inbound = .ok (some payload) inbound →
      handleNext supply engine = .ok (some []) after → after.Sound →
      after.handshake.phase.confidential = false → Upcoming supply engine
  | keys (payload : Bytes) (keys : DirectionKeys) : Arms supply engine payload keys →
      Upcoming supply engine

theorem upcoming (supply : Supply) (sound : engine.Sound) (running : engine.finished = false)
    (plain : engine.handshake.phase.confidential = false) : Upcoming supply engine := by
  cases taken : Inbound.next engine.inbound with
  | error error inbound => exact .fails (handleNext_error taken)
  | ok found inbound =>
    cases found with
    | none => exact .waits (handleNext_waits taken) rfl
    | some payload =>
      have handling := handleNext_some supply taken
      cases treated : Handshake.onPacket (supply.source engine.drawn) payload
        engine.handshake with
      | error error handshake =>
        rw [transition_error (by exact treated)] at handling
        exact .fails handling
      | ok actions handshake =>
        have reaction := Handshake.reaction_of_onPacket treated
        rcases reaction.plain plain with ⟨later, payloads, rfl⟩ | ⟨-, -, opening, keys, rfl⟩
        · obtain ⟨wires, after, performs⟩ := performs_sends supply
            { engine with inbound, handshake, drawn := engine.drawn + 1 } sound.ready payloads
          rw [transition_ok _ (by exact treated) performs, sends_events] at handling
          have step : Step engine _ after := .handled taken treated sends_stay performs
          refine .answers taken handling (step.sound sound) ?_
          rw [(performs.carries sends_stay).handshake, later]
        · exact .keys payload keys
            ⟨running, inbound, _, handshake, taken, treated, .tail _ (.head _)⟩

/-- What drains alike whatever the secrets are. -/
structure DrainsAlike (secrets : Secrets) (supply : Supply) (engine : Engine) : Prop where
  unkeyed : Unkeyed supply engine
  same : (engine.entrust secrets).drain supply = (engine.drain supply).map id (entrust secrets)
  plain : (engine.drain supply).2.handshake.phase.confidential = false

theorem drainsAlike_of_finished (sound : engine.Sound) (ended : engine.finished = true)
    (plain : engine.handshake.phase.confidential = false) :
    DrainsAlike secrets supply engine where
  unkeyed := by
    apply unkeyed_of_stop sound
    intro running
    rw [ended] at running
    cases running
  same := by
    rw [drain_finished ended, drain_finished (by exact ended)]
    rfl
  plain := by rw [drain_finished ended, plain]

theorem drainsAlike_of_waits {stopped : Engine} (sound : engine.Sound)
    (running : engine.finished = false) (plain : engine.handshake.phase.confidential = false)
    (waits : handleNext supply engine = .ok none stopped)
    (kept : stopped.handshake = engine.handshake) : DrainsAlike secrets supply engine := by
  have waits' : handleNext supply (engine.entrust secrets) = _ := handleNext_mirrors plain
  rw [waits] at waits'
  constructor
  · apply unkeyed_of_stop sound
    intro _ events between handled
    rw [waits] at handled
    cases handled
  · rw [drain_none running waits, drain_none (by exact running) waits']
    rfl
  · rw [drain_none running waits, kept, plain]

theorem drainsAlike_of_error {error : Error} {failed : Engine} (sound : engine.Sound)
    (running : engine.finished = false) (plain : engine.handshake.phase.confidential = false)
    (fails : handleNext supply engine = .error error failed) :
    DrainsAlike secrets supply engine := by
  have fails' : handleNext supply (engine.entrust secrets) = _ := handleNext_mirrors plain
  rw [fails] at fails'
  constructor
  · apply unkeyed_of_stop sound
    intro _ events between handled
    rw [fails] at handled
    cases handled
  · rw [drain_error running fails, drain_error (by exact running) fails', fail_entrust]
  · rw [drain_error running fails]
    rfl

theorem DrainsAlike.next (alike : DrainsAlike secrets supply between) (sound : engine.Sound)
    (running : engine.finished = false) (plain : engine.handshake.phase.confidential = false)
    (still : between.handshake.phase.confidential = false)
    (handled : handleNext supply engine = .ok (some events) between) :
    DrainsAlike secrets supply engine := by
  have handled' : handleNext supply (engine.entrust secrets) = _ := handleNext_mirrors plain
  rw [handled] at handled'
  constructor
  · exact alike.unkeyed.next sound still handled
  · rw [drain_some running handled, drain_some (by exact running) handled', alike.same]
    rfl
  · rw [drain_some running handled]
    exact alike.plain

/-- Payloads are handled alike to the end, or until keys are put to use. -/
theorem drain_entrust (secrets : Secrets) (supply : Supply) (sound : engine.Sound)
    (plain : engine.handshake.phase.confidential = false) :
    DrainsAlike secrets supply engine ∨
      ∃ payloads events last payload keys, Handles supply engine payloads events last ∧
        Handles supply (engine.entrust secrets) payloads events (last.entrust secrets) ∧
        Arms supply last payload keys := by
  -- every payload that is handled shortens the backlog
  induction size : engine.backlog using Nat.strongRecOn generalizing engine with
  | _ n ih =>
    rcases Bool.eq_false_or_eq_true engine.finished with ended | running
    · exact .inl (drainsAlike_of_finished sound ended plain)
    cases upcoming supply sound running plain with
    | waits waits kept => exact .inl (drainsAlike_of_waits sound running plain waits kept)
    | fails fails => exact .inl (drainsAlike_of_error sound running plain fails)
    | keys payload keys arms => exact .inr ⟨[], [], engine, payload, keys, .refl, .refl, arms⟩
    | @answers after first _ taken handled ready still =>
      have handled' : handleNext supply (engine.entrust secrets) = _ := handleNext_mirrors plain
      rw [handled] at handled'
      rcases ih after.backlog (size ▸ backlog_handleNext handled) ready still rfl with
        alike | ⟨payloads, events, last, payload, keys, handles, handles', arms⟩
      · exact .inl (alike.next sound running plain still handled)
      · exact .inr ⟨first :: payloads, [] ++ events, last, payload, keys,
          .next running taken handled handles, .next running taken handled' handles', arms⟩

section Calls

theorem refusal_overlooks {f : Engine → Engine} {run : EStateM Error Engine Unit}
    (overlooks : Overlooks f run) (engine : Engine) :
    refusal run (f engine) = refusal run engine := by
  have same := overlooks engine
  unfold refusal
  cases ran : run engine with
  | ok _ after =>
    rw [ran] at same
    rw [same, mapState]
  | error error after =>
    rw [ran] at same
    rw [same, mapState]

theorem refusal_entrust (action : Call) (engine : Engine) :
    action.refusal supply (engine.entrust secrets) = action.refusal supply engine := by
  cases action with
  | write data => exact refusal_overlooks write_overlooks engine
  | close => exact refusal_overlooks close_overlooks engine
  | start | receive | transportClosed | takeOutgoing => rfl

/-- A call that has the same outcome whatever the secrets are. -/
structure CallsAlike (secrets : Secrets) (supply : Supply) (action : Call) (engine : Engine) :
    Prop where
  unswitched : ∀ switch, ¬ Switches supply engine action switch
  same : (engine.entrust secrets).call supply action =
    (engine.call supply action).map id (entrust secrets)
  plain : (engine.call supply action).2.handshake.phase.confidential = false

theorem CallsAlike.reply {action : Call} (alike : CallsAlike secrets supply action engine) :
    reply supply action (engine.entrust secrets) = reply supply action engine := by
  rw [Engine.reply, Engine.reply, alike.same, refusal_entrust]
  cases action <;> rfl

/-- An engine that has ended does nothing more, whatever the secrets are. -/
theorem callsAlike_of_finished (action : Call) (ended : engine.finished = true)
    (plain : engine.handshake.phase.confidential = false) :
    CallsAlike secrets supply action engine where
  unswitched switch switches := by
    cases switches with
    | receive running =>
      rw [ended] at running
      cases running
  same := by
    rw [call_finished action ended, call_finished action (by exact ended)]
    rfl
  plain := by
    rw [call_finished action ended]
    exact plain

theorem accept_entrust (data : Bytes) (engine : Engine) :
    accept supply data (engine.entrust secrets).start =
      mapState (entrust secrets) (accept supply data engine.start) := by
  rw [start_entrust]
  exact accept_overlooks engine.start

/-- Bytes that are accepted, and payloads that are handled alike. -/
theorem DrainsAlike.receive {begun : Engine} (alike : DrainsAlike secrets supply begun)
    (running : engine.finished = false)
    (accepted : accept supply data engine.start = .ok events begun) :
    CallsAlike secrets supply (.receive data) engine := by
  have accepted' : accept supply data (engine.entrust secrets).start = _ :=
    accept_entrust data engine
  rw [accepted] at accepted'
  constructor
  · rintro switch ⟨-, found, handles, arms⟩
    rw [accepted] at found
    cases found
    exact alike.unkeyed _ _ _ _ _ handles arms
  · rw [call, call, receive_ok running accepted, receive_ok (by exact running) accepted', alike.same]
    rfl
  · rw [call, receive_ok running accepted]
    exact alike.plain

/-- Bytes that are refused. -/
theorem callsAlike_of_refused {error : Error} {failed : Engine}
    (running : engine.finished = false)
    (refused : accept supply data engine.start = .error error failed) :
    CallsAlike secrets supply (.receive data) engine := by
  have refused' : accept supply data (engine.entrust secrets).start = _ :=
    accept_entrust data engine
  rw [refused] at refused'
  constructor
  · rintro switch ⟨-, found, -⟩
    rw [refused] at found
    cases found
  · rw [call, call, receive_error running refused, receive_error (by exact running) refused',
      fail_entrust]
  · rw [call, receive_error running refused]
    rfl

theorem receive_entrust (secrets : Secrets) (supply : Supply) (data : Bytes) (sound : engine.Sound)
    (running : engine.finished = false) (plain : engine.handshake.phase.confidential = false) :
    CallsAlike secrets supply (.receive data) engine ∨
      ∃ switch, Switches supply engine (.receive data) switch ∧
        Switches supply (engine.entrust secrets) (.receive data) switch := by
  have ready := (start_answers engine).sound sound
  have running' : engine.start.finished = false := (start_finished engine).trans running
  have plain' : engine.start.handshake.phase.confidential = false := by
    unfold start
    split <;> exact plain
  rcases accept_cases supply data ready running' (start_started running) with
    ⟨events, begun, accepted, answers, begins⟩ | ⟨error, failed, refused, -⟩
  · have early : begun.handshake.phase.confidential = false := by
      rcases begins with same | phase
      · rw [same, plain']
      · rw [phase, Phase.confidential]
    rcases drain_entrust secrets supply (answers.sound ready) early with
      alike | ⟨handled, more, last, payload, keys, handles, handles', arms⟩
    · exact .inl (alike.receive running accepted)
    · have accepted' : accept supply data (engine.entrust secrets).start = _ :=
        accept_entrust data engine
      rw [accepted] at accepted'
      have switches' : Switches supply (engine.entrust secrets) (.receive data)
          ⟨handled, payload, events ++ more, (last.entrust secrets).queue.reverse, keys⟩ :=
        .receive running accepted' handles' arms.entrust
      exact .inr ⟨_, .receive running accepted handles arms, switches'⟩
  · exact .inl (callsAlike_of_refused running refused)

/-- A call has the same outcome whatever the secrets are, or it puts the same keys to use. -/
theorem call_entrust (secrets : Secrets) (supply : Supply) (action : Call) (sound : engine.Sound)
    (plain : engine.handshake.phase.confidential = false) :
    CallsAlike secrets supply action engine ∨
      ∃ switch, Switches supply engine action switch ∧
        Switches supply (engine.entrust secrets) action switch := by
  rcases Bool.eq_false_or_eq_true engine.finished with ended | running
  · exact .inl (callsAlike_of_finished action ended plain)
  cases action with
  | receive data => exact receive_entrust secrets supply data sound running plain
  | start =>
    refine .inl ⟨?_, ?_, ?_⟩
    · rintro switch ⟨⟩
    · rw [call, call, start_entrust]
      rfl
    · rw [call, start]
      split <;> exact plain
  | write data =>
    refine .inl ⟨?_, ?_, ?_⟩
    · rintro switch ⟨⟩
    · rw [call, call, left_overlooks write_overlooks]
      rfl
    · obtain ⟨error, refused⟩ := Handshake.write_plain data plain
      simp only [call, left, write, running, refused, Bool.false_eq_true, if_false, plain]
  | close =>
    refine .inl ⟨?_, ?_, ?_⟩
    · rintro switch ⟨⟩
    · rw [call, call, left_overlooks close_overlooks]
      rfl
    · obtain ⟨wires, after, performs⟩ := performs_sends supply
        { engine with handshake := engine.handshake.close.2 } sound.ready
        engine.handshake.close.1
      rw [call, close_eq running performs]
      rfl
  | transportClosed cause =>
    refine .inl ⟨?_, ?_, ?_⟩
    · rintro switch ⟨⟩
    · have running' : (engine.entrust secrets).finished = false := running
      rw [call, call, transportClosed, transportClosed, if_neg (by simp [running']),
        if_neg (by simp [running])]
      rfl
    · rw [call, transportClosed, if_neg (by simp [running])]
      rfl
  | takeOutgoing =>
    refine .inl ⟨?_, rfl, plain⟩
    rintro switch ⟨⟩

end Calls

end Switching

end SecureShell.Engine
