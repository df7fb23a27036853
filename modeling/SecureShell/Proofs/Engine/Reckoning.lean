import SecureShell.Proofs.Engine.Script
import SecureShell.Proofs.Engine.Switching
import SecureShell.Proofs.Handshake.Equipped

/-! A client never loses track of itself. Whatever it is told, and whatever the server
sends, what each step builds on is there, keys and packets fit, and every packet that was
opened holds one payload. So every error that comes up, in whatever call and whether the
caller hears of it or not, is about what the server has sent or the caller has done. -/
namespace SecureShell.Engine

open Handshake

/-- Bytes that an engine receives lead to an error, which leaves it as `failed`. -/
inductive Breaks (supply : Supply) (engine : Engine) (data : Bytes) (error : Error)
    (failed : Engine) : Prop where
  /-- The server's line is refused. -/
  | line : engine.finished = false → accept supply data engine.start = .error error failed →
      Breaks supply engine data error failed
  /-- So is a payload, behind others that were handled. -/
  | packet {events more : List Event} {payloads : List Bytes} {begun last : Engine} :
      engine.finished = false → accept supply data engine.start = .ok events begun →
      Handles supply begun payloads more last → last.finished = false →
      handleNext supply last = .error error failed →
      Breaks supply engine data error failed

/-- The errors that come up while a call is carried out. -/
inductive Raised (supply : Supply) (engine : Engine) : Call → Error → Prop where
  | broken {data : Bytes} {error : Error} {failed : Engine} :
      Breaks supply engine data error failed → Raised supply engine (.receive data) error
  /-- The server cannot be told of an error; nobody hears of this. -/
  | unsent {data : Bytes} {cause error : Error} {failed after : Engine} :
      Breaks supply engine data cause failed → failed.owesDisconnect cause = true →
      sendPayload supply (disconnectFor cause).toBytes failed = .error error after →
      Raised supply engine (.receive data) error
  | unwritten {data : Bytes} {error : Error} {after : Engine} :
      write supply data engine = .error error after → Raised supply engine (.write data) error
  | unclosed {error : Error} {after : Engine} :
      close supply engine = .error error after → Raised supply engine .close error
  | heard {action : Call} {error : Error} : .failed error ∈ (engine.call supply action).1 →
      Raised supply engine action error

variable {supply : Supply} {start engine between after failed : Engine} {trace : Trace}
  {config : Config} {error : Error} {actions : List Action} {wires : List Bytes}

section Intact

/-- What the packets to come will build on is there. -/
structure Intact (engine : Engine) : Prop where
  equipped : engine.handshake.Equipped
  steady : engine.inbound.Steady

theorem create_intact {entropy : Entropy} (created : Engine.create entropy config = .ok engine) :
    engine.Intact := by
  obtain rfl := create_eq created
  exact ⟨create_equipped entropy config, .create _ _⟩

/-- What an engine is asked for leaves its inbound side as steady. -/
theorem Performs.steady (performs : Performs supply actions engine wires after)
    (steady : engine.inbound.Steady) : after.inbound.Steady := by
  induction performs with
  | nil => exact steady
  | send _ _ ih | armOutbound _ _ ih | established _ ih | deliver _ ih => exact ih steady
  | armInbound armed _ ih => exact ih (steady.arm armed)
  | @compress _ inbound _ _ _ _ _ ih =>
    cases inbound with
    | true => exact ih steady.activate
    | false => exact ih steady
  | closed _ ih => exact ih (.create _ _)

/-- What one step preserves, unless it is the last one. -/
theorem Step.intact (intact : engine.Intact) (step : Step engine trace after)
    (running : after.finished = false) : after.Intact := by
  cases step with
  | introduced | listened => exact ⟨intact.equipped, intact.steady⟩
  | @met _ _ _ version _ _ _ _ _ _ _ _ performs =>
    refine ⟨?_, (performs.steady intact.steady).feed _⟩
    rw [(performs.carries (by simp)).handshake]
    exact onVersion_equipped version
  | fed data => exact ⟨intact.equipped, intact.steady.feed data⟩
  | waited waits => exact ⟨intact.equipped, intact.steady.next waits⟩
  | handled taken accepted stays performs =>
    refine ⟨?_, performs.steady (intact.steady.next taken)⟩
    rw [(performs.carries stays).handshake]
    exact (reaction_of_onPacket accepted).equipped intact.equipped
  | wrote _ performs =>
    refine ⟨?_, performs.steady intact.steady⟩
    rw [(performs.carries sends_stay).handshake]
    exact intact.equipped
  | parted | refused | departed | lost => cases running

theorem Path.intact (intact : start.Intact) (path : Path start trace after)
    (running : after.finished = false) : after.Intact := by
  induction path with
  | refl => exact intact
  | next _ going step ih => exact step.intact (ih going) running
  | took _ ih => exact ⟨(ih running).equipped, (ih running).steady⟩

end Intact

section Admitted

/-- What makes a client that never loses track of itself: it can do what it proposes, its
key can sign, and it judges host keys itself. -/
structure Capable (config : Config) : Prop where
  supported : Config.Supported config.preferences
  usable : Usable config.credential
  unjudged : ∀ judge, config.trust ≠ .judged judge

/-- Bytes and messages of the server are refused for what they are. -/
theorem Refusal.admits (capable : Capable config)
    (invariant : ConnectionInvariant config engine.handshake)
    (intact : engine.Intact) (refusal : Refusal supply engine error trace failed) :
    config.Admits error := by
  cases refusal with
  | line _ refused => exact (LineReader.feed_raises _ _ _ _ refused).admits config
  | packet refused =>
    rcases intact.steady.next_raises _ _ refused with tampered | ordinary
    · exact tampered.admits config
    · exact ordinary.admits config
  | message _ refused =>
    rcases onPacket_raises _ _ _ _ refused with objection | departed
    · exact objection.admits capable.supported capable.usable capable.unjudged invariant
        intact.equipped
    · exact departed.admits config

/-- What the caller hears of in one step. -/
theorem Step.admits (capable : Capable config)
    (invariant : ConnectionInvariant config engine.handshake)
    (intact : engine.Intact) (step : Step engine trace after)
    (heard : .failed error ∈ trace.events) : config.Admits error := by
  cases step with
  | introduced | listened | met | fed | waited | wrote | departed => cases heard
  | @handled _ _ _ actions =>
    obtain ⟨action, -, told⟩ := List.mem_flatMap.1 heard
    cases action with
    | send | armOutbound | armInbound | compress => cases told
    | established | deliver | closed => cases List.mem_singleton.1 told
  | parted => cases List.mem_singleton.1 heard
  | refused refusal =>
    rw [Trace.events_append, refusal.silent.events] at heard
    cases List.mem_singleton.1 heard
    exact refusal.admits capable invariant intact
  | lost cause reason =>
    cases List.mem_singleton.1 heard
    exact ⟨nofun, fun _ => nofun⟩

variable {entropy : Entropy} (capable : Capable config)
  (created : Engine.create entropy config = .ok start)
include capable created

theorem Path.admits (path : Path start trace after) :
    ∀ error, .failed error ∈ trace.events → config.Admits error := by
  induction path with
  | refl => exact nofun
  | next earlier running step ih =>
    intro error heard
    rw [Trace.events_append] at heard
    rcases List.mem_append.1 heard with before | now
    · exact ih error before
    · exact step.admits capable (earlier.connectionInvariant created running)
        (earlier.intact (create_intact created) running) now
  | took _ ih =>
    intro error heard
    rw [Trace.events_append, List.append_nil] at heard
    exact ih error heard

end Admitted

section Breaking

/-- A payload that cannot be handled has been refused. -/
theorem handleNext_refusal (sound : engine.Sound) (running : engine.finished = false)
    (stopped : handleNext supply engine = .error error failed) :
    ∃ trace, Refusal supply engine error trace failed := by
  cases taken : Inbound.next engine.inbound with
  | error error inbound =>
    rw [handleNext_error taken] at stopped
    cases stopped
    exact ⟨_, .packet taken⟩
  | ok found inbound =>
    cases found with
    | none =>
      rw [handleNext_waits taken] at stopped
      cases stopped
    | some payload =>
      cases treated : onPacket (supply.source engine.drawn) payload engine.handshake with
      | error error handshake =>
        rw [handleNext_some supply taken, transition_error (by exact treated)] at stopped
        cases stopped
        exact ⟨_, .message taken treated⟩
      | ok actions handshake =>
        obtain ⟨after, handled, -⟩ := handled_answers sound running taken treated
        rw [stopped] at handled
        cases handled

/-- Bytes that lead to an error have been refused, behind others that were not. -/
theorem Breaks.refusal {data : Bytes} (sound : engine.Sound)
    (breaks : Breaks supply engine data error failed) :
    ∃ received events between trace, Answers engine received events between ∧
      between.finished = false ∧ Refusal supply between error trace failed := by
  have begun := start_answers engine
  have ready := begun.sound sound
  cases breaks with
  | line running refused =>
    have unended : engine.start.finished = false := (start_finished engine).trans running
    rcases accept_cases supply data ready unended (start_started running) with
      ⟨_, _, accepted, -⟩ | ⟨_, _, refused', refusal⟩
    · rw [refused] at accepted
      cases accepted
    · rw [refused] at refused'
      cases refused'
      exact ⟨[], [], engine.start, _, begun, unended, refusal⟩
  | @packet _ _ _ _ last running accepted handles going stopped =>
    have unended : engine.start.finished = false := (start_finished engine).trans running
    rcases accept_cases supply data ready unended (start_started running) with
      ⟨_, _, accepted', answers, -⟩ | ⟨_, _, refused, -⟩
    · rw [accepted] at accepted'
      cases accepted'
      have between := begun.trans (answers.trans (handles.answers (answers.sound ready)))
      obtain ⟨trace, refusal⟩ := handleNext_refusal (between.sound sound) going stopped
      exact ⟨_, _, last, trace, between, going, refusal⟩
    · rw [accepted] at refused
      cases refused

theorem Refusal.sends (sound : engine.Sound) (refusal : Refusal supply engine error trace failed)
    (payload : Bytes) : ∃ after, sendPayload supply payload failed = .ok () after := by
  have ready : failed.outbound.Ready := by cases refusal <;> exact sound.ready
  obtain ⟨wire, outbound, sent, -⟩ := ready.send (supply.source failed.drawn) payload
  exact ⟨_, sendPayload_ok sent⟩

/-- Writing fails only where nothing can be written. -/
theorem write_raises (sound : engine.Sound) (data : Bytes) :
    RaisesAt Error.Ordinary engine (write supply data) := by
  intro error after failed
  unfold write at failed
  split at failed
  · cases failed
    exact Error.ordinary_closed
  · split at failed
    · rename_i refused
      cases failed
      unfold Handshake.write SessionChannel.dataMessages at refused
      split at refused
      · split at refused
        · cases refused
          exact Error.ordinary_closed
        · cases refused
      · cases refused
        exact Error.ordinary_closed
      · cases refused
        exact Error.ordinary_protocol nofun
    · rename_i messages _
      obtain ⟨wires, last, performs⟩ := performs_sends supply engine sound.ready messages
      rw [performs.sendAll] at failed
      cases failed

theorem close_raises (sound : engine.Sound) : RaisesAt Error.Ordinary engine (close supply) := by
  intro error after failed
  rcases Bool.eq_false_or_eq_true engine.finished with ended | running
  · rw [close, if_pos ended] at failed
    cases failed
    exact Error.ordinary_closed
  · obtain ⟨wires, last, performs⟩ := performs_sends supply
      { engine with handshake := engine.handshake.close.2 } sound.ready engine.handshake.close.1
    rw [close_ok running performs] at failed
    cases failed

end Breaking

section Runs

variable {entropy : Entropy}

/-- Every error of a call is one to reckon with. -/
theorem Raised.admits {action : Call} (capable : Capable config)
    (created : Engine.create entropy config = .ok start) (path : Path start trace engine)
    (drained : engine.Drained) (raised : Raised supply engine action error) :
    config.Admits error := by
  have sound := path.sound (create_sound created)
  cases raised with
  | broken breaks =>
    obtain ⟨_, _, between, _, ⟨_, _, further, -⟩, running, refusal⟩ := breaks.refusal sound
    have reached := path.trans further
    exact refusal.admits capable (reached.connectionInvariant created running)
      (reached.intact (create_intact created) running)
  | unsent breaks _ failed =>
    obtain ⟨_, _, between, _, answers, -, refusal⟩ := breaks.refusal sound
    obtain ⟨_, sent⟩ := refusal.sends (answers.sound sound) _
    rw [sent] at failed
    cases failed
  | unwritten failed => exact (write_raises sound _ _ _ failed).admits config
  | unclosed failed => exact (close_raises sound _ _ failed).admits config
  | heard heard =>
    obtain ⟨_, -, ⟨_, _, further⟩, -⟩ := call_unfolds supply action sound drained
    refine (path.trans further).admits capable created error ?_
    rw [Trace.events_append]
    exact List.mem_append_right _ heard

/-- Whatever is done with a client and whatever the server sends, no error comes up in any
call that says that the client has lost track of itself, not even one that nobody hears
of; and no name that is agreed on stands for nothing, as long as the client's own proposal
can be read back. In an established session that has not ended any data can be written. -/
theorem run_reckons (created : Engine.create entropy config = .ok engine)
    (usable : Usable config.credential) (unjudged : ∀ judge, config.trust ≠ .judged judge)
    (calls : List (Supply × Call)) :
    (∀ supply action error, Raised supply (run calls engine).engine action error →
      ¬ error.Internal ∧ (config.preferences.Fits → ¬ error.Unimplemented)) ∧
    ((run calls engine).engine.finished = false → (run calls engine).engine.isEstablished = true →
      ∀ supply data, ∃ after, write supply data (run calls engine).engine = .ok () after) := by
  obtain ⟨_, _, _, -, -, -, ⟨_, _, path⟩, drained⟩ :=
    run_unfolds calls (create_sound created) (create_drained created)
  have capable : Capable config := ⟨Config.check_ok (create_checked created), usable, unjudged⟩
  constructor
  · intro supply action error raised
    have admitted := raised.admits capable created path drained
    exact ⟨admitted.outward, admitted.implemented⟩
  · intro running established supply data
    have phase : (run calls engine).engine.handshake.phase = .established :=
      of_decide_eq_true established
    obtain ⟨_, after, written, -⟩ := write_ok (path.sound (create_sound created)) running
      (path.connectionInvariant created running) phase supply data
    exact ⟨after, written⟩

/-- A client that the small server has led to a session: any data can be written. -/
theorem run_reckons_established :
    ∃ calls : List (Supply × Call),
      Engine.create zeros smallClient = .ok smallEngine ∧ Usable smallClient.credential ∧
      (∀ judge, smallClient.trust ≠ .judged judge) ∧ smallClient.preferences.Fits ∧
      (∀ supply action error, Raised supply (run calls smallEngine).engine action error →
        ¬ error.Internal ∧ ¬ error.Unimplemented) ∧
      ∀ supply data, ∃ after, write supply data (run calls smallEngine).engine = .ok () after := by
  obtain ⟨wires, -, running, established, -⟩ := small_established
  obtain ⟨reckons, writes⟩ := run_reckons small_created trivial nofun (receives zeros wires)
  refine ⟨_, small_created, trivial, nofun, small_fits, ?_, writes running established⟩
  intro supply action error raised
  obtain ⟨outward, implemented⟩ := reckons supply action error raised
  exact ⟨outward, implemented small_fits⟩

end Runs

end SecureShell.Engine
