import SecureShell.Proofs.Engine.Unfolding

/-! An engine over any library that deflates. The library may fail, and nothing else can fail
in what an engine sends: a payload that cannot be compressed is not sent, the caller gets the
error of the library, and the connection has ended. -/
namespace SecureShell

namespace StreamCompressor

open Zlib

variable {deflater : Deflater}

theorem collect_error (growth : Growth) {state after : deflater.State} {data out : Bytes}
    {capacity : Nat} {error : Error}
    (failed : deflater.collect growth state data out capacity = .error error after) :
    ∃ reason, error = .protocol (.other ("Deflate failed: " ++ reason)) := by
  fun_induction deflater.collect growth state data out capacity with
  | case1 _ _ _ _ reason =>
    cases failed
    exact ⟨reason, rfl⟩
  | case2 => cases failed
  | case3 _ _ _ _ _ _ _ _ _ _ ih => exact ih failed

/-- Every failure of a deflate stream is told in the same words. -/
theorem fails_eq (growth : Growth) {error : Error}
    (fails : @Deflation.Fails _ (deflation deflater growth) error) :
    ∃ reason, error = .protocol (.other ("Deflate failed: " ++ reason)) := by
  obtain ⟨running, after, payload, -, failed⟩ := fails
  have failed : compress growth payload running = .error error after := failed
  unfold compress at failed
  split at failed
  · cases failed
  · split at failed
    · cases failed
    · rename_i failing
      cases failed
      exact collect_error growth failing

end StreamCompressor

namespace Engine

variable {σ α β : Type} [Deflation σ] {supply : Supply} {engine between after : Engine σ}

/-- A computation ends well, or with a failure of the library; either leaves such an engine. -/
inductive Endures (leaves : Engine σ → Prop) : EStateM.Result Error (Engine σ) α → Prop where
  | done {value : α} {after : Engine σ} : leaves after → Endures leaves (.ok value after)
  | failed {error : Error} {after : Engine σ} : leaves after → Deflation.Fails σ error →
      Endures leaves (.error error after)

variable {leaves : Engine σ → Prop}

theorem Endures.bind {first : EStateM Error (Engine σ) β} {rest : β → EStateM Error (Engine σ) α}
    (begins : Endures leaves (first engine))
    (proceeds : ∀ value after, leaves after → Endures leaves (rest value after)) :
    Endures leaves ((first >>= rest) engine) := by
  simp only [bind_apply]
  generalize first engine = outcome at begins
  cases begins with
  | done left => exact proceeds _ _ left
  | failed left fails => exact .failed left fails

theorem Endures.imp {weaker : Engine σ → Prop} {result : EStateM.Result Error (Engine σ) α}
    (endures : Endures leaves result) (sub : ∀ after, leaves after → weaker after) :
    Endures weaker result := by
  cases endures with
  | done left => exact .done (sub _ left)
  | failed left fails => exact .failed (sub _ left) fails

section Sending

/-- Has sent something, and can go on sending. -/
def Onward (engine after : Engine σ) : Prop :=
  ∃ outbound queue drawn, outbound.Ready ∧ after = { engine with outbound, queue, drawn }

theorem sendPayload_endures (supply : Supply) (payload : Bytes) (ready : engine.outbound.Ready) :
    Endures (Onward engine) (sendPayload supply payload engine) := by
  simp only [sendPayload, bind_apply, draw, focus]
  rcases ready.sends (supply.source engine.drawn) payload with
    ⟨wire, outbound, sent, readyAfter, -⟩ | ⟨error, outbound, failed, readyAfter, -, -, fails⟩
  · simp only [sent]
    exact .done ⟨outbound, _, _, readyAfter, rfl⟩
  · simp only [failed]
    exact .failed ⟨outbound, _, _, readyAfter, rfl⟩ fails

theorem sendAll_endures (supply : Supply) (payloads : List Bytes)
    (ready : engine.outbound.Ready) : Endures (Onward engine) (sendAll supply payloads engine) := by
  induction payloads generalizing engine with
  | nil => exact .done ⟨_, _, _, ready, rfl⟩
  | cons payload rest ih =>
    refine (sendPayload_endures supply payload ready).bind fun _ between onward => ?_
    obtain ⟨outbound, queue, drawn, readyAfter, rfl⟩ := onward
    let between : Engine σ := { engine with outbound, queue, drawn }
    have later : Endures (Onward between) (sendAll supply rest between) := ih readyAfter
    exact later

end Sending

section Performing

variable {actions : List Action}

/-- Can send, and is in the middle of a packet only if the engine before was. -/
structure Proceeds (engine after : Engine σ) : Prop where
  ready : after.outbound.Ready
  free : engine.inbound.opener.head = none → after.inbound.opener.head = none

/-- Keys that are derived can be put to use between two packets; so an action fails only
with the library. -/
theorem perform_endures (supply : Supply) {action : Action} (sized : action.Sized)
    (ready : engine.outbound.Ready)
    (free : ∀ keys, action = .armInbound keys → engine.inbound.opener.head = none) :
    Endures (Proceeds engine) (perform supply action engine) := by
  cases action with
  | send payload =>
    have sent : Endures (Proceeds engine) (sendPayload supply payload engine) := by
      refine (sendPayload_endures supply payload ready).imp ?_
      rintro _ ⟨outbound, queue, drawn, ready, rfl⟩
      exact ⟨ready, id⟩
    exact sent.bind fun _ _ left => .done left
  | armOutbound keys =>
    obtain ⟨outbound, armed, ready⟩ := engine.outbound.arm_ready sized
    simp only [perform, change, bind_apply, get_apply, armed]
    exact .done ⟨ready, id⟩
  | armInbound keys =>
    obtain ⟨protection, -, created, -⟩ := Protection.create_opposite sized
    have armed : engine.inbound.arm keys = .ok { engine.inbound with
        opener := { engine.inbound.opener with keys := some protection.decrypting } } := by
      simp [Inbound.arm, Opener.arm, free keys rfl, created, bind, Except.bind, pure, Except.pure]
    simp only [perform, change, bind_apply, get_apply, armed]
    exact .done ⟨ready, id⟩
  | compress outbound inbound =>
    refine .done ⟨?_, ?_⟩
    · cases outbound with
      | true => exact ⟨ready.framer, ready.encrypts⟩
      | false => exact ready
    · cases inbound <;> exact id
  | established | deliver => exact .done ⟨ready, id⟩
  | closed => exact .done ⟨Outbound.ready_fresh σ, fun _ => rfl⟩

theorem performAll_endures (supply : Supply) (sized : ∀ action ∈ actions, action.Sized)
    (ready : engine.outbound.Ready)
    (free : ∀ keys, .armInbound keys ∈ actions → engine.inbound.opener.head = none) :
    Endures (Proceeds engine) (performAll supply actions engine) := by
  induction actions generalizing engine with
  | nil => exact .done ⟨ready, id⟩
  | cons action rest ih =>
    have first := perform_endures supply (sized _ (.head _)) ready
      fun keys same => free keys (same ▸ .head _)
    refine first.bind fun _ between proceeds => ?_
    have others := ih (fun other later => sized other (.tail _ later)) proceeds.ready
      fun keys later => proceeds.free (free keys (.tail _ later))
    exact (others.imp fun _ later => ⟨later.ready, later.free ∘ proceeds.free⟩).bind
      fun _ _ left => .done left

/-- No action tells of a failure. -/
theorem performAll_unfailed {events : List Event}
    (performed : performAll supply actions engine = .ok events after) (error : Error) :
    .failed error ∉ events := by
  induction actions generalizing engine events with
  | nil =>
    cases performed
    exact nofun
  | cons action rest ih =>
    obtain ⟨first, between, done, performed⟩ := bind_eq_ok_iff.1 performed
    obtain ⟨more, _, performed, made⟩ := bind_eq_ok_iff.1 performed
    cases made
    have silent : .failed error ∉ first := by
      cases action with
      | send | armOutbound | armInbound | compress =>
        obtain ⟨_, _, _, made⟩ := bind_eq_ok_iff.1 done
        cases made
        exact nofun
      | established | deliver =>
        cases done
        simp
      | closed =>
        obtain ⟨_, _, _, made⟩ := bind_eq_ok_iff.1 done
        cases made
        simp
    exact fun member => (List.mem_append.1 member).elim silent (ih performed)

end Performing

section Calls

/-- What can go wrong: the line of the server cannot be read or is one too many, a packet
cannot be opened, its message is refused, or the transport is gone, all of which has nothing
to do with the library; or the library fails on what is to be sent. -/
inductive Trouble (supply : Supply) (engine : Engine σ) (error : Error) : Prop where
  | line {reader failed : LineReader} {data : Bytes} : engine.header = some reader →
      LineReader.feed data reader = .error error failed → Trouble supply engine error
  | version {version : Identification} {handshake : Handshake} :
      Handshake.onVersion version engine.handshake = .error error handshake →
      Trouble supply engine error
  | packet {inbound : Inbound} : Inbound.next engine.inbound = .error error inbound →
      Trouble supply engine error
  | message {payload : Bytes} {inbound : Inbound} {handshake : Handshake} :
      Inbound.next engine.inbound = .ok (some payload) inbound →
      Handshake.onPacket (supply.source engine.drawn) payload engine.handshake =
        .error error handshake →
      Trouble supply engine error
  | transport {reason : String} : error = .io reason → Trouble supply engine error
  | library : Deflation.Fails σ error → Trouble supply engine error

/-- What the caller hears: at most what has gone wrong, and then the connection has ended. -/
structure Reports (result : List Event × Engine σ) : Prop where
  ready : result.2.outbound.Ready
  failed : ∀ error, .failed error ∈ result.1 →
    result.2.finished = true ∧ ∃ (supply : Supply) (engine : Engine σ), Trouble supply engine error

theorem Reports.silent (ready : after.outbound.Ready) : Reports ([], after) := ⟨ready, nofun⟩

/-- Whether the server can be told of an error or not, the caller hears of it. -/
theorem Trouble.reports {error : Error} {failed : Engine σ}
    (trouble : Trouble supply engine error) (supply : Supply) :
    Reports (failed.fail supply error) := by
  refine ⟨Outbound.ready_fresh σ, fun other member => ?_⟩
  cases List.mem_singleton.1 member
  exact ⟨rfl, _, engine, trouble⟩

/-- A computation ends well and tells of no failure, or one of these things has gone wrong. -/
inductive Copes (told : α → List Event) : EStateM.Result Error (Engine σ) α → Prop where
  | done {value : α} {after : Engine σ} : after.outbound.Ready →
      (∀ error, .failed error ∉ told value) → Copes told (.ok value after)
  | troubled {error : Error} {engine failed : Engine σ} (supply : Supply) :
      Trouble supply engine error → Copes told (.error error failed)

theorem transition_copes {run : Handshake.Transition}
    (troubled : ∀ error handshake, run engine.handshake = .error error handshake →
      ∃ engine : Engine σ, Trouble supply engine error)
    (performs : ∀ actions handshake, run engine.handshake = .ok actions handshake →
      let treating := { engine with handshake }
      Endures (Proceeds treating) (performAll supply actions treating)) :
    Copes id (transition supply run engine) := by
  cases treated : run engine.handshake with
  | error error handshake =>
    obtain ⟨_, trouble⟩ := troubled error handshake treated
    rw [transition_error treated]
    exact .troubled supply trouble
  | ok actions handshake =>
    let treating : Engine σ := { engine with handshake }
    have performed : Endures (Proceeds treating) (performAll supply actions treating) :=
      performs actions handshake treated
    simp only [transition, focus, bind_apply, treated]
    cases outcome : performAll supply actions treating with
    | ok events after =>
      rw [outcome] at performed
      cases performed with
      | done proceeds => exact .done proceeds.ready (performAll_unfailed outcome)
    | error error failed =>
      rw [outcome] at performed
      cases performed with
      | failed _ fails =>
        have trouble : Trouble supply engine error := .library fails
        exact .troubled supply trouble

theorem handleNext_copes (supply : Supply) (ready : engine.outbound.Ready) :
    Copes (·.getD []) (handleNext supply engine) := by
  cases found : Inbound.next engine.inbound with
  | error error inbound =>
    rw [handleNext_error found]
    exact .troubled supply (.packet found)
  | ok next inbound =>
    cases next with
    | none =>
      rw [handleNext_waits found]
      exact .done ready nofun
    | some payload =>
      let treating : Engine σ := { engine with inbound, drawn := engine.drawn + 1 }
      -- keys come between two packets, so nothing but sending can fail
      obtain ⟨packet, opener, opened, -, rest⟩ := Inbound.next_some found
      have free : inbound.opener.head = none := by
        rw [rest]
        exact Opener.next_free opened
      have copes : Copes id (transition supply
          (Handshake.onPacket (supply.source engine.drawn) payload) treating) :=
        transition_copes
          (fun error handshake refused => ⟨engine, .message found refused⟩)
          fun actions handshake accepted => performAll_endures supply
            (sized_of_reaction (Handshake.reaction_of_onPacket accepted)) ready fun _ _ => free
      rw [handleNext_some supply found]
      generalize transition supply
        (Handshake.onPacket (supply.source engine.drawn) payload) treating = outcome at copes
      cases copes with
      | done ready silent => exact .done ready silent
      | troubled _ trouble => exact .troubled _ trouble

theorem drain_reports (supply : Supply) (ready : engine.outbound.Ready) :
    Reports (engine.drain supply) := by
  -- every payload that is handled shortens the backlog
  induction size : engine.backlog using Nat.strongRecOn generalizing engine with
  | _ n ih =>
    rcases Bool.eq_false_or_eq_true engine.finished with ended | running
    · rw [drain_finished ended]
      exact .silent ready
    have copes := handleNext_copes supply ready
    cases handled : handleNext supply engine with
    | error error failed =>
      rw [handled] at copes
      cases copes with
      | troubled _ trouble =>
        rw [drain_error running handled]
        exact trouble.reports supply
    | ok found after =>
      rw [handled] at copes
      cases copes with
      | done readyAfter quiet =>
        cases found with
        | none =>
          rw [drain_none running handled]
          exact .silent readyAfter
        | some events =>
          have later := ih _ (size ▸ backlog_handleNext handled) readyAfter rfl
          rw [drain_some running handled]
          refine ⟨later.ready, fun error member => ?_⟩
          rcases List.mem_append.1 member with now | member
          · exact absurd now (quiet error)
          · exact later.failed error member

theorem accept_copes (supply : Supply) (data : Bytes) (ready : engine.outbound.Ready) :
    Copes id (accept supply data engine) := by
  cases known : engine.header with
  | none =>
    rw [accept_settled known]
    exact .done ready nofun
  | some reader =>
    have accepting : accept supply data engine = _ := accept_line known
    cases read : LineReader.feed data reader with
    | error error failed =>
      rw [read] at accepting
      rw [accepting]
      exact .troubled supply (.line known read)
    | ok found stopped =>
      rw [read] at accepting
      cases found with
      | none =>
        rw [accepting]
        exact .done ready nofun
      | some found =>
        obtain ⟨version, rest⟩ := found
        have copes : Copes id
            (transition supply (Handshake.onVersion version) { engine with header := none }) := by
          refine transition_copes (fun error handshake refused => ⟨engine, .version refused⟩)
            fun actions handshake accepted => ?_
          have leaves := Handshake.onVersion_leaves (h := engine.handshake) version
          rw [accepted] at leaves
          obtain ⟨-, rfl, -⟩ := leaves
          exact performAll_endures supply (by simp [Action.Sized]) ready (by simp)
        dsimp only at accepting
        rw [accepting]
        generalize transition supply (Handshake.onVersion version)
          { engine with header := none } = outcome at copes
        cases copes with
        | done ready silent => exact .done ready silent
        | troubled _ trouble => exact .troubled _ trouble

theorem receive_reports (supply : Supply) (data : Bytes) (ready : engine.outbound.Ready) :
    Reports (engine.receive supply data) := by
  rcases Bool.eq_false_or_eq_true engine.finished with ended | running
  · rw [receive_finished data ended]
    exact .silent ready
  have begun : engine.start.outbound.Ready := by
    unfold start
    split <;> exact ready
  have copes := accept_copes supply data begun
  cases accepted : accept supply data engine.start with
  | error error failed =>
    rw [accepted] at copes
    cases copes with
    | troubled _ trouble =>
      rw [receive_error running accepted]
      exact trouble.reports supply
  | ok events after =>
    rw [accepted] at copes
    cases copes with
    | done readyAfter quiet =>
      have later := drain_reports supply readyAfter
      rw [receive_ok running accepted]
      refine ⟨later.ready, fun error member => ?_⟩
      rcases List.mem_append.1 member with now | member
      · exact absurd now (quiet error)
      · exact later.failed error member

/-- Data that the channel takes is sent, or the library fails and the connection has ended. -/
theorem write_cases (supply : Supply) {data : Bytes} {messages : List Bytes}
    (running : engine.finished = false) (ready : engine.outbound.Ready)
    (taken : engine.handshake.write data = .ok messages) :
    (∃ after, write supply data engine = .ok () after ∧ Onward engine after) ∨
      ∃ error failed, write supply data engine = .error error failed ∧ Deflation.Fails σ error ∧
        failed.finished = true ∧ failed.outbound.Ready := by
  have endures := sendAll_endures supply messages ready
  cases sent : sendAll supply messages engine with
  | ok value after =>
    rw [sent] at endures
    cases endures with
    | done onward =>
      refine .inl ⟨after, ?_, onward⟩
      simp only [write, running, taken, sent, Bool.false_eq_true, if_false]
  | error error failed =>
    rw [sent] at endures
    cases endures with
    | failed _ fails =>
      refine .inr ⟨error, failed.teardown, ?_, fails, rfl, Outbound.ready_fresh σ⟩
      simp only [write, running, taken, sent, Bool.false_eq_true, if_false]

/-- A connection that is closed has ended, whether the library lets it take leave or not. -/
theorem close_cases (supply : Supply) (running : engine.finished = false)
    (ready : engine.outbound.Ready) :
    ∃ after, after.finished = true ∧ after.outbound.Ready ∧
      (close supply engine = .ok () after ∨
        ∃ error, close supply engine = .error error after ∧ Deflation.Fails σ error) := by
  have endures : Endures _ (sendAll supply engine.handshake.close.1
      { engine with handshake := engine.handshake.close.2 }) := sendAll_endures supply _ ready
  unfold close
  rw [if_neg (by simp [running])]
  cases sent : sendAll supply engine.handshake.close.1
    { engine with handshake := engine.handshake.close.2 } with
  | ok value after =>
    simp only [sent]
    exact ⟨after.teardown, rfl, Outbound.ready_fresh σ, .inl rfl⟩
  | error error failed =>
    rw [sent] at endures
    cases endures with
    | failed _ fails =>
      simp only [sent]
      exact ⟨failed.teardown, rfl, Outbound.ready_fresh σ, .inr ⟨error, rfl, fails⟩⟩

theorem call_reports (supply : Supply) (action : Call) (ready : engine.outbound.Ready) :
    Reports (engine.call supply action) := by
  rcases Bool.eq_false_or_eq_true engine.finished with ended | running
  · rw [call_finished action ended]
    exact .silent ready
  cases action with
  | start =>
    refine .silent ?_
    unfold start
    split <;> exact ready
  | receive data => exact receive_reports supply data ready
  | write data =>
    refine .silent ?_
    cases taken : engine.handshake.write data with
    | error error =>
      have refused : write supply data engine = .error error engine := by
        simp only [write, running, taken, Bool.false_eq_true, if_false]
      rw [left, refused]
      exact ready
    | ok messages =>
      rcases write_cases supply running ready taken with
        ⟨after, written, outbound, queue, drawn, readyAfter, rfl⟩ |
        ⟨error, failed, written, -, -, readyAfter⟩
      · rw [left, written]
        exact readyAfter
      · rw [left, written]
        exact readyAfter
  | close =>
    refine .silent ?_
    obtain ⟨after, -, readyAfter, closed | ⟨error, closed, -⟩⟩ := close_cases supply running ready
    · rw [left, closed]
      exact readyAfter
    · rw [left, closed]
      exact readyAfter
  | transportClosed cause =>
    simp only [call, transportClosed, running, Bool.false_eq_true, if_false]
    refine ⟨Outbound.ready_fresh σ, fun error member => ?_⟩
    cases List.mem_singleton.1 member
    exact ⟨rfl, supply, engine, .transport rfl⟩
  | takeOutgoing => exact .silent ready

/-- Whatever the library does: an engine can always go on sending, and once it has told of
a failure it has ended. It tells of nothing but these troubles. -/
theorem run_reports {entropy : Entropy} {config : Config}
    (created : Engine.create entropy config σ = .ok engine) (calls : List (Supply × Call)) :
    Reports ((run calls engine).events, (run calls engine).engine) := by
  have ready : engine.outbound.Ready := by
    rw [create_eq created]
    exact Outbound.ready_fresh σ
  clear created
  induction calls generalizing engine with
  | nil => exact .silent ready
  | cons call rest ih =>
    obtain ⟨supply, action⟩ := call
    have first := call_reports supply action ready
    have later := ih first.ready
    refine ⟨later.ready, fun error member => ?_⟩
    rcases List.mem_append.1 member with now | member
    · obtain ⟨ended, trouble⟩ := first.failed error now
      exact ⟨run_finished rest ended, trouble⟩
    · exact later.failed error member

end Calls

end Engine

end SecureShell
