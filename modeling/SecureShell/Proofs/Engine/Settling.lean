import SecureShell.Proofs.Engine.Hearing
import SecureShell.Proofs.Engine.Runs

/-! An engine that has introduced itself and knows the server does so for good. Until
then nothing waits to be opened, whatever the calls were that led to it. -/
namespace SecureShell.Engine

variable {supply : Supply} {σ : Type} [Deflation σ]

section Settled

def settle (engine : Engine) : Engine := { engine with started := true, header := none }

theorem settle_unseen : Unseen settle where
  handshake _ := rfl
  outbound _ := rfl
  drawn _ := rfl
  putHandshake _ _ := rfl
  putOutbound _ _ := rfl
  putDrawn _ _ := rfl
  enqueue _ _ := rfl
  armInbound _ _ := rfl
  compressInbound _ := rfl
  teardown _ := rfl

theorem handleNext_settle : Overlooks settle (handleNext supply) := by
  refine .bind (.focus (fun _ => rfl) fun _ _ => rfl) ?_
  intro found
  cases found with
  | none => exact .pure none
  | some payload =>
    exact .bind settle_unseen.draw fun entropy =>
      .bind (settle_unseen.transition _) fun events => .pure _

theorem fail_settle {engine : Engine} {error : Error} (settled : settle engine = engine) :
    settle (engine.fail supply error).2 = (engine.fail supply error).2 := by
  have overlooked (failed : Engine) (same : settle failed = failed) :
      settle failed.teardown = failed.teardown := by
    rw [← settle_unseen.teardown, same]
  have sending : sendPayload supply (disconnectFor error).toBytes (settle engine) = _ :=
    settle_unseen.sendPayload (disconnectFor error).toBytes engine
  rw [settled] at sending
  simp only [fail]
  split
  · cases sent : sendPayload supply (disconnectFor error).toBytes engine with
    | ok _ after =>
      rw [sent] at sending
      injection sending with _ same
      exact overlooked after same.symm
    | error _ after =>
      rw [sent] at sending
      injection sending with _ same
      exact overlooked after same.symm
  · exact overlooked engine settled

/-- Draining leaves an engine that knows the server. -/
theorem drain_settle {engine : Engine} (settled : settle engine = engine) :
    settle (engine.drain supply).2 = (engine.drain supply).2 := by
  induction size : engine.backlog using Nat.strongRecOn generalizing engine with
  | _ n ih =>
    rcases Bool.eq_false_or_eq_true engine.finished with ended | running
    · rw [drain_finished ended]
      exact settled
    have handling : handleNext supply (settle engine) = _ := handleNext_settle engine
    rw [settled] at handling
    cases handled : handleNext supply engine with
    | error error failed =>
      rw [handled] at handling
      injection handling with _ same
      rw [drain_error running handled]
      exact fail_settle same.symm
    | ok found after =>
      rw [handled] at handling
      injection handling with _ same
      cases found with
      | none =>
        rw [drain_none running handled]
        exact same.symm
      | some events =>
        rw [drain_some running handled]
        exact ih after.backlog (size ▸ backlog_handleNext handled) same.symm rfl

theorem accept_settled {engine : Engine σ} {data : Bytes} (known : engine.header = none) :
    accept supply data engine = .ok [] { engine with inbound := engine.inbound.feed data } := by
  obtain ⟨_, _, _, _, _, _, _, _⟩ := engine
  cases known
  rfl

theorem receive_settled {engine : Engine} (later : Bytes) (settled : settle engine = engine) :
    engine.receive supply later = (engine.hear later).drain supply := by
  rcases Bool.eq_false_or_eq_true engine.finished with ended | running
  · rw [hear_finished later ended, drain_finished ended, receive, if_pos ended]
  · have started : engine.started = true := by rw [← settled, settle]
    have known : engine.header = none := by rw [← settled, settle]
    have same : engine.start = engine := by simp [start, started]
    rw [receive, if_neg (by simp [running]), same, accept_settled known, hear_running later running]
    simp

theorem hear_settle {engine : Engine} (data : Bytes) (settled : settle engine = engine) :
    settle (engine.hear data) = engine.hear data := by
  rcases Bool.eq_false_or_eq_true engine.finished with ended | running
  · rw [hear_finished data ended, settled]
  · rw [hear_running data running]
    exact congrArg (fun other : Engine => { other with inbound := engine.inbound.feed data }) settled

end Settled

section Introduction

/-- Nothing waits to be opened before the server has introduced itself. -/
def Composed (engine : Engine) : Prop :=
  engine.header.isSome = true →
    engine.inbound.opener.buffer = [] ∧ engine.inbound.opener.head = none

theorem accept_line {engine : Engine σ} {reader : LineReader} {data : Bytes}
    (h : engine.header = some reader) : accept supply data engine =
      match LineReader.feed data reader with
      | .ok none stopped => .ok [] { engine with header := some stopped }
      | .ok (some (version, rest)) _ =>
        match transition supply (Handshake.onVersion version) { engine with header := none } with
        | .ok events after => .ok events { after with inbound := after.inbound.feed rest }
        | .error error failed => .error error failed
      | .error error failed => .error error { engine with header := some failed } := by
  simp only [accept, bind_apply, get_apply, h, readHeader]
  cases LineReader.feed data reader with
  | error error failed => rfl
  | ok found stopped =>
    cases found with
    | none => rfl
    | some found =>
      simp only [bind_apply]
      cases transition supply (Handshake.onVersion found.1) { engine with header := none } <;> rfl

/-- With nothing to be opened there is nothing to be handled. -/
theorem drain_empty {engine : Engine} (empty : engine.inbound.opener.buffer = [])
    (free : engine.inbound.opener.head = none) : engine.drain supply = ([], engine) := by
  rcases Bool.eq_false_or_eq_true engine.finished with ended | running
  · exact drain_finished ended
  have short : engine.inbound.opener.buffer.length < engine.inbound.opener.blockSize := by
    have := Protection.blockSize_ge engine.inbound.opener.keys
    rw [empty, List.length_nil, Opener.blockSize]
    omega
  apply drain_none running
  simp only [handleNext, Inbound.next, Inbound.nextPacket, Opener.next, focus, bind_apply,
    Opener.nextHead_short free short]
  rfl

/-- Sending concerns the outbound side alone. -/
theorem sendPayload_beside {payload : Bytes} {engine after : Engine}
    (h : sendPayload supply payload engine = .ok () after) :
    after.finished = engine.finished ∧ after.header = engine.header ∧
      after.inbound = engine.inbound := by
  obtain ⟨entropy, drawn, hDrawn, h⟩ := bind_eq_ok_iff.1 h
  cases hDrawn
  obtain ⟨wire, sent, hSent, h⟩ := bind_eq_ok_iff.1 h
  obtain ⟨outbound, -, rfl⟩ := focus_eq_ok_iff.1 hSent
  cases h
  exact ⟨rfl, rfl, rfl⟩

theorem sendAll_beside {payloads : List Bytes} {engine after : Engine}
    (h : sendAll supply payloads engine = .ok () after) :
    after.header = engine.header ∧ after.inbound = engine.inbound := by
  induction payloads generalizing engine with
  | nil =>
    cases h
    exact ⟨rfl, rfl⟩
  | cons payload rest ih =>
    obtain ⟨_, sent, hSent, h⟩ := bind_eq_ok_iff.1 h
    obtain ⟨-, header, inbound⟩ := sendPayload_beside hSent
    have kept := ih h
    rwa [header, inbound] at kept

/-- The introduction of the server does not end the connection. -/
theorem introduction_finished {version : Identification} {engine after : Engine}
    {events : List Event}
    (h : transition supply (Handshake.onVersion version) engine = .ok events after) :
    after.finished = engine.finished := by
  obtain ⟨actions, moved, hMoved, h⟩ := bind_eq_ok_iff.1 h
  obtain ⟨handshake, hVersion, rfl⟩ := focus_eq_ok_iff.1 hMoved
  simp only [Handshake.onVersion, bind_apply, get_apply] at hVersion
  split at hVersion
  · cases hVersion
  · cases hVersion
    obtain ⟨_, sent, hSent, h⟩ := bind_eq_ok_iff.1 h
    obtain ⟨_, queued, hQueued, hSent⟩ := bind_eq_ok_iff.1 hSent
    cases hSent
    cases h
    have queued := sendPayload_beside hQueued
    exact queued.1

/-- The introduction of the server leaves an engine that knows it. -/
theorem introduction_settle {version : Identification} {engine after : Engine}
    {events : List Event} (started : engine.started = true)
    (h : transition supply (Handshake.onVersion version) { engine with header := none } =
      .ok events after) : settle after = after := by
  have overlooked : transition supply _ (settle { engine with header := none }) = _ :=
    settle_unseen.transition (Handshake.onVersion version) _
  have same : settle { engine with header := none } = { engine with header := none } := by
    rw [settle, ← started]
  rw [same, h] at overlooked
  injection overlooked with _ same
  exact same.symm

end Introduction

section Introduced

theorem start_finished (engine : Engine σ) : engine.start.finished = engine.finished := by
  unfold start
  split <;> rfl

theorem start_started {engine : Engine σ} (running : engine.finished = false) :
    engine.start.started = true := by
  unfold start
  split
  · rename_i h
    simpa [running] using h
  · rfl

theorem start_of_started {engine : Engine σ} (started : engine.started = true) :
    engine.start = engine := if_pos (by simp [started])

theorem receive_start (engine : Engine σ) (data : Bytes) :
    engine.start.receive supply data = engine.receive supply data := by
  rcases Bool.eq_false_or_eq_true engine.finished with ended | running
  · have same : engine.start = engine := if_pos (by simp [ended])
    rw [same]
  · have same : engine.start.start = engine.start := start_of_started (start_started running)
    have running' : engine.start.finished = false := (start_finished engine).trans running
    simp only [receive, same, running, running', Bool.false_eq_true, if_false]

theorem receive_ok {engine after : Engine σ} {data : Bytes} {events : List Event}
    (running : engine.finished = false) (h : accept supply data engine.start = .ok events after) :
    engine.receive supply data = (events ++ (after.drain supply).1, (after.drain supply).2) := by
  rw [receive, if_neg (by simp [running]), h]

theorem receive_error {engine failed : Engine σ} {data : Bytes} {error : Error}
    (running : engine.finished = false)
    (h : accept supply data engine.start = .error error failed) :
    engine.receive supply data = failed.fail supply error := by
  rw [receive, if_neg (by simp [running]), h]

theorem receive_accepted {engine after : Engine σ} {data : Bytes} {events : List Event}
    (running : engine.finished = false) (started : engine.started = true)
    (h : accept supply data engine = .ok events after) :
    engine.receive supply data = (events ++ (after.drain supply).1, (after.drain supply).2) := by
  rw [← start_of_started started] at h
  exact receive_ok running h

theorem receive_refused {engine failed : Engine σ} {data : Bytes} {error : Error}
    (running : engine.finished = false) (started : engine.started = true)
    (h : accept supply data engine = .error error failed) :
    engine.receive supply data = failed.fail supply error := by
  rw [← start_of_started started] at h
  exact receive_error running h

theorem receive_finished {engine : Engine σ} (data : Bytes) (ended : engine.finished = true) :
    engine.receive supply data = ([], engine) := by
  rw [receive, if_pos ended]

end Introduced

section Composed

theorem create_composed {entropy : Entropy} {config : Config} {engine : Engine}
    (h : Engine.create entropy config = .ok engine) : engine.Composed := by
  obtain rfl := create_eq h
  exact fun _ => ⟨rfl, rfl⟩

theorem start_composed {engine : Engine} (composed : engine.Composed) : engine.start.Composed := by
  unfold start
  split <;> exact composed

theorem composed_of_known {engine : Engine} (known : engine.header = none) : engine.Composed := by
  intro unknown
  rw [known] at unknown
  cases unknown

theorem composed_of_settled {engine : Engine} (settled : settle engine = engine) :
    engine.Composed := composed_of_known (by rw [← settled, settle])

theorem composed_of_same {engine after : Engine} (composed : engine.Composed)
    (header : after.header = engine.header) (inbound : after.inbound = engine.inbound) :
    after.Composed := by
  intro unknown
  rw [header] at unknown
  rw [inbound]
  exact composed unknown

/-- Bytes wait to be opened only once the server is known. -/
theorem receive_composed {engine : Engine} (data : Bytes) (composed : engine.Composed) :
    (engine.receive supply data).2.Composed := by
  rcases Bool.eq_false_or_eq_true engine.finished with ended | running
  · rw [receive, if_pos ended]
    exact composed
  have started : engine.start.started = true := start_started running
  rw [receive, if_neg (by simp [running])]
  cases known : engine.start.header with
  | none =>
    have settled : settle engine.start = engine.start := by rw [settle, ← started, ← known]
    have running' : engine.start.finished = false := (start_finished engine).trans running
    have heard : settle { engine.start with inbound := engine.start.inbound.feed data } = _ :=
      hear_running data running' ▸ hear_settle data settled
    rw [accept_settled known]
    exact composed_of_settled (drain_settle heard)
  | some reader =>
    obtain ⟨empty, free⟩ := start_composed composed (by rw [known]; rfl)
    rw [accept_line known]
    cases read : LineReader.feed data reader with
    | error error failed => exact composed_of_known rfl
    | ok found stopped =>
      cases found with
      | none =>
        have drained : drain supply { engine.start with header := some stopped } = _ :=
          drain_empty empty free
        simp only [drained]
        exact fun _ => ⟨empty, free⟩
      | some found =>
        simp only
        cases introduced : transition supply (Handshake.onVersion found.1)
            { engine.start with header := none } with
        | error error failed => exact composed_of_known rfl
        | ok events after =>
          have settled : settle after = after := introduction_settle started introduced
          have fed : settle { after with inbound := after.inbound.feed found.2 } = _ :=
            congrArg (fun other : Engine =>
              { other with inbound := after.inbound.feed found.2 }) settled
          exact composed_of_settled (drain_settle fed)

theorem write_composed {engine : Engine} (data : Bytes) (composed : engine.Composed) :
    (left (write supply data) engine).Composed := by
  rcases Bool.eq_false_or_eq_true engine.finished with ended | running
  · simp only [left, write, ended, if_true, composed]
  cases written : engine.handshake.write data with
  | error error => simp only [left, write, running, written, Bool.false_eq_true, if_false, composed]
  | ok messages =>
    simp only [left, write, running, written, Bool.false_eq_true, if_false]
    cases sent : sendAll supply messages engine with
    | error error failed => exact composed_of_known rfl
    | ok done after =>
      obtain ⟨header, inbound⟩ := sendAll_beside sent
      exact composed_of_same composed header inbound

theorem close_composed {engine : Engine} (composed : engine.Composed) :
    (left (close supply) engine).Composed := by
  rcases Bool.eq_false_or_eq_true engine.finished with ended | running
  · simp only [left, close, ended, if_true, composed]
  simp only [left, close, running, Bool.false_eq_true, if_false]
  generalize sendAll supply engine.handshake.close.1 (_ : Engine) = sent
  cases sent <;> exact composed_of_known rfl

/-- Bytes wait to be opened only once the server is known, whatever the calls were. -/
theorem Reachable.composed {engine : Engine} (reached : Reachable engine) : engine.Composed := by
  induction reached with
  | created created =>
    exact create_composed created
  | @called engine supply action _ ih =>
    cases action with
    | start => exact start_composed ih
    | receive data => exact receive_composed data ih
    | write data =>
      exact write_composed data ih
    | close =>
      exact close_composed ih
    | transportClosed cause =>
      simp only [call, transportClosed]
      split
      · exact ih
      · exact composed_of_known rfl
    | takeOutgoing => exact ih

end Composed

end SecureShell.Engine
