import SecureShell.Proofs.Engine.Unseen
import SecureShell.Proofs.Resumption

/-! Bytes that arrive while an engine is draining are treated as if they had arrived
before: whatever happens before they are looked at overlooks them. -/
namespace SecureShell.Engine

variable {supply : Supply}

/-- An engine for which more bytes have arrived; one that has ended ignores them. -/
def hear (later : Bytes) (engine : Engine) : Engine :=
  if engine.finished then engine else { engine with inbound := engine.inbound.feed later }

theorem hear_finished {engine : Engine} (later : Bytes) (ended : engine.finished = true) :
    engine.hear later = engine := if_pos ended

theorem hear_running {engine : Engine} (later : Bytes) (running : engine.finished = false) :
    engine.hear later = { engine with inbound := engine.inbound.feed later } := by
  simp [hear, running]

section Draining

variable {σ : Type} [Deflation σ]

theorem drain_finished {engine : Engine σ} (ended : engine.finished = true) :
    engine.drain supply = ([], engine) := by
  rw [drain, if_pos ended]

theorem drain_none {engine stopped : Engine σ} (running : engine.finished = false)
    (h : handleNext supply engine = .ok none stopped) : engine.drain supply = ([], stopped) := by
  rw [drain, if_neg (by simp [running])]
  split <;> simp_all

theorem drain_some {engine handled : Engine σ} {events : List Event}
    (running : engine.finished = false)
    (h : handleNext supply engine = .ok (some events) handled) :
    engine.drain supply = (events ++ (handled.drain supply).1, (handled.drain supply).2) := by
  rw [drain, if_neg (by simp [running])]
  split <;> simp_all

theorem drain_error {engine failed : Engine σ} {error : Error}
    (running : engine.finished = false)
    (h : handleNext supply engine = .error error failed) :
    engine.drain supply = failed.fail supply error := by
  rw [drain, if_neg (by simp [running])]
  split <;> simp_all

theorem drain_congr {first second : Engine} (firstRuns : first.finished = false)
    (secondRuns : second.finished = false)
    (same : handleNext supply first = handleNext supply second) :
    first.drain supply = second.drain supply := by
  cases handled : handleNext supply second with
  | error error failed =>
    rw [drain_error firstRuns (same.trans handled), drain_error secondRuns handled]
  | ok found after =>
    cases found with
    | none => rw [drain_none firstRuns (same.trans handled), drain_none secondRuns handled]
    | some events => rw [drain_some firstRuns (same.trans handled), drain_some secondRuns handled]

/-- Only the inbound side has changed where nothing is left to be handled. -/
theorem handleNext_none {engine stopped : Engine} (h : handleNext supply engine = .ok none stopped) :
    ∃ inbound, Inbound.next engine.inbound = .ok none inbound ∧ stopped = { engine with inbound } := by
  obtain ⟨found, taken, hTaken, h⟩ := bind_eq_ok_iff.1 h
  obtain ⟨inbound, hNext, rfl⟩ := focus_eq_ok_iff.1 hTaken
  cases found with
  | none =>
    cases h
    exact ⟨inbound, hNext, rfl⟩
  | some payload =>
    obtain ⟨_, _, _, h⟩ := bind_eq_ok_iff.1 h
    obtain ⟨_, _, _, h⟩ := bind_eq_ok_iff.1 h
    cases h

end Draining

section Resumed

variable (later : Bytes)

theorem hear_unseen : Unseen (hear later) where
  handshake engine := by cases ended : engine.finished <;> simp [hear, ended]
  outbound engine := by cases ended : engine.finished <;> simp [hear, ended]
  drawn engine := by cases ended : engine.finished <;> simp [hear, ended]
  putHandshake engine handshake := by cases ended : engine.finished <;> simp [hear, ended]
  putOutbound engine outbound := by cases ended : engine.finished <;> simp [hear, ended]
  putDrawn engine drawn := by cases ended : engine.finished <;> simp [hear, ended]
  enqueue engine wire := by cases ended : engine.finished <;> simp [hear, ended]
  armInbound engine keys := by
    rcases Bool.eq_false_or_eq_true engine.finished with ended | running
    · rw [hear_finished later ended]
      cases engine.inbound.arm keys with
      | error error => rfl
      | ok inbound =>
        have armed : Engine.finished { engine with inbound } = true := ended
        exact congrArg Except.ok (hear_finished later armed).symm
    · rw [hear_running later running, Inbound.arm_feed]
      cases engine.inbound.arm keys with
      | error error => rfl
      | ok inbound =>
        have armed : Engine.finished { engine with inbound } = false := running
        exact congrArg Except.ok (hear_running later armed).symm
  compressInbound engine := by
    cases ended : engine.finished <;>
      simp [hear, ended, Inbound.activateCompression, Inbound.feed]
  teardown engine := by cases ended : engine.finished <;> simp [hear, ended, teardown]

/-- Handling payloads goes on where it stopped. -/
theorem handleNext_hear {engine : Engine} (running : engine.finished = false) :
    handleNext supply (engine.hear later) =
      match handleNext supply engine with
      | .ok none stopped => handleNext supply (stopped.hear later)
      | .ok (some events) handled => .ok (some events) (handled.hear later)
      | .error error failed => .error error (failed.hear later) := by
  rw [hear_running later running]
  have taking : Inbound.next (engine.inbound.feed later) = _ := Inbound.next_feed later
  cases taken : Inbound.next engine.inbound with
  | error error failed =>
    simp only [taken] at taking
    have after : Engine.finished { engine with inbound := failed } = false := running
    simp only [handleNext, focus, bind_apply, taken, taking, hear_running later after]
  | ok found inbound =>
    simp only [taken] at taking
    have after : Engine.finished { engine with inbound } = false := running
    cases found with
    | none =>
      simp only [handleNext, focus, bind_apply, taken, taking, pure_apply, hear_running later after]
    | some payload =>
      -- behind the payload nothing looks at the bytes, so the new ones may have come before
      have handling : Overlooks (hear later) (do
          let entropy ← draw supply
          return some (← transition supply (Handshake.onPacket entropy payload))) :=
        .bind (hear_unseen later).draw fun entropy =>
          .bind ((hear_unseen later).transition _) fun events => .pure _
      have handled := handling { engine with inbound }
      rw [hear_running later after] at handled
      simp only [handleNext, focus, bind_apply, taken, taking] at handled ⊢
      rw [handled]
      cases draw supply { engine with inbound } with
      | error error failed => rfl
      | ok entropy drawn =>
        simp only
        cases transition supply (Handshake.onPacket entropy payload) drawn <;> rfl

theorem teardown_hear (engine : Engine) : (engine.hear later).teardown = engine.teardown := by
  cases ended : engine.finished <;> simp [hear, ended, teardown]

/-- A failure leaves nothing of the bytes that have not been looked at. -/
theorem fail_hear (error : Error) (engine : Engine) :
    (engine.hear later).fail supply error = engine.fail supply error := by
  have owes : (engine.hear later).owesDisconnect error = engine.owesDisconnect error := by
    cases ended : engine.finished <;> simp [hear, ended, owesDisconnect]
  have telling : sendPayload supply (disconnectFor error).toBytes (engine.hear later) = _ :=
    (hear_unseen later).sendPayload (disconnectFor error).toBytes engine
  simp only [fail, owes, telling]
  split
  · cases sendPayload supply (disconnectFor error).toBytes engine <;>
      simp only [mapState, teardown_hear]
  · rw [teardown_hear]

/-- Draining goes on where it stopped. -/
theorem drain_hear (engine : Engine) : drain supply (engine.hear later) =
    let (events, stopped) := engine.drain supply
    let (more, done) := drain supply (stopped.hear later)
    (events ++ more, done) := by
  -- every payload that is handled shortens the backlog
  induction size : engine.backlog using Nat.strongRecOn generalizing engine with
  | _ n ih =>
    rcases Bool.eq_false_or_eq_true engine.finished with ended | running
    · simp [drain_finished ended, hear_finished later ended]
    have heard : (engine.hear later).finished = false := by simp [hear, running]
    have handling : handleNext supply (engine.hear later) = _ := handleNext_hear later running
    cases handled : handleNext supply engine with
    | error error failed =>
      rw [handled] at handling
      have dead : (failed.fail supply error).2.finished = true := rfl
      simp [drain_error running handled, drain_error heard handling, fail_hear,
        hear_finished later dead, drain_finished dead]
    | ok found after =>
      rw [handled] at handling
      cases found with
      | none =>
        obtain ⟨inbound, -, rfl⟩ := handleNext_none handled
        have afterHeard : Engine.finished (hear later { engine with inbound }) = false := by
          simp [hear, running]
        rw [drain_none running handled, drain_congr heard afterHeard handling]
        simp
      | some events =>
        rw [drain_some running handled, drain_some heard handling,
          ih after.backlog (size ▸ backlog_handleNext handled) after rfl]
        simp

end Resumed

end SecureShell.Engine
