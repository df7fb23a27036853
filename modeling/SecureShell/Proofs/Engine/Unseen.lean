import SecureShell.Engine
import SecureShell.Proofs.Overlooking

/-! Changes of an engine that nothing it carries out notices: they leave alone what
actions look at, and actions leave them in place. Where they also leave the handshake
alone, a transition with all that it asks for gives the same events before and after such
a change. -/
namespace SecureShell.Engine

/-- No action notices the change. -/
structure Unnoticed (f : Engine → Engine) : Prop where
  outbound : ∀ engine, (f engine).outbound = engine.outbound
  drawn : ∀ engine, (f engine).drawn = engine.drawn
  putOutbound : ∀ engine outbound, { f engine with outbound } = f { engine with outbound }
  putDrawn : ∀ engine drawn, { f engine with drawn } = f { engine with drawn }
  enqueue : ∀ engine wire,
    { f engine with queue := wire :: (f engine).queue } =
      f { engine with queue := wire :: engine.queue }
  armInbound : ∀ engine keys,
    ((f engine).inbound.arm keys).map (fun inbound => { f engine with inbound }) =
      (engine.inbound.arm keys).map (fun inbound => f { engine with inbound })
  compressInbound : ∀ engine,
    { f engine with inbound := (f engine).inbound.activateCompression } =
      f { engine with inbound := engine.inbound.activateCompression }
  teardown : ∀ engine, (f engine).teardown = f engine.teardown

/-- Neither does any transition of the handshake. -/
structure Unseen (f : Engine → Engine) : Prop extends Unnoticed f where
  handshake : ∀ engine, (f engine).handshake = engine.handshake
  putHandshake : ∀ engine handshake,
    { f engine with handshake } = f { engine with handshake }

variable {supply : Supply} {f : Engine → Engine}

namespace Unnoticed

variable (unnoticed : Unnoticed f)
include unnoticed

theorem draw : Overlooks f (draw supply) := by
  intro engine
  simp only [Engine.draw, mapState, unnoticed.drawn, unnoticed.putDrawn]

theorem sendPayload (payload : Bytes) : Overlooks f (sendPayload supply payload) := by
  refine .bind unnoticed.draw fun entropy => ?_
  refine .bind (.focus unnoticed.outbound ?_) fun wire => .modify ?_
  · exact fun outbound engine => unnoticed.putOutbound engine outbound
  · exact fun engine => unnoticed.enqueue engine wire

theorem perform_armOutbound (keys : DirectionKeys) :
    Overlooks f (perform supply (.armOutbound keys)) := by
  refine .bind ?_ fun _ => .pure []
  intro engine
  simp only [change, bind_apply, get_apply, unnoticed.outbound]
  cases engine.outbound.arm keys with
  | error error => rfl
  | ok outbound => exact congrArg (EStateM.Result.ok ()) (unnoticed.putOutbound engine outbound)

theorem perform_armInbound (keys : DirectionKeys) :
    Overlooks f (perform supply (.armInbound keys)) := by
  refine .bind ?_ fun _ => .pure []
  intro engine
  have arming := unnoticed.armInbound engine keys
  simp only [change, bind_apply, get_apply]
  cases seen : engine.inbound.arm keys with
  | error error =>
    cases here : (f engine).inbound.arm keys with
    | error same =>
      rw [seen, here] at arming
      cases arming
      rfl
    | ok inbound =>
      rw [seen, here] at arming
      cases arming
  | ok armed =>
    cases here : (f engine).inbound.arm keys with
    | error error =>
      rw [seen, here] at arming
      cases arming
    | ok inbound =>
      rw [seen, here] at arming
      exact congrArg (EStateM.Result.ok ()) (Except.ok.inj arming)

theorem perform_compress (outbound inbound : Bool) :
    Overlooks f (perform supply (.compress outbound inbound)) := by
  refine .bind ?_ fun _ => .pure []
  intro engine
  refine congrArg (EStateM.Result.ok ()) ?_
  cases outbound with
  | false =>
    cases inbound with
    | false => rfl
    | true => exact unnoticed.compressInbound engine
  | true =>
    have out := unnoticed.putOutbound engine engine.outbound.activateCompression
    cases inbound with
    | false =>
      simp only [unnoticed.outbound]
      exact out
    | true =>
      have both := unnoticed.compressInbound
        { engine with outbound := engine.outbound.activateCompression }
      rw [← out] at both
      simp only [unnoticed.outbound]
      exact both

theorem perform (action : Action) : Overlooks f (perform supply action) := by
  cases action with
  | send payload => exact .bind (unnoticed.sendPayload payload) fun _ => .pure []
  | armOutbound keys => exact unnoticed.perform_armOutbound keys
  | armInbound keys => exact unnoticed.perform_armInbound keys
  | compress outbound inbound => exact unnoticed.perform_compress outbound inbound
  | established => exact .pure _
  | deliver data => exact .pure _
  | closed => exact .bind (.modify unnoticed.teardown) fun _ => .pure _

theorem performAll (actions : List Action) : Overlooks f (performAll supply actions) := by
  induction actions with
  | nil => exact .pure []
  | cons action rest ih =>
    exact .bind (unnoticed.perform action) fun events => .bind ih fun more => .pure _

theorem sendAll (payloads : List Bytes) : Overlooks f (sendAll supply payloads) := by
  induction payloads with
  | nil => exact .pure PUnit.unit
  | cons payload rest ih => exact .bind (unnoticed.sendPayload payload) fun _ => ih

end Unnoticed

theorem Unseen.transition (unseen : Unseen f) (run : Handshake.Transition) :
    Overlooks f (transition supply run) :=
  .bind (.focus unseen.handshake fun handshake engine => unseen.putHandshake engine handshake)
    fun actions => unseen.performAll actions

end SecureShell.Engine
