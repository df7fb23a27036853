import SecureShell.Engine
import SecureShell.Proofs.Pipeline.Sending

/-! What an engine does with the actions that a transition asks for. Each payload
becomes one entry of the queue, in order; what the caller hears can be read off the
actions. Nothing that a transition asks for can fail. -/
namespace SecureShell

def Action.events : Action → List Event
  | .established => [.established]
  | .deliver data => [.data data]
  | .closed => [.closed]
  | .send _ | .armOutbound _ | .armInbound _ | .compress _ _ => []

/-- Keys that an action brings have the lengths that their algorithms want. -/
def Action.Sized : Action → Prop
  | .armOutbound keys | .armInbound keys => keys.Sized
  | .send _ | .compress _ _ | .established | .deliver _ | .closed => True

namespace Engine

variable {supply : Supply} {actions rest : List Action} {engine after : Engine} {wires : List Bytes}

/-- Actions are carried out one after the other, and wires are queued. -/
inductive Performs (supply : Supply) : List Action → Engine → List Bytes → Engine → Prop where
  | nil {engine : Engine} : Performs supply [] engine [] engine
  | send {payload wire : Bytes} {outbound : Outbound} {rest : List Action} {wires : List Bytes}
      {engine after : Engine} :
      Outbound.send (supply.source engine.drawn) payload engine.outbound = .ok wire outbound →
      Performs supply rest
        { engine with outbound, queue := wire :: engine.queue, drawn := engine.drawn + 1 } wires
        after →
      Performs supply (.send payload :: rest) engine (wire :: wires) after
  | armOutbound {keys : DirectionKeys} {outbound : Outbound} {rest : List Action}
      {wires : List Bytes} {engine after : Engine} :
      engine.outbound.arm keys = .ok outbound →
      Performs supply rest { engine with outbound } wires after →
      Performs supply (.armOutbound keys :: rest) engine wires after
  | armInbound {keys : DirectionKeys} {inbound : Inbound} {rest : List Action}
      {wires : List Bytes} {engine after : Engine} :
      engine.inbound.arm keys = .ok inbound →
      Performs supply rest { engine with inbound } wires after →
      Performs supply (.armInbound keys :: rest) engine wires after
  | compress {outbound inbound : Bool} {rest : List Action} {wires : List Bytes}
      {engine after : Engine} :
      Performs supply rest { engine with
        outbound := if outbound then engine.outbound.activateCompression else engine.outbound
        inbound := if inbound then engine.inbound.activateCompression else engine.inbound }
        wires after →
      Performs supply (.compress outbound inbound :: rest) engine wires after
  | established {rest : List Action} {wires : List Bytes} {engine after : Engine} :
      Performs supply rest engine wires after →
      Performs supply (.established :: rest) engine wires after
  | deliver {data : ChannelData} {rest : List Action} {wires : List Bytes} {engine after : Engine} :
      Performs supply rest engine wires after →
      Performs supply (.deliver data :: rest) engine wires after
  | closed {rest : List Action} {wires : List Bytes} {engine after : Engine} :
      Performs supply rest engine.teardown wires after →
      Performs supply (.closed :: rest) engine wires after

section Computation

theorem sendPayload_ok {payload wire : Bytes} {outbound : Outbound}
    (sent : Outbound.send (supply.source engine.drawn) payload engine.outbound = .ok wire outbound) :
    sendPayload supply payload engine =
      .ok () { engine with outbound, queue := wire :: engine.queue, drawn := engine.drawn + 1 } := by
  simp only [sendPayload, bind_apply, draw, focus, sent]
  rfl

theorem change_ok {f : Engine → Except Error Engine} (changed : f engine = .ok after) :
    change f engine = .ok () after := by
  simp only [change, bind_apply, get_apply, changed]
  rfl

theorem performAll_cons {action : Action} {events more : List Event} {between : Engine}
    (first : perform supply action engine = .ok events between)
    (later : performAll supply rest between = .ok more after) :
    performAll supply (action :: rest) engine = .ok (events ++ more) after := by
  simp only [performAll, bind_apply, first, later, pure_apply]

/-- An engine that can carry out actions does, and tells the caller of them. -/
theorem Performs.performAll (performs : Performs supply actions engine wires after) :
    performAll supply actions engine = .ok (actions.flatMap Action.events) after := by
  induction performs with
  | nil => rfl
  | send sent _ ih =>
    refine performAll_cons ?_ ih
    simp only [perform, bind_apply, sendPayload_ok sent]
    rfl
  | armOutbound armed _ ih =>
    refine performAll_cons ?_ ih
    simp only [perform, bind_apply]
    rw [change_ok (by simp only [armed]; rfl)]
    rfl
  | armInbound armed _ ih =>
    refine performAll_cons ?_ ih
    simp only [perform, bind_apply]
    rw [change_ok (by simp only [armed]; rfl)]
    rfl
  | compress _ ih => exact performAll_cons rfl ih
  | established _ ih => exact performAll_cons rfl ih
  | deliver _ ih => exact performAll_cons rfl ih
  | closed _ ih => exact performAll_cons rfl ih

/-- Payloads are sent as if a transition had asked for it. -/
theorem Performs.sendAll {payloads : List Bytes}
    (performs : Performs supply (payloads.map .send) engine wires after) :
    sendAll supply payloads engine = .ok () after := by
  induction payloads generalizing engine wires with
  | nil =>
    cases performs
    rfl
  | cons payload rest ih =>
    cases performs with
    | send sent performs =>
      simp only [Engine.sendAll, bind_apply, sendPayload_ok sent]
      exact ih performs

end Computation

section Kept

/-- Nothing but `closed` ends the connection; the queue grows by what is sent. -/
structure Carries (engine : Engine) (wires : List Bytes) (after : Engine) : Prop where
  handshake : after.handshake = engine.handshake
  header : after.header = engine.header
  started : after.started = engine.started
  finished : after.finished = engine.finished
  queue : after.queue.reverse = engine.queue.reverse ++ wires

theorem Carries.trans {between : Engine} {more : List Bytes} (first : Carries engine wires between)
    (second : Carries between more after) : Carries engine (wires ++ more) after where
  handshake := second.handshake.trans first.handshake
  header := second.header.trans first.header
  started := second.started.trans first.started
  finished := second.finished.trans first.finished
  queue := by rw [second.queue, first.queue, List.append_assoc]

theorem Performs.carries (performs : Performs supply actions engine wires after)
    (stays : .closed ∉ actions) : Carries engine wires after := by
  induction performs with
  | nil => exact ⟨rfl, rfl, rfl, rfl, (List.append_nil _).symm⟩
  | send _ _ ih =>
    obtain ⟨handshake, header, started, finished, queue⟩ := ih fun later => stays (.tail _ later)
    refine ⟨handshake, header, started, finished, ?_⟩
    rw [queue, List.reverse_cons, List.append_assoc, List.singleton_append]
  | armOutbound _ _ ih | armInbound _ _ ih | compress _ ih =>
    obtain ⟨handshake, header, started, finished, queue⟩ := ih fun later => stays (.tail _ later)
    exact ⟨handshake, header, started, finished, queue⟩
  | established _ ih | deliver _ ih => exact ih fun later => stays (.tail _ later)
  | closed => exact absurd (.head _) stays

/-- Actions in front of others. -/
theorem Performs.append_inv {first second : List Action}
    (performs : Performs supply (first ++ second) engine wires after) :
    ∃ between front back, Performs supply first engine front between ∧
      Performs supply second between back after ∧ wires = front ++ back := by
  induction first generalizing engine wires with
  | nil => exact ⟨engine, [], wires, .nil, performs, rfl⟩
  | cons action rest ih =>
    cases performs with
    | send sent performs =>
      obtain ⟨between, front, back, hFirst, hSecond, rfl⟩ := ih performs
      exact ⟨between, _ :: front, back, .send sent hFirst, hSecond, rfl⟩
    | armOutbound armed performs =>
      obtain ⟨between, front, back, hFirst, hSecond, rfl⟩ := ih performs
      exact ⟨between, front, back, .armOutbound armed hFirst, hSecond, rfl⟩
    | armInbound armed performs =>
      obtain ⟨between, front, back, hFirst, hSecond, rfl⟩ := ih performs
      exact ⟨between, front, back, .armInbound armed hFirst, hSecond, rfl⟩
    | compress performs =>
      obtain ⟨between, front, back, hFirst, hSecond, rfl⟩ := ih performs
      exact ⟨between, front, back, .compress hFirst, hSecond, rfl⟩
    | established performs =>
      obtain ⟨between, front, back, hFirst, hSecond, rfl⟩ := ih performs
      exact ⟨between, front, back, .established hFirst, hSecond, rfl⟩
    | deliver performs =>
      obtain ⟨between, front, back, hFirst, hSecond, rfl⟩ := ih performs
      exact ⟨between, front, back, .deliver hFirst, hSecond, rfl⟩
    | closed performs =>
      obtain ⟨between, front, back, hFirst, hSecond, rfl⟩ := ih performs
      exact ⟨between, front, back, .closed hFirst, hSecond, rfl⟩

end Kept

section Possible

theorem ready_compress {outbound : Outbound} (ready : outbound.Ready) (active : Bool) :
    (if active then outbound.activateCompression else outbound).Ready := by
  cases active with
  | true => exact ⟨ready.framer, ready.encrypts⟩
  | false => exact ready

/-- What can send can send again. -/
theorem Performs.ready (performs : Performs supply actions engine wires after)
    (sized : ∀ action ∈ actions, action.Sized) (ready : engine.outbound.Ready) :
    after.outbound.Ready := by
  induction performs with
  | nil => exact ready
  | @send payload _ outbound _ _ engine _ sent _ ih =>
    obtain ⟨wire, left, sending, readyLeft⟩ := ready.send (supply.source engine.drawn) payload
    rw [sent] at sending
    cases sending
    exact ih (fun other later => sized other (.tail _ later)) readyLeft
  | @armOutbound keys _ _ _ engine _ armed _ ih =>
    obtain ⟨outbound, arming, readyLeft⟩ := engine.outbound.arm_ready (sized _ (.head _))
    rw [armed] at arming
    cases arming
    exact ih (fun other later => sized other (.tail _ later)) readyLeft
  | armInbound _ _ ih | established _ ih | deliver _ ih =>
    exact ih (fun other later => sized other (.tail _ later)) ready
  | compress _ ih =>
    exact ih (fun other later => sized other (.tail _ later)) (ready_compress ready _)
  | closed _ ih => exact ih (fun other later => sized other (.tail _ later)) Outbound.ready_fresh

/-- Whatever a transition asks for can be carried out: packets always fit their cipher,
derived keys their algorithms, and new inbound keys come between two packets. -/
theorem performs_of_ready (supply : Supply) (engine : Engine) (ready : engine.outbound.Ready)
    (sized : ∀ action ∈ actions, action.Sized)
    (between : ∀ keys, .armInbound keys ∈ actions → engine.inbound.opener.head = none) :
    ∃ wires after, Performs supply actions engine wires after := by
  induction actions generalizing engine with
  | nil => exact ⟨[], engine, .nil⟩
  | cons action rest ih =>
    have sizedRest : ∀ action ∈ rest, action.Sized := fun other later => sized other (.tail _ later)
    have free (keys : DirectionKeys) (later : .armInbound keys ∈ rest) :
        engine.inbound.opener.head = none := between keys (.tail _ later)
    cases action with
    | send payload =>
      obtain ⟨wire, outbound, sent, sentReady⟩ := ready.send (supply.source engine.drawn) payload
      obtain ⟨wires, after, performs⟩ := ih
        { engine with outbound, queue := wire :: engine.queue, drawn := engine.drawn + 1 }
        sentReady sizedRest free
      exact ⟨wire :: wires, after, .send sent performs⟩
    | armOutbound keys =>
      obtain ⟨outbound, armed, armedReady⟩ := engine.outbound.arm_ready (sized _ (.head _))
      obtain ⟨wires, after, performs⟩ := ih { engine with outbound } armedReady sizedRest free
      exact ⟨wires, after, .armOutbound armed performs⟩
    | armInbound keys =>
      have none := between keys (.head _)
      obtain ⟨protection, -, created, -⟩ := Protection.create_opposite (sized _ (.head _))
      let inbound : Inbound := { engine.inbound with
        opener := { engine.inbound.opener with keys := some protection.decrypting } }
      have armed : engine.inbound.arm keys = .ok inbound := by
        simp [Inbound.arm, Opener.arm, none, created, bind, Except.bind, pure, Except.pure, inbound]
      obtain ⟨wires, after, performs⟩ := ih { engine with inbound } ready sizedRest fun _ _ => none
      exact ⟨wires, after, .armInbound armed performs⟩
    | compress outbound inbound =>
      obtain ⟨wires, after, performs⟩ := ih
        { engine with
          outbound := if outbound then engine.outbound.activateCompression else engine.outbound
          inbound := if inbound then engine.inbound.activateCompression else engine.inbound }
        (ready_compress ready outbound) sizedRest (by cases inbound <;> exact free)
      exact ⟨wires, after, .compress performs⟩
    | established =>
      obtain ⟨wires, after, performs⟩ := ih engine ready sizedRest free
      exact ⟨wires, after, .established performs⟩
    | deliver data =>
      obtain ⟨wires, after, performs⟩ := ih engine ready sizedRest free
      exact ⟨wires, after, .deliver performs⟩
    | closed =>
      obtain ⟨wires, after, performs⟩ := ih engine.teardown
        Outbound.ready_fresh sizedRest fun _ _ => rfl
      exact ⟨wires, after, .closed performs⟩

end Possible

section Sends

variable {payloads : List Bytes}

theorem sends_sized : ∀ action ∈ payloads.map Action.send, action.Sized := by
  intro action member
  obtain ⟨payload, -, rfl⟩ := List.mem_map.1 member
  exact trivial

theorem sends_stay : Action.closed ∉ payloads.map Action.send := by
  intro member
  obtain ⟨payload, -, same⟩ := List.mem_map.1 member
  cases same

theorem sends_unarmed (keys : DirectionKeys) : .armOutbound keys ∉ payloads.map Action.send := by
  intro member
  obtain ⟨payload, -, same⟩ := List.mem_map.1 member
  cases same

theorem sends_events : (payloads.map Action.send).flatMap Action.events = [] := by
  rw [List.flatMap_map, List.flatMap_eq_nil_iff]
  exact fun _ _ => rfl

theorem performs_sends (supply : Supply) (engine : Engine) (ready : engine.outbound.Ready)
    (payloads : List Bytes) :
    ∃ wires after, Performs supply (payloads.map .send) engine wires after := by
  refine performs_of_ready supply engine ready sends_sized ?_
  intro keys member
  obtain ⟨payload, -, same⟩ := List.mem_map.1 member
  cases same

/-- Sending has nothing to do with what the server sends. -/
theorem Performs.inbound (performs : Performs supply (payloads.map .send) engine wires after) :
    after.inbound = engine.inbound := by
  induction payloads generalizing engine wires with
  | nil =>
    cases performs
    rfl
  | cons payload rest ih =>
    cases performs with
    | send sent performs =>
      have kept := ih performs
      exact kept

end Sends

end Engine

end SecureShell
