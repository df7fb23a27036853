import SecureShell.Handshake.Receive

/-! Runs of a handshake: any calls in any order, those that fail included. A history
keeps what was asked and what came of it, so that what has been said between client
and server can be read off it. -/
namespace SecureShell

namespace Handshake

/-- What a caller can do with a handshake; each packet comes with random bytes. -/
inductive Call where
  | version (version : Identification)
  | packet (entropy : Entropy) (payload : Bytes)
  | write (data : Bytes)
  | close
  | abort

def outcome : EStateM.Result Error Handshake (List Action) → Except Error (List Action) × Handshake
  | .ok actions h => (.ok actions, h)
  | .error error h => (.error error, h)

theorem outcome_eq_ok {result : EStateM.Result Error Handshake (List Action)}
    {actions : List Action} {h : Handshake} (succeeded : outcome result = (.ok actions, h)) :
    result = .ok actions h := by
  cases result with
  | ok =>
    cases succeeded
    rfl
  | error => cases succeeded

def call (call : Call) (h : Handshake) : Except Error (List Action) × Handshake :=
  match call with
  | .version version => outcome (onVersion version h)
  | .packet entropy payload => outcome (onPacket entropy payload h)
  | .write data => ((h.write data).map (·.map .send), h)
  | .close => (.ok (h.close.1.map .send), h.close.2)
  | .abort => (.ok [], h.abort)

structure Record where
  call : Call
  outcome : Except Error (List Action)

def run : List Call → Handshake → List Record × Handshake
  | [], h => ([], h)
  | call :: rest, h =>
    let (outcome, h) := h.call call
    let (history, h) := run rest h
    (⟨call, outcome⟩ :: history, h)

theorem run_cons {action : Call} {rest : List Call} {h next : Handshake}
    {outcome : Except Error (List Action)} (done : h.call action = (outcome, next)) :
    run (action :: rest) h = (⟨action, outcome⟩ :: (run rest next).1, (run rest next).2) := by
  simp only [run, done]

theorem run_append (first second : List Call) (h : Handshake) :
    run (first ++ second) h =
      ((run first h).1 ++ (run second (run first h).2).1, (run second (run first h).2).2) := by
  induction first generalizing h with
  | nil => rfl
  | cons call rest ih => simp only [List.cons_append, run, ih]

/-- What every call keeps, a run keeps. -/
theorem run_keeps (good : Handshake → Prop)
    (step : ∀ {h : Handshake}, good h → ∀ action, good (h.call action).2) {h : Handshake}
    (start : good h) (calls : List Call) : good (run calls h).2 := by
  induction calls generalizing h with
  | nil => exact start
  | cons action rest ih => exact ih (step start action)

end Handshake

def Action.sent? (code : MessageCode) : Action → Option Bytes
  | .send message => if message.head? = some code.toByte then some message else none
  | _ => none

namespace Handshake

/-- The messages of one kind that were sent in answer to a packet, each with the packet. -/
def Record.answers (code : MessageCode) : Record → List (Bytes × Bytes)
  | ⟨.packet _ payload, .ok actions⟩ => (actions.filterMap (·.sent? code)).map (payload, ·)
  | _ => []

/-- An identification of the server that was accepted, with the message sent in answer. -/
def Record.introduction : Record → List (Identification × Bytes)
  | ⟨.version version, .ok [.send message]⟩ => [(version, message)]
  | _ => []

def answers (code : MessageCode) (history : List Record) : List (Bytes × Bytes) :=
  history.flatMap (·.answers code)

def introductions (history : List Record) : List (Identification × Bytes) :=
  history.flatMap (·.introduction)

def Record.asked : Record → List Action
  | ⟨_, .ok actions⟩ => actions
  | ⟨_, .error _⟩ => []

theorem asked_of_ok {record : Record} {actions : List Action} (done : record.outcome = .ok actions) :
    record.asked = actions := by
  cases record
  cases done
  rfl

def asked (history : List Record) : List Action := history.flatMap (·.asked)

end Handshake

end SecureShell
