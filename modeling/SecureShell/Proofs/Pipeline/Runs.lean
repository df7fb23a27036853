import SecureShell.Pipeline.Inbound
import SecureShell.Pipeline.Outbound

/-! The two ends of one direction of a connection. The sender carries out commands; the
receiver hears the bytes in pieces of any size, asks for payloads, and follows every
change of keys and compression behind the payload that came before it. -/
namespace SecureShell.Pipeline

/-- What a sender is told to do. -/
inductive Command where
  | send (entropy : Entropy) (payload : Bytes)
  | arm (keys : DirectionKeys)
  | compress

namespace Command

def payloads : List Command → List Bytes
  | [] => []
  | .send _ payload :: rest => payload :: payloads rest
  | .arm _ :: rest | .compress :: rest => payloads rest

def perform : Command → EStateM Error Outbound Bytes
  | .send entropy payload => Outbound.send entropy payload
  | .arm keys => fun outbound =>
    match outbound.arm keys with
    | .ok armed => .ok [] armed
    | .error error => .error error outbound
  | .compress => fun outbound => .ok [] outbound.activateCompression

def performAll : List Command → EStateM Error Outbound Bytes
  | [] => pure []
  | command :: rest => do
    let wire ← command.perform
    let more ← performAll rest
    return wire ++ more

end Command

/-- What happens to a receiver. -/
inductive Move where
  | feed (data : Bytes)
  /-- The receiver does what is due: it follows a change of the sender's, or else asks
  for the next payload. -/
  | turn

def Move.fed : List Move → Bytes
  | [] => []
  | .feed data :: rest => data ++ fed rest
  | .turn :: rest => fed rest

structure Receiver where
  inbound : Inbound
  /-- The sender's commands that have not been followed. -/
  due : List Command
  received : List Bytes := []

namespace Receiver

def start (limit inflateBuffer : Nat) (commands : List Command) : Receiver where
  inbound := .create limit inflateBuffer
  due := commands

/-- Asks for the next payload; one that is not there stays due. -/
def pull (receiver : Receiver) : Except Error Receiver :=
  match Inbound.next receiver.inbound with
  | .ok none inbound => .ok { receiver with inbound }
  | .ok (some payload) inbound =>
    .ok { inbound, due := receiver.due.tail, received := receiver.received ++ [payload] }
  | .error error _ => .error error

def move (receiver : Receiver) : Move → Except Error Receiver
  | .feed data => .ok { receiver with inbound := receiver.inbound.feed data }
  | .turn =>
    match receiver.due with
    | .arm keys :: due => do return { receiver with inbound := (← receiver.inbound.arm keys), due }
    | .compress :: due => .ok { receiver with inbound := receiver.inbound.activateCompression, due }
    | _ => receiver.pull

def run (receiver : Receiver) (moves : List Move) : Except Error Receiver :=
  moves.foldlM move receiver

end Receiver

end SecureShell.Pipeline
