import SecureShell.Engine

/-!
A session on top of an engine: one loop that takes what the transport and the
caller bring, one at a time, and reports to the caller. Data that is written
before the session is established waits for it; of what is reported, the first
end is the last.
-/
namespace SecureShell

/-- What the loop can be woken by. -/
inductive Stimulus where
  | received (data : Bytes)
  | streamEnded
  | readFailed (reason : String)
  | write (data : Bytes)
  /-- The caller closes the session, or lets go of it. -/
  | close
  deriving DecidableEq

/-- What one turn of the loop, or several, brought about. -/
structure Report where
  events : List Event := []
  /-- What was written to the transport. -/
  written : Bytes := []

def Report.append (first second : Report) : Report :=
  ⟨first.events ++ second.events, first.written ++ second.written⟩

def Event.isEnd : Event → Bool
  | .closed | .failed _ => true
  | .established | .data _ => false

def Event.isEstablished : Event → Bool
  | .established => true
  | _ => false

def Event.upToEnd : List Event → List Event
  | [] => []
  | event :: rest => if event.isEnd then [event] else event :: upToEnd rest

structure Session where
  engine : Engine
  /-- Writes that wait for the session to be established, in order. -/
  queued : List Bytes := []

namespace Session

def finished (session : Session) : Bool := session.engine.finished

def failure : Except Error Unit → List Event
  | .ok () => []
  | .error error => [.failed error]

/-- Runs a command on the engine; what goes wrong becomes an event. -/
def command (run : EStateM Error Engine Unit) (engine : Engine) : Except Error Unit × Engine :=
  match run engine with
  | .ok () engine => (.ok (), engine)
  | .error error engine => (.error error, engine)

/-- Closes the engine; it is no failure that it has ended before. -/
def closeEngine (supply : Supply) (engine : Engine) : List Event × Engine :=
  match command (Engine.close supply) engine with
  | (.ok (), engine) => ([.closed], engine)
  | (.error .closed, engine) => ([], engine)
  | (.error error, engine) => ([.failed error], engine)

/-- Takes what has woken the loop. -/
def react (supply : Supply) (stimulus : Stimulus) (session : Session) : List Event × Session :=
  let run (result : List Event × Engine) : List Event × Session :=
    (result.1, { session with engine := result.2 })
  match stimulus with
  | .received data => run (session.engine.receive supply data)
  | .streamEnded => run (session.engine.transportClosed none)
  | .readFailed reason => run (session.engine.transportClosed (some reason))
  | .close => run (closeEngine supply session.engine)
  | .write data =>
    if session.engine.isEstablished then
      let (result, engine) := command (Engine.write supply data) session.engine
      run (failure result, engine)
    else ([], { session with queued := session.queued ++ [data] })

/-- Writes what was queued, up to the first failure. -/
def writeQueued (supply : Supply) : List Bytes → Engine → List Event × Engine
  | [], engine => ([], engine)
  | data :: rest, engine =>
    match command (Engine.write supply data) engine with
    | (.ok (), engine) => writeQueued supply rest engine
    | (.error error, engine) => ([.failed error], engine)

/-- Sends what was queued as soon as the session is established. -/
def release (supply : Supply) (events : List Event) (session : Session) :
    List Event × Session :=
  if events.any Event.isEstablished then
    let (more, engine) := writeQueued supply session.queued session.engine
    (events ++ more, { engine, queued := [] })
  else (events, session)

/-- Writes what waits for the transport, which may be broken, and reports the events. -/
def flush (broken : Option String) (events : List Event) (session : Session) :
    Report × Session :=
  let (bytes, engine) := session.engine.takeOutgoing
  if bytes.isEmpty then (⟨Event.upToEnd events, []⟩, session)
  else
    match broken with
    | none => (⟨Event.upToEnd events, bytes⟩, { session with engine })
    | some reason =>
      let (more, engine) := engine.transportClosed (some reason)
      (⟨Event.upToEnd (events ++ more), []⟩, { session with engine })

/-- Begins a session: our identification is sent. -/
def begin (entropy : Entropy) (broken : Option String) (config : Config) :
    Except Error (Report × Session) := do
  let engine ← Engine.create entropy config
  return flush broken [] { engine := engine.start }

def turn (supply : Supply) (broken : Option String) (stimulus : Stimulus)
    (session : Session) : Report × Session :=
  let (events, session) := session.react supply stimulus
  let (events, session) := session.release supply events
  session.flush broken events

/-- What one turn of the loop meets: random bytes, a transport that may be broken, and what
has woken the loop. -/
structure Turn where
  supply : Supply
  broken : Option String := none
  stimulus : Stimulus

/-- Runs the loop turn by turn; it stops when the session has ended. -/
def live : List Turn → Session → Report × Session
  | [], session => ({}, session)
  | turn :: rest, session =>
    if session.finished then ({}, session)
    else
      let (first, session) := session.turn turn.supply turn.broken turn.stimulus
      let (second, session) := live rest session
      (first.append second, session)

/-- Runs the loop with one source of random bytes and one state of the transport throughout. -/
def run (supply : Supply) (broken : Option String) (stimuli : List Stimulus) (session : Session) :
    Report × Session :=
  live (stimuli.map (⟨supply, broken, ·⟩)) session

def checkRunning (session : Session) : Except Error Unit :=
  if session.finished then .error .closed else .ok ()

end Session

end SecureShell
