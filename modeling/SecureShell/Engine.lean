import SecureShell.Handshake.Receive
import SecureShell.Pipeline.Inbound
import SecureShell.Pipeline.Outbound

/-!
A connection without a transport: bytes from the server go in, events and bytes
for the server come out. The first failure, and every normal end, drops all state
of the connection; afterwards nothing happens any more. Main statement: every
payload that is handled leaves less to be opened, so receiving comes to an end.
-/
namespace SecureShell

/-- What a caller has to know. -/
inductive Event where
  | established
  | data (data : ChannelData)
  | closed
  | failed (error : Error)

structure Engine (σ : Type := Compressor) [Deflation σ] where
  handshake : Handshake
  /-- The server's lines, until its identification is complete. -/
  header : Option LineReader := some {}
  outbound : Outbound σ := {}
  inbound : Inbound
  /-- The lines and packets that wait for the transport, last first. -/
  queue : List Bytes := []
  started : Bool := false
  finished : Bool := false
  /-- How many sources of random bytes have been used. -/
  drawn : Nat := 0

namespace Engine

variable {σ : Type} [Deflation σ]

def freshInbound (config : Config) : Inbound :=
  .create config.maxPacketLength config.inflateBuffer

def create (entropy : Entropy) (config : Config) (σ : Type := Compressor) [Deflation σ] :
    Except Error (Engine σ) := do
  config.check
  return { handshake := .create entropy config, inbound := freshInbound config }

/-- Queues our identification, once. -/
def start (engine : Engine σ) : Engine σ :=
  if engine.started || engine.finished then engine
  else
    { engine with
      started := true
      queue := engine.handshake.clientVersion.toBytes :: engine.queue }

/-- Drops all state of the connection but what waits for the transport. -/
def teardown (engine : Engine σ) : Engine σ :=
  { engine with
    handshake := engine.handshake.abort
    header := none
    outbound := {}
    inbound := freshInbound engine.handshake.config
    finished := true }

/-- The next source of random bytes. -/
def draw (supply : Supply) : EStateM Error (Engine σ) Entropy := fun engine =>
  .ok (supply.source engine.drawn) { engine with drawn := engine.drawn + 1 }

def sendPayload (supply : Supply) (payload : Bytes) : EStateM Error (Engine σ) Unit := do
  let entropy ← draw supply
  let wire ← focus Engine.outbound (fun outbound engine => { engine with outbound })
    (Outbound.send entropy payload)
  modify fun engine => { engine with queue := wire :: engine.queue }

/-- Changes the engine if that can be done. -/
def change (f : Engine σ → Except Error (Engine σ)) : EStateM Error (Engine σ) Unit := do
  match f (← get) with
  | .ok engine => set engine
  | .error error => throw error

def perform (supply : Supply) : Action → EStateM Error (Engine σ) (List Event)
  | .send payload => do
    sendPayload supply payload
    return []
  | .armOutbound keys => do
    change fun engine => return { engine with outbound := (← engine.outbound.arm keys) }
    return []
  | .armInbound keys => do
    change fun engine => return { engine with inbound := (← engine.inbound.arm keys) }
    return []
  | .compress outbound inbound => do
    change fun engine => return { engine with
      outbound := if outbound then engine.outbound.activateCompression else engine.outbound
      inbound := if inbound then engine.inbound.activateCompression else engine.inbound }
    return []
  | .established => return [.established]
  | .deliver data => return [.data data]
  | .closed => do
    modify teardown
    return [.closed]

def performAll (supply : Supply) : List Action → EStateM Error (Engine σ) (List Event)
  | [] => return []
  | action :: rest => do
    let events ← perform supply action
    return events ++ (← performAll supply rest)

def transition (supply : Supply) (run : Handshake.Transition) :
    EStateM Error (Engine σ) (List Event) := do
  performAll supply (← focus Engine.handshake (fun handshake engine => { engine with handshake }) run)

def handleNext (supply : Supply) : EStateM Error (Engine σ) (Option (List Event)) := do
  match ← focus Engine.inbound (fun inbound engine => { engine with inbound }) Inbound.next with
  | none => return none
  | some payload =>
    let entropy ← draw supply
    return some (← transition supply (Handshake.onPacket entropy payload))

def serverGone : Error → Bool
  | .disconnected _ _ | .io _ => true
  | _ => false

/-- Must the server be told about an error? It can be as soon as there are packets. -/
def owesDisconnect (engine : Engine σ) (error : Error) : Bool :=
  engine.header.isNone && !serverGone error

def disconnectFor (error : Error) : Disconnect where
  reason := match error with
    | .integrity _ => Disconnect.macError
    | _ => Disconnect.protocolError
  description := error.message

/-- Ends the connection because of an error. -/
def fail (supply : Supply) (error : Error) (engine : Engine σ) : List Event × Engine σ :=
  let engine :=
    if engine.owesDisconnect error then
      match sendPayload supply (disconnectFor error).toBytes engine with
      | .ok _ engine | .error _ engine => engine
    else engine
  ([.failed error], engine.teardown)

def backlog (engine : Engine σ) : Nat := engine.inbound.backlog

theorem backlog_perform {supply : Supply} {action : Action} {engine engine' : Engine σ}
    {events : List Event} (h : perform supply action engine = .ok events engine') :
    engine'.backlog ≤ engine.backlog := by
  cases action with
  | send payload =>
    obtain ⟨_, sent, hSent, h⟩ := bind_eq_ok_iff.1 h
    obtain ⟨_, _, hDrawn, hSent⟩ := bind_eq_ok_iff.1 hSent
    cases hDrawn
    obtain ⟨_, _, hWire, hQueued⟩ := bind_eq_ok_iff.1 hSent
    obtain ⟨_, _, rfl⟩ := focus_eq_ok_iff.1 hWire
    cases hQueued
    cases h
    exact Nat.le_refl _
  | armOutbound keys =>
    obtain ⟨_, changed, hChanged, h⟩ := bind_eq_ok_iff.1 h
    obtain ⟨_, _, hGet, hChanged⟩ := bind_eq_ok_iff.1 hChanged
    cases hGet
    cases hArm : engine.outbound.arm keys with
    | error error =>
      simp only [hArm, bind, Except.bind] at hChanged
      cases hChanged
    | ok outbound =>
      simp only [hArm, bind, Except.bind, pure, Except.pure] at hChanged
      cases hChanged
      cases h
      exact Nat.le_refl _
  | armInbound keys =>
    obtain ⟨_, changed, hChanged, h⟩ := bind_eq_ok_iff.1 h
    obtain ⟨_, _, hGet, hChanged⟩ := bind_eq_ok_iff.1 hChanged
    cases hGet
    cases hArm : engine.inbound.arm keys with
    | error error =>
      simp only [hArm, bind, Except.bind] at hChanged
      cases hChanged
    | ok inbound =>
      simp only [hArm, bind, Except.bind, pure, Except.pure] at hChanged
      cases hChanged
      cases h
      exact Nat.le_of_eq (Inbound.backlog_arm hArm)
  | compress outbound inbound =>
    obtain ⟨_, changed, hChanged, h⟩ := bind_eq_ok_iff.1 h
    obtain ⟨_, _, hGet, hChanged⟩ := bind_eq_ok_iff.1 hChanged
    cases hGet
    cases hChanged
    cases h
    cases inbound <;> exact Nat.le_refl _
  | established =>
    cases h
    exact Nat.le_refl _
  | deliver data =>
    cases h
    exact Nat.le_refl _
  | closed =>
    obtain ⟨_, ended, hEnded, h⟩ := bind_eq_ok_iff.1 h
    cases hEnded
    cases h
    exact Nat.zero_le _

theorem backlog_performAll {supply : Supply} {actions : List Action} {engine engine' : Engine σ}
    {events : List Event} (h : performAll supply actions engine = .ok events engine') :
    engine'.backlog ≤ engine.backlog := by
  induction actions generalizing engine events with
  | nil =>
    cases h
    exact Nat.le_refl _
  | cons action rest ih =>
    obtain ⟨_, _, hFirst, h⟩ := bind_eq_ok_iff.1 h
    obtain ⟨_, _, hRest, h⟩ := bind_eq_ok_iff.1 h
    cases h
    exact Nat.le_trans (ih hRest) (backlog_perform hFirst)

/-- Handling a payload leaves less to be opened. -/
theorem backlog_handleNext {supply : Supply} {engine engine' : Engine σ} {events : List Event}
    (h : handleNext supply engine = .ok (some events) engine') :
    engine'.backlog < engine.backlog := by
  obtain ⟨found, opened, hOpened, h⟩ := bind_eq_ok_iff.1 h
  obtain ⟨inbound, hNext, rfl⟩ := focus_eq_ok_iff.1 hOpened
  cases found with
  | none => cases h
  | some payload =>
    obtain ⟨_, _, hDrawn, h⟩ := bind_eq_ok_iff.1 h
    cases hDrawn
    obtain ⟨_, _, hHandled, h⟩ := bind_eq_ok_iff.1 h
    cases h
    obtain ⟨_, _, hStep, hActions⟩ := bind_eq_ok_iff.1 hHandled
    obtain ⟨_, _, rfl⟩ := focus_eq_ok_iff.1 hStep
    exact Nat.lt_of_le_of_lt (backlog_performAll hActions) (Inbound.backlog_next hNext)

/-- Handles payloads until the connection ends or more bytes are needed. -/
def drain (supply : Supply) (engine : Engine σ) : List Event × Engine σ :=
  if engine.finished then ([], engine)
  else
    match _ : handleNext supply engine with
    | .ok none engine => ([], engine)
    | .ok (some events) engine =>
      let (more, engine) := drain supply engine
      (events ++ more, engine)
    | .error error engine => engine.fail supply error
  termination_by engine.backlog
  decreasing_by exact backlog_handleNext ‹_›

/-- Takes bytes of the server's lines; gives those behind its identification. -/
def readHeader (reader : LineReader) (data : Bytes) :
    EStateM Error (Engine σ) (Option (Identification × Bytes)) := fun engine =>
  match LineReader.feed data reader with
  | .ok none reader => .ok none { engine with header := some reader }
  | .ok (some found) _ => .ok (some found) { engine with header := none }
  | .error error reader => .error error { engine with header := some reader }

/-- Takes bytes up to the first packet. Once the server has introduced itself, the
bytes behind its identification wait to be opened. -/
def accept (supply : Supply) (data : Bytes) : EStateM Error (Engine σ) (List Event) := do
  match (← get).header with
  | none =>
    modify fun engine => { engine with inbound := engine.inbound.feed data }
    return []
  | some reader =>
    match ← readHeader reader data with
    | none => return []
    | some (version, rest) =>
      let events ← transition supply (Handshake.onVersion version)
      modify fun engine => { engine with inbound := engine.inbound.feed rest }
      return events

/-- Takes bytes from the server; an engine that has ended ignores them. -/
def receive (supply : Supply) (data : Bytes) (engine : Engine σ) : List Event × Engine σ :=
  if engine.finished then ([], engine)
  else
    match accept supply data engine.start with
    | .error error engine => engine.fail supply error
    | .ok events engine =>
      let (more, engine) := engine.drain supply
      (events ++ more, engine)

/-- Ends the connection because its transport is gone, for a reason if one is known. -/
def transportClosed (cause : Option String) (engine : Engine σ) : List Event × Engine σ :=
  if engine.finished then ([], engine)
  else
    let unknown := "Connection closed in state " ++ engine.handshake.phase.name
    ([.failed (.io (cause.getD unknown))], engine.teardown)

/-- Queues payloads up to the first that cannot be sent. -/
def sendAll (supply : Supply) : List Bytes → EStateM Error (Engine σ) Unit
  | [] => return
  | payload :: rest => do
    sendPayload supply payload
    sendAll supply rest

def write (supply : Supply) (data : Bytes) : EStateM Error (Engine σ) Unit := fun engine =>
  if engine.finished then .error .closed engine
  else
    match engine.handshake.write data with
    | .error error => .error error engine
    | .ok messages =>
      match sendAll supply messages engine with
      | .ok () engine => .ok () engine
      | .error error engine => .error error engine.teardown

/-- Takes leave of the server and ends the connection. -/
def close (supply : Supply) : EStateM Error (Engine σ) Unit := fun engine =>
  if engine.finished then .error .closed engine
  else
    let (messages, handshake) := engine.handshake.close
    match sendAll supply messages { engine with handshake } with
    | .ok () engine => .ok () engine.teardown
    | .error error engine => .error error engine.teardown

def outgoing (engine : Engine σ) : Bytes := engine.queue.reverse.flatten

def takeOutgoing (engine : Engine σ) : Bytes × Engine σ :=
  (engine.outgoing, { engine with queue := [] })

def isEstablished (engine : Engine σ) : Bool := engine.handshake.phase == .established

end Engine

end SecureShell
