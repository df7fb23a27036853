import SecureShell.Engine

/-! Runs of an engine: what a caller can do with it, in any order and as often as it
likes, with what comes of it, and the engines that come about so. -/
namespace SecureShell.Engine

variable {σ : Type} [Deflation σ]

theorem create_eq {entropy : Entropy} {config : Config} {engine : Engine σ}
    (created : Engine.create entropy config σ = .ok engine) :
    engine = { handshake := .create entropy config, inbound := freshInbound config } := by
  simp only [Engine.create, bind, Except.bind] at created
  split at created
  · cases created
  · cases created
    rfl

theorem create_checked {entropy : Entropy} {config : Config} {engine : Engine σ}
    (created : Engine.create entropy config σ = .ok engine) : config.check = .ok () := by
  obtain ⟨_, checked, -⟩ := exceptBind_eq_ok_iff.1 created
  exact checked

/-- What a caller can do with an engine. -/
inductive Call where
  | start
  | receive (data : Bytes)
  | write (data : Bytes)
  | close
  | transportClosed (cause : Option String)
  | takeOutgoing
  deriving DecidableEq

/-- The engine that a computation leaves, whether it fails or not. -/
def left (run : EStateM Error (Engine σ) Unit) (engine : Engine σ) : Engine σ :=
  match run engine with
  | .ok () engine => engine
  | .error _ engine => engine

/-- The events that a call brings about, and the engine after it. -/
def call (supply : Supply) (call : Call) (engine : Engine σ) : List Event × Engine σ :=
  match call with
  | .start => ([], engine.start)
  | .receive data => engine.receive supply data
  | .write data => ([], left (write supply data) engine)
  | .close => ([], left (close supply) engine)
  | .transportClosed cause => engine.transportClosed cause
  | .takeOutgoing => ([], engine.takeOutgoing.2)

section Run

def Call.received : Call → Bytes
  | .receive data => data
  | .start | .write _ | .close | .transportClosed _ | .takeOutgoing => []

def Call.taken (engine : Engine σ) : Call → List Bytes
  | .takeOutgoing => engine.queue.reverse
  | .start | .receive _ | .write _ | .close | .transportClosed _ => []

/-- What has come of calls. -/
structure Run (σ : Type := Compressor) [Deflation σ] where
  events : List Event
  /-- The lines and packets that the transport has got. -/
  taken : List Bytes
  engine : Engine σ

/-- Makes calls one after the other, each with random bytes of its own. -/
def run : List (Supply × Call) → Engine σ → Run σ
  | [], engine => ⟨[], [], engine⟩
  | (supply, action) :: rest, engine =>
    let (events, after) := engine.call supply action
    let later := run rest after
    ⟨events ++ later.events, action.taken engine ++ later.taken, later.engine⟩

/-- Every line and packet that was queued, in order. -/
def Run.output (run : Run σ) : List Bytes := run.taken ++ run.engine.queue.reverse

theorem run_append (first second : List (Supply × Call)) (engine : Engine σ) :
    run (first ++ second) engine =
      let front := run first engine
      let back := run second front.engine
      ⟨front.events ++ back.events, front.taken ++ back.taken, back.engine⟩ := by
  induction first generalizing engine with
  | nil => rfl
  | cons call rest ih =>
    obtain ⟨supply, action⟩ := call
    simp only [List.cons_append, run, ih, List.append_assoc]

def received (calls : List (Supply × Call)) : Bytes := calls.flatMap (·.2.received)

end Run

/-- The engines that calls lead to, each with random bytes of its own. -/
inductive Reachable : Engine σ → Prop where
  | created {entropy : Entropy} {config : Config} {engine : Engine σ} :
      Engine.create entropy config σ = .ok engine → Reachable engine
  | called {engine : Engine σ} (supply : Supply) (action : Call) :
      Reachable engine → Reachable (engine.call supply action).2

end SecureShell.Engine
