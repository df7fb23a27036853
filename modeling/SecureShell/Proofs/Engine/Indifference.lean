import SecureShell.Proofs.Engine.Entrusting

/-! Secrets do not show in the clear. Two clients that differ in nothing but what they have
been entrusted with queue the same bytes and give their callers the same answers, whatever
the calls and the bytes of the server are, until one of them puts outbound keys to use. The
other does so at the same packet and with the same keys, and whatever either of them queues
from then on is sealed with those. -/
namespace SecureShell.Engine

variable {supply : Supply} {engine engine' : Engine} {config config' : Config} {entropy : Entropy}

/-- What calls tell their caller, one after the other. -/
def replies : List (Supply × Call) → Engine → List Reply
  | [], _ => []
  | (supply, action) :: rest, engine =>
    reply supply action engine :: replies rest (engine.call supply action).2

/-- Two engines that the same calls cannot tell apart but by what is sealed. -/
inductive Indifferent (calls : List (Supply × Call)) (engine engine' : Engine) : Prop where
  /-- Keys are never put to use. -/
  | plain : (∀ answered switch, ¬ Switching calls engine answered switch) →
      (∀ answered switch, ¬ Switching calls engine' answered switch) →
      replies calls engine' = replies calls engine →
      (run calls engine').output = (run calls engine).output →
      Indifferent calls engine engine'
  /-- Both come to the same keys in the same way. -/
  | switched (answered : List Reply) (switch : Switch) :
      SwitchesOnce calls engine answered switch → SwitchesOnce calls engine' answered switch →
      Indifferent calls engine engine'

theorem CallsAlike.unswitching {secrets : Secrets} {action : Call} {rest : List (Supply × Call)}
    (alike : CallsAlike secrets supply action engine)
    (later : ∀ answered switch, ¬ Switching rest (engine.call supply action).2 answered switch)
    (answered : List Reply) (switch : Switch) :
    ¬ Switching ((supply, action) :: rest) engine answered switch := by
  intro switching
  cases switching with
  | now switches => exact alike.unswitched _ switches
  | later switching => exact later _ _ switching

theorem output_cons (supply : Supply) (action : Call) (rest : List (Supply × Call))
    (engine : Engine) : (run ((supply, action) :: rest) engine).output =
      action.taken engine ++ (run rest (engine.call supply action).2).output := by
  simp only [Run.output, run, List.append_assoc]

/-- A run goes the same way whatever the secrets are, until keys are put to use. -/
theorem run_entrust (secrets : Secrets) (calls : List (Supply × Call)) (sound : engine.Sound)
    (drained : engine.Drained) (plain : engine.handshake.phase.confidential = false) :
    ((∀ answered switch, ¬ Switching calls engine answered switch) ∧
        replies calls (engine.entrust secrets) = replies calls engine ∧
        (run calls (engine.entrust secrets)).output = (run calls engine).output ∧
        (run calls engine).engine.handshake.phase.confidential = false) ∨
      ∃ answered switch, Switching calls engine answered switch ∧
        Switching calls (engine.entrust secrets) answered switch := by
  induction calls generalizing engine with
  | nil => exact .inl ⟨nofun, rfl, rfl, plain⟩
  | cons next rest ih =>
    obtain ⟨supply, action⟩ := next
    rcases call_entrust secrets supply action sound plain with
      alike | ⟨switch, switches, switches'⟩
    · have same : ((engine.entrust secrets).call supply action).2 =
          (engine.call supply action).2.entrust secrets := congrArg Prod.snd alike.same
      have taken : action.taken (engine.entrust secrets) = action.taken engine := by
        cases action <;> rfl
      obtain ⟨_, -, unfolds, after⟩ := call_unfolds supply action sound drained
      rcases ih (unfolds.sound sound) after alike.plain with
        ⟨unswitched, told, output, still⟩ | ⟨answered, switch, switching, switching'⟩
      · refine .inl ⟨alike.unswitching unswitched, ?_, ?_, still⟩
        · rw [replies, replies, alike.reply, same]
          exact congrArg _ told
        · rw [output_cons, output_cons, taken, same, output]
      · rw [← same] at switching'
        have switching'' := Switching.later switching'
        rw [alike.reply, taken] at switching''
        exact .inr ⟨_, _, .later switching, switching''⟩
    · exact .inr ⟨_, _, .now switches, .now switches'⟩

theorem create_entrust (created : Engine.create entropy config = .ok engine)
    (created' : Engine.create entropy config' = .ok engine')
    (alike : Config.Alike config config') : engine' = engine.entrust config'.secrets := by
  rw [alike.eq] at created'
  obtain rfl := create_eq created
  exact create_eq created'

/-- Secrets do not show in the clear. Two clients whose configurations differ in nothing but
user, credential, command, terminal, window and packet size are given the same random bytes
and the same calls with the same bytes of the server. Until one of them puts outbound keys
to use, both answer and queue the same; the other puts the same keys to use at the same
packet; and whatever either of them queues later is sealed with those keys. -/
theorem run_indifferent (created : Engine.create entropy config = .ok engine)
    (created' : Engine.create entropy config' = .ok engine')
    (alike : Config.Alike config config') (calls : List (Supply × Call)) :
    Indifferent calls engine engine' := by
  have same := create_entrust created created' alike
  have same' := create_entrust created' created alike.symm
  have plain : engine.handshake.phase.confidential = false := by
    obtain rfl := create_eq created
    rfl
  have plain' : engine'.handshake.phase.confidential = false := by
    obtain rfl := create_eq created'
    rfl
  rcases run_entrust config'.secrets calls (create_sound created) (create_drained created) plain
    with ⟨unswitched, told, output, -⟩ | ⟨answered, switch, switching, switching'⟩
  · rcases run_entrust config.secrets calls (create_sound created') (create_drained created') plain'
      with ⟨unswitched', -⟩ | ⟨answered, switch, -, switching⟩
    · rw [← same] at told output
      exact .plain unswitched unswitched' told output
    · rw [← same'] at switching
      exact absurd switching (unswitched answered switch)
  · rw [← same] at switching'
    exact .switched answered switch (switching.switchesOnce created)
      (switching'.switchesOnce created')

/-- A client that differs from the plain one in whatever may differ. -/
def stranger : Config :=
  { plainClient with
    username := "stranger", credential := .password "password", command := some "exit"
    pty := some { term := "dumb" }, windowSize := 4096, maxPacketSize := 512 }

/-- Two clients that meet a server, write too early and lose the connection. -/
theorem run_indifferent_stranger :
    let engine : Engine :=
      { handshake := .create (.repeating [0]) plainClient, inbound := freshInbound plainClient }
    let engine' : Engine :=
      { handshake := .create (.repeating [0]) stranger, inbound := freshInbound stranger }
    let calls : List (Supply × Call) :=
      [(Entropy.repeating [0], .receive (Identification.ofSoftware "server" none).toBytes),
        (Entropy.repeating [0], .write [1]), (Entropy.repeating [0], .transportClosed none)]
    Engine.create (.repeating [0]) plainClient = .ok engine ∧
      Engine.create (.repeating [0]) stranger = .ok engine' ∧
      Config.Alike plainClient stranger ∧ Indifferent calls engine engine' := by
  intro engine engine' calls
  have created : Engine.create (.repeating [0]) plainClient = .ok engine := by rfl
  have created' : Engine.create (.repeating [0]) stranger = .ok engine' := by rfl
  have alike : Config.Alike plainClient stranger := ⟨rfl, rfl, rfl, rfl, rfl, rfl⟩
  exact ⟨created, created', alike, run_indifferent created created' alike calls⟩

end SecureShell.Engine
