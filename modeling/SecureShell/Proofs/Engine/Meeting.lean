import SecureShell.Proofs.Engine.Unfolding
import SecureShell.Proofs.Handshake.Completion

/-! A new engine meets an honest server. It reads the server's line, and then packets, one
after the other. In the clear they can arrive together: behind the server's reply the engine
waits for the server's NEWKEYS. A server that puts the keys to use where the engine does,
compresses where the engine inflates, and sends one packet after the other, leads it through
to the established session. -/
namespace SecureShell

def Packet.plain (entropy : Entropy) (payload : Bytes) : Bytes :=
  (Packet.frame entropy Packet.defaultBlockSize payload).toBytes

/-- Without keys and compression a payload goes out in a packet in the clear. -/
theorem Outbound.Exposed.send_eq {outbound : Outbound} {count : Nat}
    (exposed : outbound.Exposed count) (entropy : Entropy) (payload : Bytes) :
    ∃ after, Outbound.send entropy payload outbound = .ok (Packet.plain entropy payload) after ∧
      after.Exposed (count + 1) := by
  cases exposed
  refine ⟨{ sealer := { sequence := UInt32.ofNat (count + 1) } }, ?_, rfl⟩
  rw [← sequence_succ]
  rfl

def Action.deflates : Action → Bool
  | .compress outbound _ => outbound
  | _ => false

/-- Changes how the packets of the server are read. -/
def Action.rereads : Action → Bool
  | .armInbound _ => true
  | .compress _ inbound => inbound
  | _ => false

/-- Short enough for a packet of at most `limit` bytes, also when it is compressed. -/
def Packet.Carries (limit : Nat) (payload : Bytes) : Prop :=
  payload.length + 20 ≤ limit ∧
    (Zlib.streamHeader ++ Zlib.deflate payload).length + 20 ≤ limit

instance (limit : Nat) (payload : Bytes) : Decidable (Packet.Carries limit payload) :=
  inferInstanceAs (Decidable (_ ∧ _))

theorem Packet.Carries.compress {limit : Nat} {payload : Bytes} (carries : Carries limit payload)
    (c : Compressor) : (c.compress payload).1.length + 20 ≤ limit := by
  obtain ⟨plain, deflated⟩ := carries
  rw [List.length_append] at deflated
  rw [Compressor.compress]
  split
  · split
    · exact Nat.le_trans (by simp) deflated
    · rw [List.length_append]
      exact deflated
  · exact plain

namespace Engine

open Handshake

variable {supply : Supply} {engine after : Engine} {h next : Handshake} {limit : Nat}
  {stream later payload wire : Bytes} {wires : List Bytes} {actions : List Action}
  {server sender : Outbound} {padding : Entropy}

section Following

/-- Only the switch to compression changes whether an engine compresses. -/
theorem Performs.compressing (performs : Performs supply actions engine wires after)
    (stays : .closed ∉ actions) :
    after.outbound.compressing =
      (engine.outbound.compressing || actions.any Action.deflates) := by
  induction performs with
  | nil => exact (Bool.or_false _).symm
  | send sent _ ih =>
    obtain ⟨sealer, -, rfl⟩ := Outbound.send_ok sent
    rw [ih fun later => stays (.tail _ later)]
    congr 1
    simp only [Outbound.compressing, Compressor.compress]
    split <;> rfl
  | armOutbound armed _ ih =>
    obtain ⟨sealer, -, armed⟩ := exceptBind_eq_ok_iff.1 armed
    cases armed
    exact ih fun later => stays (.tail _ later)
  | armInbound _ _ ih | established _ ih | deliver _ ih =>
    exact ih fun later => stays (.tail _ later)
  | @compress outbound _ _ _ _ _ _ ih =>
    rw [ih fun later => stays (.tail _ later), List.any_cons, ← Bool.or_assoc]
    congr 1
    cases outbound with
    | true => exact (Bool.or_true _).symm
    | false => exact (Bool.or_false _).symm
  | closed => exact absurd (.head _) stays

/-- A sender that puts keys to use and compresses where the engine expects it stays in step
with it. -/
theorem Performs.follows (performs : Performs supply actions engine wires after)
    (sized : ∀ action ∈ actions, action.Sized) (stays : .closed ∉ actions) (ready : server.Ready)
    (follows : engine.inbound.Follows limit server) :
    ∃ sender : Outbound, sender.Ready ∧ after.inbound.Follows limit sender ∧
      after.inbound.opener.buffer = engine.inbound.opener.buffer ∧
      (actions.any Action.rereads = false → sender = server) := by
  induction performs generalizing server with
  | nil => exact ⟨server, ready, follows, rfl, fun _ => rfl⟩
  | send _ _ ih | armOutbound _ _ ih | established _ ih | deliver _ ih =>
    exact ih (fun other later => sized other (.tail _ later)) (fun later => stays (.tail _ later))
      ready follows
  | @armInbound keys _ _ _ _ _ armed _ ih =>
    obtain ⟨_, -, armedReady, -, switches⟩ := Inbound.arm_follows server (sized _ (.head _))
    obtain ⟨_, also, following, unread⟩ := switches follows
    rw [armed] at also
    cases also
    obtain ⟨sender, sends, followed, buffer, -⟩ := ih
      (fun other later => sized other (.tail _ later)) (fun later => stays (.tail _ later))
      armedReady following
    exact ⟨sender, sends, followed, buffer.trans unread, nofun⟩
  | @compress outbound inbound _ _ engine _ _ ih =>
    cases inbound with
    | true =>
      have activated : server.activateCompression.Ready := ⟨ready.framer, ready.encrypts⟩
      obtain ⟨sender, sends, followed, buffer, -⟩ := ih
        (fun other later => sized other (.tail _ later)) (fun later => stays (.tail _ later))
        activated follows.activate
      exact ⟨sender, sends, followed, buffer, nofun⟩
    | false =>
      exact ih (fun other later => sized other (.tail _ later))
        (fun later => stays (.tail _ later)) ready follows
  | closed => exact absurd (.head _) stays

end Following

/-- Stands at this point of the handshake, in step with what the server sends, and has these
bytes before it. -/
structure Listens (engine : Engine) (h : Handshake) (server : Outbound) (limit : Nat)
    (stream : Bytes) : Prop where
  running : engine.finished = false
  known : engine.header = none
  started : engine.started = true
  handshake : engine.handshake = h
  ready : engine.outbound.Ready
  sends : server.Ready
  follows : engine.inbound.Follows limit server
  buffer : engine.inbound.opener.buffer = stream

/-- The packet that has arrived is the next payload. -/
theorem Listens.arrives (listens : Listens engine h server limit (wire ++ later))
    (sent : Outbound.send padding payload server = .ok wire sender)
    (fits : Packet.Carries limit payload) (field : limit < 2 ^ 32) :
    sender.Ready ∧ ∃ inbound, Inbound.next engine.inbound = .ok (some payload) inbound ∧
      inbound.Follows limit sender ∧ inbound.opener.buffer = later := by
  have accepts : server.Accepts limit padding payload :=
    listens.sends.accepts (Nat.le_of_add_right_le fits.1) (fits.compress _) field
  obtain ⟨_, _, sending, ready, -, takes⟩ := Inbound.next_send listens.sends accepts
  rw [sent] at sending
  cases sending
  exact ⟨ready, takes listens.follows listens.buffer⟩

/-- A packet is handed to the handshake, and what that asks for is done. -/
theorem Listens.packet (supply : Supply)
    (listens : Listens engine h server limit (wire ++ later))
    (sent : Outbound.send padding payload server = .ok wire sender)
    (fits : Packet.Carries limit payload) (field : limit < 2 ^ 32)
    (passed : h.call (.packet (supply.source engine.drawn) payload) = (.ok actions, next))
    (stays : .closed ∉ actions) :
    ∃ after heard, engine.drain supply = (actions.flatMap Action.events ++ (after.drain supply).1,
        (after.drain supply).2) ∧
      Listens after next heard limit later ∧
      after.outbound.compressing =
        (engine.outbound.compressing || actions.any Action.deflates) ∧
      (actions.any Action.rereads = false → heard = sender) := by
  obtain ⟨senderReady, inbound, taken, follows, buffer⟩ := listens.arrives sent fits field
  rw [← listens.handshake] at passed
  have accepted : onPacket (supply.source engine.drawn) payload engine.handshake =
      .ok actions next := outcome_eq_ok passed
  have sized := sized_of_reaction (reaction_of_onPacket accepted)
  obtain ⟨wires, after, performs⟩ := performs_of_ready supply
    { engine with inbound, handshake := next, drawn := engine.drawn + 1 } listens.ready sized
    fun _ _ => follows.opener.free
  have carried := performs.carries stays
  have handling := handleNext_some supply taken
  rw [transition_ok _ (by exact accepted) performs] at handling
  obtain ⟨heard, sends, following, unread, kept⟩ := performs.follows sized stays senderReady follows
  refine ⟨after, heard, drain_some listens.running handling, ?_, performs.compressing stays, kept⟩
  exact
    { running := carried.finished.trans listens.running
      known := carried.header.trans listens.known
      started := carried.started.trans listens.started
      handshake := carried.handshake
      ready := performs.ready sized listens.ready
      sends
      follows := following
      buffer := unread.trans buffer }

/-- A packet that the handshake refuses ends the connection with its error. -/
theorem Listens.refused {error : Error} {failed : Handshake} (supply : Supply)
    (listens : Listens engine h server limit (wire ++ later))
    (sent : Outbound.send padding payload server = .ok wire sender)
    (fits : Packet.Carries limit payload) (field : limit < 2 ^ 32)
    (refused : onPacket (supply.source engine.drawn) payload h = .error error failed) :
    (engine.drain supply).1 = [.failed error] := by
  obtain ⟨-, inbound, taken, -⟩ := listens.arrives sent fits field
  rw [← listens.handshake] at refused
  have handling := handleNext_some supply taken
  rw [transition_error (by exact refused)] at handling
  rw [drain_error listens.running handling]
  rfl

theorem Listens.waits (supply : Supply) (listens : Listens engine h server limit []) :
    engine.drain supply = ([], engine) := by
  have waiting := listens.follows.next_empty listens.buffer
  exact drain_none listens.running (handleNext_waits waiting)

theorem Listens.feed (listens : Listens engine h server limit []) (wire : Bytes) :
    Listens { engine with inbound := engine.inbound.feed wire } h server limit wire :=
  { listens with
    follows := listens.follows.feed wire
    buffer := congrArg (· ++ wire) listens.buffer }

/-- The next packet of a server that has sent nothing else yet. -/
theorem Listens.receive (supply : Supply) (listens : Listens engine h server limit [])
    (fits : Packet.Carries limit payload) (field : limit < 2 ^ 32)
    (passed : h.call (.packet (supply.source engine.drawn) payload) = (.ok actions, next))
    (stays : .closed ∉ actions) :
    ∃ wire heard, engine.receive supply wire = (actions.flatMap Action.events,
        (engine.receive supply wire).2) ∧
      Listens (engine.receive supply wire).2 next heard limit [] ∧
      (engine.receive supply wire).2.outbound.compressing =
        (engine.outbound.compressing || actions.any Action.deflates) := by
  obtain ⟨wire, sender, sent, -⟩ := listens.sends.send (supply.source 0) payload
  have arrived := listens.feed wire
  rw [← List.append_nil wire] at arrived
  obtain ⟨after, heard, drained, listening, compressing, -⟩ :=
    arrived.packet supply sent fits field passed stays
  have received : engine.receive supply wire = (actions.flatMap Action.events, after) := by
    rw [List.append_nil] at drained
    rw [receive_accepted listens.running listens.started (accept_settled listens.known), drained,
      listening.waits supply, List.append_nil]
    rfl
  refine ⟨wire, heard, ?_⟩
  rw [received]
  exact ⟨rfl, listening, compressing⟩

theorem Listens.took (listens : Listens engine h server limit stream) (queue : List Bytes) :
    Listens { engine with queue } h server limit stream :=
  { listens with running := listens.running }

/-- What the handshake takes of the caller is sent. -/
theorem Listens.write (supply : Supply) (listens : Listens engine h server limit stream)
    {data : Bytes} {messages : List Bytes} (taken : h.write data = .ok messages) :
    ∃ after, Engine.write supply data engine = .ok () after ∧
      Listens after h server limit stream := by
  obtain ⟨wires, after, performs⟩ := performs_sends supply engine listens.ready messages
  have carried := performs.carries sends_stay
  refine ⟨after, ?_, ?_⟩
  · rw [← listens.handshake] at taken
    simp only [Engine.write, listens.running, taken, performs.sendAll, Bool.false_eq_true,
      if_false]
  · exact
      { running := carried.finished.trans listens.running
        known := carried.header.trans listens.known
        started := carried.started.trans listens.started
        handshake := carried.handshake.trans listens.handshake
        ready := performs.ready sends_sized listens.ready
        sends := listens.sends
        follows := performs.inbound ▸ listens.follows
        buffer := performs.inbound ▸ listens.buffer }

def receives (random : Entropy) (wires : List Bytes) : List (Supply × Call) :=
  wires.map fun wire => (↑random, .receive wire)

/-- Whatever a session says to a handshake, a server can say to the engine. -/
theorem Listens.session (random : Entropy) {payloads : List Bytes}
    (listens : Listens engine h server limit [])
    (fits : ∀ payload ∈ payloads, Packet.Carries limit payload) (field : limit < 2 ^ 32)
    (passes : Passes (payloads.map (.packet random)) h actions next) (stays : .closed ∉ actions) :
    ∃ wires heard, (run (receives random wires) engine).events = actions.flatMap Action.events ∧
      Listens (run (receives random wires) engine).engine next heard limit [] ∧
      (run (receives random wires) engine).engine.outbound.compressing =
        (engine.outbound.compressing || actions.any Action.deflates) := by
  induction payloads generalizing engine h server actions with
  | nil =>
    cases passes
    exact ⟨[], server, rfl, listens, (Bool.or_false _).symm⟩
  | cons payload rest ih =>
    cases passes with
    | cons passed passes =>
      obtain ⟨wire, heard, told, listening, compressing⟩ :=
        listens.receive random (fits _ (.head _)) field passed
          fun early => stays (List.mem_append_left _ early)
      obtain ⟨wires, last, more, listens, compressed⟩ := ih listening
        (fun other later => fits other (.tail _ later)) passes
        fun later => stays (List.mem_append_right _ later)
      refine ⟨wire :: wires, last, ?_, listens, ?_⟩
      · rw [List.flatMap_append, ← more]
        exact congrArg (· ++ _) (congrArg Prod.fst told)
      · rw [List.any_append, ← Bool.or_assoc, ← compressing]
        exact compressed

/-- The server's line is answered by the proposal. What waits for the transport makes no
difference. -/
theorem receive_line (supply : Supply) {config : Config} {entropy : Entropy} {queue : List Bytes}
    (begun : engine.start =
      { handshake := .create entropy config, inbound := freshInbound config, queue := queue
        started := true })
    (running : engine.finished = false) {version : Identification}
    {reader : LineReader}
    (line : LineReader.feed version.toBytes {} = .ok (some (version, [])) reader) (data : Bytes) :
    ∃ after, engine.receive supply (version.toBytes ++ data) = after.drain supply ∧
      Listens after { Handshake.create entropy config with
        serverVersion := some version, phase := .kexInit } {} config.maxPacketLength data ∧
      after.outbound.compressing = false := by
  let started : Engine :=
    { handshake := .create entropy config, inbound := freshInbound config, queue := queue
      started := true }
  obtain ⟨wires, after, performs⟩ := performs_sends supply
    { started with
      header := none
      handshake := { started.handshake with serverVersion := some version, phase := .kexInit } }
    Outbound.ready_fresh [started.handshake.clientProposal]
  have carried := performs.carries sends_stay
  have introduced : transition supply (onVersion version) { started with header := none } =
      .ok [] after :=
    transition_ok { started with header := none } (onVersion_ok rfl) performs
  have accepting : accept supply (version.toBytes ++ data) started = _ := accept_line rfl
  rw [LineReader.feed_append, line] at accepting
  simp only [introduced] at accepting
  refine ⟨{ after with inbound := after.inbound.feed data }, ?_, ?_, ?_⟩
  · have begun : engine.start = started := begun
    rw [← begun] at accepting
    rw [receive_ok running accepting]
    rfl
  · exact
      { running := carried.finished
        known := carried.header
        started := carried.started
        handshake := carried.handshake
        ready := performs.ready sends_sized Outbound.ready_fresh
        sends := Outbound.ready_fresh
        follows := by
          simp only [performs.inbound]
          exact (Inbound.create_follows config.maxPacketLength config.inflateBuffer).feed data
        buffer := by
          simp only [performs.inbound]
          rfl }
  · exact performs.compressing sends_stay

theorem create_begun {config : Config} {entropy : Entropy}
    (created : Engine.create entropy config = .ok engine) :
    engine.finished = false ∧ ∃ queue, engine.start =
      { handshake := .create entropy config, inbound := freshInbound config, queue := queue
        started := true } := by
  obtain rfl := create_eq created
  exact ⟨rfl, _, rfl⟩

/-- Behind the reply of an honest server a new engine waits for its NEWKEYS. -/
theorem receive_reply {config : Config} {entropy random : Entropy} {server : ServerMessages}
    {view : ServerView} {client peer : Proposal} {negotiated : Negotiated} {group : DhGroup}
    {reader : LineReader}
    (created : Engine.create entropy config = .ok engine)
    (line : LineReader.feed server.version.toBytes {} = .ok (some (server.version, [])) reader)
    (own : Proposal.parse (Handshake.create entropy config).clientProposal = .ok client)
    (parsed : Proposal.parse server.proposal = .ok peer)
    (agreed : negotiate client peer = .ok negotiated) (unguessed : negotiated.discardGuess = false)
    (method : DhGroup.ofMethod? negotiated.kex = some group)
    (honest : Honest config (Handshake.create entropy config).clientProposal negotiated random
      server view)
    (fits : ∀ payload ∈ [server.proposal, server.reply],
      Packet.Carries config.maxPacketLength payload)
    (field : config.maxPacketLength < 2 ^ 32) (padding : Entropy) :
    ∃ after, engine.receive random (server.version.toBytes ++
        (Packet.plain padding server.proposal ++ (Packet.plain padding server.reply ++ []))) =
          ([], after) ∧
      after.finished = false ∧ after.handshake.phase = .newKeys := by
  obtain ⟨payloads, h, passes, engaged, -⟩ := create_engages own parsed agreed unguessed honest
  have ungrouped : server.group = none := by
    have shares := honest.group
    generalize view.group = found, view.chosen = chosen, server.group = message at shares
    cases shares with
    | fixed => rfl
    | chosen other =>
      rw [method] at other
      cases other
  rw [ungrouped] at passes
  have version : (Handshake.create entropy config).call (.version server.version) = _ :=
    version_passes rfl server.version
  have proposal : Handshake.call (.packet random server.proposal)
      { Handshake.create entropy config with
        serverVersion := some server.version, phase := .kexInit } = _ :=
    fixed_passes rfl own parsed agreed method
  obtain ⟨replied, reply, assured⟩ := engaged_reply honest engaged random
  obtain ⟨_, passes⟩ := passes.behind version
  obtain ⟨_, passes⟩ := passes.behind proposal
  cases passes
  obtain ⟨running, _, begun⟩ := create_begun created
  obtain ⟨introduced, received, listens, -⟩ := receive_line random begun running line
    (Packet.plain padding server.proposal ++ (Packet.plain padding server.reply ++ []))
  obtain ⟨first, sent, exposed⟩ := Outbound.exposed_fresh.send_eq padding server.proposal
  obtain ⟨exchanging, _, drained, listens, -, same⟩ :=
    listens.packet random sent (fits _ (.head _)) field proposal (by simp)
  obtain rfl := same rfl
  obtain ⟨second, sent, -⟩ := exposed.send_eq padding server.reply
  obtain ⟨agreeing, _, drained', listens, -⟩ :=
    listens.packet random sent (fits _ (.tail _ (.head _))) field reply (by simp)
  refine ⟨agreeing, ?_, listens.running, ?_⟩
  · rw [received, drained, drained', listens.waits random]
    rfl
  · rw [listens.handshake]
    exact assured.phase

theorem events_unsent (actions : List Action) :
    (actions.filter (!·.sends)).flatMap Action.events = actions.flatMap Action.events := by
  induction actions with
  | nil => rfl
  | cons action rest ih =>
    cases action with
    | send => exact ih
    | armOutbound | armInbound | compress | established | deliver | closed =>
      exact congrArg (_ ++ ·) ih

theorem deflates_unsent (actions : List Action) :
    (actions.filter (!·.sends)).any Action.deflates = actions.any Action.deflates := by
  rw [List.any_filter]
  congr 1
  funext action
  cases action <;> rfl

/-- What an honest server says behind its line, and how the session stands then: it is
established, and compresses if that was agreed on. -/
theorem honest_session {config : Config} {entropy random : Entropy} {server : ServerMessages}
    {view : ServerView} {peer : Proposal} {negotiated : Negotiated}
    (checked : config.check = .ok ()) (usable : Usable config.credential)
    (names : config.preferences.Fits) (parsed : Proposal.parse server.proposal = .ok peer)
    (unguessed : peer.guessFollows = false)
    (agreed : negotiate (.ofPreferences entropy config.preferences) peer = .ok negotiated)
    (honest : Honest config (Handshake.create entropy config).clientProposal negotiated random
      server view) :
    ∃ actions before h, Passes (server.payloads.map (.packet random))
        { Handshake.create entropy config with
          serverVersion := some server.version, phase := .kexInit } actions h ∧
      .closed ∉ actions ∧ actions.flatMap Action.events = [.established] ∧
      actions.any Action.deflates = negotiated.compressionOut.delayed ∧
      h.phase = .established ∧
      ∃ confirmation, ChannelConfirmation.parse server.confirmation = .ok confirmation ∧
        SessionChannel.confirm before confirmation = .ok h.channel := by
  obtain ⟨actions, before, h, path, -, established, -, confirmed, others⟩ :=
    honest_path checked usable names parsed unguessed agreed honest
  -- what is not sent decides about events and compression
  have events : actions.flatMap Action.events = [.established] := by
    rw [← events_unsent, others, milestones]
    cases negotiated.compressionOut.delayed || negotiated.compressionIn.delayed <;> rfl
  have compressing : actions.any Action.deflates = negotiated.compressionOut.delayed := by
    rw [← deflates_unsent, others, milestones]
    cases negotiated.compressionOut.delayed <;> cases negotiated.compressionIn.delayed <;> rfl
  have stays : .closed ∉ actions := by
    intro member
    have listed : .closed ∈ actions.filter (!·.sends) := List.mem_filter.2 ⟨member, rfl⟩
    rw [others, milestones] at listed
    split at listed <;> simp at listed
  rw [ServerMessages.calls_eq] at path
  have version : (Handshake.create entropy config).call (.version server.version) = _ :=
    version_passes rfl server.version
  cases path with
  | @cons _ _ _ _ _ first more passed path =>
    rw [version] at passed
    cases passed
    exact ⟨more, before, h, path, fun later => stays (.tail _ later), events, compressing,
      established, confirmed⟩

/-- An honest server leads a new engine to the established session, in which its last packet
has confirmed the channel. The session compresses if that was agreed on. -/
theorem run_honest {config : Config} {entropy random : Entropy} {server : ServerMessages}
    {view : ServerView} {peer : Proposal} {negotiated : Negotiated} {reader : LineReader}
    (created : Engine.create entropy config = .ok engine) (usable : Usable config.credential)
    (names : config.preferences.Fits)
    (line : LineReader.feed server.version.toBytes {} = .ok (some (server.version, [])) reader)
    (parsed : Proposal.parse server.proposal = .ok peer) (unguessed : peer.guessFollows = false)
    (agreed : negotiate (.ofPreferences entropy config.preferences) peer = .ok negotiated)
    (honest : Honest config (Handshake.create entropy config).clientProposal negotiated random
      server view)
    (fits : ∀ payload ∈ server.payloads, Packet.Carries config.maxPacketLength payload)
    (field : config.maxPacketLength < 2 ^ 32) :
    ∃ wires h heard, (run (receives random wires) engine).events = [.established] ∧
      Listens (run (receives random wires) engine).engine h heard config.maxPacketLength [] ∧
      (run (receives random wires) engine).engine.outbound.compressing =
        negotiated.compressionOut.delayed ∧
      h.phase = .established ∧
      ∃ confirmation before, ChannelConfirmation.parse server.confirmation = .ok confirmation ∧
        SessionChannel.confirm before confirmation = .ok h.channel := by
  obtain ⟨actions, before, h, path, stays, events, compressing, established, confirmation, confirms,
    confirmed⟩ :=
    honest_session (create_checked created) usable names parsed unguessed agreed honest
  obtain ⟨running, _, begun⟩ := create_begun created
  obtain ⟨introduced, received, listens, plain⟩ := receive_line random begun running line []
  rw [listens.waits random] at received
  obtain ⟨wires, heard, told, listens, compressed⟩ :=
    listens.session random fits field path stays
  have first : run (receives random ((server.version.toBytes ++ []) :: wires)) engine =
      run (receives random wires) introduced := by
    simp only [receives, List.map_cons, run, call, received, Call.taken, List.nil_append]
  rw [plain, Bool.false_or, compressing] at compressed
  refine ⟨(server.version.toBytes ++ []) :: wires, h, heard, ?_, ?_, ?_, established, confirmation,
    before, confirms, confirmed⟩
  · rw [first, told, events]
  · rw [first]
    exact listens
  · rw [first]
    exact compressed

def smallEngine : Engine :=
  { handshake := .create zeros smallClient, inbound := freshInbound smallClient }

theorem small_created : Engine.create zeros smallClient = .ok smallEngine := by rfl

theorem small_line : LineReader.feed smallServer.version.toBytes {} =
    .ok (some (smallServer.version, [])) {} := by rfl

theorem small_limit : smallClient.maxPacketLength < 2 ^ 32 := by decide

theorem small_carried : ∀ payload ∈ smallServer.payloads,
    Packet.Carries smallClient.maxPacketLength payload := by decide +kernel

/-- The small server leads it to a session that is compressed. -/
theorem small_established :
    ∃ wires : List Bytes,
      (run (receives zeros wires) smallEngine).events = [.established] ∧
      (run (receives zeros wires) smallEngine).engine.finished = false ∧
      (run (receives zeros wires) smallEngine).engine.isEstablished = true ∧
      (run (receives zeros wires) smallEngine).engine.outbound.compressing = true := by
  obtain ⟨wires, h, heard, events, listens, compressing, established, -⟩ :=
    run_honest small_created trivial small_fits small_line small_parsed rfl small_agreed
      small_honest small_carried small_limit
  refine ⟨wires, events, listens.running, ?_, compressing⟩
  rw [Engine.isEstablished, listens.handshake, established]
  rfl

end Engine

end SecureShell
