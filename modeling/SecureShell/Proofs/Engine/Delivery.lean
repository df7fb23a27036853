import SecureShell.Proofs.Engine.Grammar
import SecureShell.Proofs.Engine.Inflating
import SecureShell.Proofs.Engine.Secrecy
import SecureShell.Proofs.Engine.Taking
import SecureShell.Proofs.Handshake.Failing

/-! What a client makes of the bytes of a server, whoever has sent them. Behind the
server's line the bytes fall into packets that were taken, one after the other, and a
rest. The caller hears of the packets in their order; data comes only from packets that
are sealed with the keys of an agreement that the server has signed. With the first
packet that fails a check the connection fails, and nothing is heard of the rest. -/
namespace SecureShell.Engine

open Handshake

def behindLine (received : Bytes) : Bytes :=
  match LineReader.feed received {} with
  | .ok (some (_, rest)) _ => rest
  | .ok none _ | .error _ _ => []

def bareEar (config : Config) : Ear :=
  ⟨none, (freshInbound config).deframer, (freshInbound config).decompressor⟩

def Mute (takes : List Take) : Prop := ∀ take ∈ takes, ∀ data, .data data ∉ take.events

/-- The packets that a client has taken: some in the clear, none of which brings data, and
behind them those that are opened with the keys of an agreement. -/
inductive Taken (config : Config) (proposal : Bytes) (history : List Record) :
    List Take → Ear → Prop where
  | bare {takes : List Take} {ear : Ear} :
      Opens config.maxPacketLength 0 (bareEar config) takes ear → Mute takes →
      Taken config proposal history takes ear
  | armed {plain guarded : List Take} {between ear : Ear} {a : Agreement}
      {protection : Protection} :
      Opens config.maxPacketLength 0 (bareEar config) plain between → Mute plain →
      a.Shown config proposal history →
      Protection.create .decrypt (a.keys config proposal .serverToClient) = .ok protection →
      Opens config.maxPacketLength plain.length { between with keys := some protection } guarded
        ear →
      Taken config proposal history (plain ++ guarded) ear

/-- What becomes of a connection behind the packets that were taken, and what the caller
hears then. -/
inductive Ending (config : Config) (calls : List Call) (takes : List Take) (ear : Ear)
    (rest : Bytes) : Bool → List Event → Prop where
  /-- The connection goes on; the next packet has not wholly arrived. -/
  | waits : Packet.Waits config.maxPacketLength ear.keys rest →
      Ending config calls takes ear rest false []
  | left : .close ∈ calls → Ending config calls takes ear rest true []
  /-- The server has closed the channel with the last packet. -/
  | parted {take : Take} : takes.getLast? = some take → .closed ∈ take.events →
      Ending config calls takes ear rest true []
  | lost {cause : Option String} (reason : String) : .transportClosed cause ∈ calls →
      Ending config calls takes ear rest true [.failed (.io reason)]
  /-- The server's line or the next packet has failed a check. The error is one of
  integrity exactly if the packet is of a legal length and does not have its tag. -/
  | refused {error : Error} :
      (error.Tampered ↔
        Packet.Forged config.maxPacketLength ear.keys (UInt32.ofNat takes.length) rest) →
      Ending config calls takes ear rest true [.failed error]
  /-- The next packet has its tag, and what it holds has made the caller's own verifier or
  key fail. The error is the caller's, which may be of any kind. -/
  | passed {error : Error} : FromCaller config error →
      ¬ Packet.Forged config.maxPacketLength ear.keys (UInt32.ofNat takes.length) rest →
      Ending config calls takes ear rest true [.failed error]

variable {supply : Supply} {engine after : Engine} {trace : Trace} {config : Config}
  {proposal : Bytes} {history : List Record} {k : Keying} {takes : List Take} {ear : Ear}
  {received rest : Bytes} {events : List Event} {ended : List Call}

section Taken

theorem Mute.concat {take : Take} (mute : Mute takes) (silent : ∀ data, .data data ∉ take.events) :
    Mute (takes ++ [take]) := by
  intro other member
  rcases List.mem_append.1 member with earlier | now
  · exact mute other earlier
  · rw [List.mem_singleton.1 now]
    exact silent

/-- Data comes from packets that are sealed with the keys of the agreement. -/
theorem Taken.genuine (taken : Taken config proposal history takes ear) {i : Nat} {take : Take}
    {data : ChannelData} (found : takes[i]? = some take) (brings : .data data ∈ take.events) :
    ∃ a : Agreement, a.Shown config proposal history ∧
      take.Genuine config.maxPacketLength (a.keys config proposal .serverToClient) i := by
  cases taken with
  | bare _ mute => exact absurd brings (mute take (List.mem_of_getElem? found) data)
  | @armed plain guarded _ _ a _ _ mute shown created opens =>
    refine ⟨a, shown, ?_⟩
    by_cases early : i < plain.length
    · rw [List.getElem?_append_left early] at found
      exact absurd brings (mute take (List.mem_of_getElem? found) data)
    · rw [List.getElem?_append_right (Nat.not_lt.1 early)] at found
      have genuine := opens.genuine created found
      rwa [Nat.add_sub_cancel' (Nat.not_lt.1 early)] at genuine

end Taken

section Listening

/-- The packets that were taken: in the clear up to the server's NEWKEYS, and behind it opened
with the inbound keys of the agreement. -/
inductive Listening (config : Config) (proposal : Bytes) : Keying → List Take → Ear → Prop where
  | bare {k : Keying} {takes : List Take} {ear : Ear} : (∀ a, k ≠ .used a) →
      Opens config.maxPacketLength 0 (bareEar config) takes ear → Mute takes →
      Listening config proposal k takes ear
  | used {plain guarded : List Take} {between ear : Ear} {a : Agreement}
      {protection : Protection} :
      Opens config.maxPacketLength 0 (bareEar config) plain between → Mute plain →
      Protection.create .decrypt (a.keys config proposal .serverToClient) = .ok protection →
      Opens config.maxPacketLength plain.length { between with keys := some protection } guarded
        ear →
      Listening config proposal (.used a) (plain ++ guarded) ear

theorem Listening.taken (listening : Listening config proposal k takes ear)
    (shown : ∀ a, k = .agreed a ∨ k = .used a → a.Shown config proposal history) :
    Taken config proposal history takes ear := by
  cases listening with
  | bare _ opens mute => exact .bare opens mute
  | used opens mute created more => exact .armed opens mute (shown _ (.inr rfl)) created more

theorem Listening.regular (listening : Listening config proposal k takes ear) :
    Protection.Regular ear.keys := by
  cases listening with
  | bare _ opens => exact (opens.alike Protection.regular_none).1
  | used _ _ created opens => exact (opens.alike (Protection.create_regular created).1).1

/-- One more packet is taken; before the keys are in use it brings no data. -/
theorem Listening.take {body packet payload : Bytes} {keys : Option Protection} {opener : Opener}
    {inbound : Inbound} {events : List Event} (listening : Listening config proposal k takes ear)
    (decrypts : Packet.Decrypts config.maxPacketLength ear.keys body packet keys)
    (unpacked : Inbound.unpack packet (ear.inbound opener) = .ok payload inbound)
    (silent : (∀ a, k ≠ .used a) → ∀ data, .data data ∉ events) :
    Listening config proposal k
      (takes ++ [{
        body, packet, payload, events
        tag := Protection.tagOf ear.keys (UInt32.ofNat takes.length) packet }])
      ⟨keys, inbound.deframer, inbound.decompressor⟩ := by
  cases listening with
  | bare early opens mute =>
    have more := opens.take events decrypts unpacked
    rw [Nat.zero_add] at more
    exact .bare early more (mute.concat (silent early))
  | used opens mute created guarded =>
    have more := guarded.take events decrypts unpacked
    rw [List.append_assoc, List.length_append]
    exact .used opens mute created more

/-- What the handshake asks for keeps the packets in step with its keys. -/
theorem Listening.moves {k' : Keying} {actions : List Action} {start : Engine}
    {wires : List Bytes}
    (listening : Listening config proposal k takes
      ⟨start.inbound.opener.keys, start.inbound.deframer, start.inbound.decompressor⟩)
    (moves : Moves config proposal k actions k') (stays : .closed ∉ actions)
    (performs : Performs supply actions start wires after) :
    ∃ keys, after.inbound.opener = { start.inbound.opener with keys } ∧
      Listening config proposal k' takes
        ⟨keys, after.inbound.deframer, after.inbound.decompressor⟩ := by
  -- without new keys for what is received nothing but compression changes
  have kept {first : Nat} {between : Ear} {takes : List Take}
      (unarmed : ∀ keys, .armInbound keys ∉ actions)
      (opens : Opens config.maxPacketLength first between takes
        ⟨start.inbound.opener.keys, start.inbound.deframer, start.inbound.decompressor⟩) :=
    performs.hears stays unarmed opens
  cases moves with
  | bare payloads =>
    cases listening with
    | bare early opens mute =>
      obtain ⟨same, more⟩ := kept (by simp) opens
      exact ⟨_, same, .bare early more mute⟩
  | agreed a =>
    cases listening with
    | bare _ opens mute =>
      obtain ⟨same, more⟩ := kept (by simp) opens
      exact ⟨_, same, .bare (fun _ other => nomatch other) more mute⟩
  | waiting a =>
    cases listening with
    | bare early opens mute =>
      obtain ⟨same, more⟩ := kept (by simp) opens
      exact ⟨_, same, .bare early more mute⟩
  | switched a =>
    cases listening with
    | bare _ opens mute =>
      cases performs with
      | armInbound armed performs =>
        obtain ⟨protection, created, rfl⟩ := Inbound.arm_ok armed
        have none : Opens config.maxPacketLength takes.length
            ⟨some protection, start.inbound.deframer, start.inbound.decompressor⟩ [] _ := .nil
        obtain ⟨same, more⟩ := performs.hears (by simp) (by simp) none
        rw [← List.append_nil takes]
        exact ⟨some protection, same, .used opens mute created more⟩
  | used a unarmed =>
    cases listening with
    | bare early => exact absurd rfl (early a)
    | used opens mute created guarded =>
      obtain ⟨same, more⟩ := kept (fun keys => (unarmed keys).1) guarded
      exact ⟨_, same, .used opens mute created more⟩

end Listening

section Lines

/-- How far the server's line has been read, with the bytes behind it. -/
inductive Met (header : Option LineReader) (received : Bytes) : Bytes → Prop where
  | waiting {reader : LineReader} : header = some reader →
      LineReader.feed received {} = .ok none reader → Met header received []
  | met {version : Identification} {reader : LineReader} {stream : Bytes} : header = none →
      LineReader.feed received {} = .ok (some (version, stream)) reader →
      Met header received stream

variable {header : Option LineReader} {stream : Bytes}

/-- Bytes that follow the line follow what was behind it. -/
theorem Met.feed (met : Met header received stream) (known : header = none) (data : Bytes) :
    Met header (received ++ data) (stream ++ data) := by
  cases met with
  | waiting waits =>
    rw [known] at waits
    cases waits
  | @met version reader _ _ read =>
    have further : LineReader.feed (received ++ data) {} =
        .ok (some (version, stream ++ data)) reader := by
      rw [LineReader.feed_append, read]
    exact .met known further

theorem Met.unmet {reader : LineReader} (met : Met header received stream)
    (known : header = some reader) :
    stream = [] ∧ LineReader.feed received {} = .ok none reader := by
  cases met with
  | waiting waits read =>
    rw [known] at waits
    cases waits
    exact ⟨rfl, read⟩
  | met settled =>
    rw [known] at settled
    cases settled

theorem Met.behindLine (met : Met header received stream) (more : Bytes) :
    ∃ later, behindLine (received ++ more) = stream ++ later := by
  cases met with
  | waiting => exact ⟨_, (List.nil_append _).symm⟩
  | met _ read =>
    refine ⟨more, ?_⟩
    rw [Engine.behindLine, LineReader.feed_append, read]

theorem Met.behindLine_eq (met : Met header received stream) :
    Engine.behindLine received = stream := by
  cases met with
  | waiting _ read | met _ read => rw [Engine.behindLine, read]

end Lines

section Attending

variable {d : Decompressor}

/-- What is known of the packets that were taken: the caller has heard of them in their
order, the handshake has accepted them in their order, and data is what a packet says. -/
structure Tells (config : Config) (history : List Record) (events : List Event)
    (takes : List Take) (d : Decompressor) : Prop where
  heard : events = takes.flatMap Take.events
  unpacks : Unpacks (bareEar config).decompressor history takes d
  faithful : ∀ take ∈ takes, ∀ data, .data data ∈ take.events → CarriesData take.payload data

theorem Tells.aside {more : List Record} (tells : Tells config history events takes d)
    (quiet : accepted more = []) : Tells config (history ++ more) events takes d where
  heard := tells.heard
  unpacks := by
    rw [← List.append_nil takes]
    exact tells.unpacks.append (.silent quiet)
  faithful := tells.faithful

theorem Tells.take {more : List Record} {left : Decompressor} (take : Take)
    (tells : Tells config history events takes d) (unpacks : Unpacks d more [take] left)
    (faithful : ∀ data, .data data ∈ take.events → CarriesData take.payload data) :
    Tells config (history ++ more) (events ++ take.events) (takes ++ [take]) left where
  heard := by rw [tells.heard, List.flatMap_append, List.flatMap_singleton]
  unpacks := tells.unpacks.append unpacks
  faithful := by
    intro other member
    rcases List.mem_append.1 member with earlier | now
    · exact tells.faithful other earlier
    · rw [List.mem_singleton.1 now]
      exact faithful

/-- The invariant of delivery while a connection lasts: the bytes of the server are its line,
the packets that were taken, each opened with the keys and the number that are due, and the
rest; the events are what those packets bring. -/
structure Attends (config : Config) (proposal : Bytes) (history : List Record) (engine : Engine)
    (received : Bytes) (events : List Event) (k : Keying) (takes : List Take)
    (keys : Option Protection) (rest : Bytes) : Prop where
  running : engine.finished = false
  configured : engine.handshake.config = config
  keyExchange : KeyExchangeInvariant config proposal history engine.handshake
  keyed : Keyed config proposal history engine.handshake k
  met : Met engine.header received (takes.flatMap Take.wire ++ rest)
  listening : Listening config proposal k takes
    ⟨keys, engine.inbound.deframer, engine.inbound.decompressor⟩
  holds : engine.inbound.opener.Holds keys rest
  number : engine.inbound.opener.sequence = UInt32.ofNat takes.length
  limit : engine.inbound.opener.limit = config.maxPacketLength
  still : engine.inbound.deframer.idle = true
  tells : Tells config history events takes engine.inbound.decompressor

/-- The invariant of delivery over a whole run: once the connection has ended, the events end
with what the rest of the bytes gives. -/
inductive Attending (config : Config) (proposal : Bytes) (history : List Record)
    (engine : Engine) (received : Bytes) (events : List Event) (ended : List Call) : Prop where
  | running {k : Keying} {takes : List Take} {keys : Option Protection} {rest : Bytes} :
      Attends config proposal history engine received events k takes keys rest →
      Attending config proposal history engine received events ended
  | gone {takes : List Take} {ear : Ear} {heard ending : List Event} : engine.finished = true →
      Taken config proposal history takes ear → Tells config history heard takes ear.decompressor →
      events = heard ++ ending →
      (∀ more, ∃ rest, behindLine (received ++ more) = takes.flatMap Take.wire ++ rest ∧
        Ending config ended takes ear rest true ending) →
      Attending config proposal history engine received events ended

variable {keys : Option Protection} {payload : Bytes} {inbound : Inbound}

/-- The server's line is not yet complete. -/
theorem Attends.listens {reader stopped : LineReader} {data : Bytes}
    (attends : Attends config proposal history engine received events k takes keys rest)
    (known : engine.header = some reader) (read : LineReader.feed data reader = .ok none stopped) :
    Attends config proposal history { engine with header := some stopped } (received ++ data)
      events k takes keys rest := by
  obtain ⟨nothing, unread⟩ := attends.met.unmet known
  have further : LineReader.feed (received ++ data) {} = .ok none stopped := by
    rw [LineReader.feed_append, unread]
    exact read
  have met : Met (some stopped) (received ++ data) (takes.flatMap Take.wire ++ rest) := by
    rw [nothing]
    exact .waiting rfl further
  exact { attends with met }

/-- The server's line is complete, and is answered by the proposal. -/
theorem Attends.meets {reader stopped : LineReader} {version : Identification}
    {data stream : Bytes} {wires : List Bytes}
    (opens : proposal.head? = some MessageCode.kexInit.toByte)
    (attends : Attends config proposal history engine received events k takes keys rest)
    (known : engine.header = some reader)
    (read : LineReader.feed data reader = .ok (some (version, stream)) stopped)
    (phase : engine.handshake.phase = .headerExchange)
    (performs : Performs supply ([engine.handshake.clientProposal].map .send)
      { engine with
        header := none
        handshake := { engine.handshake with serverVersion := some version, phase := .kexInit } }
      wires after) :
    Attends config proposal
      (history ++ [⟨.version version, .ok [.send engine.handshake.clientProposal]⟩])
      { after with inbound := after.inbound.feed stream } (received ++ data) events .bare takes
      keys (rest ++ stream) := by
  have carried := performs.carries sends_stay
  have inbound : after.inbound = engine.inbound := performs.inbound
  obtain ⟨nothing, unread⟩ := attends.met.unmet known
  have further : LineReader.feed (received ++ data) {} =
      .ok (some (version, stream)) stopped := by
    rw [LineReader.feed_append, unread]
    exact read
  have unkeyed : k = .bare := by
    cases attends.keyed with
    | bare => rfl
    | agreed other | used other =>
      rw [phase] at other
      cases other
  have invariant := attends.keyExchange.run [.version version]
  simp only [Handshake.run, Handshake.call, onVersion_ok phase, outcome] at invariant
  refine ⟨carried.finished.trans attends.running, ?_, ?_, ?_, ?_, ?_, ?_, ?_, ?_, ?_, ?_⟩
  · rw [carried.handshake]
    exact attends.configured
  · rw [carried.handshake]
    exact invariant
  · rw [carried.handshake]
    exact (moves_of_introduction opens phase attends.keyExchange attends.keyed).2
  · rw [← List.append_assoc, nothing]
    exact .met carried.header further
  · rw [inbound, ← unkeyed]
    exact attends.listening
  · rw [inbound]
    exact attends.holds.feed stream
  · rw [inbound]
    exact attends.number
  · rw [inbound]
    exact attends.limit
  · rw [inbound]
    exact attends.still
  · rw [inbound]
    exact attends.tells.aside rfl

theorem Attends.waits
    (attends : Attends config proposal history engine received events k takes keys rest)
    (waits : Inbound.next engine.inbound = .ok none inbound) :
    Attends config proposal history { engine with inbound } received events k takes keys rest := by
  obtain ⟨opener, stopped, rfl⟩ := Inbound.next_none waits
  obtain ⟨holds, sequence, limit, -⟩ :=
    Opener.next_waits attends.listening.regular attends.holds stopped
  have number := sequence.trans attends.number
  have limit := limit.trans attends.limit
  exact { attends with holds, number, limit }

/-- What the caller writes has nothing to do with what is received. -/
theorem Attends.writes {data : Bytes} {messages wires : List Bytes}
    (attends : Attends config proposal history engine received events k takes keys rest)
    (written : engine.handshake.write data = .ok messages)
    (performs : Performs supply (messages.map .send) engine wires after) :
    Attends config proposal (history ++ (Handshake.run [.write data] engine.handshake).1) after
      received events k takes keys rest := by
  have carried := performs.carries sends_stay
  have inbound := performs.inbound
  refine ⟨carried.finished.trans attends.running, ?_, ?_, ?_, ?_, ?_, ?_, ?_, ?_, ?_, ?_⟩
  · rw [carried.handshake]
    exact attends.configured
  · rw [carried.handshake]
    exact attends.keyExchange.run [.write data]
  · rw [carried.handshake]
    exact (moves_of_write written attends.keyed).2
  · rw [carried.header]
    exact attends.met
  · rw [inbound]
    exact attends.listening
  · rw [inbound]
    exact attends.holds
  · rw [inbound]
    exact attends.number
  · rw [inbound]
    exact attends.limit
  · rw [inbound]
    exact attends.still
  · rw [inbound]
    exact attends.tells.aside rfl

/-- The next packet, once it has been opened. -/
theorem Attends.opened {packet : Bytes} {opener : Opener}
    (attends : Attends config proposal history engine received events k takes keys rest)
    (opened : Opener.next engine.inbound.opener = .ok (some packet) opener) :
    ∃ body later after,
      rest = body ++ (Protection.tagOf keys (UInt32.ofNat takes.length) packet ++ later) ∧
      Packet.Decrypts config.maxPacketLength keys body packet after ∧
      opener = { engine.inbound.opener with
        keys := after, sequence := engine.inbound.opener.sequence + 1, head := none
        buffer := later } := by
  obtain ⟨body, later, after, split, decrypts, same⟩ :=
    Opener.next_takes attends.listening.regular attends.holds opened
  rw [attends.number] at split
  rw [attends.limit] at decrypts
  exact ⟨body, later, after, split, decrypts, same⟩

theorem Attends.unforged {packet : Bytes} {opener : Opener}
    (attends : Attends config proposal history engine received events k takes keys rest)
    (opened : Opener.next engine.inbound.opener = .ok (some packet) opener) (later : Bytes) :
    ¬ Packet.Forged config.maxPacketLength keys (UInt32.ofNat takes.length) (rest ++ later) := by
  obtain ⟨body, behind, after, rfl, decrypts, -⟩ := attends.opened opened
  rw [List.append_assoc, List.append_assoc]
  exact decrypts.not_forged attends.listening.regular

/-- What the next packet is, if it can be unpacked. -/
theorem Attends.taken
    (attends : Attends config proposal history engine received events k takes keys rest)
    (found : Inbound.next engine.inbound = .ok (some payload) inbound) :
    ∃ body packet later after,
      rest = body ++ (Protection.tagOf keys (UInt32.ofNat takes.length) packet ++ later) ∧
      Packet.Decrypts config.maxPacketLength keys body packet after ∧
      Inbound.unpack packet { engine.inbound with opener := inbound.opener } =
        .ok payload inbound ∧
      inbound.opener = { engine.inbound.opener with
        keys := after, sequence := engine.inbound.opener.sequence + 1, head := none
        buffer := later } := by
  obtain ⟨packet, opener, opened, unpacked, reached⟩ := Inbound.next_some found
  obtain ⟨body, later, after, split, decrypts, same⟩ := attends.opened opened
  refine ⟨body, packet, later, after, split, decrypts, ?_, reached.trans same⟩
  rw [reached]
  exact unpacked

/-- Data is brought by a message of data, in a session that is established. -/
theorem data_of_accepted {entropy : Entropy} {actions : List Action} {h left : Handshake}
    (reaction : Reaction entropy payload h actions left) (stays : .closed ∉ actions)
    {data : ChannelData} (brings : .data data ∈ actions.flatMap Action.events) :
    h.phase = .established ∧ CarriesData payload data := by
  rcases heard_of_reaction reaction stays with ⟨silent, -⟩ | ⟨heard, -⟩ |
    ⟨other, heard, phase, -, carries⟩
  · rw [silent] at brings
    cases brings
  · rw [heard] at brings
    cases List.mem_singleton.1 brings
  · rw [heard] at brings
    cases List.mem_singleton.1 brings
    exact ⟨phase, carries⟩

/-- A packet that is accepted is taken, and what the handshake asks for is carried out. -/
theorem Attends.handled {actions : List Action} {handshake : Handshake} {wires : List Bytes}
    (attends : Attends config proposal history engine received events k takes keys rest)
    (found : Inbound.next engine.inbound = .ok (some payload) inbound)
    (accepted : onPacket (supply.source engine.drawn) payload engine.handshake =
      .ok actions handshake)
    (stays : .closed ∉ actions)
    (performs : Performs supply actions
      { engine with inbound, handshake, drawn := engine.drawn + 1 } wires after) :
    ∃ k' takes keys rest,
      Attends config proposal
        (history ++ [⟨.packet (supply.source engine.drawn) payload, .ok actions⟩]) after received
        (events ++ actions.flatMap Action.events) k' takes keys rest := by
  have reaction := reaction_of_onPacket accepted
  have carried := performs.carries stays
  obtain ⟨body, packet, later, left, split, decrypts, unpacked, reached⟩ := attends.taken found
  let take : Take :=
    { body, packet, payload
      tag := Protection.tagOf keys (UInt32.ofNat takes.length) packet
      events := actions.flatMap Action.events }
  -- data calls for an established session, and so for keys that are in use
  have silent (unused : ∀ a, k ≠ .used a) (data : ChannelData) : .data data ∉ take.events := by
    intro brings
    exact (attends.keyed.early unused).phase (data_of_accepted reaction stays brings).1
  have listening : Listening config proposal k (takes ++ [take]) _ :=
    attends.listening.take decrypts unpacked silent
  have same : left = inbound.opener.keys := by rw [reached]
  rw [same] at listening
  obtain ⟨k', moves, keyed⟩ := moves_of_accepted attends.keyExchange attends.keyed accepted stays
  obtain ⟨keys', opener, listening'⟩ := listening.moves moves stays performs
  have invariant := attends.keyExchange.run [.packet (supply.source engine.drawn) payload]
  simp only [Handshake.run, Handshake.call, accepted, outcome] at invariant
  obtain ⟨idle, unpacks⟩ := Unpacks.one take attends.still unpacked
    (rfl : Engine.accepted [⟨.packet (supply.source engine.drawn) payload, .ok actions⟩] = _)
  obtain ⟨deframer, decompressor⟩ := performs.inflating stays
  refine ⟨k', takes ++ [take], keys', later, carried.finished.trans attends.running, ?_, ?_, ?_,
    ?_, listening', ?_, ?_, ?_, ?_, attends.tells.take take ?_ fun data brings => ?_⟩
  · rw [carried.handshake]
    exact reaction.configured.trans attends.configured
  · rw [carried.handshake]
    exact invariant
  · rw [carried.handshake]
    exact keyed
  · have met := attends.met
    rw [split] at met
    rw [carried.header, List.flatMap_append, List.flatMap_singleton, List.append_assoc, Take.wire,
      List.append_assoc]
    exact met
  · rw [opener, reached]
    exact .fresh rfl
  · rw [opener, reached, List.length_append, List.length_singleton, ← Outbound.sequence_succ,
      ← attends.number]
  · rw [opener, reached]
    exact attends.limit
  · rw [deframer]
    exact idle
  · rw [decompressor]
    exact unpacks
  · exact (data_of_accepted reaction stays brings).2

end Attending

section Endings

variable {keys : Option Protection} {payload : Bytes} {inbound : Inbound} {ending : List Event}

theorem Ending.mono {calls more : List Call} {finished : Bool}
    (ends : Ending config calls takes ear rest finished ending) (sub : calls ⊆ more) :
    Ending config more takes ear rest finished ending := by
  cases ends with
  | waits waits => exact .waits waits
  | left closed => exact .left (sub closed)
  | parted last closes => exact .parted last closes
  | lost reason gone => exact .lost reason (sub gone)
  | refused tampered => exact .refused tampered
  | passed caller intact => exact .passed caller intact

/-- The connection ends, and no more packets are taken. -/
theorem Attends.gone {data : Bytes} (told : List Handshake.Call)
    (attends : Attends config proposal history engine received events k takes keys rest)
    (finished : after.finished = true)
    (quiet : accepted (Handshake.run told engine.handshake).1 = [])
    (ends : ∀ more, ∃ later,
      behindLine (received ++ data ++ more) = takes.flatMap Take.wire ++ (rest ++ later) ∧
      Ending config ended takes
        ⟨keys, engine.inbound.deframer, engine.inbound.decompressor⟩ (rest ++ later) true ending) :
    Attending config proposal (history ++ (Handshake.run told engine.handshake).1) after
      (received ++ data) (events ++ ending) ended := by
  refine .gone finished (attends.listening.taken fun a known => attends.keyed.shown known told)
    (attends.tells.aside quiet) rfl ?_
  intro more
  obtain ⟨later, behind, last⟩ := ends more
  exact ⟨rest ++ later, behind, last⟩

theorem Attends.behindLine
    (attends : Attends config proposal history engine received events k takes keys rest)
    (more : Bytes) : ∃ later, behindLine (received ++ [] ++ more) =
      takes.flatMap Take.wire ++ (rest ++ later) := by
  obtain ⟨later, behind⟩ := attends.met.behindLine more
  refine ⟨later, ?_⟩
  rw [List.append_nil, behind, List.append_assoc]

theorem not_forged_nil {limit : Nat} {number : UInt32} : ¬ Packet.Forged limit keys number [] := by
  rintro ⟨body, tag, later, packet, after, empty, decrypts, -⟩
  have length := decrypts.length
  rw [(List.append_eq_nil_iff.1 empty.symm).1, List.length_nil] at length
  omega

/-- Bytes that fail a check end the connection. -/
theorem Attends.refused {error : Error} {failed : Engine}
    (attends : Attends config proposal history engine received events k takes keys rest)
    (refusal : Refusal supply engine error trace failed) (finished : after.finished = true) :
    Attending config proposal
      (history ++ (Handshake.run (trace.told ++ [.abort]) engine.handshake).1) after
      (received ++ trace.received) (events ++ [.failed error]) ended := by
  cases refusal with
  | line known read =>
    -- behind a line that cannot be read there is no packet that could be forged
    obtain ⟨none, unread⟩ := attends.met.unmet known
    have empty := (List.append_eq_nil_iff.1 none).2
    refine attends.gone _ finished rfl ?_
    intro more
    refine ⟨[], ?_, .refused (iff_of_false (LineReader.feed_blameless _ _ _ _ read) ?_)⟩
    · rw [List.append_nil, none, Engine.behindLine, List.append_assoc, LineReader.feed_append,
        unread]
      simp only [LineReader.feed_append, read]
    · rw [empty]
      exact not_forged_nil
  | packet failure =>
    refine attends.gone _ finished rfl ?_
    intro more
    obtain ⟨later, behind⟩ := attends.behindLine more
    rcases Inbound.next_error failure with
      ⟨opener, unopened⟩ | ⟨packet, opener, _, opened, unpacked⟩
    · have why := Opener.next_refuses attends.listening.regular attends.holds unopened later
      rw [attends.limit, attends.number] at why
      exact ⟨later, behind, .refused why⟩
    · have plain := Inbound.unpack_blameless packet _ _ _ unpacked
      exact ⟨later, behind, .refused (iff_of_false plain (attends.unforged opened later))⟩
  | @message payload _ _ found refused =>
    refine attends.gone _ finished ?_ ?_
    · simp only [List.singleton_append, Handshake.run, Handshake.call, refused, outcome]
      rfl
    · intro more
      obtain ⟨later, behind⟩ := attends.behindLine more
      obtain ⟨packet, opener, opened, -⟩ := Inbound.next_some found
      have intact := attends.unforged opened later
      refine ⟨later, behind, ?_⟩
      by_cases caller : FromCaller config error
      · exact .passed caller intact
      · refine .refused (iff_of_false (fun tampered => caller ?_) intact)
        rw [← attends.configured]
        exact fromCaller_of_tampered _ _ refused tampered

/-- The server closes the channel with the next packet. -/
theorem Attends.parted {replies : List Bytes} {handshake : Handshake}
    (attends : Attends config proposal history engine received events k takes keys rest)
    (found : Inbound.next engine.inbound = .ok (some payload) inbound)
    (treated : onPacket (supply.source engine.drawn) payload engine.handshake =
      .ok (replies.map .send ++ [.closed]) handshake)
    (finished : after.finished = true) :
    Attending config proposal
      (history ++ (Handshake.run [.packet (supply.source engine.drawn) payload, .abort]
        engine.handshake).1)
      after (received ++ []) (events ++ [.closed]) ended := by
  obtain ⟨body, packet, later, left, split, decrypts, unpacked, -⟩ := attends.taken found
  have silent (data : ChannelData) : .data data ∉ [Event.closed] := by
    intro brings
    cases List.mem_singleton.1 brings
  let take : Take :=
    { body, packet, payload
      tag := Protection.tagOf keys (UInt32.ofNat takes.length) packet
      events := [.closed] }
  have listening : Listening config proposal k (takes ++ [take]) _ :=
    attends.listening.take decrypts unpacked fun _ => silent
  let record : Record :=
    ⟨.packet (supply.source engine.drawn) payload, .ok (replies.map .send ++ [.closed])⟩
  have told : (Handshake.run [.packet (supply.source engine.drawn) payload, .abort]
      engine.handshake).1 = [record] ++ [⟨.abort, .ok []⟩] := by
    simp only [Handshake.run, Handshake.call, treated, outcome]
    rfl
  have events : (replies.map Action.send ++ [Action.closed]).flatMap Action.events = [.closed] := by
    rw [List.flatMap_append, sends_events]
    rfl
  have heard : accepted [record] = [take.heard] := congrArg (fun told => [(payload, told)]) events
  obtain ⟨-, unpacks⟩ := Unpacks.one take attends.still unpacked heard
  have plain : record.asked.foldl Decompressor.heed inbound.decompressor = inbound.decompressor :=
    Decompressor.heed_plain (by simp [record, Record.asked])
  rw [plain] at unpacks
  refine .gone finished (listening.taken fun a known => attends.keyed.shown known _)
    (attends.tells.take take ?_ fun data brings => absurd brings (silent data))
    (List.append_nil _).symm ?_
  · rw [told]
    exact unpacks.append (.silent rfl)
  intro more
  obtain ⟨behind, stream⟩ := attends.behindLine more
  refine ⟨later ++ behind, ?_, .parted List.getLast?_concat (.head _)⟩
  rw [stream, split]
  simp only [List.flatMap_append, List.flatMap_singleton, Take.wire, List.append_assoc, take]

/-- What one step preserves. -/
theorem Step.attends (opens : proposal.head? = some MessageCode.kexInit.toByte)
    (attends : Attends config proposal history engine received events k takes keys rest)
    (step : Step engine trace after) :
    Attending config proposal (history ++ (Handshake.run trace.told engine.handshake).1) after
      (received ++ trace.received) (events ++ trace.events) trace.ended := by
  cases step with
  | introduced =>
    rw [List.append_nil, List.append_nil]
    simp only [Handshake.run, List.append_nil]
    exact .running { attends with running := attends.running }
  | listened known read =>
    rw [List.append_nil]
    simp only [Handshake.run, List.append_nil]
    exact .running (attends.listens known read)
  | met known read phase _ performs =>
    rw [List.append_nil]
    simp only [Handshake.run, Handshake.call, onVersion_ok phase, outcome]
    exact .running (attends.meets opens known read phase performs)
  | fed data known =>
    rw [List.append_nil]
    simp only [Handshake.run, List.append_nil]
    have met := attends.met.feed known data
    rw [List.append_assoc] at met
    exact .running { attends with met, holds := attends.holds.feed data }
  | waited waits =>
    rw [List.append_nil, List.append_nil]
    simp only [Handshake.run, List.append_nil]
    exact .running (attends.waits waits)
  | handled found treated stays performs =>
    obtain ⟨k', takes', keys', rest', further⟩ := attends.handled found treated stays performs
    rw [List.append_nil]
    simp only [Handshake.run, Handshake.call, treated, outcome]
    exact .running further
  | parted found _ treated performs => exact attends.parted found treated rfl
  | refused refusal performs =>
    rw [Trace.received_append, Trace.events_append, refusal.silent.events, List.append_nil]
    exact attends.refused refusal rfl
  | wrote written performs =>
    rw [List.append_nil, List.append_nil]
    exact .running (attends.writes written performs)
  | departed performs =>
    refine attends.gone _ rfl rfl fun more => ?_
    obtain ⟨later, behind⟩ := attends.behindLine more
    exact ⟨later, behind, .left (.head _)⟩
  | lost cause reason =>
    refine attends.gone _ rfl rfl fun more => ?_
    obtain ⟨later, behind⟩ := attends.behindLine more
    exact ⟨later, behind, .lost reason (.head _)⟩

end Endings

section Runs

variable {keys : Option Protection}

theorem Attending.mono {more : List Call} (sub : ended ⊆ more)
    (attending : Attending config proposal history engine received events ended) :
    Attending config proposal history engine received events more := by
  cases attending with
  | running attends => exact .running attends
  | gone finished taken tells heard ends =>
    refine .gone finished taken tells heard fun later => ?_
    obtain ⟨rest, stream, ending⟩ := ends later
    exact ⟨rest, stream, ending.mono sub⟩

theorem Attending.took
    (attending : Attending config proposal history engine received events ended) :
    Attending config proposal history { engine with queue := [] } received events ended := by
  cases attending with
  | running attends => exact .running { attends with running := attends.running }
  | gone finished taken tells heard ends => exact .gone finished taken tells heard ends

theorem Path.attends (opens : proposal.head? = some MessageCode.kexInit.toByte)
    (fresh : Attends config proposal [] engine [] [] .bare [] none [])
    (path : Path engine trace after) :
    Attending config proposal (Handshake.run trace.told engine.handshake).1 after trace.received
      trace.events trace.ended := by
  induction path with
  | refl => exact .running fresh
  | @next trace more _ _ earlier running step ih =>
    rw [Trace.told_append, Handshake.run_append, ← earlier.handshake]
    cases ih with
    | running attends => exact (step.attends opens attends).mono (List.subset_append_right ..)
    | gone finished =>
      rw [running] at finished
      cases finished
  | took _ ih =>
    simp only [Trace.told_append, Trace.received_append, Trace.events_append, Trace.ended_append,
      List.append_nil]
    exact ih.took

/-- What has come of the bytes of a server in a run: the packets that were taken, what is
needed for the next one, the bytes behind them, and what is heard at the end. -/
structure Delivers (config : Config) (proposal : Bytes) (history : List Record)
    (calls : List (Supply × Call)) (run : Run) (takes : List Take) (ear : Ear) (rest : Bytes)
    (ending : List Event) : Prop where
  stream : behindLine (Engine.received calls) = takes.flatMap Take.wire ++ rest
  taken : Taken config proposal history takes ear
  heard : run.events = takes.flatMap Take.events ++ ending
  accepts : accepted history = takes.map Take.heard
  /-- Data is what a packet says that is sealed with the keys of an agreement. -/
  data {i : Nat} {take : Take} {data : ChannelData} : takes[i]? = some take →
    .data data ∈ take.events →
    CarriesData take.payload data ∧ ∃ a : Agreement, a.Shown config proposal history ∧
      take.Genuine config.maxPacketLength (a.keys config proposal .serverToClient) i
  ending : Ending config (calls.map (·.2)) takes ear rest run.engine.finished ending

theorem Tells.data {d : Decompressor} (tells : Tells config history events takes d)
    (taken : Taken config proposal history takes ear) {i : Nat} {take : Take} {data : ChannelData}
    (found : takes[i]? = some take) (brings : .data data ∈ take.events) :
    CarriesData take.payload data ∧ ∃ a : Agreement, a.Shown config proposal history ∧
      take.Genuine config.maxPacketLength (a.keys config proposal .serverToClient) i :=
  ⟨tells.faithful take (List.mem_of_getElem? found) data brings, taken.genuine found brings⟩

theorem Attends.idle
    (attends : Attends config proposal history engine received events k takes keys rest)
    (drained : engine.Drained) : Packet.Waits config.maxPacketLength keys rest := by
  obtain ⟨opener, stopped, -⟩ := Inbound.next_none (drained attends.running)
  obtain ⟨-, -, -, waits⟩ := Opener.next_waits attends.listening.regular attends.holds stopped
  rwa [attends.limit] at waits

theorem attends_create (entropy : Entropy) (config : Config) :
    Attends config (Handshake.create entropy config).clientProposal []
      { handshake := .create entropy config, inbound := freshInbound config } [] [] .bare [] none
      [] := by
  refine ⟨rfl, rfl, create_keyExchangeInvariant entropy config, .bare rfl rfl nofun,
    .waiting rfl rfl,
    .bare (fun _ other => nomatch other) .nil nofun, .fresh rfl, rfl, rfl, rfl, ?_⟩
  exact ⟨rfl, .nil, nofun⟩

/-- Whatever the calls and the bytes of the server are, behind the server's line the bytes
fall into packets that were taken and a rest. The caller hears of the packets in their
order, and then of the end, if there is one: of a failure of integrity exactly if the next
packet is of a legal length and does not have its tag, except that an error of the caller's
own verifier or key is passed on whatever its kind. -/
theorem run_delivers {entropy : Entropy} (created : Engine.create entropy config = .ok engine)
    (calls : List (Supply × Call)) :
    ∃ told takes ear rest ending,
      (run calls engine).engine.handshake = (Handshake.run told engine.handshake).2 ∧
      Delivers config engine.handshake.clientProposal (Handshake.run told engine.handshake).1 calls
        (run calls engine) takes ear rest ending := by
  obtain ⟨data, ignored, ended, all, looked, known, ⟨told, queued, path⟩, drained⟩ :=
    run_unfolds calls (create_sound created) (create_drained created)
  obtain rfl := create_eq created
  have attending := (path.attends rfl (attends_create entropy config)).mono known
  refine ⟨told, ?_⟩
  cases attending with
  | @running k takes keys rest attends =>
    have taken := attends.listening.taken fun a known => attends.keyed.shown known []
    simp only [Handshake.run, List.append_nil] at taken
    refine ⟨takes, _, rest, [], path.handshake, ?_, taken, ?_, attends.tells.unpacks.accepts,
      attends.tells.data taken, ?_⟩
    · rw [all, looked attends.running, List.append_nil]
      exact attends.met.behindLine_eq
    · rw [List.append_nil]
      exact attends.tells.heard
    · rw [attends.running]
      exact .waits (attends.idle drained)
  | @gone takes ear _ ending finished taken tells heard ends =>
    -- what has arrived behind the end belongs to the rest
    obtain ⟨rest, stream, ends⟩ := ends ignored
    refine ⟨takes, ear, rest, ending, path.handshake, ?_, taken, ?_, tells.unpacks.accepts,
      tells.data taken, ?_⟩
    · rw [all]
      exact stream
    · rw [← tells.heard]
      exact heard
    · rw [finished]
      exact ends

/-- A client that the small server has led to a session. -/
theorem run_delivers_established :
    ∃ calls : List (Supply × Call),
      Engine.create zeros smallClient = .ok smallEngine ∧
      (run calls smallEngine).engine.isEstablished = true ∧
      ∃ told takes ear rest ending,
        (run calls smallEngine).engine.handshake =
          (Handshake.run told smallEngine.handshake).2 ∧
        Delivers smallClient smallEngine.handshake.clientProposal
          (Handshake.run told smallEngine.handshake).1 calls (run calls smallEngine) takes ear
          rest ending := by
  obtain ⟨wires, -, -, established, -⟩ := small_established
  exact ⟨_, small_created, established, run_delivers small_created _⟩

/-- The engine of a client whose caller trusts no host key, and says so with this error. -/
def distrustfulEngine (error : Error) : Engine :=
  { handshake := .create zeros (distrustfulClient error)
    inbound := freshInbound (distrustfulClient error) }

theorem distrustful_created (error : Error) :
    Engine.create zeros (distrustfulClient error) = .ok (distrustfulEngine error) := by
  have checked : (distrustfulClient error).check = .ok () := small_checked
  rw [Engine.create, checked]
  rfl

def smallOpening : Bytes :=
  smallServer.version.toBytes ++ (Packet.plain zeros smallServer.proposal ++ [])

theorem receive_smallOpening (error : Error) :
    ∃ after sender, receive zeros smallOpening (distrustfulEngine error) = ([], after) ∧
      Listens after (distrustful error) sender (distrustfulClient error).maxPacketLength [] ∧
      sender.Exposed 1 := by
  obtain ⟨running, _, begun⟩ := create_begun (distrustful_created error)
  obtain ⟨introduced, received, listens, -⟩ := receive_line zeros begun running small_line
    (Packet.plain zeros smallServer.proposal ++ [])
  have proposal : Handshake.call (.packet zeros smallServer.proposal)
      { Handshake.create zeros (distrustfulClient error) with
        serverVersion := some smallServer.version, phase := .kexInit } = _ :=
    fixed_passes rfl small_parsed small_parsed small_agreed rfl
  have carried := small_carried smallServer.proposal (.head _)
  obtain ⟨sender, sent, exposed⟩ := Outbound.exposed_fresh.send_eq zeros smallServer.proposal
  obtain ⟨after, heard, drained, listens, -, same⟩ :=
    listens.packet zeros sent carried small_limit proposal (by simp)
  obtain rfl := same rfl
  refine ⟨after, heard, ?_, listens, exposed⟩
  rw [smallOpening, received, drained, listens.waits]
  rfl

/-- Not every failure of integrity is a packet without its tag. The reply of the small server
comes in the clear, before there are keys; the client's caller does not trust the key in it,
and reports that as a failure of integrity. -/
theorem run_delivers_distrustful :
    let error : Error := .integrity (.other "distrusted")
    let packet := Packet.plain zeros smallServer.reply
    let calls : List (Supply × Call) := [(zeros, .receive smallOpening), (zeros, .receive packet)]
    Engine.create zeros (distrustfulClient error) = .ok (distrustfulEngine error) ∧
      (run calls (distrustfulEngine error)).events = [.failed error] ∧ error.Tampered ∧
      (run (calls.take 1) (distrustfulEngine error)).engine.inbound.opener.keys = none ∧
      ∀ number later, ¬ Packet.Forged (distrustfulClient error).maxPacketLength none number
        (packet ++ later) := by
  intro error packet calls
  obtain ⟨after, sender, received, listens, exposed⟩ := receive_smallOpening error
  have carried := small_carried smallServer.reply (.tail _ (.head _))
  obtain ⟨_, sent, -⟩ := exposed.send_eq zeros smallServer.reply
  have arrived := listens.feed packet
  rw [← List.append_nil packet] at arrived
  have failed := arrived.refused zeros sent carried small_limit (distrustful_refuses error)
  rw [List.append_nil] at failed
  have last : (receive zeros packet after).1 = [.failed error] := by
    rw [receive_accepted listens.running listens.started (accept_settled listens.known)]
    exact failed
  refine ⟨distrustful_created error, ?_, ⟨_, rfl⟩, ?_, ?_⟩
  · simp only [calls, run, call, received, last, List.nil_append, List.append_nil]
  · simp only [calls, List.take_succ_cons, List.take_zero, run, call, received]
    rw [listens.follows.opener.keys]
    cases exposed
    rfl
  · rintro number later ⟨body, tag, rest, plain, behind, -, -, size, differs⟩
    exact differs (List.eq_nil_of_length_eq_zero size)

end Runs

end SecureShell.Engine
