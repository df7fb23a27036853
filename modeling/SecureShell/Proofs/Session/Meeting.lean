import Mathlib.Algebra.Group.Defs
import SecureShell.Proofs.Session.Turns

/-! A session meets an honest server. What a server can say to an engine it can say in turns
of the loop, and what the caller has written in the meantime is sent when the session is
established. -/
namespace SecureShell.Session

open Engine (Listens smallEngine)
open Handshake (zeros smallClient smallServer)

variable {session : Session} {random : Entropy} {h next : Handshake} {server : Outbound}
  {limit : Nat} {payload : Bytes} {payloads : List Bytes} {actions : List Action} {engine : Engine}

/-- Where the session becomes established, data can be written. -/
theorem write_of_established
    (passed : h.call (.packet random payload) = (.ok actions, next))
    (told : (actions.flatMap Action.events).any Event.isEstablished = true) (data : Bytes) :
    ∃ messages, next.write data = .ok messages := by
  have accepted : Handshake.onPacket random payload h = .ok actions next :=
    Handshake.outcome_eq_ok passed
  cases Handshake.reaction_of_onPacket accepted with
  | confirmed phase taken parsed =>
    obtain ⟨-, -, -, rfl⟩ := SessionChannel.confirm_eq_ok_iff.1 taken
    exact ⟨_, SessionChannel.dataMessages_eq rfl data⟩
  | welcomed outbound inbound phase head =>
    cases outbound <;> cases inbound <;> cases told
  | parted phase =>
    generalize h.channel.peerClosed.1 = reply at told
    cases reply <;> cases told
  | ignored | dropped | began | asked | chose | replied | armed | requested | refused
  | delivered => cases told

/-- All that waits is sent when the session is established. -/
theorem listens_writeQueued (listens : Listens engine h server limit [])
    (writes : ∀ data, ∃ messages, h.write data = .ok messages) (supply : Supply)
    (pieces : List Bytes) :
    ∃ after, writeQueued supply pieces engine = ([], after) ∧
      Listens after h server limit [] := by
  induction pieces generalizing engine with
  | nil => exact ⟨engine, rfl, listens⟩
  | cons data rest ih =>
    obtain ⟨messages, taken⟩ := writes data
    obtain ⟨between, wrote, listening⟩ := listens.write supply taken
    obtain ⟨after, others, listens⟩ := ih listening
    refine ⟨after, ?_, listens⟩
    simp only [writeQueued, command, wrote]
    exact others

theorem listens_flush (events : List Event) (listens : Listens session.engine h server limit []) :
    Listens (session.flush none events).2.engine h server limit [] := by
  simp only [flush]
  split
  · exact listens
  · exact listens.took []

/-- A packet of the server, in one turn. -/
theorem listens_turn (listens : Listens session.engine h server limit [])
    (fits : Packet.Carries limit payload) (field : limit < 2 ^ 32)
    (passed : h.call (.packet random payload) = (.ok actions, next)) (stays : .closed ∉ actions) :
    ∃ wire heard,
      Listens (session.turn random none (.received wire)).2.engine next heard limit [] := by
  obtain ⟨wire, heard, received, listening, -⟩ :=
    listens.receive random fits field passed stays
  refine ⟨wire, heard, ?_⟩
  have response : session.respond random (.received wire) =
      release random (actions.flatMap Action.events)
        { session with engine := (session.engine.receive random wire).2 } := by
    simp only [respond, react, congrArg Prod.fst received]
  rw [turn_eq, response, release]
  split
  · rename_i told
    obtain ⟨after, wrote, listens⟩ := listens_writeQueued listening
      (write_of_established passed told) random session.queued
    simp only [wrote]
    exact listens_flush _ listens
  · exact listens_flush _ listening

/-- Data that is written to an established session, in one turn. -/
theorem listens_turn_write (listens : Listens session.engine h server limit [])
    (established : h.phase = .established) {data : Bytes} {messages : List Bytes}
    (taken : h.write data = .ok messages) (supply : Supply) :
    Listens (session.turn supply none (.write data)).2.engine h server limit [] := by
  obtain ⟨after, wrote, listening⟩ := listens.write supply taken
  have settled : session.engine.isEstablished = true := by
    rw [established_iff, listens.handshake, established]
  have response : session.respond supply (.write data) = ([], { session with engine := after }) := by
    simp only [respond, react, settled, if_true, command, wrote]
    rfl
  rw [turn_eq, response]
  exact listens_flush _ listening

theorem live_cons_snd (running : session.finished = false) (turn : Turn) (rest : List Turn) :
    (live (turn :: rest) session).2 =
      (live rest (session.turn turn.supply turn.broken turn.stimulus).2).2 := by
  rw [live, if_neg (by simp [running])]

def receives (random : Entropy) (wires : List Bytes) : List Turn :=
  wires.map fun wire => ⟨random, none, .received wire⟩

/-- Whatever a session says to a handshake, a server can say in turns of the loop. -/
theorem listens_live (listens : Listens session.engine h server limit [])
    (fits : ∀ payload ∈ payloads, Packet.Carries limit payload) (field : limit < 2 ^ 32)
    (passes : Handshake.Passes (payloads.map (.packet random)) h actions next)
    (stays : .closed ∉ actions) :
    ∃ wires heard, Listens (live (receives random wires) session).2.engine next heard limit [] := by
  induction payloads generalizing session h server actions with
  | nil =>
    cases passes
    exact ⟨[], server, listens⟩
  | cons payload rest ih =>
    cases passes with
    | cons passed passes =>
      have running : session.finished = false := listens.running
      obtain ⟨wire, heard, listening⟩ := listens_turn listens (fits _ (.head _)) field passed
        fun early => stays (List.mem_append_left _ early)
      obtain ⟨wires, last, listens⟩ := ih listening
        (fun other later => fits other (.tail _ later)) passes
        fun later => stays (List.mem_append_right _ later)
      refine ⟨wire :: wires, last, ?_⟩
      rw [receives, List.map_cons, live_cons_snd running]
      exact listens

def smallBegun : Report × Session := flush none [] { engine := smallEngine.start }

def earlySession : Session := { smallBegun.2 with queued := [[104]] }

theorem listens_early :
    Listens (earlySession.turn zeros none (.received smallServer.version.toBytes)).2.engine
      { Handshake.create zeros smallClient with
        serverVersion := some smallServer.version, phase := .kexInit } {}
      smallClient.maxPacketLength [] := by
  have begun : earlySession.engine.start =
      { handshake := .create zeros smallClient, inbound := Engine.freshInbound smallClient
        queue := [], started := true } := rfl
  obtain ⟨introduced, received, listens, -⟩ :=
    Engine.receive_line zeros begun rfl Engine.small_line []
  rw [listens.waits, List.append_nil] at received
  have response : earlySession.respond zeros (.received smallServer.version.toBytes) =
      ([], { earlySession with engine := introduced }) := by
    simp only [respond, react, received]
    rfl
  rw [turn_eq, response]
  exact listens_flush _ listens

/-- The small server leads it to the established session. -/
theorem early_established :
    ∃ wires h heard, Listens (live (receives zeros wires) earlySession).2.engine h heard
        smallClient.maxPacketLength [] ∧
      h.phase = .established ∧ ∃ messages, h.write [105] = .ok messages := by
  obtain ⟨actions, before, h, path, stays, -, -, established, confirmation, -, confirmed⟩ :=
    Engine.honest_session Handshake.small_checked trivial Handshake.small_fits
      Handshake.small_parsed rfl Handshake.small_agreed Handshake.small_honest
  obtain ⟨wires, heard, listens⟩ :=
    listens_live listens_early Engine.small_carried Engine.small_limit path stays
  refine ⟨smallServer.version.toBytes :: wires, h, heard, ?_, established, ?_⟩
  · rw [receives, List.map_cons, live_cons_snd rfl]
    exact listens
  · obtain ⟨-, -, -, opened⟩ := SessionChannel.confirm_eq_ok_iff.1 confirmed
    have ready : h.channel.state = .opened := by rw [opened]
    have written : h.write [105] = h.channel.dataMessages [105] := by
      rw [Handshake.write, established]
    exact ⟨_, written.trans (SessionChannel.dataMessages_eq ready _)⟩

end SecureShell.Session
