import SecureShell.Proofs.Engine.Secrecy

/-! What follows the client's own NEWKEYS. The client says that it will use the new keys
as soon as it has accepted the server's reply, and puts them to use when the server has
said so too. Everything behind its NEWKEYS is sealed with them, but for the message with
which the connection may end in between. -/
namespace SecureShell.Engine

open Handshake

variable {engine : Engine} {config : Config} {entropy : Entropy}

/-- The messages in the clear that may come before the client's NEWKEYS. -/
def earlyCodes : List MessageCode := [.disconnect, .kexInit, .dhInit, .gexInit, .gexRequest]

/-- Every packet behind the client's NEWKEYS is sealed with the keys of the agreement, or
it is the one message with which a connection ends that has not put them to use. -/
theorem run_newKeys (created : Engine.create entropy config = .ok engine)
    (calls : List (Supply × Call)) :
    ∃ told before behind,
      (run calls engine).engine.handshake = (Handshake.run told engine.handshake).2 ∧
      (run calls engine).output =
        greeting config (run calls engine).engine ++ (before ++ behind) ∧
      (∀ wire ∈ before, InClear earlyCodes wire) ∧
      (behind = [] ∨ ∃ (own : Bytes) (rest : List Bytes) (a : Agreement),
        behind = own :: rest ∧ InClear [.newKeys] own ∧
        a.Shown config engine.handshake.clientProposal (Handshake.run told engine.handshake).1 ∧
        ((∃ protection,
          Sealed (a.keys config engine.handshake.clientProposal .clientToServer)
            (before.length + 1) rest protection) ∨
          ∃ leave, rest = [leave] ∧ InClear [.disconnect] leave ∧
            (run calls engine).engine.finished = true ∧
            Unarmed (Handshake.run told engine.handshake).1)) := by
  obtain ⟨told, packets, handshake, output, spoken⟩ := run_spoken created calls
  have early {wire : Bytes} (clear : InClear openingCodes wire) : InClear earlyCodes wire :=
    clear.mono (by decide)
  cases spoken with
  | @bare before leave clear leaving =>
    refine ⟨told, before ++ leave, [], handshake, ?_, ?_, .inl rfl⟩
    · rw [List.append_nil]
      exact output
    · intro wire member
      rcases List.mem_append.1 member with member | member
      · exact early (clear wire member)
      · exact (leaving.clear wire member).mono (by decide)
  | @agreed a before leave own clear switching shown unarmed leaving running =>
    refine ⟨told, before, own :: leave, handshake, output, fun wire member =>
      early (clear wire member), .inr ⟨own, leave, a, rfl, switching, shown, ?_⟩⟩
    cases leave with
    | nil =>
      have sized := DirectionKeys.derive_sized a.secret
        (a.transcript config engine.handshake.clientProposal).hash
        (a.transcript config engine.handshake.clientProposal).hash .clientToServer
        a.negotiated.cipherOut a.negotiated.macOut
      obtain ⟨protection, protected_, -⟩ := Protection.create_opposite sized
      exact .inl ⟨protection, .nil protected_⟩
    | cons last more =>
      have few := leaving.atMostOne
      have none : more = [] := List.length_eq_zero_iff.1 (by rw [List.length_cons] at few; omega)
      subst none
      refine .inr ⟨last, rfl, leaving.clear last (.head _), ?_, unarmed⟩
      rcases Bool.eq_false_or_eq_true (run calls engine).engine.finished with ended | running'
      · exact ended
      · exact absurd (running running') (List.cons_ne_nil _ _)
  | @used a before guarded own protection clear switching shown sealing =>
    exact ⟨told, before, own :: guarded, handshake, output, fun wire member =>
      early (clear wire member), .inr ⟨own, guarded, a, rfl, switching, shown,
        .inl ⟨protection, sealing⟩⟩⟩

/-- A client that is closed while it waits for the server's NEWKEYS takes leave in the
clear, behind its own. -/
theorem run_farewell (created : Engine.create entropy config = .ok engine)
    (calls : List (Supply × Call)) (running : (run calls engine).engine.finished = false)
    (waiting : (run calls engine).engine.handshake.phase = .newKeys) (supply : Supply) :
    ∃ before own leave,
      (run (calls ++ [(supply, .close)]) engine).output =
        greeting config (run (calls ++ [(supply, .close)]) engine).engine ++
          (before ++ [own, leave]) ∧
      (∀ wire ∈ before, InClear openingCodes wire) ∧ InClear [.newKeys] own ∧
      InClear [.disconnect] leave ∧ leave.length % 8 = 0 := by
  obtain ⟨told, -, conversing⟩ := run_converses created calls
  rw [run_append]
  simp only [run, call, Call.taken, Run.output, List.append_nil] at conversing ⊢
  generalize (run calls engine).engine = last at conversing running waiting ⊢
  generalize (run calls engine).taken = taken at conversing ⊢
  generalize output : taken ++ last.queue.reverse = queued at conversing
  obtain ⟨k, packets, rfl, -, keyed, speaking, -⟩ := conversing.unended running
  cases keyed with
  | bare bare =>
    rw [waiting] at bare
    cases bare
  | used _ late => exact absurd waiting late
  | agreed _ channel =>
    cases speaking with
    | @agreed _ before own _ clear switching exposed =>
      -- nothing but the farewell is sent, and it is the last packet of the queue
      have farewells : last.handshake.close.1 = [farewell.toBytes] := by
        have silent : last.handshake.channel.close = (none, last.handshake.channel) :=
          if_pos (.inr channel)
        simp [Handshake.close, waiting, silent]
      obtain ⟨wires, after, performs⟩ := performs_sends supply
        { last with handshake := last.handshake.close.2 } exposed.ready
        last.handshake.close.1
      have closed := close_eq running performs
      rw [farewells] at performs
      cases performs with
      | @send _ leave _ _ _ _ _ sent rest =>
        cases rest
        refine ⟨before, own, leave, ?_, clear, switching, ?_, exposed.length_mod sent⟩
        · rw [closed]
          change taken ++ (leave :: last.queue).reverse =
            greeting config last ++ (before ++ [own, leave])
          rw [List.reverse_cons, ← List.append_assoc, output, List.append_assoc, List.append_assoc]
          rfl
        · have code : farewell.toBytes.head? = some MessageCode.disconnect.toByte := rfl
          exact (exposed.send sent code (.head _)).1

/-- A list has one place for the first element of a kind. -/
theorem split_unique {α : Type} {kind : α → Prop} {first second rest later : List α} {a b : α}
    (same : first ++ a :: rest = second ++ b :: later) (other : ∀ x ∈ first, ¬ kind x)
    (other' : ∀ x ∈ second, ¬ kind x) (found : kind a) (found' : kind b) :
    first = second ∧ a = b ∧ rest = later := by
  induction first generalizing second with
  | nil =>
    cases second with
    | nil =>
      cases same
      exact ⟨rfl, rfl, rfl⟩
    | cons x second =>
      cases same
      exact absurd found (other' _ (.head _))
  | cons x first ih =>
    cases second with
    | nil =>
      cases same
      exact absurd found' (other _ (.head _))
    | cons y second =>
      obtain ⟨rfl, tails⟩ := List.cons_eq_cons.1 same
      obtain ⟨rfl, equal, more⟩ := ih tails (fun x later => other x (.tail _ later))
        fun x later => other' x (.tail _ later)
      exact ⟨rfl, equal, more⟩

section Window

/-- A client that wants packets authenticated with SHA-1. -/
def narrowClient : Config :=
  { smallClient with preferences := { smallClient.preferences with macs := ["hmac-sha1"] } }

def narrowServer : ServerMessages :=
  { smallServer with proposal := (Proposal.ofPreferences zeros narrowClient.preferences).toBytes }

def narrowAgreement : Negotiated := { smallAgreement with macOut := .sha1, macIn := .sha1 }

/-- The server's line and its first two packets: everything before its NEWKEYS. -/
def narrowStream : Bytes :=
  narrowServer.version.toBytes ++ (Packet.plain zeros narrowServer.proposal ++
    (Packet.plain zeros narrowServer.reply ++ []))

def narrowEngine : Engine :=
  { handshake := .create zeros narrowClient, inbound := freshInbound narrowClient }

theorem narrow_created : Engine.create zeros narrowClient = .ok narrowEngine := by rfl

theorem narrow_agreed :
    negotiate (.ofPreferences zeros narrowClient.preferences)
      (.ofPreferences zeros narrowClient.preferences) = .ok narrowAgreement := by
  rfl

theorem narrow_parsed : Proposal.parse narrowServer.proposal =
    .ok (.ofPreferences zeros narrowClient.preferences) := by
  have checked : narrowClient.check = .ok () := by rfl
  exact parse_ofPreferences (Config.check_ok checked) (by decide)

theorem narrow_honest : Honest narrowClient (Handshake.create zeros narrowClient).clientProposal
    narrowAgreement zeros narrowServer smallView where
  group := .fixed rfl
  heard := small_honest.heard
  inRange := small_honest.inRange
  hostKey := small_honest.hostKey
  algorithm := rfl
  trusted := rfl
  replyCode := rfl
  reply := ⟨smallReply, KexReply.parse_toBytes (by decide) (by decide) (by decide), rfl,
    by decide +kernel, small_verify _⟩
  newKeys := rfl
  serviceAccept := small_honest.serviceAccept
  failure := small_honest.failure
  keyAccepted := rfl
  success := rfl
  confirmation := small_honest.confirmation

/-- All that this client sends behind its NEWKEYS would be sealed with SHA-1. -/
theorem narrow_macOut {a : Agreement} {history : List Record}
    (shown : a.Shown narrowClient narrowEngine.handshake.clientProposal history) :
    a.negotiated.macOut = .sha1 := by
  obtain ⟨client, server, own, -, agreed⟩ := shown.settled
  have parsed : Proposal.parse narrowEngine.handshake.clientProposal = _ := narrow_parsed
  rw [parsed] at own
  cases own
  obtain ⟨name, listed, known⟩ := macOut_of_negotiate agreed
  have only : name = "hmac-sha1" := List.mem_singleton.1 listed
  rw [only] at known
  exact (Option.some.inj known).symm

/-- A client that has heard this server's reply, and is closed. -/
theorem run_newKeys_narrow :
    let calls : List (Supply × Call) := [(zeros, .receive narrowStream), (zeros, .close)]
    Engine.create zeros narrowClient = .ok narrowEngine ∧
      ∃ told before behind,
        (run calls narrowEngine).engine.handshake =
          (Handshake.run told narrowEngine.handshake).2 ∧
        (run calls narrowEngine).output =
          greeting narrowClient (run calls narrowEngine).engine ++ (before ++ behind) ∧
        (∀ wire ∈ before, InClear earlyCodes wire) ∧
        (behind = [] ∨ ∃ (own : Bytes) (rest : List Bytes) (a : Agreement),
          behind = own :: rest ∧ InClear [.newKeys] own ∧
          a.Shown narrowClient narrowEngine.handshake.clientProposal
            (Handshake.run told narrowEngine.handshake).1 ∧
          ((∃ protection,
            Sealed (a.keys narrowClient narrowEngine.handshake.clientProposal .clientToServer)
              (before.length + 1) rest protection) ∨
            ∃ leave, rest = [leave] ∧ InClear [.disconnect] leave ∧
              (run calls narrowEngine).engine.finished = true ∧
              Unarmed (Handshake.run told narrowEngine.handshake).1)) := by
  intro calls
  exact ⟨narrow_created, run_newKeys narrow_created calls⟩

/-- Not everything behind the client's NEWKEYS is sealed: a client that is closed before
the server has sent its own does not seal its farewell. -/
theorem run_newKeys_window :
    let calls : List (Supply × Call) := [(zeros, .receive narrowStream), (zeros, .close)]
    Engine.create zeros narrowClient = .ok narrowEngine ∧
      ¬ ∃ told before behind,
        (run calls narrowEngine).engine.handshake =
          (Handshake.run told narrowEngine.handshake).2 ∧
        (run calls narrowEngine).output =
          greeting narrowClient (run calls narrowEngine).engine ++ (before ++ behind) ∧
        (∀ wire ∈ before, InClear earlyCodes wire) ∧
        (behind = [] ∨ ∃ (own : Bytes) (rest : List Bytes) (a : Agreement) (protection : Protection),
          behind = own :: rest ∧ InClear [.newKeys] own ∧
          a.Shown narrowClient narrowEngine.handshake.clientProposal
            (Handshake.run told narrowEngine.handshake).1 ∧
          Sealed (a.keys narrowClient narrowEngine.handshake.clientProposal .clientToServer)
            (before.length + 1) rest protection) := by
  intro calls
  refine ⟨narrow_created, ?_⟩
  rintro ⟨told, before, behind, -, output, early, sealing⟩
  have line : LineReader.feed narrowServer.version.toBytes {} =
    .ok (some (narrowServer.version, [])) {} := by rfl
  have fits : ∀ payload ∈ [narrowServer.proposal, narrowServer.reply],
      Packet.Carries narrowClient.maxPacketLength payload := by decide +kernel
  obtain ⟨after, received, running, waiting⟩ := receive_reply narrow_created line narrow_parsed
    narrow_parsed narrow_agreed rfl rfl narrow_honest fits (by decide) zeros
  have reached : (run [(zeros, .receive narrowStream)] narrowEngine).engine = after := by
    simp only [run, call, narrowStream, received]
  rw [← reached] at running waiting
  obtain ⟨opening, switch, leave, output', opened, switching, leaving, aligned⟩ :=
    run_farewell narrow_created _ running waiting zeros
  have same : opening ++ switch :: [leave] = before ++ behind :=
    List.append_cancel_left (output'.symm.trans output)
  have unlike {codes : List MessageCode} (without : .newKeys ∉ codes) {wires : List Bytes}
      (clear : ∀ wire ∈ wires, InClear codes wire) :
      ∀ wire ∈ wires, ¬ InClear [.newKeys] wire := by
    intro wire member also
    obtain ⟨code, listed, only⟩ := (clear wire member).meets also
    rw [List.mem_singleton.1 only] at listed
    exact without listed
  have before' := unlike (by decide) early
  have opening' := unlike (by decide) opened
  rcases sealing with rfl | ⟨own, rest, a, protection, rfl, owning, shown, sealing⟩
  · rw [List.append_nil] at same
    exact before' switch (same ▸ List.mem_append_right _ (.head _)) switching
  · obtain ⟨rfl, rfl, rfl⟩ := split_unique same opening' before' switching owning
    have odd := sealing.length_mod.2 leave (.head _)
    have mac : (a.keys narrowClient narrowEngine.handshake.clientProposal .clientToServer).mac =
      .sha1 := narrow_macOut shown
    rw [aligned, mac] at odd
    cases odd

end Window

end SecureShell.Engine
