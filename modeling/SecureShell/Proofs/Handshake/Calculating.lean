import SecureShell.Proofs.Guarded
import SecureShell.Proofs.Handshake.Failing

/-! What a server can make a client calculate. Whatever group it chooses and whatever value
it sends, the client is never asked for a difference below zero, a draw from nothing or a
remainder modulo zero; and the exchange in progress is at any time one that was begun in a
group that a client takes part in. -/
namespace SecureShell.Handshake

variable {entropy : Entropy} {config : Config} {payload : Bytes} {h after : Handshake}

def Exchanging (h : Handshake) : Prop :=
  ∀ dh ∈ h.exchange, ∃ entropy group, DhGroup.Admitted group ∧ dh = .create entropy group

theorem create_exchanging (entropy : Entropy) (config : Config) :
    Exchanging (create entropy config) := nofun

theorem exchanging_none (none : h.exchange = none) : Exchanging h := by
  intro dh held
  rw [none] at held
  cases held

theorem exchanging_begun {group : DhGroup} (admitted : group.Admitted)
    (begun : h.exchange = some (.create entropy group)) : Exchanging h := by
  intro dh held
  rw [begun] at held
  cases held
  exact ⟨entropy, group, admitted, rfl⟩

theorem Reaction.exchanging {actions : List Action} (exchanging : Exchanging h)
    (reaction : Reaction entropy payload h actions after) : Exchanging after := by
  cases reaction with
  | began _ _ method => exact exchanging_begun (.fixed method) rfl
  | chose _ _ checked => exact exchanging_begun (.chosen checked) rfl
  | replied => exact exchanging_none rfl
  | ignored | dropped | asked | armed | requested | welcomed | confirmed | refused | delivered
  | parted => exact exchanging

theorem Unharmed.exchanging (exchanging : Exchanging h) (unharmed : Unharmed h after) :
    Exchanging after := by
  cases unharmed with
  | same => exact exchanging
  | used => exact exchanging_none rfl

theorem close_exchanging (exchanging : Exchanging h) : Exchanging h.close.2 := by
  unfold close
  split
  · exact exchanging
  · exact exchanging

/-- What a call preserves. -/
theorem Exchanging.call (exchanging : Exchanging h) (invariant : NewKeysInvariant h)
    (action : Call) :
    Exchanging (h.call action).2 := by
  have remains : Remains h (h.call action).2 := invariant.remains action
  generalize (h.call action).2 = after at remains
  cases remains with
  | met | departed => exact exchanging
  | reacted reaction => exact reaction.exchanging exchanging
  | failed unharmed => exact unharmed.exchanging exchanging
  | closed => exact close_exchanging exchanging
  | aborted => exact exchanging_none rfl

theorem Exchanging.run (exchanging : Exchanging h) (invariant : NewKeysInvariant h)
    (calls : List Call) :
    Exchanging (Handshake.run calls h).2 := by
  have step {h : Handshake} (held : Exchanging h ∧ NewKeysInvariant h) (action : Call) :
      Exchanging (h.call action).2 ∧ NewKeysInvariant (h.call action).2 :=
    ⟨held.1.call held.2 action, held.2.call action⟩
  have kept : Exchanging (Handshake.run calls h).2 ∧ NewKeysInvariant (Handshake.run calls h).2 :=
    run_keeps (fun h => Exchanging h ∧ NewKeysInvariant h) step ⟨exchanging, invariant⟩ calls
  exact kept.1

/-- A server's group is taken exactly if its modulus is odd and of a size within bounds, and
its generator lies between 1 and the modulus minus 1; the modulus is then at least 5.
Whatever the server sends, joining its group has a result, and so has, in a group that was
taken and in whatever exchange a handshake has arrived at, what follows from a peer's value. -/
theorem run_calculates (bounds : GroupBounds) (modulus generator : Bytes) :
    let p := Bytes.toNat modulus
    let g := Bytes.toNat generator
    ((∃ group, DhGroup.check bounds p g = .ok group) ↔
      bounds.least.toNat ≤ bitLength p ∧ bitLength p ≤ bounds.most.toNat ∧
        p % 2 = 1 ∧ 1 < g ∧ g + 1 < p) ∧
    (∀ entropy, Guarded.join entropy bounds p g =
      some ((DhGroup.check bounds p g).map fun group =>
        (.create entropy group, (DhExchange.create entropy group).publicValue))) ∧
    (∀ group, DhGroup.check bounds p g = .ok group → group = ⟨p, g⟩ ∧ 5 ≤ p ∧
      ∀ dh peer, dh.group = group → Guarded.sharedSecret dh peer = some (dh.sharedSecret peer)) ∧
    ∀ entropy config calls, ∀ dh ∈ (run calls (create entropy config)).2.exchange,
      (2 ≤ dh.exponent ∧ dh.exponent ≤ dh.group.modulus - 2) ∧
      ∀ peer, Guarded.sharedSecret dh peer = some (dh.sharedSecret peer) := by
  intro p g
  refine ⟨?_, fun entropy => Guarded.join_eq entropy bounds p g, ?_, ?_⟩
  · constructor
    · rintro ⟨group, checked⟩
      exact (DhGroup.check_eq_ok_iff.1 checked).1
    · intro accepted
      exact ⟨_, DhGroup.check_eq_ok_iff.2 ⟨accepted, rfl⟩⟩
  · intro group checked
    have admitted : group.Admitted := .chosen checked
    obtain ⟨-, same⟩ := DhGroup.check_eq_ok_iff.1 checked
    have large : 5 ≤ group.modulus := admitted.sound.five_le
    rw [same] at large
    refine ⟨same, large, ?_⟩
    rintro dh peer rfl
    exact Guarded.sharedSecret_admitted admitted peer
  · intro entropy config calls dh held
    have exchanging : Exchanging (run calls (create entropy config)).2 :=
      (create_exchanging entropy config).run (create_newKeysInvariant entropy config) calls
    obtain ⟨entropy, group, admitted, rfl⟩ := exchanging dh held
    have large : 5 ≤ group.modulus := admitted.sound.five_le
    refine ⟨DhExchange.create_exponent entropy (Nat.le_of_succ_le large), fun peer => ?_⟩
    exact Guarded.sharedSecret_admitted admitted peer

def modestClient : Config :=
  { smallClient with
    preferences := { smallClient.preferences with kex := ["diffie-hellman-group-exchange-sha1"] }
    groupBounds := ⟨0, 0, 8⟩ }

/-- The smallest group that is taken: 2 modulo 5. -/
def smallestGroup : Bytes := MessageCode.gexGroup.toByte :: Wire.mpint [5] ++ Wire.mpint [2]

def modestCalls : List Call :=
  [.version (.ofSoftware "server" none),
    .packet zeros (create zeros modestClient).clientProposal, .packet zeros smallestGroup]

def modestAgreement : Negotiated := { smallAgreement with kex := .groupExchange }

theorem modest_exchange : (run modestCalls (create zeros modestClient)).2.exchange =
    some (.create zeros ⟨5, 2⟩) := by
  have checked : modestClient.check = .ok () := rfl
  have fits : modestClient.preferences.Fits := by decide
  have parsed : Proposal.parse (create zeros modestClient).clientProposal =
      .ok (.ofPreferences zeros modestClient.preferences) :=
    parse_ofPreferences (Config.check_ok checked) fits
  have agreed : negotiate (.ofPreferences zeros modestClient.preferences)
      (.ofPreferences zeros modestClient.preferences) = .ok modestAgreement := rfl
  have given : Reader.parse groupReader smallestGroup = .ok ([5], [2]) := rfl
  have admitted : DhGroup.check modestClient.groupBounds (Bytes.toNat [5]) (Bytes.toNat [2]) =
      .ok ⟨5, 2⟩ := DhGroup.check_eq_ok_iff.2 (by decide)
  have passes : Passes modestCalls (create zeros modestClient) _ _ :=
    .cons (version_passes rfl _) (.cons (asking_passes rfl parsed parsed agreed rfl)
      (.one (group_passes rfl rfl rfl given admitted)))
  rw [passes.run.1]

/-- The smallest group, its modulus with a zero in front: it is taken, a handshake arrives
at an exchange in it, and nothing at all, sent as a value, leads to an ordinary refusal. -/
theorem run_calculates_smallest :
    let dh := DhExchange.create zeros ⟨5, 2⟩
    DhGroup.check ⟨0, 0, 8⟩ (Bytes.toNat [0, 5]) (Bytes.toNat [2]) = .ok ⟨5, 2⟩ ∧
    5 ≤ Bytes.toNat [0, 5] ∧ Guarded.sharedSecret dh [3] = some (dh.sharedSecret [3]) ∧
    (run modestCalls (create zeros modestClient)).2.exchange = some dh ∧
    2 ≤ dh.exponent ∧ dh.exponent ≤ 3 ∧
    Guarded.sharedSecret dh [] = some (dh.sharedSecret []) ∧
    dh.sharedSecret [] = .error (.crypto .peerOutOfRange) := by
  intro dh
  have checked : DhGroup.check ⟨0, 0, 8⟩ (Bytes.toNat [0, 5]) (Bytes.toNat [2]) = .ok ⟨5, 2⟩ :=
    DhGroup.check_eq_ok_iff.2 (by decide)
  have calculates := run_calculates ⟨0, 0, 8⟩ [0, 5] [2]
  change _ ∧ _ ∧ _ ∧ _ at calculates
  obtain ⟨-, -, taken, arrived⟩ := calculates
  obtain ⟨-, large, later⟩ := taken _ checked
  obtain ⟨⟨low, high⟩, values⟩ := arrived zeros modestClient modestCalls dh modest_exchange
  exact ⟨checked, large, later dh [3] rfl, modest_exchange, low, high, values [], rfl⟩

end SecureShell.Handshake
