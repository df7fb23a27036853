import SecureShell.Proofs.KeyExchange

/-! Agreement on a secret. In every group that a client takes part in, a value is taken
from the peer exactly if it lies between 1 and the modulus minus 1, and two exchanges that
take each other's values arrive at the same bytes, whatever the modulus is a product of. -/
namespace SecureShell

namespace Bytes

/-- The shortest string for a number that is not empty. -/
structure Shortest (bytes : Bytes) (n : Nat) : Prop where
  nonempty : bytes ≠ []
  denotes : toNat bytes = n
  least : ∀ other : Bytes, other ≠ [] → toNat other = n → bytes.length ≤ other.length

theorem Shortest.unique {a b : Bytes} {n : Nat} (ha : a.Shortest n) (hb : b.Shortest n) :
    a = b := by
  apply eq_of_toNat_eq
  · apply Nat.le_antisymm
    · exact ha.least b hb.nonempty hb.denotes
    · exact hb.least a ha.nonempty ha.denotes
  · rw [ha.denotes, hb.denotes]

theorem shortest_zero : Shortest [0] 0 where
  nonempty := nofun
  denotes := rfl
  least _ nonempty _ := List.length_pos_iff.2 nonempty

theorem length_ofNat_le {n : Nat} {other : Bytes} (same : toNat other = n) :
    (ofNat n).length ≤ other.length := by
  have below : n < 2 ^ (8 * other.length) := by
    rw [← same, Nat.pow_mul]
    exact toNat_lt other
  have bits : bitLength n ≤ 8 * other.length := bitLength_le below
  rw [ofNat, length_wide]
  omega

theorem ofNatNonempty_shortest (n : Nat) : (ofNatNonempty n).Shortest n := by
  by_cases zero : n = 0
  · subst zero
    exact shortest_zero
  · have value : toNat (ofNat n) = n := toNat_ofNat n
    rw [ofNatNonempty, if_neg zero]
    refine ⟨?_, value, fun other _ same => length_ofNat_le same⟩
    intro empty
    rw [empty] at value
    exact zero value.symm

end Bytes

namespace DhGroup

/-- A group that a client takes part in: one that a server chose and that passed the check,
within whatever bounds, or one that a method fixes. -/
inductive Admitted : DhGroup → Prop where
  | chosen {bounds : GroupBounds} {modulus generator : Nat} {group : DhGroup} :
      check bounds modulus generator = .ok group → Admitted group
  | fixed {kex : KexMethod} {group : DhGroup} : ofMethod? kex = some group → Admitted group

/-- A group with room for exponents and for values of a peer. -/
structure Sound (group : DhGroup) : Prop where
  odd : group.modulus % 2 = 1
  low : 1 < group.generator
  high : group.generator + 1 < group.modulus

theorem Sound.five_le {group : DhGroup} (sound : group.Sound) : 5 ≤ group.modulus := by
  have odd := sound.odd
  have low := sound.low
  have high := sound.high
  omega

theorem ofMethod?_sound {kex : KexMethod} {group : DhGroup} (fixed : ofMethod? kex = some group) :
    group.Sound := by
  cases kex with
  | groupExchange => cases fixed
  | group14 | group1 =>
    cases fixed
    constructor <;> decide +kernel

theorem Admitted.sound {group : DhGroup} (admitted : group.Admitted) : group.Sound := by
  cases admitted with
  | chosen checked =>
    obtain ⟨⟨-, -, odd, low, high⟩, rfl⟩ := check_eq_ok_iff.1 checked
    exact ⟨odd, low, high⟩
  | fixed method => exact ofMethod?_sound method

end DhGroup

namespace DhExchange

variable {group : DhGroup}

theorem create_exponent (entropy : Entropy) (large : 4 ≤ group.modulus) :
    2 ≤ (create entropy group).exponent ∧ (create entropy group).exponent ≤ group.modulus - 2 := by
  have below : randomNumber entropy (group.modulus - 3) % (group.modulus - 3) <
      group.modulus - 3 := Nat.mod_lt _ (by omega)
  simp only [create]
  omega

theorem publicBytes_shortest (dh : DhExchange) : dh.publicBytes.Shortest dh.publicValue :=
  Bytes.ofNatNonempty_shortest _

/-- The values that are taken from a peer, and what comes of them. -/
theorem sharedSecret_eq_ok_iff {dh : DhExchange} {peer secret : Bytes} :
    dh.sharedSecret peer = .ok secret ↔
      (1 < Bytes.toNat peer ∧ Bytes.toNat peer < dh.group.modulus - 1) ∧
      secret = .ofNatNonempty (Bytes.toNat peer ^ dh.exponent % dh.group.modulus) := by
  constructor
  · intro agreed
    refine ⟨?_, sharedSecret_ok agreed⟩
    unfold sharedSecret at agreed
    dsimp only at agreed
    split at agreed
    · cases agreed
    · omega
  · rintro ⟨⟨low, high⟩, rfl⟩
    rw [sharedSecret_of_range low high, powMod_eq]

theorem sharedSecret_zeros (dh : DhExchange) (zeros : Nat) (peer : Bytes) :
    dh.sharedSecret (List.replicate zeros 0 ++ peer) = dh.sharedSecret peer := by
  simp only [sharedSecret, Bytes.toNat_zeros_append]

theorem sharedSecret_publicBytes {a b : DhExchange} {secret : Bytes} (same : b.group = a.group)
    (agreed : a.sharedSecret b.publicBytes = .ok secret) :
    secret.Shortest (a.group.generator ^ (a.exponent * b.exponent) % a.group.modulus) := by
  have power : b.publicValue ^ a.exponent % a.group.modulus =
      a.group.generator ^ (a.exponent * b.exponent) % a.group.modulus := by
    rw [publicValue_eq, same, ← Nat.pow_mod, ← Nat.pow_mul, Nat.mul_comm]
  rw [sharedSecret_ok agreed, toNat_publicBytes, power]
  exact Bytes.ofNatNonempty_shortest _

/-- In every group that a client takes part in: the client's value is the power of the
generator to an exponent within range; a peer's value is taken exactly if it is within
range, with however many zeros in front; and two exchanges that take each other's values
arrive at the same bytes, the shortest ones for the power of the generator to the product
of both exponents. -/
theorem sharedSecret_agrees (admitted : group.Admitted) :
    (∀ entropy,
      let dh := create entropy group
      dh.publicValue = group.generator ^ dh.exponent % group.modulus ∧
      dh.publicBytes.Shortest dh.publicValue ∧
      2 ≤ dh.exponent ∧ dh.exponent ≤ group.modulus - 2) ∧
    (∀ (dh : DhExchange) (zeros : Nat) (peer : Bytes), dh.group = group →
      ((∃ secret, dh.sharedSecret (List.replicate zeros 0 ++ peer) = .ok secret) ↔
        1 < Bytes.toNat peer ∧ Bytes.toNat peer < group.modulus - 1)) ∧
    ∀ (a b : DhExchange) (first second : Bytes), a.group = group → b.group = group →
      a.sharedSecret b.publicBytes = .ok first → b.sharedSecret a.publicBytes = .ok second →
      first = second ∧
      first.Shortest (group.generator ^ (a.exponent * b.exponent) % group.modulus) ∧
      (group.generator ^ (a.exponent * b.exponent) % group.modulus = 0 → first = [0]) := by
  have large : 4 ≤ group.modulus := Nat.le_of_succ_le admitted.sound.five_le
  refine ⟨?_, ?_, ?_⟩
  · intro entropy dh
    exact ⟨publicValue_eq dh, publicBytes_shortest dh, create_exponent entropy large⟩
  · rintro dh zeros peer rfl
    rw [sharedSecret_zeros]
    constructor
    · rintro ⟨secret, agreed⟩
      exact (sharedSecret_eq_ok_iff.1 agreed).1
    · intro within
      exact ⟨_, sharedSecret_eq_ok_iff.2 ⟨within, rfl⟩⟩
  · rintro a b first second rfl other hFirst hSecond
    have one := sharedSecret_publicBytes other hFirst
    have two := sharedSecret_publicBytes other.symm hSecond
    rw [other, Nat.mul_comm] at two
    refine ⟨one.unique two, one, ?_⟩
    intro zero
    rw [zero] at one
    exact one.unique Bytes.shortest_zero

def nilpotentGroup : DhGroup := ⟨243, 3⟩

/-- The group passes the check, both sides take the other's value, and both arrive at one
zero byte. -/
theorem sharedSecret_agrees_zero :
    let a := create (.repeating [0]) nilpotentGroup
    let b := create (.repeating [1]) nilpotentGroup
    DhGroup.check ⟨0, 0, 8⟩ 243 3 = .ok nilpotentGroup ∧ nilpotentGroup.Admitted ∧
    a.publicBytes = [9] ∧ b.publicBytes = [27] ∧
    (∃ secret, a.sharedSecret (List.replicate 2 0 ++ [27]) = .ok secret) ∧
    a.sharedSecret b.publicBytes = .ok [0] ∧ b.sharedSecret a.publicBytes = .ok [0] ∧
    Bytes.Shortest [0] (3 ^ (2 * 3) % 243) := by
  intro a b
  have checked : DhGroup.check ⟨0, 0, 8⟩ 243 3 = .ok nilpotentGroup := rfl
  have admitted : nilpotentGroup.Admitted := .chosen checked
  have hFirst : a.sharedSecret b.publicBytes = .ok [0] :=
    sharedSecret_eq_ok_iff.2 (by decide)
  have hSecond : b.sharedSecret a.publicBytes = .ok [0] :=
    sharedSecret_eq_ok_iff.2 (by decide)
  obtain ⟨-, taken, agrees⟩ := sharedSecret_agrees admitted
  obtain ⟨-, shortest, -⟩ := agrees a b [0] [0] rfl rfl hFirst hSecond
  refine ⟨checked, admitted, by decide, by decide, ?_, hFirst, hSecond, shortest⟩
  exact (taken a 2 [27] rfl).2 (by decide)

end DhExchange

end SecureShell
