import SecureShell.KeyExchange.Transcript
import SecureShell.Proofs.Wire

/-! The numbers of a key exchange. Both sides raise a public value to their own
exponent and arrive at the same secret; a transcript is hashed alike however its
numbers are held as bytes. -/
namespace SecureShell

theorem length_ofNatNonempty_le {n modulus : Nat} (h : n < modulus) :
    (Bytes.ofNatNonempty n).length ≤ bitLength modulus / 8 + 1 := by
  have bits : bitLength n ≤ bitLength modulus :=
    bitLength_le (Nat.lt_trans h (lt_two_pow_bitLength modulus))
  unfold Bytes.ofNatNonempty
  split
  · simp
  · rw [Bytes.ofNat, Bytes.length_wide]
    omega

namespace Transcript

theorem encodeGroup_congr {a b : ChosenGroup} (bounds : a.bounds = b.bounds)
    (modulus : Bytes.toNat a.modulus = Bytes.toNat b.modulus)
    (generator : Bytes.toNat a.generator = Bytes.toNat b.generator) :
    encodeGroup a = encodeGroup b := by
  rw [encodeGroup, encodeGroup, bounds, Wire.mpint_congr modulus, Wire.mpint_congr generator]

theorem encode_congr {a b : Transcript} (clientVersion : a.clientVersion = b.clientVersion)
    (serverVersion : a.serverVersion = b.serverVersion)
    (clientProposal : a.clientProposal = b.clientProposal)
    (serverProposal : a.serverProposal = b.serverProposal) (hostKey : a.hostKey = b.hostKey)
    (group : a.group.map encodeGroup = b.group.map encodeGroup)
    (clientPublic : Bytes.toNat a.clientPublic = Bytes.toNat b.clientPublic)
    (serverPublic : Bytes.toNat a.serverPublic = Bytes.toNat b.serverPublic)
    (secret : Bytes.toNat a.secret = Bytes.toNat b.secret) : a.encode = b.encode := by
  rw [encode, encode, clientVersion, serverVersion, clientProposal, serverProposal, hostKey, group,
    Wire.mpint_congr clientPublic, Wire.mpint_congr serverPublic, Wire.mpint_congr secret]

end Transcript

namespace DhExchange

theorem publicValue_eq (dh : DhExchange) :
    dh.publicValue = dh.group.generator ^ dh.exponent % dh.group.modulus := powMod_eq ..

/-- Both sides arrive at the same power. -/
theorem powMod_publicValue (dh : DhExchange) (exponent : Nat) :
    powMod (dh.group.generator ^ exponent % dh.group.modulus) dh.exponent dh.group.modulus =
      dh.publicValue ^ exponent % dh.group.modulus := by
  rw [powMod_eq, publicValue_eq, ← Nat.pow_mod, ← Nat.pow_mod, ← Nat.pow_mul, ← Nat.pow_mul,
    Nat.mul_comm]

theorem sharedSecret_ok {dh : DhExchange} {peer secret : Bytes}
    (h : dh.sharedSecret peer = .ok secret) :
    secret = .ofNatNonempty (Bytes.toNat peer ^ dh.exponent % dh.group.modulus) := by
  unfold sharedSecret at h
  dsimp only at h
  split at h
  · cases h
  · rw [← Except.ok.inj h, powMod_eq]

theorem sharedSecret_of_range {dh : DhExchange} {peer : Bytes} (low : 1 < Bytes.toNat peer)
    (high : Bytes.toNat peer < dh.group.modulus - 1) :
    dh.sharedSecret peer =
      .ok (.ofNatNonempty (powMod (Bytes.toNat peer) dh.exponent dh.group.modulus)) := by
  rw [sharedSecret, if_neg (by omega)]

theorem toNat_publicBytes (dh : DhExchange) : Bytes.toNat dh.publicBytes = dh.publicValue :=
  Bytes.toNat_ofNatNonempty _

theorem length_publicBytes_lt {dh : DhExchange} (pos : 0 < dh.group.modulus)
    (bits : bitLength dh.group.modulus < 2 ^ 32) : dh.publicBytes.length + 1 < 2 ^ 32 := by
  have below : dh.publicValue < dh.group.modulus := by
    rw [publicValue_eq]
    exact Nat.mod_lt _ pos
  have length : dh.publicBytes.length ≤ _ := length_ofNatNonempty_le below
  omega

end DhExchange

namespace DhGroup

/-- The groups that are accepted. -/
theorem check_eq_ok_iff {bounds : GroupBounds} {modulus generator : Nat} {group : DhGroup} :
    check bounds modulus generator = .ok group ↔
      (bounds.least.toNat ≤ bitLength modulus ∧ bitLength modulus ≤ bounds.most.toNat ∧
        modulus % 2 = 1 ∧ 1 < generator ∧ generator + 1 < modulus) ∧
      group = ⟨modulus, generator⟩ := by
  unfold check
  dsimp only
  split
  · refine ⟨nofun, fun ⟨accepted, _⟩ => ?_⟩
    omega
  split
  · refine ⟨nofun, fun ⟨accepted, _⟩ => ?_⟩
    omega
  split
  · refine ⟨nofun, fun ⟨accepted, _⟩ => ?_⟩
    omega
  · constructor
    · intro accepted
      exact ⟨by omega, (Except.ok.inj accepted).symm⟩
    · rintro ⟨_, rfl⟩
      rfl

theorem check_ok {bounds : GroupBounds} {modulus generator : Nat} {group : DhGroup}
    (h : check bounds modulus generator = .ok group) :
    group = ⟨modulus, generator⟩ ∧ bitLength modulus ≤ bounds.most.toNat ∧ 0 < modulus := by
  obtain ⟨⟨-, most, -, -, high⟩, same⟩ := check_eq_ok_iff.1 h
  exact ⟨same, most, by omega⟩

theorem ofMethod?_bits {kex : KexMethod} {group : DhGroup} (h : ofMethod? kex = some group) :
    bitLength group.modulus < 2 ^ 32 ∧ 0 < group.modulus := by
  cases kex <;> cases h <;> decide +kernel

end DhGroup

end SecureShell
