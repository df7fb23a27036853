import Mathlib.NumberTheory.LucasLehmer
import SecureShell.ClientKey
import SecureShell.Proofs.Messages

/-! Signing and verifying with RSA. What the holder of a key pair signs is accepted under
the public key as it travels, by every verifier that keeps to the standard, whatever the
number of zeros that the signature or the numbers of the key begin with. -/
namespace SecureShell

namespace Rsa

/-- A digest in the distinguished encoding: the algorithm, which its identifier
1.3.14.3.2.26 names and which has no parameters, and the digest as a string of octets. -/
def digestEncoding (digest : Bytes) : Bytes :=
  Der.sequence (Der.sequence ([0x06, 5, 0x2b, 0x0e, 0x03, 0x02, 0x1a] ++ [0x05, 0]) ++
    0x04 :: UInt8.ofNat digest.length :: digest)

/-- The encoded message of the standard: a zero and a one, at least eight filling bytes,
and behind another zero the encoding of the digest. -/
def Encodes (length : Nat) (data message : Bytes) : Prop :=
  message.length = length ∧ ∃ filling, 8 ≤ filling ∧
    message = [0x00, 0x01] ++ List.replicate filling 0xff ++
      (0x00 :: digestEncoding (Digest.Sha1.digest data))

/-- Public keys that are worth verifying with. -/
structure Sound (modulus exponent : Nat) : Prop where
  odd : modulus % 2 = 1
  least : 1024 ≤ bitLength modulus
  most : bitLength modulus ≤ 8192
  exponentOdd : exponent % 2 = 1
  exponentLeast : 3 ≤ exponent
  exponentMost : exponent < 2 ^ 33

/-- A verifier keeps to the standard: a signature as long as the modulus, of a number
between zero and the modulus, is accepted exactly if its power is the encoded message. -/
def Verifier.Lawful (verifier : Verifier) : Prop :=
  ∀ {modulus exponent : Nat}, Sound modulus exponent → ∀ (data : Bytes) {signature : Bytes},
    signature.length = byteLength modulus → 0 < signature.toNat → signature.toNat < modulus →
    (verifier modulus exponent data signature = true ↔
      ∃ message, Encodes (byteLength modulus) data message ∧
        signature.toNat ^ exponent % modulus = message.toNat)

theorem digestEncoding_sha1 (data : Bytes) :
    digestEncoding (Digest.Sha1.digest data) = digestInfo ++ Digest.Sha1.digest data := by
  have digest : (Digest.Sha1.digest data).length = 20 := Digest.Sha1.hash.length_digest data
  simp only [digestEncoding, Der.sequence, List.length_append, List.length_cons, List.length_nil,
    digest]
  rfl

theorem encoded_encodes {length : Nat} (room : minLength ≤ length) (data : Bytes) :
    Encodes length data (encoded length data) := by
  have least : minLength = 46 := rfl
  have tail : (0x00 :: digestInfo ++ Digest.Sha1.digest data).length = 36 := by
    have digest : (Digest.Sha1.digest data).length = 20 := Digest.Sha1.hash.length_digest data
    have info : digestInfo.length = 15 := rfl
    rw [List.length_append, List.length_cons, info, digest]
  have message : encoded length data = [0x00, 0x01] ++ List.replicate (length - 38) 0xff ++
      (0x00 :: digestInfo ++ Digest.Sha1.digest data) := by
    rw [encoded, tail, Nat.sub_sub]
  refine ⟨?_, length - 38, by omega, ?_⟩
  · rw [message, List.length_append, List.length_append, List.length_replicate, tail]
    simp only [List.length_cons, List.length_nil]
    omega
  · rw [message, digestEncoding_sha1]
    rfl

theorem Encodes.unique {length : Nat} {data a b : Bytes} (ha : Encodes length data a)
    (hb : Encodes length data b) : a = b := by
  obtain ⟨lengthA, fillingA, -, rfl⟩ := ha
  obtain ⟨lengthB, fillingB, -, rfl⟩ := hb
  have same : fillingA = fillingB := by simpa using lengthA.trans lengthB.symm
  rw [same]

theorem minLength_le {modulus : Nat} (bits : 1024 ≤ bitLength modulus) :
    minLength ≤ byteLength modulus := by
  have least : minLength = 46 := rfl
  rw [byteLength, least]
  omega

theorem pow_byteLength_le {modulus : Nat} (bits : 1024 ≤ bitLength modulus) :
    256 ^ (byteLength modulus - 1) ≤ modulus := by
  have nonzero : modulus ≠ 0 := by
    rintro rfl
    exact absurd bits (by decide)
  have bits : bitLength modulus = modulus.log2 + 1 := if_neg nonzero
  calc 256 ^ (byteLength modulus - 1)
      = 2 ^ (8 * (byteLength modulus - 1)) := (Nat.pow_mul 2 8 _).symm
    _ ≤ 2 ^ modulus.log2 := Nat.pow_le_pow_right (by decide) (by rw [byteLength, bits]; omega)
    _ ≤ modulus := Nat.log2_self_le nonzero

/-- The zero in front keeps an encoded message below the modulus, and the one behind it
keeps it from being zero. -/
theorem Encodes.range {modulus : Nat} {data message : Bytes} (bits : 1024 ≤ bitLength modulus)
    (encodes : Encodes (byteLength modulus) data message) :
    0 < message.toNat ∧ message.toNat < modulus := by
  obtain ⟨length, filling, -, rfl⟩ := encodes
  rw [List.append_assoc] at length ⊢
  generalize (List.replicate filling 0xff ++ _ : Bytes) = rest at length ⊢
  have value : Bytes.toNat ([0x00, 0x01] ++ rest) = Bytes.toNat (0x01 :: rest) :=
    Bytes.toNat_zeros_append 1 (0x01 :: rest)
  have shorter : (0x01 :: rest).length = byteLength modulus - 1 := by
    rw [← length]
    rfl
  rw [value]
  constructor
  · exact Nat.lt_of_lt_of_le (Nat.pow_pos (by decide)) (Bytes.pow_le_toNat (by decide))
  · calc Bytes.toNat (0x01 :: rest)
        < 256 ^ (byteLength modulus - 1) := shorter ▸ Bytes.toNat_lt (0x01 :: rest)
      _ ≤ modulus := pow_byteLength_le bits

theorem standard_lawful : Verifier.Lawful standard := by
  intro modulus exponent sound data signature length positive below
  have encodes := encoded_encodes (minLength_le sound.least) data
  have acceptable : acceptable modulus exponent = true := by
    obtain ⟨odd, least, most, exponentOdd, exponentLeast, exponentMost⟩ := sound
    have shortest : 128 ≤ byteLength modulus := by
      rw [byteLength]
      omega
    have longest : byteLength modulus ≤ 1024 := by
      rw [byteLength]
      omega
    simp only [Rsa.acceptable, odd, shortest, longest, exponentOdd, exponentLeast, exponentMost]
    rfl
  have judged : standard modulus exponent data signature = true ↔
      signature.toNat ^ exponent % modulus = (encoded (byteLength modulus) data).toNat := by
    simp [standard, acceptable, length, positive, below, powMod_eq]
  rw [judged]
  constructor
  · exact fun power => ⟨_, encodes, power⟩
  · rintro ⟨message, other, power⟩
    rw [power, other.unique encodes]

/-- What is raised to the one exponent and then to the other comes back. -/
def Inverse (modulus exponent privateExponent : Nat) : Prop :=
  ∀ m < modulus, (m ^ privateExponent) ^ exponent % modulus = m

/-- A signature is as long as the modulus, and its power is the encoded message. -/
theorem sign_spec {modulus exponent privateExponent : Nat} (bits : 1024 ≤ bitLength modulus)
    (positive : exponent ≠ 0) (inverse : Inverse modulus exponent privateExponent) (data : Bytes) :
    ∃ signature, sign modulus privateExponent data = .ok signature ∧
      signature.length = byteLength modulus ∧ 0 < signature.toNat ∧ signature.toNat < modulus ∧
      signature.toNat ^ exponent % modulus = (encoded (byteLength modulus) data).toNat := by
  obtain ⟨some, below⟩ := (encoded_encodes (minLength_le bits) data).range bits
  generalize encoding : (encoded (byteLength modulus) data).toNat = m at some below
  have small : m ^ privateExponent % modulus < modulus :=
    Nat.mod_lt _ (Nat.lt_trans some below)
  have value : (Bytes.wide (byteLength modulus) (powMod m privateExponent modulus)).toNat =
      m ^ privateExponent % modulus := by
    have fits : m ^ privateExponent % modulus < 256 ^ byteLength modulus :=
      Nat.lt_trans small (Bytes.lt_pow_bytes modulus)
    rw [Bytes.toNat_wide, powMod_eq, Nat.mod_eq_of_lt fits]
  have power : (m ^ privateExponent % modulus) ^ exponent % modulus = m := by
    rw [← Nat.pow_mod]
    exact inverse m below
  refine ⟨_, encoding ▸ sign_eq bits privateExponent data, Bytes.length_wide _ _, ?_, ?_, ?_⟩
  · rw [value]
    refine Nat.pos_of_ne_zero fun zero => ?_
    rw [zero, Nat.zero_pow (Nat.pos_of_ne_zero positive), Nat.zero_mod] at power
    exact Nat.ne_of_gt some power.symm
  · rwa [value]
  · rwa [value]

/-- Zeros in front of a signature are taken away or put back before it is judged. -/
theorem verifyWith_eq {modulus : Nat} {signature other : Bytes}
    (same : Bytes.trimZeros other = Bytes.trimZeros signature)
    (length : signature.length = byteLength modulus) (verifier : Verifier) (exponent : Nat)
    (data : Bytes) :
    verifyWith verifier modulus exponent data other =
      verifier modulus exponent data signature := by
  have fits : (Bytes.trimZeros signature).length ≤ byteLength modulus :=
    length ▸ Bytes.length_trimZeros_le (Nat.le_refl _)
  have padded : List.replicate (byteLength modulus - (Bytes.trimZeros signature).length) 0 ++
      Bytes.trimZeros signature = signature := by
    apply Bytes.eq_of_toNat_eq
    · rw [List.length_append, List.length_replicate, Nat.sub_add_cancel fits, length]
    · rw [Bytes.toNat_zeros_append, Bytes.toNat_trimZeros]
  rw [verifyWith, same, if_neg (Nat.not_lt.2 fits), padded]

theorem pow_modEq {p : Nat} (prime : p.Prime) (m k : Nat) :
    m ^ (1 + k * (p - 1)) ≡ m [MOD p] := by
  have : Fact p.Prime := ⟨prime⟩
  rw [← ZMod.natCast_eq_natCast_iff, Nat.cast_pow]
  by_cases zero : (m : ZMod p) = 0
  · rw [zero, zero_pow (by omega)]
  · rw [pow_add, pow_one, mul_comm k, pow_mul, ZMod.pow_card_sub_one_eq_one zero, one_pow, mul_one]

/-- The usual choice of exponents for a modulus of two primes. -/
theorem inverse_of_primes {p q exponent privateExponent k : Nat} (first : p.Prime)
    (second : q.Prime) (distinct : p ≠ q)
    (product : privateExponent * exponent = 1 + k * ((p - 1) * (q - 1))) :
    Inverse (p * q) exponent privateExponent := by
  intro m below
  have byFirst : m ^ (privateExponent * exponent) ≡ m [MOD p] := by
    rw [product, Nat.mul_comm (p - 1), ← Nat.mul_assoc]
    exact pow_modEq first m _
  have bySecond : m ^ (privateExponent * exponent) ≡ m [MOD q] := by
    rw [product, ← Nat.mul_assoc]
    exact pow_modEq second m _
  have coprime : Nat.Coprime p q := (Nat.coprime_primes first second).2 distinct
  have whole : m ^ (privateExponent * exponent) ≡ m [MOD p * q] :=
    (Nat.modEq_and_modEq_iff_modEq_mul coprime).1 ⟨byFirst, bySecond⟩
  rw [← Nat.pow_mul]
  calc m ^ (privateExponent * exponent) % (p * q) = m % (p * q) := whole
    _ = m := Nat.mod_eq_of_lt below

end Rsa

namespace HostKey

def rsaBlob (exponent modulus : Bytes) : Bytes :=
  Wire.text HostKeyAlgorithm.rsa.name ++ Wire.string exponent ++ Wire.string modulus

/-- An RSA key is read from any numerals for its numbers. -/
theorem parse_rsaBlob {e n : Nat} {exponent modulus : Bytes} (first : Wire.Numeral e exponent)
    (second : Wire.Numeral n modulus) :
    parse (rsaBlob exponent modulus) = .ok ⟨rsaBlob exponent modulus, .rsa e n⟩ := by
  have name : Reads Reader.text (Wire.text HostKeyAlgorithm.rsa.name) _ :=
    Wire.reads_text (by decide)
  have known : HostKeyAlgorithm.ofName? HostKeyAlgorithm.rsa.name = some .rsa :=
    HostKeyAlgorithm.ofName?_name .rsa
  have one : Reads number (Wire.string exponent) e := reads_numeral first
  have two : number (Wire.string modulus) = .ok n [] :=
    List.append_nil (Wire.string modulus) ▸ reads_numeral second []
  have read : keyReader (rsaBlob exponent modulus) = .ok (.rsa e n) [] := by
    simp only [rsaBlob, List.append_assoc, keyReader, bind_apply, name _, known, one _, two,
      pure_apply]
  rw [parse, Reader.parse, read]
  rfl

/-- A key accepts a signature that its verifier accepts, with whatever zeros in front. -/
theorem verifyWith_rsa {verifier : Rsa.Verifier} {blob data signature other : Bytes} {e n : Nat}
    (length : signature.length = Rsa.byteLength n)
    (accepted : verifier n e data signature = true)
    (same : Bytes.trimZeros other = Bytes.trimZeros signature) (fits : other.length < 2 ^ 32) :
    verifyWith verifier ⟨blob, .rsa e n⟩ data (ClientKey.signatureBlob "ssh-rsa" other) =
      .ok () := by
  have extracted : extractSignature .rsa (ClientKey.signatureBlob "ssh-rsa" other) = .ok other :=
    extractSignature_wrapped .rsa fits
  have verified : Rsa.verifyWith verifier n e data other = true := by
    rw [Rsa.verifyWith_eq same length, accepted]
  have algorithm : HostKey.algorithm ⟨blob, .rsa e n⟩ = .rsa := rfl
  simp only [verifyWith, algorithm, extracted, bind, Except.bind, pure, Except.pure, verified]
  rfl

end HostKey

namespace ClientKey

/-- What a key pair signs is accepted under its public key: whatever number of zeros the
components of the pair were given with, the signature begins with, or the numbers of the
public key begin with. -/
theorem rsa_verifies {verifier : Rsa.Verifier} (lawful : verifier.Lawful)
    {modulus exponent privateExponent : Bytes} {pair : RsaKeyPair}
    (created : RsaKeyPair.create modulus.toNat exponent.toNat privateExponent.toNat = .ok pair)
    (sound : Rsa.Sound modulus.toNat exponent.toNat)
    (inverse : Rsa.Inverse modulus.toNat exponent.toNat privateExponent.toNat) (data : Bytes) :
    ∃ signature hostKey,
      (ClientKey.rsa pair).sign data = .ok (signatureBlob "ssh-rsa" signature) ∧
      signature.length = Rsa.byteLength modulus.toNat ∧
      HostKey.parse (ClientKey.rsa pair).blob = .ok hostKey ∧
      hostKey.verifyWith verifier data (signatureBlob "ssh-rsa" signature) = .ok () ∧
      ∀ other, Bytes.trimZeros other = Bytes.trimZeros signature → other.length < 2 ^ 32 →
        hostKey.verifyWith verifier data (signatureBlob "ssh-rsa" other) = .ok () ∧
        ∀ e n, Wire.Numeral exponent.toNat e → Wire.Numeral modulus.toNat n →
          ∃ hostKey, HostKey.parse (HostKey.rsaBlob e n) = .ok hostKey ∧
            hostKey.verifyWith verifier data (signatureBlob "ssh-rsa" other) = .ok () := by
  obtain ⟨-, -, -, rfl⟩ := RsaKeyPair.create_eq_ok.1 created
  have positive : exponent.toNat ≠ 0 := by
    have := sound.exponentLeast
    omega
  obtain ⟨signature, signed, length, some, below, power⟩ :=
    Rsa.sign_spec sound.least positive inverse data
  have accepted : verifier modulus.toNat exponent.toNat data signature = true :=
    (lawful sound data length some below).2
      ⟨_, Rsa.encoded_encodes (Rsa.minLength_le sound.least) data, power⟩
  have short : signature.length < 2 ^ 32 := by
    have := sound.most
    rw [length, Rsa.byteLength]
    omega
  have fits {n : Nat} (bits : bitLength n ≤ 8192) : (Bytes.ofNat n).length + 1 < 2 ^ 32 := by
    rw [Bytes.ofNat, Bytes.length_wide]
    omega
  have small : bitLength exponent.toNat ≤ 8192 := by
    have := bitLength_le sound.exponentMost
    omega
  have e := Wire.numeral_mpintBody (fits small)
  have n := Wire.numeral_mpintBody (fits sound.most)
  rw [Bytes.toNat_ofNat] at e n
  refine ⟨signature, _, ?_, length, HostKey.parse_rsaBlob e n,
    HostKey.verifyWith_rsa length accepted rfl short, ?_⟩
  · simp only [sign, signed]
    rfl
  · intro other same fits
    refine ⟨HostKey.verifyWith_rsa length accepted same fits, ?_⟩
    intro e n first second
    exact ⟨_, HostKey.parse_rsaBlob first second, HostKey.verifyWith_rsa length accepted same fits⟩

/-- Two Mersenne primes make a modulus of 1128 bits. -/
theorem rsa_verifies_mersenne :
    let modulus : Bytes := 0 :: Bytes.ofNat (mersenne 521 * mersenne 607)
    let exponent : Bytes := [0, 1, 0, 1]
    let privateExponent : Bytes :=
      Bytes.ofNat ((1 + 10880 * ((mersenne 521 - 1) * (mersenne 607 - 1))) / 65537)
    ∃ pair signature hostKey,
      RsaKeyPair.create modulus.toNat exponent.toNat privateExponent.toNat = .ok pair ∧
      (ClientKey.rsa pair).sign [] = .ok (signatureBlob "ssh-rsa" signature) ∧
      HostKey.parse (ClientKey.rsa pair).blob = .ok hostKey ∧
      hostKey.verify [] (signatureBlob "ssh-rsa" (0 :: signature)) = .ok () := by
  intro modulus exponent privateExponent
  have padded (n : Nat) : Bytes.toNat (0 :: Bytes.ofNat n) = n :=
    (Bytes.toNat_zeros_append 1 (Bytes.ofNat n)).trans (Bytes.toNat_ofNat n)
  have n : modulus.toNat = mersenne 521 * mersenne 607 := padded _
  have e : exponent.toNat = 65537 := by decide
  have d : privateExponent.toNat =
      (1 + 10880 * ((mersenne 521 - 1) * (mersenne 607 - 1))) / 65537 := Bytes.toNat_ofNat _
  have created : RsaKeyPair.create modulus.toNat exponent.toNat privateExponent.toNat =
      .ok ⟨modulus.toNat, exponent.toNat, privateExponent.toNat⟩ := by
    rw [n, e, d]
    have bits : 1024 ≤ bitLength (mersenne 521 * mersenne 607) := by decide +kernel
    exact RsaKeyPair.create_eq_ok.2 ⟨bits, by decide +kernel, by decide +kernel, rfl⟩
  have sound : Rsa.Sound modulus.toNat exponent.toNat := by
    rw [n, e]
    constructor <;> decide +kernel
  have inverse : Rsa.Inverse modulus.toNat exponent.toNat privateExponent.toNat := by
    rw [n, e, d]
    have first : (mersenne 521).Prime := lucas_lehmer_sufficiency 521 (by simp) (by norm_num)
    have second : (mersenne 607).Prime := lucas_lehmer_sufficiency 607 (by simp) (by norm_num)
    exact Rsa.inverse_of_primes (k := 10880) first second (by decide +kernel) (by decide +kernel)
  obtain ⟨signature, hostKey, signed, length, parsed, -, accepted⟩ :=
    rsa_verifies Rsa.standard_lawful created sound inverse []
  have short : (0 :: signature).length < 2 ^ 32 := by
    have bits : bitLength modulus.toNat ≤ 8192 := sound.most
    rw [List.length_cons, length, Rsa.byteLength]
    omega
  exact ⟨_, signature, hostKey, created, signed, parsed, (accepted (0 :: signature) rfl short).1⟩

end ClientKey

end SecureShell
