import SecureShell.Handshake.KeyAgreement
import SecureShell.Message.Connection
import SecureShell.Message.Userauth
import SecureShell.Proofs.Wire

/-! Messages of a server are read as they were written, if their strings fit the four
bytes of a length. -/
namespace SecureShell

theorem reads_expect (code : MessageCode) : Reads (Reader.expect code) [code.toByte] () := by
  intro rest
  have read := Wire.reads_byte code.toByte rest
  simp only [Reader.expect, bind_apply, read, ne_eq, not_true_eq_false, if_false]
  rfl

theorem Service.parse_form (code : MessageCode) {service : String}
    (fits : (Bytes.ofText service).length < 2 ^ 32) :
    Service.parse code (code.toByte :: Wire.text service) = .ok service :=
  ((reads_expect code).bind (Wire.reads_text fits)).parse

theorem Service.parse_accept {service : String} (fits : (Bytes.ofText service).length < 2 ^ 32) :
    Service.parse .serviceAccept (Service.accept service) = .ok service :=
  parse_form .serviceAccept fits

theorem UserauthFailure.parse_names {message : UserauthFailure}
    (separable : Wire.Separable message.methods)
    (fits : (Bytes.ofText (String.intercalate "," message.methods)).length < 2 ^ 32) :
    parse message.toBytes = .ok message :=
  ((reads_expect .userauthFailure).bind
    ((Wire.reads_names separable fits).bind
      ((Wire.reads_bool message.partialSuccess).map (UserauthFailure.mk message.methods)))).parse

theorem UserauthFailure.parse_toBytes {message : UserauthFailure}
    (listable : ∀ name ∈ message.methods, Wire.Listable name)
    (fits : (Bytes.ofText (String.intercalate "," message.methods)).length < 2 ^ 32) :
    parse message.toBytes = .ok message :=
  parse_names (Wire.separable_of_listable listable) fits

theorem ChannelConfirmation.parse_toBytes (message : ChannelConfirmation) :
    parse message.toBytes = .ok message :=
  Reads.parse_eq ((reads_expect .channelOpenConfirmation).bind
    ((Wire.reads_uint32 message.recipient).bind ((Wire.reads_uint32 message.sender).bind
      ((Wire.reads_uint32 message.window).bind ((Wire.reads_uint32 message.maxPacket).map _)))))
    (by simp [toBytes])

namespace Handshake.KexReply

def toBytes (code : MessageCode) (reply : KexReply) : Bytes :=
  code.toByte :: Wire.string reply.hostKey ++ Wire.mpint reply.serverPublic ++
    Wire.string reply.signature

/-- A reply is read as it was written, its number without leading zeros. -/
theorem parse_toBytes {code : MessageCode} {reply : KexReply} (hostKey : reply.hostKey.length < 2 ^ 32)
    (serverPublic : reply.serverPublic.length + 1 < 2 ^ 32)
    (signature : reply.signature.length < 2 ^ 32) :
    parse (reply.toBytes code) =
      .ok { reply with serverPublic := Bytes.trimZeros reply.serverPublic } := by
  have code (rest : Bytes) : Reader.byte (code.toByte :: rest) = .ok _ rest :=
    Wire.reads_byte code.toByte rest
  have hostKey := Wire.reads_string hostKey
  have serverPublic := Wire.reads_mpint serverPublic
  have signature : Reader.string (Wire.string reply.signature) = .ok _ [] :=
    List.append_nil (Wire.string reply.signature) ▸ Wire.reads_string signature []
  simp only [parse, Reader.parse, reader, toBytes, List.append_assoc, List.cons_append, bind_apply,
    code _, hostKey _, serverPublic _, signature, pure_apply]

end Handshake.KexReply

namespace HostKey

theorem reads_numeral {n : Nat} {body : Bytes} (numeral : Wire.Numeral n body) :
    Reads number (Wire.string body) n := by
  have read := numeral.reads.map Bytes.toNat
  rwa [Bytes.toNat_trimZeros, numeral.value] at read

theorem reads_number {n : Nat} (fits : (Bytes.ofNat n).length + 1 < 2 ^ 32) :
    Reads number (Wire.mpint (Bytes.ofNat n)) n := by
  have numeral := Wire.numeral_mpintBody fits
  rw [Bytes.toNat_ofNat] at numeral
  exact reads_numeral numeral

def dssBlob (key : Dsa.PublicKey) : Bytes :=
  Wire.text HostKeyAlgorithm.dss.name ++ Wire.mpint (.ofNat key.p) ++ Wire.mpint (.ofNat key.q) ++
    Wire.mpint (.ofNat key.g) ++ Wire.mpint (.ofNat key.y)

/-- A DSA key is read as it was written. -/
theorem parse_dssBlob {key : Dsa.PublicKey}
    (fits : ∀ n ∈ [key.p, key.q, key.g, key.y], (Bytes.ofNat n).length + 1 < 2 ^ 32) :
    parse (dssBlob key) = .ok ⟨dssBlob key, .dss key⟩ := by
  have name : Reads Reader.text (Wire.text HostKeyAlgorithm.dss.name) _ :=
    Wire.reads_text (by decide)
  have known : HostKeyAlgorithm.ofName? HostKeyAlgorithm.dss.name = some .dss :=
    HostKeyAlgorithm.ofName?_name .dss
  have p := reads_number (fits key.p (by simp))
  have q := reads_number (fits key.q (by simp))
  have g := reads_number (fits key.g (by simp))
  have y : number (Wire.mpint (Bytes.ofNat key.y)) = .ok _ [] :=
    List.append_nil (Wire.mpint (Bytes.ofNat key.y)) ▸ reads_number (fits key.y (by simp)) []
  have read : keyReader (dssBlob key) = .ok (.dss key) [] := by
    simp only [dssBlob, List.append_assoc, keyReader, bind_apply, name _, known, p _, q _, g _, y,
      pure_apply]
  rw [parse, Reader.parse, read]
  rfl

/-- A signature is found behind the name of its algorithm. -/
theorem extractSignature_wrapped (algorithm : HostKeyAlgorithm) {signature : Bytes}
    (fits : signature.length < 2 ^ 32) :
    extractSignature algorithm (Wire.text algorithm.name ++ Wire.string signature) =
      .ok signature := by
  have name : Reads Reader.text (Wire.text algorithm.name) algorithm.name :=
    Wire.reads_text (by cases algorithm <;> decide)
  have body : Reader.string (Wire.string signature) = .ok _ [] :=
    List.append_nil (Wire.string signature) ▸ Wire.reads_string fits []
  have wrapped : extractSignature.wrapped algorithm
      (Wire.text algorithm.name ++ Wire.string signature) = .ok signature := by
    simp only [extractSignature.wrapped, Reader.parse, bind_apply, name _, ne_eq, not_true_eq_false,
      if_false, body]
  rw [← wrapped]
  cases algorithm <;> rfl

end HostKey

end SecureShell
