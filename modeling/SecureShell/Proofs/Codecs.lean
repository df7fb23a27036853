import SecureShell.Proofs.Messages
import SecureShell.Proofs.Negotiation
import SecureShell.Proofs.Yields

/-! Every message that can be written and read is read as it was written, and what is
read of any bytes can be written and is then read again. Lengths have to fit their four
bytes; a few values have the wire form of another one. -/
namespace SecureShell

open Wire

theorem Service.fits_of_parse {code : MessageCode} {payload : Bytes} {service : String}
    (accepted : Service.parse code payload = .ok service) : TextFits service :=
  (Yields.seq fun _ => yields_text).parse accepted

theorem ChannelOnly.parse_toBytes (code : MessageCode) (recipient : UInt32) :
    ChannelOnly.parse code (ChannelOnly.toBytes code recipient) = .ok recipient :=
  ((reads_expect code).bind (reads_uint32 recipient)).parse

namespace Proposal

def Normal (p : Proposal) : Prop := ∀ names ∈ p.lists, NamesFit names

theorem yields_normal : Yields reader Normal := by
  refine .seq fun code => ?_
  split
  · exact .refused _
  · refine .seq fun cookie => yields_nameList.bind fun kex h₁ => yields_nameList.bind fun hostKey h₂ =>
      yields_nameList.bind fun cipherOut h₃ => yields_nameList.bind fun cipherIn h₄ =>
      yields_nameList.bind fun macOut h₅ => yields_nameList.bind fun macIn h₆ =>
      yields_nameList.bind fun compressionOut h₇ => yields_nameList.bind fun compressionIn h₈ =>
      yields_nameList.bind fun languageOut h₉ => yields_nameList.bind fun languageIn h₁₀ =>
      .seq fun guess => .seq fun reserved => .pure ?_
    intro names among
    simp only [lists, List.mem_cons, List.not_mem_nil, or_false] at among
    rcases among with rfl | rfl | rfl | rfl | rfl | rfl | rfl | rfl | rfl | rfl <;> assumption

theorem normal_of_parse {payload : Bytes} {p : Proposal} (accepted : parse payload = .ok p) :
    p.Normal :=
  yields_normal.parse accepted

end Proposal

namespace AuthMethod

def Normal : AuthMethod → Prop
  | .none => True
  | .password word => TextFits word
  | .query algorithm key => TextFits algorithm ∧ Fits key
  | .signed algorithm key signature => TextFits algorithm ∧ Fits key ∧ Fits signature

theorem name_fits (method : AuthMethod) : TextFits method.name := by
  have short : ∀ name ∈ ["none", "password", "publickey"], TextFits name := by decide
  exact short _ (by cases method <;> simp [name])

theorem reads_fields {method : AuthMethod} (normal : method.Normal) :
    Reads (reader method.name) method.fields method := by
  cases method with
  | none => exact .pure _
  | password word => exact (reads_bool false).bind ((reads_text normal).map _)
  | query algorithm key =>
    obtain ⟨algorithmFits, keyFits⟩ := normal
    rw [fields, List.append_assoc]
    exact (reads_bool false).bind ((reads_text algorithmFits).bind ((reads_string keyFits).map _))
  | signed algorithm key signature =>
    obtain ⟨algorithmFits, keyFits, signatureFits⟩ := normal
    rw [fields, List.append_assoc, List.append_assoc]
    exact (reads_bool true).bind ((reads_text algorithmFits).bind
      ((reads_string keyFits).bind ((reads_string signatureFits).map _)))

theorem yields_normal (name : String) : Yields (reader name) Normal := by
  unfold reader
  split
  · exact .pure trivial
  · exact .seq fun _ => yields_text.bind fun word fits => .pure fits
  · refine .seq fun hasSignature => yields_text.bind fun algorithm algorithmFits =>
      yields_string.bind fun key keyFits => ?_
    split
    · exact yields_string.bind fun signature signatureFits =>
        .pure ⟨algorithmFits, keyFits, signatureFits⟩
    · exact .pure ⟨algorithmFits, keyFits⟩
  · exact .throw _

end AuthMethod

namespace UserauthRequest

structure Normal (message : UserauthRequest) : Prop where
  user : TextFits message.user
  service : TextFits message.service
  method : message.method.Normal

theorem parse_toBytes {message : UserauthRequest} (normal : message.Normal) :
    parse message.toBytes = .ok message := by
  exact Reads.parse_eq ((reads_expect .userauthRequest).bind
    ((reads_text normal.user).bind ((reads_text normal.service).bind
      ((reads_text message.method.name_fits).bind ((AuthMethod.reads_fields normal.method).map _)))))
    (by simp [toBytes])

theorem normal_of_parse {payload : Bytes} {message : UserauthRequest}
    (accepted : parse payload = .ok message) : message.Normal :=
  Yields.parse (.seq fun _ => yields_text.bind fun _ user => yields_text.bind fun _ service =>
    .seq fun name => (AuthMethod.yields_normal name).bind fun _ method =>
      .pure ⟨user, service, method⟩) accepted

end UserauthRequest

namespace UserauthFailure

structure Normal (message : UserauthFailure) : Prop where
  methods : NamesFit message.methods

theorem normal_of_parse {payload : Bytes} {message : UserauthFailure}
    (accepted : parse payload = .ok message) : message.Normal :=
  Yields.parse (.seq fun _ => yields_nameList.bind fun _ methods => .seq fun _ => .pure ⟨methods⟩)
    accepted

end UserauthFailure

namespace UserauthBanner

structure Normal (banner : UserauthBanner) : Prop where
  message : TextFits banner.message
  language : TextFits banner.language

theorem parse_toBytes {banner : UserauthBanner} (normal : banner.Normal) :
    parse banner.toBytes = .ok banner :=
  Reads.parse_eq ((reads_expect .userauthBanner).bind
    ((reads_text normal.message).bind ((reads_text normal.language).map _))) (by simp [toBytes])

theorem normal_of_parse {payload : Bytes} {banner : UserauthBanner}
    (accepted : parse payload = .ok banner) : banner.Normal :=
  Yields.parse (.seq fun _ => yields_text.bind fun _ message => yields_text.bind fun _ language =>
    .pure ⟨message, language⟩) accepted

end UserauthBanner

namespace UserauthPkOk

structure Normal (message : UserauthPkOk) : Prop where
  algorithm : TextFits message.algorithm
  key : Fits message.key

theorem parse_toBytes {message : UserauthPkOk} (normal : message.Normal) :
    parse message.toBytes = .ok message :=
  Reads.parse_eq ((reads_expect .userauthPkOk).bind
    ((reads_text normal.algorithm).bind ((reads_string normal.key).map _))) (by simp [toBytes])

theorem normal_of_parse {payload : Bytes} {message : UserauthPkOk}
    (accepted : parse payload = .ok message) : message.Normal :=
  Yields.parse (.seq fun _ => yields_text.bind fun _ algorithm => yields_string.bind fun _ key =>
    .pure ⟨algorithm, key⟩) accepted

end UserauthPkOk

namespace ChannelOpen

structure Normal (message : ChannelOpen) : Prop where
  kind : TextFits message.kind

theorem parse_toBytes {message : ChannelOpen} (normal : message.Normal) :
    parse message.toBytes = .ok message :=
  Reads.parse_eq ((reads_expect .channelOpen).bind
    ((reads_text normal.kind).bind ((reads_uint32 message.sender).bind
      ((reads_uint32 message.window).bind ((reads_uint32 message.maxPacket).map _)))))
    (by simp [toBytes])

theorem normal_of_parse {payload : Bytes} {message : ChannelOpen}
    (accepted : parse payload = .ok message) : message.Normal :=
  Yields.parse (.seq fun _ => yields_text.bind fun _ kind =>
    .seq fun _ => .seq fun _ => .seq fun _ => .pure ⟨kind⟩) accepted

end ChannelOpen

namespace OpenFailureReason

/-- A code that has a name of its own is not written as another one. -/
def Normal : OpenFailureReason → Prop
  | .other code => code ∉ [1, 2, 3, 4]
  | _ => True

theorem ofCode_code {reason : OpenFailureReason} (normal : reason.Normal) :
    ofCode reason.code = reason := by
  cases reason with
  | other code =>
    simp only [Normal, List.mem_cons, List.not_mem_nil, or_false, not_or] at normal
    rw [OpenFailureReason.code]
    unfold ofCode
    split <;> simp_all
  | _ => rfl

theorem normal_ofCode (code : UInt32) : (ofCode code).Normal := by
  unfold ofCode
  split
  · trivial
  · trivial
  · trivial
  · trivial
  · rename_i first second third fourth
    simp only [Normal, List.mem_cons, List.not_mem_nil, or_false, not_or]
    exact ⟨first, second, third, fourth⟩

end OpenFailureReason

namespace ChannelOpenFailure

structure Normal (message : ChannelOpenFailure) : Prop where
  reason : message.reason.Normal
  description : TextFits message.description

theorem toBytes_front {message : ChannelOpenFailure} : message.toBytes =
    [MessageCode.channelOpenFailure.toByte] ++ (Wire.uint32 message.recipient ++
      (Wire.uint32 message.reason.code ++ Wire.text message.description)) ++ Wire.string [] := by
  simp [toBytes]

theorem parse_toBytes {message : ChannelOpenFailure} (normal : message.Normal) :
    parse message.toBytes = .ok message := by
  have read : parse message.toBytes =
      .ok ⟨message.recipient, .ofCode message.reason.code, message.description⟩ :=
    Reads.parse_front ((reads_expect .channelOpenFailure).bind
      ((reads_uint32 message.recipient).bind ((reads_uint32 message.reason.code).bind
        ((reads_text normal.description).map _)))) toBytes_front
  rwa [OpenFailureReason.ofCode_code normal.reason] at read

theorem normal_of_parse {payload : Bytes} {message : ChannelOpenFailure}
    (accepted : parse payload = .ok message) : message.Normal :=
  Yields.parse (.seq fun _ => .seq fun _ => .seq fun code => yields_text.bind fun _ description =>
    .pure ⟨OpenFailureReason.normal_ofCode code, description⟩) accepted

end ChannelOpenFailure

namespace DataMessage

structure Normal (message : DataMessage) : Prop where
  data : Fits message.data

theorem parse_toBytes {message : DataMessage} (normal : message.Normal) :
    parse message.toBytes = .ok message :=
  Reads.parse_eq ((reads_expect .channelData).bind
    ((reads_uint32 message.recipient).bind ((reads_string normal.data).map _))) (by simp [toBytes])

theorem normal_of_parse {payload : Bytes} {message : DataMessage}
    (accepted : parse payload = .ok message) : message.Normal :=
  Yields.parse (.seq fun _ => .seq fun _ => yields_string.bind fun _ data => .pure ⟨data⟩) accepted

end DataMessage

namespace ExtendedDataMessage

structure Normal (message : ExtendedDataMessage) : Prop where
  data : Fits message.data

theorem parse_toBytes {message : ExtendedDataMessage} (normal : message.Normal) :
    parse message.toBytes = .ok message :=
  Reads.parse_eq ((reads_expect .channelExtendedData).bind
    ((reads_uint32 message.recipient).bind ((reads_uint32 message.kind).bind
      ((reads_string normal.data).map _)))) (by simp [toBytes])

theorem normal_of_parse {payload : Bytes} {message : ExtendedDataMessage}
    (accepted : parse payload = .ok message) : message.Normal :=
  Yields.parse (.seq fun _ => .seq fun _ => .seq fun _ => yields_string.bind fun _ data =>
    .pure ⟨data⟩) accepted

end ExtendedDataMessage

namespace ChannelRequestKind

/-- What is behind the name of another request has no length of its own. -/
def Normal : ChannelRequestKind → Prop
  | .pty terminal => TextFits terminal.term
  | .shell => True
  | .exec command => TextFits command
  | .other name _ => TextFits name ∧ name ∉ ["pty-req", "shell", "exec"]

def restLength : ChannelRequestKind → Nat
  | .other _ data => data.length
  | _ => 0

theorem name_fits {kind : ChannelRequestKind} (normal : kind.Normal) : TextFits kind.name := by
  have short : ∀ name ∈ ["pty-req", "shell", "exec"], TextFits name := by decide
  cases kind with
  | other known data => exact normal.1
  | _ => exact short _ (by simp [name])

theorem reads_pty {terminal : Pty} (fits : TextFits terminal.term) :
    Reads Pty.reader terminal.fields terminal := by
  have form : terminal.fields = Wire.text terminal.term ++ (Wire.uint32 terminal.columns ++
      (Wire.uint32 terminal.rows ++ (Wire.uint32 terminal.widthPixels ++
        (Wire.uint32 terminal.heightPixels ++ Wire.string [0])))) := by simp [Pty.fields]
  rw [form]
  exact (reads_text fits).bind ((reads_uint32 _).bind ((reads_uint32 _).bind
    ((reads_uint32 _).bind ((reads_uint32 _).bind ((reads_string (by decide)).map _)))))

theorem reader_other {name : String} (unknown : name ∉ ["pty-req", "shell", "exec"]) :
    reader name = (do return .other name (← Reader.rest)) := by
  unfold reader
  split <;> first | exact absurd unknown (by decide) | rfl

theorem reads_fields {kind : ChannelRequestKind} (normal : kind.Normal) :
    ReadsAll (reader kind.name) kind.fields kind := by
  cases kind with
  | pty terminal => exact ((reads_pty normal).map ChannelRequestKind.pty).all
  | shell => exact (Reads.pure ChannelRequestKind.shell).all
  | exec command => exact ((reads_text normal).map ChannelRequestKind.exec).all
  | other name data =>
    rw [ChannelRequestKind.name, reader_other normal.2]
    exact ⟨[], rfl⟩

theorem yields_normal {name : String} (fits : TextFits name) : Yields (reader name) Normal := by
  unfold reader
  split
  · have pty : Yields Pty.reader fun terminal => TextFits terminal.term :=
      yields_text.bind fun _ term => .seq fun _ => .seq fun _ => .seq fun _ => .seq fun _ =>
        .seq fun _ => .pure term
    exact pty.bind fun terminal term =>
      .pure (show (ChannelRequestKind.pty terminal).Normal from term)
  · exact .pure trivial
  · exact yields_text.bind fun _ command => .pure command
  · rename_i notPty notShell notExec
    refine .seq fun data => .pure ⟨fits, ?_⟩
    simp only [List.mem_cons, List.not_mem_nil, or_false, not_or]
    exact ⟨notPty, notShell, notExec⟩

theorem within_restLength (name : String) : Within (reader name) restLength := by
  unfold reader
  split
  · have pty : Within Pty.reader fun _ => 0 :=
      Within.text.bind fun _ => .bind .uint32 fun _ => .bind .uint32 fun _ => .bind .uint32 fun _ =>
        .bind .uint32 fun _ => .bind .string fun _ => .pure rfl
    exact pty.bind fun _ => .pure rfl
  · exact .pure rfl
  · exact Within.text.bind fun _ => .pure rfl
  · exact Within.rest.map _ fun _ => rfl

end ChannelRequestKind

namespace ChannelRequest

structure Normal (message : ChannelRequest) : Prop where
  kind : message.kind.Normal

theorem parse_toBytes {message : ChannelRequest} (normal : message.Normal) :
    parse message.toBytes = .ok message :=
  ReadsAll.parse ((reads_expect .channelRequest).bind_all
    ((reads_uint32 message.recipient).bind_all
      ((reads_text (ChannelRequestKind.name_fits normal.kind)).bind_all
        ((reads_bool message.wantReply).bind_all
          ((ChannelRequestKind.reads_fields normal.kind).map _))))) (by simp [toBytes])

theorem normal_of_parse {payload : Bytes} {message : ChannelRequest}
    (accepted : parse payload = .ok message) : message.Normal :=
  Yields.parse (.seq fun _ => .seq fun _ => yields_text.bind fun _ name => .seq fun _ =>
    (ChannelRequestKind.yields_normal name).bind fun _ kind => .pure ⟨kind⟩) accepted

theorem restLength_le {payload : Bytes} {message : ChannelRequest}
    (accepted : parse payload = .ok message) : message.kind.restLength ≤ payload.length := by
  have within : Within _ fun message : ChannelRequest => message.kind.restLength :=
    .bind (.expect .channelRequest) fun _ => .bind .uint32 fun recipient => .bind .text fun name =>
      .bind .bool fun wantReply => (ChannelRequestKind.within_restLength name).map
        (ChannelRequest.mk recipient wantReply) fun _ => rfl
  exact within.parse accepted

end ChannelRequest

namespace GlobalRequest

structure Normal (message : GlobalRequest) : Prop where
  name : TextFits message.name

theorem parse_toBytes {message : GlobalRequest} (normal : message.Normal) :
    parse message.toBytes = .ok message :=
  Reads.parse_eq ((reads_expect .globalRequest).bind
    ((reads_text normal.name).bind ((reads_bool message.wantReply).map _))) (by simp [toBytes])

theorem normal_of_parse {payload : Bytes} {message : GlobalRequest}
    (accepted : parse payload = .ok message) : message.Normal :=
  Yields.parse (.seq fun _ => yields_text.bind fun _ name => .seq fun _ => .pure ⟨name⟩) accepted

end GlobalRequest

namespace Disconnect

structure Normal (message : Disconnect) : Prop where
  description : TextFits message.description

theorem toBytes_front {message : Disconnect} : message.toBytes =
    [MessageCode.disconnect.toByte] ++ (Wire.uint32 message.reason ++
      Wire.text message.description) ++ Wire.string [] := by
  simp [toBytes]

theorem parse_toBytes {message : Disconnect} (normal : message.Normal) :
    parse message.toBytes = .ok message :=
  Reads.parse_front ((reads_expect .disconnect).bind
    ((reads_uint32 message.reason).bind ((reads_text normal.description).map _))) toBytes_front

theorem normal_of_parse {payload : Bytes} {message : Disconnect}
    (accepted : parse payload = .ok message) : message.Normal :=
  Yields.parse (.seq fun _ => .seq fun _ => yields_text.bind fun _ description =>
    .pure ⟨description⟩) accepted

end Disconnect

/-- The kinds of message that can be written and read. -/
inductive MessageFormat where
  | kexInit
  | newKeys
  | disconnect
  | serviceRequest
  | serviceAccept
  | userauthRequest
  | userauthFailure
  | userauthBanner
  | userauthPkOk
  | globalRequest
  | channelOpen
  | channelConfirmation
  | channelOpenFailure
  | channelData
  | channelExtendedData
  | channelRequest
  /-- Messages that consist of their code and a channel number. -/
  | channelOnly (code : MessageCode)

namespace MessageFormat

/-- What a message of a kind says. -/
@[reducible] def Value : MessageFormat → Type
  | .kexInit => Proposal
  | .newKeys => NewKeys
  | .disconnect => Disconnect
  | .serviceRequest => String
  | .serviceAccept => String
  | .userauthRequest => UserauthRequest
  | .userauthFailure => UserauthFailure
  | .userauthBanner => UserauthBanner
  | .userauthPkOk => UserauthPkOk
  | .globalRequest => GlobalRequest
  | .channelOpen => ChannelOpen
  | .channelConfirmation => ChannelConfirmation
  | .channelOpenFailure => ChannelOpenFailure
  | .channelData => DataMessage
  | .channelExtendedData => ExtendedDataMessage
  | .channelRequest => ChannelRequest
  | .channelOnly _ => UInt32

def toBytes : (kind : MessageFormat) → kind.Value → Bytes
  | .kexInit => Proposal.toBytes
  | .newKeys => NewKeys.toBytes
  | .disconnect => Disconnect.toBytes
  | .serviceRequest => Service.request
  | .serviceAccept => Service.accept
  | .userauthRequest => UserauthRequest.toBytes
  | .userauthFailure => UserauthFailure.toBytes
  | .userauthBanner => UserauthBanner.toBytes
  | .userauthPkOk => UserauthPkOk.toBytes
  | .globalRequest => GlobalRequest.toBytes
  | .channelOpen => ChannelOpen.toBytes
  | .channelConfirmation => ChannelConfirmation.toBytes
  | .channelOpenFailure => ChannelOpenFailure.toBytes
  | .channelData => DataMessage.toBytes
  | .channelExtendedData => ExtendedDataMessage.toBytes
  | .channelRequest => ChannelRequest.toBytes
  | .channelOnly code => ChannelOnly.toBytes code

def parse : (kind : MessageFormat) → Bytes → Except Error kind.Value
  | .kexInit => Proposal.parse
  | .newKeys => NewKeys.parse
  | .disconnect => Disconnect.parse
  | .serviceRequest => Service.parse .serviceRequest
  | .serviceAccept => Service.parse .serviceAccept
  | .userauthRequest => UserauthRequest.parse
  | .userauthFailure => UserauthFailure.parse
  | .userauthBanner => UserauthBanner.parse
  | .userauthPkOk => UserauthPkOk.parse
  | .globalRequest => GlobalRequest.parse
  | .channelOpen => ChannelOpen.parse
  | .channelConfirmation => ChannelConfirmation.parse
  | .channelOpenFailure => ChannelOpenFailure.parse
  | .channelData => DataMessage.parse
  | .channelExtendedData => ExtendedDataMessage.parse
  | .channelRequest => ChannelRequest.parse
  | .channelOnly code => ChannelOnly.parse code

/-- Strings fit their lengths, names can be told apart, and nothing has the wire form of
another value. -/
def Normal : (kind : MessageFormat) → kind.Value → Prop
  | .kexInit => Proposal.Normal
  | .disconnect => Disconnect.Normal
  | .serviceRequest | .serviceAccept => TextFits
  | .userauthRequest => UserauthRequest.Normal
  | .userauthFailure => UserauthFailure.Normal
  | .userauthBanner => UserauthBanner.Normal
  | .userauthPkOk => UserauthPkOk.Normal
  | .globalRequest => GlobalRequest.Normal
  | .channelOpen => ChannelOpen.Normal
  | .channelOpenFailure => ChannelOpenFailure.Normal
  | .channelData => DataMessage.Normal
  | .channelExtendedData => ExtendedDataMessage.Normal
  | .channelRequest => ChannelRequest.Normal
  | .newKeys | .channelConfirmation | .channelOnly _ => fun _ => True

def restLength : (kind : MessageFormat) → kind.Value → Nat
  | .channelRequest => fun message => message.kind.restLength
  | _ => fun _ => 0

theorem parse_toBytes {kind : MessageFormat} {value : kind.Value} (normal : kind.Normal value) :
    kind.parse (kind.toBytes value) = .ok value := by
  cases kind with
  | kexInit =>
    exact Proposal.parse_lists fun names listed =>
      reads_names (normal names listed).separable (normal names listed).text
  | newKeys => rfl
  | disconnect => exact Disconnect.parse_toBytes normal
  | serviceRequest => exact Service.parse_form .serviceRequest normal
  | serviceAccept => exact Service.parse_form .serviceAccept normal
  | userauthRequest => exact UserauthRequest.parse_toBytes normal
  | userauthFailure => exact UserauthFailure.parse_names normal.methods.separable normal.methods.text
  | userauthBanner => exact UserauthBanner.parse_toBytes normal
  | userauthPkOk => exact UserauthPkOk.parse_toBytes normal
  | globalRequest => exact GlobalRequest.parse_toBytes normal
  | channelOpen => exact ChannelOpen.parse_toBytes normal
  | channelConfirmation => exact ChannelConfirmation.parse_toBytes value
  | channelOpenFailure => exact ChannelOpenFailure.parse_toBytes normal
  | channelData => exact DataMessage.parse_toBytes normal
  | channelExtendedData => exact ExtendedDataMessage.parse_toBytes normal
  | channelRequest => exact ChannelRequest.parse_toBytes normal
  | channelOnly code => exact ChannelOnly.parse_toBytes code value

theorem normal_of_parse {kind : MessageFormat} {payload : Bytes} {value : kind.Value}
    (accepted : kind.parse payload = .ok value) : kind.Normal value := by
  cases kind with
  | kexInit => exact Proposal.normal_of_parse accepted
  | disconnect => exact Disconnect.normal_of_parse accepted
  | serviceRequest => exact Service.fits_of_parse accepted
  | serviceAccept => exact Service.fits_of_parse accepted
  | userauthRequest => exact UserauthRequest.normal_of_parse accepted
  | userauthFailure => exact UserauthFailure.normal_of_parse accepted
  | userauthBanner => exact UserauthBanner.normal_of_parse accepted
  | userauthPkOk => exact UserauthPkOk.normal_of_parse accepted
  | globalRequest => exact GlobalRequest.normal_of_parse accepted
  | channelOpen => exact ChannelOpen.normal_of_parse accepted
  | channelOpenFailure => exact ChannelOpenFailure.normal_of_parse accepted
  | channelData => exact DataMessage.normal_of_parse accepted
  | channelExtendedData => exact ExtendedDataMessage.normal_of_parse accepted
  | channelRequest => exact ChannelRequest.normal_of_parse accepted
  | newKeys => trivial
  | channelConfirmation => trivial
  | channelOnly code => trivial

theorem restLength_le {kind : MessageFormat} {payload : Bytes} {value : kind.Value}
    (accepted : kind.parse payload = .ok value) : kind.restLength value ≤ payload.length := by
  cases kind with
  | channelRequest => exact ChannelRequest.restLength_le accepted
  | _ => exact Nat.zero_le _

/-- Writing and reading a message undo each other, up to the values that have one wire
form: a message whose strings fit their lengths is read as it was written, and what is
read of any bytes is such a message again. -/
theorem codecs_inverse (kind : MessageFormat) :
    (∀ value : kind.Value, kind.Normal value → kind.parse (kind.toBytes value) = .ok value) ∧
      ∀ (payload : Bytes) (value : kind.Value), kind.parse payload = .ok value →
        kind.Normal value ∧ kind.restLength value ≤ payload.length ∧
          kind.parse (kind.toBytes value) = .ok value := by
  constructor
  · exact fun value normal => parse_toBytes normal
  · intro payload value accepted
    have normal := normal_of_parse accepted
    exact ⟨normal, restLength_le accepted, parse_toBytes normal⟩

/-- A request to run a command is read as it was written; of data with a byte behind it
the data are read, and written without that byte. -/
theorem codecs_inverse_exec :
    Normal .channelRequest ⟨7, true, .exec "ls"⟩ ∧
      parse .channelRequest (toBytes .channelRequest ⟨7, true, .exec "ls"⟩) =
        .ok ⟨7, true, .exec "ls"⟩ ∧
      parse .channelData [94, 0, 0, 0, 1, 0, 0, 0, 2, 5, 6, 9] = .ok ⟨1, [5, 6]⟩ ∧
      parse .channelData (toBytes .channelData ⟨1, [5, 6]⟩) = .ok ⟨1, [5, 6]⟩ := by
  have normal : Normal .channelRequest ⟨7, true, .exec "ls"⟩ :=
    ⟨show TextFits "ls" by decide⟩
  have accepted : parse .channelData [94, 0, 0, 0, 1, 0, 0, 0, 2, 5, 6, 9] = .ok ⟨1, [5, 6]⟩ := rfl
  exact ⟨normal, (codecs_inverse .channelRequest).1 _ normal, accepted,
    ((codecs_inverse .channelData).2 _ _ accepted).2.2⟩

end MessageFormat

end SecureShell
