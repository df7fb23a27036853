import SecureShell.Proofs.Codecs

/-! What was read was written. Whatever a reader takes from the front of unread bytes has
the form that goes with the value, and so a message of the connection protocol is found
exactly where its wire form stands at the front of a payload. -/
namespace SecureShell

open Wire

variable {α β : Type}

/-- All that a reader takes from the front of unread bytes has a form that goes with the
value. -/
def Takes (reader : Reader α) (form : α → Bytes → Prop) : Prop :=
  ∀ unread value rest, reader unread = .ok value rest →
    ∃ wire, form value wire ∧ unread = wire ++ rest

namespace Takes

variable {form : α → Bytes → Prop}

theorem pure {value : α} (spelled : form value []) : Takes (pure value) form := by
  intro unread found rest same
  cases same
  exact ⟨[], spelled, rfl⟩

theorem throw (error : Error) : Takes (throw error : Reader α) form := by
  intro unread found rest impossible
  cases impossible

theorem imp {better : α → Bytes → Prop} {reader : Reader α} (h : Takes reader form)
    (implies : ∀ value wire, form value wire → better value wire) : Takes reader better := by
  intro unread value rest read
  obtain ⟨wire, formed, split⟩ := h unread value rest read
  exact ⟨wire, implies value wire formed, split⟩

theorem bind {first : Reader β} {next : β → Reader α} {shape : β → Bytes → Prop}
    (hFirst : Takes first shape)
    (hNext : ∀ b front, shape b front →
      Takes (next b) fun value back => form value (front ++ back)) :
    Takes (first >>= next) form := by
  intro unread value rest ran
  obtain ⟨b, between, read, next⟩ := bind_eq_ok_iff.1 ran
  obtain ⟨front, shaped, rfl⟩ := hFirst unread b between read
  obtain ⟨back, formed, rfl⟩ := hNext b front shaped between value rest next
  exact ⟨front ++ back, formed, (List.append_assoc ..).symm⟩

theorem parse (form : α → Bytes → Prop) {reader : Reader α} {payload : Bytes} {value : α}
    (accepted : Reader.parse reader payload = .ok value) (h : Takes reader form) :
    ∃ wire, form value wire ∧ wire <+: payload := by
  rw [Reader.parse] at accepted
  split at accepted
  · rename_i rest read
    cases accepted
    obtain ⟨wire, formed, rfl⟩ := h payload value _ read
    exact ⟨wire, formed, List.prefix_append wire _⟩
  · cases accepted

end Takes

theorem Reads.parse_prefix {reader : Reader α} {wire payload : Bytes} {a : α}
    (h : Reads reader wire a) (front : wire <+: payload) : Reader.parse reader payload = .ok a := by
  obtain ⟨rest, rfl⟩ := front
  exact h.parse_front rfl

namespace Wire

theorem takes_take (count : Nat) (field : Field) :
    Takes (Reader.take count field) fun data wire => data.length = count ∧ wire = data := by
  have exactly : Takes (Reader.exactly count field) fun taken wire => wire = taken.1 := by
    intro unread taken rest read
    unfold Reader.exactly at read
    split at read
    · cases read
    · cases read
      exact ⟨_, rfl, (List.take_append_drop count unread).symm⟩
  refine exactly.bind ?_
  rintro taken front rfl
  exact .pure ⟨taken.2, List.append_nil _⟩

theorem takes_byte : Takes Reader.byte fun byte wire => wire = [byte] := by
  refine (takes_take 1 .byte).bind ?_
  rintro data front ⟨one, rfl⟩
  obtain ⟨byte, rfl⟩ := List.length_eq_one_iff.1 one
  exact .pure rfl

theorem takes_bool : Takes Reader.bool fun value wire => ∃ flag, wire = [flag] ∧
    value = (flag != 0) := by
  refine takes_byte.bind ?_
  rintro flag front rfl
  exact .pure ⟨flag, rfl, rfl⟩

theorem takes_uint32 : Takes Reader.uint32 fun value wire => wire = uint32 value := by
  refine (takes_take 4 .uint32).bind ?_
  rintro data front ⟨four, rfl⟩
  refine .pure ?_
  rw [List.append_nil, uint32, Bytes.ofUInt32_toUInt32 four]

theorem takes_string : Takes Reader.string fun data wire => Fits data ∧ wire = string data := by
  refine takes_uint32.bind ?_
  rintro length front rfl unread data rest read
  obtain ⟨wire, ⟨same, rfl⟩, split⟩ := takes_take _ _ unread data rest read
  have known : UInt32.ofNat wire.length = length := by rw [same, UInt32.ofNat_toNat]
  refine ⟨wire, ⟨?_, ?_⟩, split⟩
  · rw [Fits, same]
    exact length.toNat_lt
  · rw [string, known]

theorem takes_text : Takes Reader.text fun value wire => TextFits value ∧ wire = text value := by
  refine takes_string.bind ?_
  rintro data front ⟨fits, rfl⟩
  split
  · rename_i value valid
    obtain rfl := Bytes.ofText_of_toText? valid
    exact .pure ⟨fits, List.append_nil _⟩
  · exact .throw _

theorem takes_expect (code : MessageCode) :
    Takes (Reader.expect code) fun _ wire => wire = [code.toByte] := by
  refine takes_byte.bind ?_
  rintro got front rfl
  split
  · exact .throw _
  · rename_i same
    exact .pure (by rw [Decidable.not_not.1 same]; rfl)

theorem reads_flag (flag : UInt8) : Reads Reader.bool [flag] (flag != 0) :=
  (reads_byte flag).map (· != 0)

end Wire

section Connection

variable {payload : Bytes}

theorem DataMessage.parse_eq_ok_iff {message : DataMessage} :
    parse payload = .ok message ↔ Fits message.data ∧ message.toBytes <+: payload := by
  constructor
  · intro accepted
    obtain ⟨wire, ⟨fits, rfl⟩, front⟩ := Takes.parse
      (fun (message : DataMessage) wire => Fits message.data ∧ wire = message.toBytes) accepted
      ((takes_expect .channelData).bind fun _ _ code => takes_uint32.bind fun _ _ recipient =>
        takes_string.bind fun _ _ data => .pure ⟨data.1, by simp [code, recipient, data.2, toBytes]⟩)
    exact ⟨fits, front⟩
  · rintro ⟨fits, front⟩
    refine Reads.parse_prefix ((reads_expect .channelData).bind
      ((reads_uint32 message.recipient).bind ((reads_string fits).map _))) ?_
    simpa [toBytes] using front

theorem ExtendedDataMessage.parse_eq_ok_iff {message : ExtendedDataMessage} :
    parse payload = .ok message ↔ Fits message.data ∧ message.toBytes <+: payload := by
  constructor
  · intro accepted
    obtain ⟨wire, ⟨fits, rfl⟩, front⟩ := Takes.parse
      (fun (message : ExtendedDataMessage) wire => Fits message.data ∧ wire = message.toBytes)
      accepted
      ((takes_expect .channelExtendedData).bind fun _ _ code =>
        takes_uint32.bind fun _ _ recipient => takes_uint32.bind fun _ _ kind =>
        takes_string.bind fun _ _ data =>
          .pure ⟨data.1, by simp [code, recipient, kind, data.2, toBytes]⟩)
    exact ⟨fits, front⟩
  · rintro ⟨fits, front⟩
    refine Reads.parse_prefix ((reads_expect .channelExtendedData).bind
      ((reads_uint32 message.recipient).bind ((reads_uint32 message.kind).bind
        ((reads_string fits).map _)))) ?_
    simpa [toBytes] using front

theorem ChannelOnly.parse_eq_ok_iff {code : MessageCode} {recipient : UInt32} :
    parse code payload = .ok recipient ↔ toBytes code recipient <+: payload := by
  constructor
  · intro accepted
    obtain ⟨wire, rfl, front⟩ := Takes.parse (fun recipient wire => wire = toBytes code recipient)
      accepted ((takes_expect code).bind fun _ _ first => takes_uint32.imp fun _ _ number => by
        rw [first, number]; rfl)
    exact front
  · intro front
    exact Reads.parse_prefix ((reads_expect code).bind (reads_uint32 recipient)) front

/-- A request is found behind its code, whatever byte stands for the wish for an answer. -/
theorem GlobalRequest.parse_eq_ok_iff {request : GlobalRequest} :
    parse payload = .ok request ↔ TextFits request.name ∧ ∃ flag : UInt8,
      request.wantReply = (flag != 0) ∧
        MessageCode.globalRequest.toByte :: text request.name ++ [flag] <+: payload := by
  constructor
  · intro accepted
    obtain ⟨wire, ⟨fits, flag, wanted, rfl⟩, front⟩ := Takes.parse
      (fun (request : GlobalRequest) wire => TextFits request.name ∧ ∃ flag : UInt8,
        request.wantReply = (flag != 0) ∧
          wire = MessageCode.globalRequest.toByte :: text request.name ++ [flag]) accepted
      ((takes_expect .globalRequest).bind fun _ _ code => takes_text.bind fun _ _ name =>
        takes_bool.bind fun _ _ ⟨flag, last, wanted⟩ =>
          .pure ⟨name.1, flag, wanted, by simp [code, name.2, last]⟩)
    exact ⟨fits, flag, wanted, front⟩
  · rintro ⟨fits, flag, wanted, front⟩
    obtain ⟨name, wantReply⟩ := request
    subst wanted
    refine Reads.parse_prefix ((reads_expect .globalRequest).bind ((reads_text fits).bind
      ((reads_flag flag).map _))) ?_
    simpa using front

namespace ChannelRequestKind

/-- What can be made out behind the name of a request: the details of the requests that the
client knows, and anything behind any other name. -/
inductive Legible : String → Bytes → Prop where
  | pty {terminal : Pty} {modes fields : Bytes} : TextFits terminal.term → Fits modes →
      text terminal.term ++ (uint32 terminal.columns ++ (uint32 terminal.rows ++
        (uint32 terminal.widthPixels ++ (uint32 terminal.heightPixels ++ string modes)))) <+: fields →
      Legible "pty-req" fields
  | shell (fields : Bytes) : Legible "shell" fields
  | exec {command : String} {fields : Bytes} : TextFits command → text command <+: fields →
      Legible "exec" fields
  | other {name : String} (fields : Bytes) : name ∉ ["pty-req", "shell", "exec"] →
      Legible name fields

variable {name : String} {fields : Bytes}

theorem Legible.append (legible : Legible name fields) (rest : Bytes) :
    Legible name (fields ++ rest) := by
  cases legible with
  | pty term modes front => exact .pty term modes (front.trans (List.prefix_append fields rest))
  | shell => exact .shell _
  | exec command front => exact .exec command (front.trans (List.prefix_append fields rest))
  | other _ unknown => exact .other _ unknown

theorem takes_legible (name : String) : Takes (reader name) fun _ wire => Legible name wire := by
  unfold reader
  split
  · have pty : Takes Pty.reader fun _ wire => Legible "pty-req" wire := by
      refine takes_text.bind fun term _ first => takes_uint32.bind fun columns _ second =>
        takes_uint32.bind fun rows _ third => takes_uint32.bind fun width _ fourth =>
        takes_uint32.bind fun height _ fifth => takes_string.bind fun modes _ sixth => .pure ?_
      rw [first.2, second, third, fourth, fifth, sixth.2, List.append_nil]
      have legible : Legible "pty-req" _ := .pty (show TextFits
        (Pty.term ⟨term, columns, rows, width, height⟩) from first.1) sixth.1 (List.prefix_refl _)
      exact legible
    exact pty.bind fun _ _ legible => .pure ((List.append_nil _).symm ▸ legible)
  · exact .pure (.shell _)
  · exact takes_text.bind fun _ _ command => .pure (.exec command.1 (by simp [command.2]))
  · rename_i notPty notShell notExec
    have unknown : name ∉ ["pty-req", "shell", "exec"] := by
      simp only [List.mem_cons, List.not_mem_nil, or_false, not_or]
      exact ⟨notPty, notShell, notExec⟩
    have rest : Takes Reader.rest fun _ wire => Legible name wire := by
      intro unread value rest read
      cases read
      exact ⟨unread, .other _ unknown, (List.append_nil unread).symm⟩
    exact rest.bind fun _ _ legible => .pure ((List.append_nil _).symm ▸ legible)

theorem Legible.reads (legible : Legible name fields) : ∃ kind, ReadsAll (reader name) fields kind := by
  cases legible with
  | @pty terminal modes _ term fits front =>
    obtain ⟨rest, rfl⟩ := front
    have reads : Reads Pty.reader _ terminal := (reads_text term).bind ((reads_uint32 _).bind
      ((reads_uint32 _).bind ((reads_uint32 _).bind ((reads_uint32 _).bind
        ((reads_string fits).map _)))))
    exact ⟨.pty terminal, rest, reads.map ChannelRequestKind.pty rest⟩
  | shell => exact ⟨.shell, fields, rfl⟩
  | exec command front =>
    obtain ⟨rest, rfl⟩ := front
    exact ⟨_, rest, (reads_text command).map ChannelRequestKind.exec rest⟩
  | other _ unknown => exact ⟨.other name fields, [], by rw [reader_other unknown]; rfl⟩

end ChannelRequestKind

/-- A request for a channel is found behind its code, with legible details, whatever byte
stands for the wish for an answer. -/
theorem ChannelRequest.parse_ok_iff {recipient : UInt32} {wanted : Bool} :
    (∃ kind, parse payload = .ok ⟨recipient, wanted, kind⟩) ↔ ∃ name flag fields,
      TextFits name ∧ ChannelRequestKind.Legible name fields ∧ wanted = (flag != 0) ∧
        payload = MessageCode.channelRequest.toByte :: uint32 recipient ++ text name ++
          flag :: fields := by
  constructor
  · rintro ⟨kind, accepted⟩
    obtain ⟨wire, ⟨name, flag, fields, fits, legible, wanted, rfl⟩, rest, rfl⟩ := Takes.parse
      (fun (request : ChannelRequest) wire => ∃ name flag fields, TextFits name ∧
        ChannelRequestKind.Legible name fields ∧ request.wantReply = (flag != 0) ∧
          wire = MessageCode.channelRequest.toByte :: uint32 request.recipient ++ text name ++
            flag :: fields) accepted
      ((takes_expect .channelRequest).bind fun _ _ code => takes_uint32.bind fun _ _ number =>
        takes_text.bind fun name _ named => takes_bool.bind fun _ _ ⟨flag, last, wanted⟩ =>
        (ChannelRequestKind.takes_legible name).bind fun _ fields legible =>
          .pure ⟨name, flag, fields, named.1, legible, wanted, by simp [code, number, named.2, last]⟩)
    exact ⟨name, flag, fields ++ rest, fits, legible.append rest, wanted, by simp⟩
  · rintro ⟨name, flag, fields, fits, legible, rfl, rfl⟩
    obtain ⟨kind, reads⟩ := legible.reads
    exact ⟨kind, ReadsAll.parse ((reads_expect .channelRequest).bind_all
      ((reads_uint32 recipient).bind_all ((reads_text fits).bind_all
        ((reads_flag flag).bind_all (reads.map _))))) (by simp)⟩

end Connection

end SecureShell
