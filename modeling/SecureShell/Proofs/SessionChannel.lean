import Mathlib.Logic.Basic
import SecureShell.Proofs.Bytes
import SecureShell.Proofs.Codecs
import SecureShell.SessionChannel

/-! Once the channel is confirmed, written data goes out in messages that bear the peer's
number and hold the data in order, in pieces of which none is empty. A piece is one byte long
at least, even where the peer's limit has no room for it: then every message exceeds the
limit. -/
namespace SecureShell

/-- Messages that bring data to a channel, in pieces none of which is empty. -/
def Conveys (recipient : UInt32) (data : Bytes) (messages : List Bytes) : Prop :=
  ∃ pieces : List Bytes,
    messages.map DataMessage.parse = pieces.map (fun piece => .ok ⟨recipient, piece⟩) ∧
      [] ∉ pieces ∧ pieces.flatten = data

theorem Conveys.eq_nil_iff {recipient : UInt32} {data : Bytes} {messages : List Bytes}
    (conveys : Conveys recipient data messages) : messages = [] ↔ data = [] := by
  obtain ⟨pieces, parsed, some, rfl⟩ := conveys
  have count : messages.length = pieces.length := by simpa using congrArg List.length parsed
  rw [← List.length_eq_zero_iff, count, List.length_eq_zero_iff, List.flatten_eq_nil_iff]
  constructor
  · rintro rfl
    exact nofun
  · intro empty
    refine List.eq_nil_iff_forall_not_mem.2 fun piece member => some ?_
    rwa [← empty piece member]

namespace SessionChannel

theorem length_dataMessage (recipient : UInt32) (data : Bytes) :
    (DataMessage.toBytes ⟨recipient, data⟩).length = dataOverhead + data.length := by
  simp only [DataMessage.toBytes, dataOverhead, List.length_append, List.length_cons,
    Wire.length_uint32, Wire.length_string]
  omega

variable {channel before opened : SessionChannel} {confirmation : ChannelConfirmation}
  {data : Bytes} {messages : List Bytes}

/-- A confirmation of our own channel opens it, unless it has no room for anything. -/
theorem confirm_eq_ok_iff :
    before.confirm confirmation = .ok opened ↔
      before.state = .opening ∧ confirmation.recipient = localId ∧ confirmation.maxPacket ≠ 0 ∧
        opened = { before with
          state := .opened, remoteId := confirmation.sender, remoteWindow := confirmation.window,
          remoteMaxPacket := confirmation.maxPacket } := by
  unfold confirm
  split
  case isTrue late => exact ⟨nofun, fun opens => absurd opens.1 late⟩
  case isFalse early =>
    split
    case isTrue other => exact ⟨nofun, fun opens => absurd opens.2.1 other⟩
    case isFalse own =>
      split
      case isTrue zero => exact ⟨nofun, fun opens => absurd zero opens.2.2.1⟩
      case isFalse room =>
        constructor
        · rintro ⟨⟩
          exact ⟨not_not.1 early, not_not.1 own, room, rfl⟩
        · rintro ⟨-, -, -, rfl⟩
          rfl

section Pieces

theorem pieceSize_pos (channel : SessionChannel) : 0 < channel.pieceSize :=
  Nat.le_max_right _ 1

theorem pieceSize_lt (channel : SessionChannel) : channel.pieceSize < 2 ^ 32 := by
  have small := channel.remoteMaxPacket.toNat_lt
  unfold pieceSize
  omega

/-- A message is as long as the peer's limit allows, and ten bytes where it allows less. -/
theorem dataOverhead_add_pieceSize (channel : SessionChannel) :
    dataOverhead + channel.pieceSize = max channel.remoteMaxPacket.toNat 10 := by
  simp only [pieceSize, dataOverhead]
  omega

end Pieces

/-- An open channel takes all data, of any length, and no other channel takes any. -/
theorem dataMessages_eq_ok_iff :
    channel.dataMessages data = .ok messages ↔
      channel.state = .opened ∧ messages = (Bytes.pieces channel.pieceSize data).map fun piece =>
        DataMessage.toBytes ⟨channel.remoteId, piece⟩ := by
  unfold dataMessages
  split
  case isTrue shut => exact ⟨nofun, fun taken => absurd taken.1 shut⟩
  case isFalse ready =>
    constructor
    · rintro ⟨⟩
      exact ⟨not_not.1 ready, rfl⟩
    · rintro ⟨-, rfl⟩
      rfl

theorem dataMessages_eq (ready : channel.state = .opened) (data : Bytes) :
    channel.dataMessages data = .ok ((Bytes.pieces channel.pieceSize data).map fun piece =>
      DataMessage.toBytes ⟨channel.remoteId, piece⟩) :=
  dataMessages_eq_ok_iff.2 ⟨ready, rfl⟩

theorem dataMessages_conveys (written : channel.dataMessages data = .ok messages) :
    Conveys channel.remoteId data messages := by
  obtain ⟨-, rfl⟩ := dataMessages_eq_ok_iff.1 written
  refine ⟨Bytes.pieces channel.pieceSize data, ?_, Bytes.nil_notMem_pieces _ data,
    Bytes.flatten_pieces channel.pieceSize_pos data⟩
  rw [List.map_map]
  refine List.map_congr_left fun piece cut => DataMessage.parse_toBytes ⟨?_⟩
  exact Nat.lt_of_le_of_lt (Bytes.length_le_of_mem_pieces cut) channel.pieceSize_lt

/-- How long the messages are. The first one is the longest. -/
theorem dataMessages_length_le_iff (written : channel.dataMessages data = .ok messages)
    (bound : Nat) :
    (∀ message ∈ messages, message.length ≤ bound) ↔
      data = [] ∨
        min (max channel.remoteMaxPacket.toNat 10) (dataOverhead + data.length) ≤ bound := by
  obtain ⟨-, rfl⟩ := dataMessages_eq_ok_iff.1 written
  rw [← dataOverhead_add_pieceSize, Nat.add_min_add_left, List.forall_mem_map]
  simp only [length_dataMessage]
  constructor
  · intro short
    refine or_iff_not_imp_left.2 fun some => ?_
    rw [Bytes.pieces_cons channel.pieceSize_pos some] at short
    rw [← List.length_take]
    exact short _ List.mem_cons_self
  · rintro (rfl | enough) piece cut
    · rw [Bytes.pieces_nil] at cut
      cases cut
    · have within : piece.length ≤ channel.pieceSize := Bytes.length_le_of_mem_pieces cut
      have part : piece.length ≤ data.length := by
        have inside := (List.sublist_flatten_of_mem cut).length_le
        rwa [Bytes.flatten_pieces channel.pieceSize_pos] at inside
      exact Nat.le_trans (Nat.add_le_add_left (Nat.le_min.2 ⟨within, part⟩) dataOverhead) enough

/-- A confirmed channel takes all data and cuts it into messages for the peer that hold it in
order. Ten bytes are the least that a message needs: the messages keep to the peer's limit
exactly where it allows as many. -/
theorem dataMessages_of_confirmed (confirmed : before.confirm confirmation = .ok opened)
    (data : Bytes) :
    ∃ messages, opened.dataMessages data = .ok messages ∧
      Conveys confirmation.sender data messages ∧ (messages = [] ↔ data = []) ∧
      (∀ message ∈ messages, message.length ≤ max confirmation.maxPacket.toNat 10) ∧
      ((∀ message ∈ messages, message.length ≤ confirmation.maxPacket.toNat) ↔
        data = [] ∨ 10 ≤ confirmation.maxPacket.toNat) := by
  obtain ⟨-, -, -, taken⟩ := confirm_eq_ok_iff.1 confirmed
  have ready : opened.state = .opened := by rw [taken]
  have number : opened.remoteId = confirmation.sender := by rw [taken]
  have limit : opened.remoteMaxPacket = confirmation.maxPacket := by rw [taken]
  have written := dataMessages_eq ready data
  have conveys := dataMessages_conveys written
  have length := dataMessages_length_le_iff written
  rw [limit] at length
  refine ⟨_, written, number ▸ conveys, conveys.eq_nil_iff,
    (length _).2 (.inr (Nat.min_le_left ..)), ?_⟩
  rw [length]
  refine or_congr_right' fun some => ?_
  have pos := List.length_pos_iff.2 some
  simp only [dataOverhead]
  omega

/-- A limit of eleven bytes lets two bytes of data into a message. -/
theorem dataMessages_of_confirmed_eleven :
    confirm { localWindow := 1024, localMaxPacket := 1024 } ⟨localId, 17, 1024, 11⟩ =
        .ok ⟨.opened, 1024, 1024, 17, 1024, 11, false⟩ ∧
      ∃ messages,
        dataMessages ⟨.opened, 1024, 1024, 17, 1024, 11, false⟩ [65, 66, 67] = .ok messages ∧
        Conveys 17 [65, 66, 67] messages ∧ (messages = [] ↔ [65, 66, 67] = ([] : Bytes)) ∧
        (∀ message ∈ messages, message.length ≤ max 11 10) ∧
        ((∀ message ∈ messages, message.length ≤ 11) ↔
          [65, 66, 67] = ([] : Bytes) ∨ 10 ≤ 11) := by
  have confirmed : confirm { localWindow := 1024, localMaxPacket := 1024 }
      ⟨localId, 17, 1024, 11⟩ = .ok ⟨.opened, 1024, 1024, 17, 1024, 11, false⟩ := rfl
  exact ⟨confirmed, dataMessages_of_confirmed confirmed [65, 66, 67]⟩

/-- A limit of nine bytes is accepted, and a message for one byte of data has ten. -/
theorem dataMessages_exceed_nine :
    confirm { localWindow := 1024, localMaxPacket := 1024 } ⟨localId, 17, 1024, 9⟩ =
        .ok ⟨.opened, 1024, 1024, 17, 1024, 9, false⟩ ∧
      dataMessages ⟨.opened, 1024, 1024, 17, 1024, 9, false⟩ [65] =
        .ok [[94, 0, 0, 0, 17, 0, 0, 0, 1, 65]] ∧
      ¬ ([94, 0, 0, 0, 17, 0, 0, 0, 1, 65] : Bytes).length ≤ (9 : UInt32).toNat := by
  refine ⟨rfl, ?_, by decide⟩
  have size : pieceSize ⟨.opened, 1024, 1024, 17, 1024, 9, false⟩ = 1 := rfl
  rw [dataMessages_eq rfl, size, Bytes.pieces_cons Nat.one_pos (List.cons_ne_nil 65 []),
    List.drop_one, List.tail_cons, Bytes.pieces_nil]
  rfl

end SessionChannel

end SecureShell
