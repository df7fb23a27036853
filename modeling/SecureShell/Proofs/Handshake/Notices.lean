import SecureShell.Proofs.Handshake.Reaction
import SecureShell.Proofs.Spelling

/-! What a payload tells the client of an established session: one thing, or nothing that can
be made out, whatever the session has come to. -/
namespace SecureShell

open Wire
open SessionChannel (localId)

/-- What a message tells the client of an established session. -/
inductive Notice where
  /-- Data has arrived on our channel. -/
  | data (data : ChannelData)
  /-- Something is asked of our channel, and an answer is wanted. -/
  | query
  /-- Something is asked that concerns no channel, and an answer is wanted. -/
  | globalQuery
  /-- Nothing that is to be done. -/
  | idle
  /-- The server closes our channel. -/
  | close
  deriving DecidableEq

namespace Notice

/-- What is done about it, where the server knows our channel by a number of its own. -/
def actions (peer : UInt32) : Notice → List Action
  | .data content => [.deliver content]
  | .query => [.send (ChannelOnly.toBytes .channelFailure peer)]
  | .globalQuery => [.send GlobalRequest.failure]
  | .idle => []
  | .close => [.send (ChannelOnly.toBytes .channelClose peer), .closed]

theorem actions_injective (peer : UInt32) : Function.Injective (actions peer) := by
  intro first second same
  cases first <;> cases second <;> simp_all [actions, ChannelOnly.toBytes, GlobalRequest.failure,
    MessageCode.toByte]

theorem actions_unless (peer : UInt32) (flag : UInt8) (notice : Notice) :
    (if flag = 0 then .idle else notice).actions peer =
      if flag != 0 then notice.actions peer else [] := by
  by_cases unwanted : flag = 0
  · simp [unwanted, actions]
  · simp [unwanted]

/-- A payload tells something to the client: it begins with a message to us. Any byte but
zero stands for the wish for an answer. -/
inductive Told (payload : Bytes) : Notice → Prop where
  | output {data : Bytes} : Fits data →
      DataMessage.toBytes ⟨localId, data⟩ <+: payload → Told payload (.data (.output data))
  | extended {kind : UInt32} {data : Bytes} : Fits data →
      ExtendedDataMessage.toBytes ⟨localId, kind, data⟩ <+: payload →
      Told payload (.data (.extended kind data))
  | request {name : String} {flag : UInt8} {fields : Bytes} : TextFits name →
      ChannelRequestKind.Legible name fields →
      payload = MessageCode.channelRequest.toByte :: uint32 localId ++ text name ++ flag :: fields →
      Told payload (if flag = 0 then .idle else .query)
  | global {name : String} {flag : UInt8} : TextFits name →
      MessageCode.globalRequest.toByte :: text name ++ [flag] <+: payload →
      Told payload (if flag = 0 then .idle else .globalQuery)
  | ignored {code : MessageCode} :
      code ∈ [MessageCode.channelWindowAdjust, .channelEof, .channelSuccess] →
      ChannelOnly.toBytes code localId <+: payload → Told payload .idle
  | noise {code : MessageCode} : code ∈ [MessageCode.ignore, .debug] →
      [code.toByte] <+: payload → Told payload .idle
  | close : ChannelOnly.toBytes .channelClose localId <+: payload → Told payload .close

/-- A message about another channel, or of a kind that nobody waits for. -/
inductive Foreign (payload : Bytes) : Prop where
  | channel {code : MessageCode} {other : UInt32} : code ∈ Phase.established.awaits →
      code ≠ .globalRequest → other ≠ localId → ChannelOnly.toBytes code other <+: payload →
      Foreign payload
  | kind : (∀ code ∈ .ignore :: .debug :: Phase.established.awaits,
      payload.head? ≠ some code.toByte) → Foreign payload

variable {payload : Bytes} {notice : Notice}

/-- A payload begins with a code that is known to an established session, and goes on with our
number where a channel is meant. -/
def Opens (payload : Bytes) : Prop :=
  ∃ code ∈ .ignore :: .debug :: Phase.established.awaits, payload.head? = some code.toByte ∧
    (code ∈ Phase.established.awaits → code ≠ .globalRequest →
      ChannelOnly.toBytes code localId <+: payload)

theorem head_of_front {byte : UInt8} {wire : Bytes} (front : byte :: wire <+: payload) :
    payload.head? = some byte := by
  obtain ⟨rest, rfl⟩ := front
  rfl

theorem opens_of_channel {code : MessageCode} (awaited : code ∈ Phase.established.awaits)
    (front : ChannelOnly.toBytes code localId <+: payload) : Opens payload :=
  ⟨code, .tail _ (.tail _ awaited), head_of_front front, fun _ _ => front⟩

theorem Told.opens (told : Told payload notice) : Opens payload := by
  cases told with
  | output fits front => exact opens_of_channel (by decide) ((List.prefix_append _ _).trans front)
  | @extended kind data fits front =>
    refine @opens_of_channel _ .channelExtendedData (by decide) (List.IsPrefix.trans ?_ front)
    rw [ExtendedDataMessage.toBytes, List.append_assoc]
    exact List.prefix_append _ _
  | @request name flag fields fits legible whole =>
    refine @opens_of_channel _ .channelRequest (by decide) ?_
    rw [whole, List.append_assoc]
    exact List.prefix_append _ _
  | global fits front =>
    exact ⟨.globalRequest, by decide, head_of_front front, fun _ other => absurd rfl other⟩
  | ignored listed front =>
    simp only [List.mem_cons, List.not_mem_nil, or_false] at listed
    rcases listed with rfl | rfl | rfl <;> exact opens_of_channel (by decide) front
  | noise listed front =>
    simp only [List.mem_cons, List.not_mem_nil, or_false] at listed
    rcases listed with rfl | rfl <;>
      exact ⟨_, by decide, head_of_front front, fun awaited => absurd awaited (by decide)⟩
  | close front => exact opens_of_channel (by decide) front

/-- What a message about another channel, or one that nobody waits for, tells the client is
nothing. -/
theorem Foreign.untold (foreign : Foreign payload) (notice : Notice) : ¬Told payload notice := by
  intro told
  obtain ⟨code, listed, opened, ours⟩ := told.opens
  cases foreign with
  | @channel kind other awaited channel strange front =>
    obtain rfl : kind = code := by
      obtain ⟨rest, rfl⟩ := front
      exact MessageCode.toByte_injective (Option.some.inj opened)
    have same := (List.prefix_of_prefix_length_le front (ours awaited channel)
      (Nat.le_of_eq rfl)).eq_of_length rfl
    have number : uint32 other = uint32 localId := (List.cons.inj same).2
    refine strange ?_
    rw [← Bytes.toUInt32_ofUInt32 other, ← Bytes.toUInt32_ofUInt32 localId]
    exact congrArg Bytes.toUInt32 number
  | kind unknown => exact unknown code listed opened

end Notice

end SecureShell
