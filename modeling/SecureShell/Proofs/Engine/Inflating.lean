import SecureShell.Proofs.Engine.Taking
import SecureShell.Proofs.Handshake.Welcoming
import SecureShell.Proofs.Pipeline.Compressing

/-! How the packets that a client has taken are unpacked. Each is parsed, and what it frames
goes through the decompressor as the packets before it have left it; behind the packet with
which the user is accepted this is a stream, if that was agreed on, and it is never begun
anew. -/
namespace SecureShell

/-- What an action makes of the decompressor. -/
def Decompressor.heed (d : Decompressor) : Action → Decompressor
  | .compress _ true => d.activate
  | .compress _ false | .send _ | .armOutbound _ | .armInbound _ | .established | .deliver _
  | .closed => d

theorem Decompressor.heed_plain {actions : List Action} {d : Decompressor}
    (plain : ∀ outbound inbound, .compress outbound inbound ∉ actions) :
    actions.foldl heed d = d := by
  induction actions with
  | nil => rfl
  | cons action rest ih =>
    have first : d.heed action = d := by
      cases action with
      | compress outbound inbound => exact absurd (.head _) (plain outbound inbound)
      | _ => rfl
    rw [List.foldl_cons, first]
    exact ih fun outbound inbound later => plain outbound inbound (.tail _ later)

def Take.Plain (take : Take) : Prop :=
  ∃ framed, Packet.parse take.packet = .ok framed ∧ framed.payload = take.payload

/-- What packets frame goes through a decompressor, one after the other, and gives their
payloads. -/
inductive Inflates : Decompressor → List Take → Decompressor → Prop where
  | nil {d : Decompressor} : Inflates d [] d
  | take {take : Take} {takes : List Take} {framed : Packet} {d between after : Decompressor} :
      Packet.parse take.packet = .ok framed →
      Decompressor.decompress framed.payload d = .ok take.payload between →
      Inflates between takes after → Inflates d (take :: takes) after

/-- While decompression is switched off packets carry their payloads as they are. -/
theorem Inflates.plain {d after : Decompressor} {takes : List Take}
    (inflates : Inflates d takes after) (inert : d.active = false) :
    (∀ take ∈ takes, take.Plain) ∧ after = d := by
  induction inflates with
  | nil => exact ⟨List.forall_mem_nil _, rfl⟩
  | take parsed decompressed _ ih =>
    obtain ⟨same, rfl⟩ := Decompressor.decompress_inert inert decompressed
    obtain ⟨others, rfl⟩ := ih inert
    exact ⟨List.forall_mem_cons.2 ⟨⟨_, parsed, same.symm⟩, others⟩, rfl⟩

namespace Engine

open Handshake

/-- The payloads that a handshake has accepted, each with what the caller hears of it. -/
def accepted (history : List Record) : List (Bytes × List Event) :=
  history.filterMap fun
    | ⟨.packet _ payload, .ok actions⟩ => some (payload, actions.flatMap Action.events)
    | _ => none

theorem accepted_append (first second : List Record) :
    accepted (first ++ second) = accepted first ++ accepted second := List.filterMap_append

/-- The packets that were taken, in step with a history: each frames what the decompressor
turns into the payload that is accepted, and what is asked for in answer is done before the
next packet. -/
inductive Unpacks : Decompressor → List Record → List Take → Decompressor → Prop where
  | nil {d : Decompressor} : Unpacks d [] [] d
  | aside {record : Record} {history : List Record} {takes : List Take} {d after : Decompressor} :
      accepted [record] = [] → Unpacks d history takes after →
      Unpacks d (record :: history) takes after
  | take {record : Record} {history : List Record} {take : Take} {takes : List Take}
      {framed : Packet} {d between after : Decompressor} :
      accepted [record] = [take.heard] → Packet.parse take.packet = .ok framed →
      Decompressor.decompress framed.payload d = .ok take.payload between →
      Unpacks (record.asked.foldl Decompressor.heed between) history takes after →
      Unpacks d (record :: history) (take :: takes) after

variable {d between after : Decompressor} {history first second : List Record}
  {takes more : List Take}

namespace Unpacks

theorem append (unpacks : Unpacks d first takes between)
    (later : Unpacks between second more after) :
    Unpacks d (first ++ second) (takes ++ more) after := by
  induction unpacks with
  | nil => exact later
  | aside quiet _ ih => exact .aside quiet (ih later)
  | take heard parsed decompressed _ ih => exact .take heard parsed decompressed (ih later)

theorem silent {records : List Record} (quiet : accepted records = []) :
    Unpacks d records [] d := by
  induction records with
  | nil => exact .nil
  | cons record rest ih =>
    rw [← List.singleton_append, accepted_append] at quiet
    obtain ⟨first, others⟩ := List.append_eq_nil_iff.1 quiet
    exact .aside first (ih others)

/-- The packets behind a part of the history are unpacked as that part has left it. -/
theorem split (unpacks : Unpacks d (first ++ second) takes after) :
    ∃ before later between, takes = before ++ later ∧ Unpacks d first before between ∧
      Unpacks between second later after := by
  induction first generalizing d takes with
  | nil => exact ⟨[], takes, d, rfl, .nil, unpacks⟩
  | cons record rest ih =>
    cases unpacks with
    | aside quiet unpacks =>
      obtain ⟨before, later, between, rfl, first, second⟩ := ih unpacks
      exact ⟨before, later, between, rfl, .aside quiet first, second⟩
    | @take _ _ take _ _ _ _ _ heard parsed decompressed unpacks =>
      obtain ⟨before, later, between, rfl, first, second⟩ := ih unpacks
      exact ⟨take :: before, later, between, rfl, .take heard parsed decompressed first, second⟩

theorem accepts (unpacks : Unpacks d history takes after) :
    accepted history = takes.map Take.heard := by
  induction unpacks with
  | nil => rfl
  | aside quiet _ ih => rw [← List.singleton_append, accepted_append, quiet, ih, List.nil_append]
  | take heard _ _ _ ih =>
    rw [← List.singleton_append, accepted_append, heard, ih, List.map_cons, List.singleton_append]

/-- As long as compression is not asked for, the packets go through one decompressor. -/
theorem inflates (unpacks : Unpacks d history takes after)
    (plain : ∀ record ∈ history, record.Plain) : Inflates d takes after := by
  induction unpacks with
  | nil => exact .nil
  | aside _ _ ih => exact ih fun record later => plain record (.tail _ later)
  | take _ parsed decompressed _ ih =>
    have rest := ih fun record later => plain record (.tail _ later)
    rw [Decompressor.heed_plain (plain _ (.head _)).uncompressed] at rest
    exact .take parsed decompressed rest

end Unpacks

theorem Unpacks.one {record : Record} {inbound left : Inbound} {opener : Opener} (take : Take)
    (idle : inbound.deframer.idle = true)
    (unpacked : Inbound.unpack take.packet { inbound with opener } = .ok take.payload left)
    (heard : accepted [record] = [take.heard]) :
    left.deframer.idle = true ∧
      Unpacks inbound.decompressor [record] [take]
        (record.asked.foldl Decompressor.heed left.decompressor) := by
  have idle : ({ inbound with opener } : Inbound).deframer.idle = true := idle
  obtain ⟨framed, parsed, decompressed, still⟩ := Inbound.unpack_ok idle unpacked
  exact ⟨still, .take heard parsed decompressed .nil⟩

theorem accepted_of_welcomes {record : Record} (welcomes : record.welcomes = true) :
    accepted [record] ≠ [] := by
  unfold Record.welcomes at welcomes
  split at welcomes
  · simp [accepted]
  · cases welcomes

theorem heed_welcome {negotiated : Negotiated} {opening : Bytes} :
    (negotiated.activation ++ [Action.send opening]).foldl Decompressor.heed d =
      if negotiated.compressionIn.delayed then d.activate else d := by
  rw [Negotiated.activation]
  cases negotiated.compressionOut.delayed <;> cases negotiated.compressionIn.delayed <;> rfl

/-- The packets up to the one with which the user is accepted carry their payloads as they
are. Those behind it go through one decompressor, which is switched on just if that was
agreed on. -/
theorem Unpacks.welcomed {config : Config} {proposal opening : Bytes} {early late : List Record}
    {success : Record} {a : Agreement} (unpacks : Unpacks d history takes after)
    (welcomed : Welcomed config proposal history early success late a opening)
    (inert : d.active = false) :
    ∃ before later, takes = before ++ later ∧
      accepted (early ++ [success]) = before.map Take.heard ∧ (∀ take ∈ before, take.Plain) ∧
      Inflates (if a.negotiated.compressionIn.delayed then d.activate else d) later after := by
  obtain ⟨rfl, before, welcome, late⟩ := welcomed
  obtain ⟨first, rest, between, rfl, unpacked, behind⟩ := unpacks.split
  obtain ⟨plain, rfl⟩ := (unpacked.inflates before).plain inert
  have asked : success.asked = a.negotiated.activation ++ [.send opening] :=
    asked_of_ok welcome.answered
  cases behind with
  | aside quiet => exact absurd quiet (accepted_of_welcomes welcome.welcomes)
  | @take _ _ take later _ _ _ _ heard parsed decompressed onward =>
    obtain ⟨same, rfl⟩ := Decompressor.decompress_inert inert decompressed
    rw [asked, heed_welcome] at onward
    refine ⟨first ++ [take], later, by simp, ?_, ?_, onward.inflates late⟩
    · rw [accepted_append, unpacked.accepts, heard, List.map_append, List.map_singleton]
    · intro other member
      rcases List.mem_append.1 member with earlier | now
      · exact plain other earlier
      · rw [List.mem_singleton.1 now]
        exact ⟨_, parsed, same.symm⟩

/-- What the actions that are carried out make of the inbound side. -/
theorem Performs.inflating {supply : Supply} {actions : List Action} {engine reached : Engine}
    {wires : List Bytes} (performs : Performs supply actions engine wires reached)
    (stays : .closed ∉ actions) :
    reached.inbound.deframer = engine.inbound.deframer ∧
      reached.inbound.decompressor =
        actions.foldl Decompressor.heed engine.inbound.decompressor := by
  induction performs with
  | nil => exact ⟨rfl, rfl⟩
  | send _ _ ih | armOutbound _ _ ih | established _ ih | deliver _ ih =>
    exact ih fun later => stays (.tail _ later)
  | armInbound armed _ ih =>
    obtain ⟨protection, -, rfl⟩ := Inbound.arm_ok armed
    exact ih fun later => stays (.tail _ later)
  | @compress _ inbound _ _ _ _ _ ih =>
    have rest := ih fun later => stays (.tail _ later)
    cases inbound <;> exact rest
  | closed => exact absurd (.head _) stays

end Engine

end SecureShell
