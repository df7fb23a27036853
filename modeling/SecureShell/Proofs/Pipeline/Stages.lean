import SecureShell.Proofs.Pipeline.Cutting

/-! A deframer may also keep the length, the payload and the padding of a packet apart,
each in a buffer that fills up, and move from one to the next. It then keeps the same
bytes as one that keeps them as they came, gives the same packets and refuses the same
streams. -/
namespace SecureShell

/-- The part of a packet that is being collected, with the parts before it. -/
inductive Stage where
  | inLength (filled : Bytes)
  | inHeader (length : Nat)
  | inPayload (size padding : Nat) (filled : Bytes)
  | inPadding (size : Nat) (payload filled : Bytes)

namespace Stage

open Deframer (lengthFault Awaiting)

/-- How far a stage is from the end of a packet when no bytes are used up. -/
def rank : Stage → Nat
  | .inLength _ => 1
  | .inHeader _ => 0
  | .inPayload _ _ _ => 3
  | .inPadding _ _ _ => 2

/-- Fills the buffers with data until it is used up. A buffer that is not full leaves
nothing of the data. -/
def advance (limit : Nat) (done : List Packet) :
    Stage → Bytes → Except (ProtocolFault × Stage) (List Packet × Stage)
  | stage, [] => .ok (done.reverse, stage)
  | .inLength filled, byte :: data =>
    let missing := 4 - filled.length
    let field := filled ++ (byte :: data).take missing
    if field.length = 4 then
      match lengthFault limit field.toNat with
      | some fault => .error (fault, .inLength field)
      | none => advance limit done (.inHeader field.toNat) ((byte :: data).drop missing)
    else .ok (done.reverse, .inLength field)
  | .inHeader length, byte :: data =>
    match Packet.paddingFault length byte.toNat with
    | some fault => .error (fault, .inHeader length)
    | none =>
      if length - 1 - byte.toNat = 0 then advance limit done (.inPadding byte.toNat [] []) data
      else advance limit done (.inPayload (length - 1 - byte.toNat) byte.toNat []) data
  | .inPayload size padding filled, byte :: data =>
    let missing := size - filled.length
    let payload := filled ++ (byte :: data).take missing
    if payload.length = size then
      advance limit done (.inPadding padding payload []) ((byte :: data).drop missing)
    else .ok (done.reverse, .inPayload size padding payload)
  | .inPadding size payload filled, byte :: data =>
    let missing := size - filled.length
    let padding := filled ++ (byte :: data).take missing
    if padding.length = size then
      advance limit (⟨payload, padding⟩ :: done) (.inLength []) ((byte :: data).drop missing)
    else .ok (done.reverse, .inPadding size payload padding)
  termination_by stage data => 4 * data.length + stage.rank
  decreasing_by all_goals simp only [rank, List.length_drop, List.length_cons]; omega

def kept : Stage → Bytes
  | .inLength filled => filled
  | .inHeader length => Bytes.wide 4 length
  | .inPayload size padding filled =>
    Bytes.wide 4 (1 + size + padding) ++ UInt8.ofNat padding :: filled
  | .inPadding size payload filled =>
    Bytes.wide 4 (1 + payload.length + size) ++ UInt8.ofNat size :: (payload ++ filled)

def awaiting : Stage → Awaiting
  | .inLength _ => .length
  | .inHeader _ => .paddingLength
  | .inPayload _ _ _ => .payload
  | .inPadding _ _ _ => .padding

def idle : Stage → Bool
  | .inLength filled => filled.isEmpty
  | _ => false

/-- A length field that is acceptable. -/
structure Allowed (limit length : Nat) : Prop where
  small : length < 256 ^ 4
  faultless : lengthFault limit length = none

/-- A padding that belongs to an acceptable length. -/
structure Padded (limit length padding : Nat) : Prop extends Allowed limit length where
  byte : padding < 256
  fitting : Packet.paddingFault length padding = none

/-- The buffer that is being filled is not full, and what is in front of it is accepted. -/
def Filling (limit : Nat) : Stage → Prop
  | .inLength filled => filled.length < 4
  | .inHeader length => Allowed limit length
  | .inPayload size padding filled => filled.length < size ∧ Padded limit (1 + size + padding) padding
  | .inPadding size payload filled =>
    filled.length < size ∧ Padded limit (1 + payload.length + size) size

section Scanning

variable {limit length padding : Nat} {body : Bytes}

theorem Padded.scan (padded : Padded limit length padding) :
    Deframer.scan limit (Bytes.wide 4 length ++ UInt8.ofNat padding :: body) =
      if body.length < length - 1 then .incomplete
      else .packet ⟨body.take (length - 1 - padding),
        (body.drop (length - 1 - padding)).take padding⟩ (body.drop (length - 1)) :=
  Deframer.scan_header padded.small padded.faultless padded.byte padded.fitting

/-- A length field shows nothing by itself, unless it is refused. -/
theorem scan_field {field : Bytes} (four : field.length = 4) :
    Deframer.scan limit (field ++ body) =
      match lengthFault limit field.toNat with
      | some fault => .refused fault field
      | none =>
        match body with
        | [] => .incomplete
        | byte :: rest =>
          match Packet.paddingFault field.toNat byte.toNat with
          | some fault => .refused fault field
          | none => Deframer.scan limit (field ++ byte :: rest) := by
  obtain ⟨a, b, c, d, rfl⟩ : ∃ a b c d, field = [a, b, c, d] :=
    ⟨_, _, _, _, List.eq_getElem_of_length_eq_four _ four⟩
  cases refused : lengthFault limit (Bytes.toNat [a, b, c, d]) with
  | some fault => simp [Deframer.scan, refused]
  | none =>
    cases body with
    | nil => simp [Deframer.scan, refused]
    | cons byte rest =>
      cases short : Packet.paddingFault (Bytes.toNat [a, b, c, d]) byte.toNat with
      | some fault => simp [Deframer.scan, refused, short]
      | none => simp only [short]

theorem least_padding (fitting : Packet.paddingFault length padding = none) : 4 ≤ padding := by
  by_contra few
  rw [Packet.paddingFault, if_pos (by rw [Packet.minPadding]; omega)] at fitting
  cases fitting

end Scanning

section Keeping

variable {limit : Nat} {stage : Stage}

/-- Nothing shows in the bytes that are kept while a buffer fills up. -/
theorem scan_kept (filling : stage.Filling limit) : Deframer.scan limit stage.kept = .incomplete := by
  cases stage with
  | inLength filled =>
    match filled, filling with
    | [], _ => rfl
    | [_], _ => rfl
    | [_, _], _ => rfl
    | [_, _, _], _ => rfl
  | inHeader length =>
    have waits : Deframer.scan limit (Bytes.wide 4 length ++ []) = _ :=
      scan_field (Bytes.length_wide 4 length)
    rw [Bytes.toNat_wide, Nat.mod_eq_of_lt filling.small, filling.faultless, List.append_nil] at waits
    exact waits
  | inPayload size padding filled =>
    rw [kept, filling.2.scan, if_pos (by have := filling.1; omega)]
  | inPadding size payload filled =>
    rw [kept, filling.2.scan, if_pos (by have := filling.1; rw [List.length_append]; omega)]

def outcome : Except (ProtocolFault × Stage) (List Packet × Stage) →
    Except (ProtocolFault × Bytes) (List Packet × Bytes)
  | .ok (packets, stage) => .ok (packets, stage.kept)
  | .error (fault, stage) => .error (fault, stage.kept)

/-- What advancing came to is what draining the bytes comes to, and the buffers that are
left have room. -/
structure Matches (limit : Nat) (done : List Packet) (bytes : Bytes)
    (result : Except (ProtocolFault × Stage) (List Packet × Stage)) : Prop where
  drained : Deframer.drain limit done bytes = outcome result
  filling : ∀ packets after, result = .ok (packets, after) → after.Filling limit

variable {done : List Packet} {bytes filled data : Bytes} {fault : ProtocolFault} {size : Nat}

theorem Matches.waits (filling : stage.Filling limit) :
    Matches limit done stage.kept (.ok (done.reverse, stage)) := by
  constructor
  · exact Deframer.drain_waits (scan_kept filling)
  · intro packets after same
    cases same
    exact filling

theorem Matches.refused (refused : Deframer.scan limit bytes = .refused fault stage.kept) :
    Matches limit done bytes (.error (fault, stage)) := by
  constructor
  · exact Deframer.drain_refused refused
  · intro packets after same
    cases same

theorem buffer_short (room : filled.length < size)
    (short : ¬(filled ++ data.take (size - filled.length)).length = size) :
    data.take (size - filled.length) = data ∧ (filled ++ data).length < size := by
  rw [List.length_append, List.length_take] at short
  constructor
  · exact List.take_of_length_le (by omega)
  · rw [List.length_append]
    omega

theorem buffer_full (filled data : Bytes) (n : Nat) :
    filled ++ data = filled ++ data.take n ++ data.drop n := by
  rw [List.append_assoc, List.take_append_drop]

theorem header_eq {length : Nat} {byte : UInt8}
    (fitting : Packet.paddingFault length byte.toNat = none) (allowed : Allowed limit length) :
    1 + (length - 1 - byte.toNat) + byte.toNat = length ∧
      Padded limit length byte.toNat := by
  have within := Deframer.padding_of_fitting fitting
  have least := least_padding fitting
  exact ⟨by omega, allowed, byte.toNat_lt, fitting⟩

/-- Advancing through the stages takes the same packets off as draining the bytes. -/
theorem advance_matches (filling : stage.Filling limit) :
    Matches limit done (stage.kept ++ data) (advance limit done stage data) := by
  fun_induction advance limit done stage data with
  | case1 done stage =>
    rw [List.append_nil]
    exact .waits filling
  | case2 done filled byte data missing field full fault found =>
    apply Matches.refused
    rw [kept, buffer_full filled _ missing, scan_field full, found]
    rfl
  | case3 done filled byte data missing field full allowed ih =>
    rw [kept, buffer_full filled _ missing]
    have same : (inHeader field.toNat).kept = field := by rw [kept, ← full, Bytes.wide_toNat]
    rw [same] at ih
    exact ih ⟨full ▸ Bytes.toNat_lt field, allowed⟩
  | case4 done filled byte data missing field short =>
    obtain ⟨all, room⟩ := buffer_short filling short
    have same : field = filled ++ byte :: data := congrArg (filled ++ ·) all
    rw [same]
    exact .waits (show Filling limit (inLength (filled ++ byte :: data)) from room)
  | case5 done length byte data fault found =>
    apply Matches.refused
    rw [kept, scan_field (Bytes.length_wide ..), Bytes.toNat_wide, Nat.mod_eq_of_lt filling.small,
      filling.faultless]
    simp only [found]
  | case6 done length byte data fitting none ih =>
    obtain ⟨whole, padded⟩ := header_eq fitting filling
    rw [none, Nat.add_zero] at whole
    have same : (inHeader length).kept ++ byte :: data =
        (inPadding byte.toNat [] []).kept ++ data := by
      simp [kept, whole]
    rw [same]
    exact ih ⟨by have := least_padding fitting; simp; omega, by simpa [whole] using padded⟩
  | case7 done length byte data fitting some ih =>
    obtain ⟨whole, padded⟩ := header_eq fitting filling
    have same : (inHeader length).kept ++ byte :: data =
        (inPayload (length - 1 - byte.toNat) byte.toNat []).kept ++ data := by
      simp [kept, whole]
    rw [same]
    exact ih ⟨Nat.pos_of_ne_zero some, whole.symm ▸ padded⟩
  | case8 done size padding filled byte data missing payload full ih =>
    obtain ⟨room, padded⟩ := filling
    have same : (inPayload size padding filled).kept ++ byte :: data =
        (inPadding padding payload []).kept ++ (byte :: data).drop missing := by
      have := buffer_full filled (byte :: data) missing
      simp only [kept, full, List.append_nil, List.append_assoc, List.cons_append]
      rw [this]
    rw [same]
    exact ih ⟨Nat.lt_of_lt_of_le (by decide) (least_padding padded.fitting), full.symm ▸ padded⟩
  | case9 done size padding filled byte data missing payload short =>
    obtain ⟨room, padded⟩ := filling
    obtain ⟨all, room⟩ := buffer_short room short
    have same : payload = filled ++ byte :: data := congrArg (filled ++ ·) all
    have waits : Matches limit done (inPayload size padding (filled ++ byte :: data)).kept _ :=
      .waits ⟨room, padded⟩
    rw [same]
    simpa only [kept, List.append_assoc, List.cons_append] using waits
  | case10 done size payload filled byte data missing padding full ih =>
    obtain ⟨room, padded⟩ := filling
    have body : (inPadding size payload filled).kept ++ byte :: data =
        Bytes.wide 4 (1 + payload.length + size) ++ UInt8.ofNat size ::
          (payload ++ (padding ++ (byte :: data).drop missing)) := by
      rw [kept, ← buffer_full filled (byte :: data) missing]
      simp only [List.append_assoc, List.cons_append]
    have found : Deframer.scan limit ((inPadding size payload filled).kept ++ byte :: data) =
        .packet ⟨payload, padding⟩ ((byte :: data).drop missing) := by
      rw [body, padded.scan]
      clear_value padding
      subst full
      rw [show 1 + payload.length + padding.length - 1 = (payload ++ padding).length by
        rw [List.length_append]; omega, if_neg (by simp), List.length_append, Nat.add_sub_cancel,
        List.take_left, List.drop_left, List.take_left, ← List.length_append, ← List.append_assoc,
        List.drop_left]
    have rest := ih (by decide : 0 < 4)
    exact ⟨(Deframer.drain_packet found).trans rest.drained, rest.filling⟩
  | case11 done size payload filled byte data missing padding short =>
    obtain ⟨room, padded⟩ := filling
    obtain ⟨all, room⟩ := buffer_short room short
    have same : padding = filled ++ byte :: data := congrArg (filled ++ ·) all
    have waits : Matches limit done (inPadding size payload (filled ++ byte :: data)).kept _ :=
      .waits ⟨room, padded⟩
    rw [same]
    simpa only [kept, List.append_assoc, List.cons_append] using waits

/-- The stage is the part of a packet that the kept bytes wait for. -/
theorem awaiting_kept (filling : stage.Filling limit) :
    Deframer.awaiting ⟨limit, stage.kept⟩ = stage.awaiting := by
  have field (length : Nat) (body : Bytes) :
      (Bytes.wide 4 length ++ body).take 4 = Bytes.wide 4 length ∧
        (Bytes.wide 4 length ++ body).drop 4 = body :=
    ⟨List.take_left' (Bytes.length_wide ..), List.drop_left' (Bytes.length_wide ..)⟩
  cases stage with
  | inLength filled =>
    rw [kept, Deframer.awaiting, List.drop_of_length_le (Nat.le_of_lt filling)]
    exact if_neg fun full => Nat.ne_of_lt filling full.1
  | inHeader length =>
    have whole := field length []
    rw [List.append_nil] at whole
    simp only [Deframer.awaiting, kept, whole, Bytes.toNat_wide, Nat.mod_eq_of_lt filling.small,
      filling.faultless, Bytes.length_wide, Option.isNone_none, and_self, if_true, awaiting]
  | inPayload size padding filled =>
    obtain ⟨room, padded⟩ := filling
    simp only [Deframer.awaiting, kept, field, Bytes.toNat_wide, Nat.mod_eq_of_lt padded.small,
      UInt8.toNat_ofNat', Nat.mod_eq_of_lt padded.byte, awaiting]
    exact if_pos (by omega)
  | inPadding size payload filled =>
    obtain ⟨room, padded⟩ := filling
    simp only [Deframer.awaiting, kept, field, Bytes.toNat_wide, Nat.mod_eq_of_lt padded.small,
      UInt8.toNat_ofNat', Nat.mod_eq_of_lt padded.byte, awaiting]
    exact if_neg (by rw [List.length_append]; omega)

theorem idle_kept (limit : Nat) (stage : Stage) :
    Deframer.idle ⟨limit, stage.kept⟩ = stage.idle := by
  have some (length : Nat) (body : Bytes) : (Bytes.wide 4 length ++ body).isEmpty = false := by
    rw [List.isEmpty_eq_false_iff, ← List.length_pos_iff, List.length_append, Bytes.length_wide]
    omega
  cases stage with
  | inLength filled => rfl
  | inHeader length =>
    have field := some length []
    rw [List.append_nil] at field
    exact field
  | inPayload size padding filled => exact some _ _
  | inPadding size payload filled => exact some _ _

end Keeping

section Feeding

variable {limit : Nat} {stage : Stage}

def advanceAll (limit : Nat) :
    List Bytes → Stage → Except (ProtocolFault × Stage) (List Packet × Stage)
  | [], stage => .ok ([], stage)
  | piece :: pieces, stage => do
    let (packets, stage) ← advance limit [] stage piece
    let (others, stage) ← advanceAll limit pieces stage
    return (packets ++ others, stage)

/-- Stage by stage a stream gives the packets, the error and the rest that it gives to a
deframer that keeps its bytes as they came, however it is cut. -/
theorem feedAll_stages (filling : stage.Filling limit) (pieces : List Bytes) :
    match advanceAll limit pieces stage with
    | .ok (packets, after) =>
      Deframer.feedAll pieces ⟨limit, stage.kept⟩ = .ok packets ⟨limit, after.kept⟩ ∧
        Deframer.awaiting ⟨limit, after.kept⟩ = after.awaiting ∧
        Deframer.idle ⟨limit, after.kept⟩ = after.idle
    | .error (fault, after) =>
      Deframer.feedAll pieces ⟨limit, stage.kept⟩ =
        .error (.protocol fault) ⟨limit, after.kept⟩ := by
  induction pieces generalizing stage with
  | nil => exact ⟨rfl, awaiting_kept filling, idle_kept limit stage⟩
  | cons piece pieces ih =>
    have settled : Deframer.Settled ⟨limit, stage.kept⟩ := scan_kept filling
    obtain ⟨drained, fills⟩ : Matches limit [] (stage.kept ++ piece) _ := advance_matches filling
    rw [advanceAll, Deframer.feedAll, bind_apply]
    cases first : advance limit [] stage piece with
    | error failure =>
      rw [first] at drained
      rw [Deframer.feed_error settled drained]
      rfl
    | ok taken =>
      obtain ⟨packets, after⟩ := taken
      rw [first] at drained
      rw [Deframer.feed_ok settled drained]
      have rest := ih (fills packets after first)
      cases behind : advanceAll limit pieces after with
      | error failure =>
        rw [behind] at rest
        dsimp only at rest ⊢
        rw [bind_apply, rest]
        simp [behind, Bind.bind, Except.bind]
      | ok others =>
        rw [behind] at rest
        dsimp only at rest ⊢
        rw [bind_apply, rest.1]
        simp only [Bind.bind, Except.bind, behind]
        exact ⟨rfl, rest.2⟩

end Feeding

end Stage

end SecureShell
