import Mathlib.Data.Nat.Find
import SecureShell.Proofs.Pipeline.Framing

/-! What a deframer makes of a stream is decided by the stream alone. However the stream
is cut, the same packets come out and the same deframer is left; or the same byte is
refused, for the same reason, behind packets that the bytes before it complete. -/
namespace SecureShell.Deframer

variable {limit : Nat} {stream later rest kept : Bytes} {packet : Packet}
  {fault : ProtocolFault}

def feedAll : List Bytes → EStateM Error Deframer (List Packet)
  | [] => pure []
  | piece :: pieces => do
    let packets ← feed piece
    let others ← feedAll pieces
    return packets ++ others

section Scanning

theorem padding_of_fitting {length padding : Nat}
    (fitting : Packet.paddingFault length padding = none) : padding ≤ length - 1 := by
  by_contra more
  unfold Packet.paddingFault at fitting
  split at fitting
  · cases fitting
  · rw [if_pos (by omega)] at fitting
    cases fitting

/-- More bytes do not change a packet that is complete. -/
theorem scan_append_packet (found : scan limit stream = .packet packet rest) :
    scan limit (stream ++ later) = .packet packet (rest ++ later) := by
  unfold scan at found
  split at found
  · rename_i a b c d body
    dsimp only at found
    split at found
    · cases found
    · rename_i allowed
      split at found
      · cases found
      · rename_i padding body
        split at found
        · cases found
        · rename_i fitting
          split at found
          · cases found
          · rename_i enough
            have := padding_of_fitting fitting
            simp only [scan, List.cons_append, allowed, fitting]
            rw [if_neg (by rw [List.length_append]; omega),
              List.take_append_of_le_length (by omega), List.drop_append_of_le_length (by omega),
              List.drop_append_of_le_length (by omega),
              List.take_append_of_le_length (by rw [List.length_drop]; omega)]
            cases found
            rfl
  · cases found

/-- More bytes do not make up for a header that is refused. -/
theorem scan_append_refused (found : scan limit stream = .refused fault kept) :
    scan limit (stream ++ later) = .refused fault kept := by
  unfold scan at found
  split at found
  · dsimp only at found
    split at found
    · rename_i refused
      simp only [scan, List.cons_append, refused, found]
    · rename_i allowed
      split at found
      · cases found
      · split at found
        · rename_i refused
          simp only [scan, List.cons_append, allowed, refused, found]
        · split at found <;> cases found
  · cases found

end Scanning

section Draining

variable {packets done : List Packet} {failure : ProtocolFault × Bytes}

theorem drain_behind (earlier done : List Packet) (stream : Bytes) :
    drain limit (done ++ earlier) stream =
      (drain limit done stream).map fun taken => (earlier.reverse ++ taken.1, taken.2) := by
  fun_induction drain limit done stream with
  | case1 done stream waits => simp [drain_waits waits, Except.map]
  | case2 done stream packet rest found ih => rw [drain_packet found, ← ih, List.cons_append]
  | case3 done stream fault kept found => simp [drain_refused found, Except.map]

theorem scan_left (drained : drain limit done stream = .ok (packets, rest)) :
    scan limit rest = .incomplete := by
  fun_induction drain limit done stream with
  | case1 done stream waits =>
    cases drained
    exact waits
  | case2 done stream packet rest found ih => exact ih drained
  | case3 done stream fault kept found => cases drained

theorem drain_append (drained : drain limit done stream = .ok (packets, rest)) :
    drain limit done (stream ++ later) =
      (drain limit [] (rest ++ later)).map fun taken => (packets ++ taken.1, taken.2) := by
  fun_induction drain limit done stream with
  | case1 done stream waits =>
    cases drained
    exact drain_behind done [] (rest ++ later)
  | case2 done stream packet rest found ih =>
    rw [drain_packet (scan_append_packet found), ih drained]
  | case3 done stream fault kept found => cases drained

theorem drain_append_error (later : Bytes)
    (drained : drain limit done stream = .error failure) :
    drain limit done (stream ++ later) = .error failure := by
  fun_induction drain limit done stream with
  | case1 done stream waits => cases drained
  | case2 done stream packet rest found ih =>
    rw [drain_packet (scan_append_packet found), ih drained]
  | case3 done stream fault kept found =>
    cases drained
    exact drain_refused (scan_append_refused found)

theorem drain_front (drained : drain limit done (stream ++ later) = .ok (packets, rest)) :
    ∃ earlier left, drain limit done stream = .ok (earlier, left) := by
  cases front : drain limit done stream with
  | ok taken => exact ⟨taken.1, taken.2, rfl⟩
  | error failure =>
    rw [drain_append_error later front] at drained
    cases drained

end Draining

/-- Nothing that is kept completes a packet, and nothing of it is refused. -/
def Settled (deframer : Deframer) : Prop :=
  scan deframer.limit deframer.pending = .incomplete

section Feeding

variable {deframer : Deframer} {data : Bytes} {packets : List Packet}

theorem settled_fresh (limit : Nat) : Settled { limit } := rfl

theorem feed_eq (settled : deframer.Settled) (data : Bytes) :
    feed data deframer =
      match drain deframer.limit [] (deframer.pending ++ data) with
      | .ok (packets, rest) => .ok packets { deframer with pending := rest }
      | .error (fault, kept) => .error (.protocol fault) { deframer with pending := kept } := by
  cases data with
  | nil =>
    rw [List.append_nil, drain_waits settled]
    rfl
  | cons byte data =>
    simp only [feed, List.isEmpty_cons, Bool.false_eq_true, if_false, bind_apply, get_apply]
    rcases drain deframer.limit [] (deframer.pending ++ byte :: data) with ⟨fault, kept⟩ | ⟨packets, rest⟩
    · rfl
    · rfl

theorem feed_ok (settled : deframer.Settled)
    (drained : drain deframer.limit [] (deframer.pending ++ data) = .ok (packets, rest)) :
    feed data deframer = .ok packets { deframer with pending := rest } := by
  rw [feed_eq settled, drained]

theorem feed_error (settled : deframer.Settled)
    (drained : drain deframer.limit [] (deframer.pending ++ data) = .error (fault, kept)) :
    feed data deframer = .error (.protocol fault) { deframer with pending := kept } := by
  rw [feed_eq settled, drained]

/-- A stream without fault gives its packets however it is cut. -/
theorem feedAll_ok {pieces : List Bytes} (settled : deframer.Settled)
    (drained : drain deframer.limit [] (deframer.pending ++ pieces.flatten) = .ok (packets, rest)) :
    feedAll pieces deframer = .ok packets { deframer with pending := rest } := by
  induction pieces generalizing deframer packets with
  | nil =>
    rw [List.flatten_nil, List.append_nil, drain_waits settled] at drained
    cases drained
    rfl
  | cons piece pieces ih =>
    rw [List.flatten_cons, ← List.append_assoc] at drained
    obtain ⟨earlier, left, front⟩ := drain_front drained
    rw [drain_append front] at drained
    cases behind : drain deframer.limit [] (left ++ pieces.flatten) with
    | error failure =>
      rw [behind] at drained
      cases drained
    | ok taken =>
      rw [behind] at drained
      cases drained
      rw [feedAll, bind_apply, feed_ok settled front]
      dsimp only
      have stopped : Settled { deframer with pending := left } := scan_left front
      rw [bind_apply, ih stopped behind]
      rfl

end Feeding

section Refusing

variable {deframer failed : Deframer} {position : Nat} {completed : List Packet}
  {pieces : List Bytes} {error : Error}

/-- The byte at `position` of a stream is refused: those before it complete the packets
in `completed`, and a feed that goes on with it fails. -/
structure Refuses (deframer : Deframer) (stream : Bytes) (position : Nat)
    (completed : List Packet) (error : Error) (failed : Deframer) : Prop where
  within : position < stream.length
  behind : ∃ waiting, feed (stream.take position) deframer = .ok completed waiting
  refused : feed (stream.take (position + 1)) deframer = .error error failed

/-- The feed of the piece that holds the byte at `position` fails, and the feeds before it
have returned a front of the packets in `completed`. -/
def FailsAt (deframer : Deframer) (pieces : List Bytes) (position : Nat)
    (completed : List Packet) (error : Error) (failed : Deframer) : Prop :=
  ∃ before piece others returned reached, pieces = before ++ piece :: others ∧
    before.flatten.length ≤ position ∧ position < before.flatten.length + piece.length ∧
    feedAll before deframer = .ok returned reached ∧ feed piece reached = .error error failed ∧
    returned <+: completed

/-- Nothing is fed behind the piece that is refused. -/
theorem FailsAt.feedAll (fails : FailsAt deframer pieces position completed error failed) :
    feedAll pieces deframer = .error error failed := by
  obtain ⟨before, piece, others, returned, reached, rfl, -, -, front, refused, -⟩ := fails
  induction before generalizing deframer returned with
  | nil =>
    cases front
    rw [List.nil_append, Deframer.feedAll, bind_apply, refused]
  | cons first before ih =>
    obtain ⟨packets, between, fed, behind⟩ := bind_eq_ok_iff.1 front
    obtain ⟨others, last, rest, same⟩ := bind_eq_ok_iff.1 behind
    cases same
    rw [List.cons_append, Deframer.feedAll, bind_apply, fed]
    dsimp only
    rw [bind_apply, ih others rest]

/-- Of a stream that is refused some byte is the first whose front is. -/
theorem exists_refused {fault : ProtocolFault} (settled : deframer.Settled)
    (drained : drain deframer.limit [] (deframer.pending ++ stream) = .error (fault, kept)) :
    ∃ position completed waiting, position < stream.length ∧
      drain deframer.limit [] (deframer.pending ++ stream.take position) = .ok (completed, waiting) ∧
      drain deframer.limit [] (deframer.pending ++ stream.take (position + 1)) =
        .error (fault, kept) := by
  classical
  have some : ∃ n, drain deframer.limit [] (deframer.pending ++ stream.take n) =
      .error (fault, kept) := ⟨stream.length, by rw [List.take_length, drained]⟩
  have least := Nat.find_spec some
  have earlier := fun n => Nat.find_min (m := n) some
  generalize Nat.find some = first at least earlier
  cases first with
  | zero =>
    rw [List.take_zero, List.append_nil, drain_waits settled] at least
    cases least
  | succ position =>
    have before := earlier position (Nat.lt_succ_self position)
    have inside : position < stream.length := by
      by_contra outside
      rw [List.take_of_length_le (by omega)] at least before
      exact before least
    cases front : drain deframer.limit [] (deframer.pending ++ stream.take position) with
    | ok taken => exact ⟨position, taken.1, taken.2, inside, front, least⟩
    | error failure =>
      have whole := drain_append_error (stream.drop position) front
      rw [List.append_assoc, List.take_append_drop, drained] at whole
      cases whole
      exact absurd front before

/-- However a stream is cut, the piece with the first byte that is refused is refused. -/
theorem failsAt_of_drain {fault : ProtocolFault} {waiting : Bytes} (settled : deframer.Settled)
    (front : drain deframer.limit [] (deframer.pending ++ pieces.flatten.take position) =
      .ok (completed, waiting))
    (refused : drain deframer.limit [] (deframer.pending ++ pieces.flatten.take (position + 1)) =
      .error (fault, kept)) :
    FailsAt deframer pieces position completed (.protocol fault)
      { deframer with pending := kept } := by
  induction pieces generalizing deframer position completed with
  | nil =>
    rw [List.flatten_nil, List.take_nil] at front refused
    rw [front] at refused
    cases refused
  | cons piece pieces ih =>
    rw [List.flatten_cons] at front refused
    by_cases inside : position < piece.length
    · rw [List.take_append_of_le_length (by omega)] at refused
      have whole := drain_append_error (piece.drop (position + 1)) refused
      rw [List.append_assoc, List.take_append_drop] at whole
      exact ⟨[], piece, pieces, [], deframer, rfl, Nat.zero_le _, by simpa using inside, rfl,
        feed_error settled whole, List.nil_prefix⟩
    · -- the piece is before the byte: it gives its packets, and the rest is fed behind it
      have split (n : Nat) (past : piece.length ≤ n) : (piece ++ pieces.flatten).take n =
          piece ++ pieces.flatten.take (n - piece.length) := by
        rw [List.take_append, List.take_of_length_le past]
      rw [split _ (by omega), ← List.append_assoc] at front refused
      obtain ⟨earlier, left, fed⟩ := drain_front front
      rw [drain_append fed] at front refused
      rw [show position + 1 - piece.length = position - piece.length + 1 by omega] at refused
      cases rest : drain deframer.limit [] (left ++ pieces.flatten.take (position - piece.length)) with
      | error failure =>
        rw [rest] at front
        cases front
      | ok taken =>
        rw [rest] at front
        cases front
        cases last : drain deframer.limit []
            (left ++ pieces.flatten.take (position - piece.length + 1)) with
        | ok taken =>
          rw [last] at refused
          cases refused
        | error failure =>
          rw [last] at refused
          cases refused
          have stopped : Settled { deframer with pending := left } := scan_left fed
          obtain ⟨before, holder, others, returned, reached, rfl, least, most, returns, fails, part⟩ :=
            ih stopped rest last
          refine ⟨piece :: before, holder, others, earlier ++ returned, reached, rfl, ?_, ?_, ?_,
            fails, (List.prefix_append_right_inj earlier).2 part⟩
          · rw [List.flatten_cons, List.length_append]
            omega
          · rw [List.flatten_cons, List.length_append]
            omega
          · rw [Deframer.feedAll, bind_apply, feed_ok settled fed]
            dsimp only
            rw [bind_apply, returns]
            rfl

end Refusing

theorem drain_flatMap_toBytes {packets : List Packet}
    (fits : ∀ packet ∈ packets, packet.Fits limit) :
    drain limit [] (packets.flatMap Packet.toBytes) = .ok (packets, []) := by
  induction packets with
  | nil => exact drain_waits rfl
  | cons packet packets ih =>
    rw [List.flatMap_cons, drain_append (drain_toBytes (fits packet (by simp))), List.nil_append,
      ih fun other among => fits other (by simp [among])]
    rfl

/-- A fresh deframer does not depend on how its stream is cut. Without a failure, the
packets and the deframer that is left are the same for every cutting. With one, the feed
that brings the offending byte fails in the same way, behind a part of the packets that
the bytes before it complete. Packets within the limit come out as they were written. -/
theorem feedAll_cutting (limit : Nat) :
    (∀ one other : List Bytes, one.flatten = other.flatten →
      (∀ packets final, feedAll one { limit } = .ok packets final →
        feedAll other { limit } = .ok packets final) ∧
      ∀ error failed, feedAll one { limit } = .error error failed →
        feedAll other { limit } = .error error failed ∧
        ∃ position completed,
          Refuses { limit } one.flatten position completed error failed ∧
          FailsAt { limit } one position completed error failed ∧
          FailsAt { limit } other position completed error failed) ∧
    ∀ (packets : List Packet) (pieces : List Bytes), (∀ packet ∈ packets, packet.Fits limit) →
      pieces.flatten = packets.flatMap Packet.toBytes →
      feedAll pieces { limit } = .ok packets { limit } := by
  have settled := settled_fresh limit
  constructor
  · intro one other same
    cases whole : drain limit [] one.flatten with
    | ok taken =>
      have first : feedAll one { limit } = _ := feedAll_ok settled whole
      have second : feedAll other { limit } = _ := feedAll_ok settled (same ▸ whole)
      constructor
      · intro packets final fed
        rw [second, ← first, fed]
      · intro error failed fed
        rw [first] at fed
        cases fed
    | error failure =>
      obtain ⟨position, completed, waiting, within, front, refused⟩ :=
        exists_refused settled (show drain limit [] ([] ++ one.flatten) = _ from whole)
      have first := failsAt_of_drain settled front refused
      have second : FailsAt { limit } other position completed _ _ :=
        failsAt_of_drain settled (same ▸ front) (same ▸ refused)
      constructor
      · intro packets final fed
        rw [first.feedAll] at fed
        cases fed
      · intro error failed fed
        rw [first.feedAll] at fed
        cases fed
        exact ⟨second.feedAll, position, completed,
          ⟨within, ⟨_, feed_ok settled front⟩, feed_error settled refused⟩, first, second⟩
  · intro packets pieces fits whole
    exact feedAll_ok settled (whole ▸ drain_flatMap_toBytes fits)

theorem feedAll_cutting_small :
    feedAll [[0, 0], [0, 6, 4, 7, 1], [], [2, 3, 4]] { limit := 64 } =
        .ok [⟨[7], [1, 2, 3, 4]⟩] { limit := 64 } ∧
      feedAll [[0, 0, 0], [1, 9]] { limit := 64 } =
        .error (.protocol (.packetTooSmall 1)) { limit := 64, pending := [0, 0, 0, 1] } := by
  have whole : feedAll [[0, 0, 0, 1, 9]] { limit := 64 } =
      .error (.protocol (.packetTooSmall 1)) { limit := 64, pending := [0, 0, 0, 1] } := by
    have refused : scan 64 [0, 0, 0, 1, 9] = .refused (.packetTooSmall 1) [0, 0, 0, 1] := by
      simp [scan, lengthFault, Bytes.toNat, Packet.minPadding]
    rw [feedAll, bind_apply, feed_error (settled_fresh 64) (drain_refused refused)]
  constructor
  · refine (feedAll_cutting 64).2 [⟨[7], [1, 2, 3, 4]⟩] _ ?_ rfl
    intro packet among
    rw [List.mem_singleton.1 among]
    constructor <;> decide
  · exact (((feedAll_cutting 64).1 [[0, 0, 0, 1, 9]] [[0, 0, 0], [1, 9]] rfl).2 _ _ whole).1

end SecureShell.Deframer
