import SecureShell.Proofs.Pipeline.Lockstep

/-! The receiver of a direction takes exactly the payloads that were sent, whatever the
pieces in which the bytes arrive. The invariant compares it with an ideal receiver that
has not begun the packet that is next; of the two, nobody can tell which is which by
asking for payloads. -/
namespace SecureShell.Pipeline

namespace Command

/-- May a sender be told so? -/
def Within (limit : Nat) (outbound : Outbound) : Command → Prop
  | .send entropy payload => outbound.Accepts limit entropy payload
  | .arm keys => keys.Sized
  | .compress => True

/-- May a sender be told all of it, each command in the state that the others lead to? -/
def AllWithin (limit : Nat) : List Command → Outbound → Prop
  | [], _ => True
  | command :: rest, outbound => command.Within limit outbound ∧
    ∀ wire after, command.perform outbound = .ok wire after → AllWithin limit rest after

variable {limit : Nat} {outbound : Outbound}

theorem perform_ok (ready : outbound.Ready) {command : Command}
    (within : command.Within limit outbound) :
    ∃ wire after, command.perform outbound = .ok wire after ∧ after.Ready ∧
      after.sequence = outbound.sequence + UInt32.ofNat (payloads [command]).length := by
  cases command with
  | send entropy payload =>
    obtain ⟨wire, after, sent, afterReady, sequence, -⟩ := Inbound.next_send ready within
    exact ⟨wire, after, sent, afterReady, sequence⟩
  | arm keys =>
    obtain ⟨after, armed, afterReady, sequence, -⟩ := Inbound.arm_follows outbound within
    refine ⟨[], after, ?_, afterReady, ?_⟩
    · simp only [perform, armed]
    · rw [sequence]
      exact (UInt32.add_zero _).symm
  | compress =>
    exact ⟨[], outbound.activateCompression, rfl, ⟨ready.framer, ready.encrypts⟩,
      (UInt32.add_zero _).symm⟩

theorem perform_ready (ready : outbound.Ready) {command : Command}
    (within : command.Within limit outbound) {wire : Bytes} {after : Outbound}
    (h : command.perform outbound = .ok wire after) : after.Ready := by
  obtain ⟨_, _, performed, afterReady, -⟩ := perform_ok ready within
  rw [h] at performed
  cases performed
  exact afterReady

theorem payloads_cons (command : Command) (rest : List Command) :
    payloads (command :: rest) = payloads [command] ++ payloads rest := by
  cases command <;> rfl

/-- The sender carries out all that it may be told, and counts the payloads. -/
theorem performAll_ok (ready : outbound.Ready) {commands : List Command}
    (within : AllWithin limit commands outbound) :
    ∃ wire final, performAll commands outbound = .ok wire final ∧
      final.sequence = outbound.sequence + UInt32.ofNat (payloads commands).length := by
  induction commands generalizing outbound with
  | nil => exact ⟨[], outbound, rfl, (UInt32.add_zero _).symm⟩
  | cons command rest ih =>
    obtain ⟨wire, after, performed, afterReady, sequence⟩ := perform_ok ready within.1
    obtain ⟨more, final, performedAll, total⟩ := ih afterReady (within.2 wire after performed)
    refine ⟨wire ++ more, final, ?_, ?_⟩
    · simp only [performAll, bind_apply, performed, performedAll, pure_apply]
    · rw [total, sequence, payloads_cons command rest, List.length_append, UInt32.ofNat_add,
        UInt32.add_assoc]

theorem performAll_cons {command : Command} {rest : List Command} {first wire : Bytes}
    {after final : Outbound} (performed : command.perform outbound = .ok first after)
    (h : performAll (command :: rest) outbound = .ok wire final) :
    ∃ more, performAll rest after = .ok more final ∧ wire = first ++ more := by
  obtain ⟨_, _, hFirst, hOthers⟩ := bind_eq_ok_iff.1 h
  rw [performed] at hFirst
  cases hFirst
  obtain ⟨more, _, hRest, hWire⟩ := bind_eq_ok_iff.1 hOthers
  cases hWire
  exact ⟨more, hRest, rfl⟩

theorem performAll_silent {command : Command} {rest : List Command} {wire : Bytes}
    {after final : Outbound} (performed : command.perform outbound = .ok [] after)
    (h : performAll (command :: rest) outbound = .ok wire final) :
    performAll rest after = .ok wire final := by
  obtain ⟨more, hRest, rfl⟩ := performAll_cons performed h
  exact hRest

end Command

namespace Receiver

variable {receiver : Receiver} {limit : Nat} {outbound final : Outbound} {ideal : Inbound}
  {pending later : Bytes} {all : List Bytes}

/-- An ideal receiver, and the real one, which may have begun a packet that is due; both
answer all questions to come alike. -/
inductive Stands (inbound ideal : Inbound) (due : List Command) : Prop where
  | same (same : inbound = ideal)
  | begun {entropy : Entropy} {payload : Bytes} {rest : List Command}
      (send : due = .send entropy payload :: rest)
      (alike : ∀ later, Inbound.next (inbound.feed later) = Inbound.next (ideal.feed later))

/-- The ideal receiver has followed the sender up to the commands that are due, and the
bytes that these give have arrived in part; the others are `pending`. -/
structure Tracks (receiver : Receiver) (limit : Nat) (all : List Bytes) (pending : Bytes)
    (final outbound : Outbound) (ideal : Inbound) : Prop where
  ready : outbound.Ready
  within : Command.AllWithin limit receiver.due outbound
  performed : Command.performAll receiver.due outbound =
    .ok (ideal.opener.buffer ++ pending) final
  follows : ideal.Follows limit outbound
  stands : Stands receiver.inbound ideal receiver.due
  complete : receiver.received ++ Command.payloads receiver.due = all

/-- There is an ideal receiver that shows what has arrived of what was sent. -/
def OnTrack (receiver : Receiver) (limit : Nat) (all : List Bytes) (pending : Bytes)
    (final : Outbound) : Prop :=
  ∃ outbound ideal, receiver.Tracks limit all pending final outbound ideal

theorem Stands.next {inbound : Inbound} {due : List Command} (stands : Stands inbound ideal due) :
    Inbound.next inbound = Inbound.next ideal := by
  cases stands with
  | same same => rw [same]
  | begun send alike =>
    have now := alike []
    rwa [Inbound.feed_nil, Inbound.feed_nil] at now

theorem Stands.feed {inbound : Inbound} {due : List Command} (stands : Stands inbound ideal due)
    (data : Bytes) : Stands (inbound.feed data) (ideal.feed data) due := by
  cases stands with
  | same same => exact .same (by rw [same])
  | begun send alike =>
    refine .begun send ?_
    intro later
    rw [Inbound.feed_feed, Inbound.feed_feed]
    exact alike (data ++ later)

theorem move_feed {data : Bytes} (onTrack : receiver.OnTrack limit all (data ++ pending) final) :
    ∃ after, receiver.move (.feed data) = .ok after ∧ after.OnTrack limit all pending final := by
  obtain ⟨outbound, ideal, ready, within, performed, follows, stands, complete⟩ := onTrack
  refine ⟨_, rfl, outbound, ideal.feed data, ready, within, ?_, follows.feed data,
    stands.feed data, complete⟩
  rw [performed, ← List.append_assoc]
  rfl

theorem arrived_or_missing {buffer first more : Bytes} (split : buffer ++ pending = first ++ more) :
    (∃ later, buffer = first ++ later ∧ more = later ++ pending) ∨
      ∃ missing, missing ≠ [] ∧ first = buffer ++ missing ∧ pending = missing ++ more := by
  rcases List.append_eq_append_iff.1 split with ⟨missing, firstSplit, pendingSplit⟩ | arrived
  · by_cases none : missing = []
    · subst none
      rw [List.append_nil] at firstSplit
      exact .inl ⟨[], by rw [firstSplit, List.append_nil], pendingSplit.symm⟩
    · exact .inr ⟨missing, none, firstSplit, pendingSplit⟩
  · exact .inl arrived

/-- A packet of which something is missing is not given. -/
theorem next_missing {missing payload : Bytes} {taken : Inbound} (some : missing ≠ [])
    (whole : Inbound.next (ideal.feed missing) = .ok (.some payload) taken)
    (used : taken.opener.buffer = []) : ∃ stopped, Inbound.next ideal = .ok none stopped := by
  have resumed : Inbound.next (ideal.feed missing) = _ := Inbound.next_feed missing
  rw [whole] at resumed
  -- had it been given early, or refused, the same would come of the whole packet
  cases early : Inbound.next ideal with
  | error error failed =>
    rw [early] at resumed
    cases resumed
  | ok found stopped =>
    rw [early] at resumed
    cases found with
    | none => exact ⟨stopped, rfl⟩
    | some payload =>
      cases resumed
      have left : stopped.opener.buffer ++ missing = [] := used
      exact absurd (List.append_eq_nil_iff.1 left).2 some

/-- Asking takes the payload that is due if its packet has wholly arrived, and is in vain
otherwise. -/
theorem pull_send {entropy : Entropy} {payload : Bytes} {rest : List Command}
    (tracks : receiver.Tracks limit all pending final outbound ideal)
    (due : receiver.due = .send entropy payload :: rest) :
    ∃ after, receiver.pull = .ok after ∧ after.OnTrack limit all pending final ∧
      (pending = [] → after.due = rest) := by
  obtain ⟨ready, within, performed, follows, stands, complete⟩ := tracks
  rw [due] at within performed complete
  obtain ⟨wire, sent, hSend, sentReady, -, taking⟩ := Inbound.next_send ready within.1
  have sends : (Command.send entropy payload).perform outbound = .ok wire sent := hSend
  obtain ⟨more, performedRest, split⟩ := Command.performAll_cons sends performed
  have received : receiver.received ++ [payload] ++ Command.payloads rest = all := by
    rw [List.append_assoc]
    exact complete
  have restWithin := within.2 wire sent sends
  rcases arrived_or_missing split with ⟨later, bufferSplit, moreSplit⟩ |
    ⟨missing, some, wireSplit, pendingSplit⟩
  · -- the packet is there: the ideal receiver moves on behind it
    obtain ⟨taken, hNext, takenFollows, buffer⟩ := taking follows bufferSplit
    have pulled : receiver.pull = .ok ⟨taken, rest, receiver.received ++ [payload]⟩ := by
      simp only [pull, stands.next, hNext, due, List.tail_cons]
    refine ⟨_, pulled, ⟨sent, taken, sentReady, restWithin, ?_, takenFollows, .same rfl, received⟩,
      fun _ => rfl⟩
    rw [buffer, ← moreSplit]
    exact performedRest
  · -- the packet is begun: the ideal receiver stays in front of it
    have arriving : (ideal.feed missing).opener.buffer = wire ++ [] := by
      rw [List.append_nil, wireSplit]
      rfl
    obtain ⟨taken, hNext, -, used⟩ := taking (follows.feed missing) arriving
    obtain ⟨stopped, hStop⟩ := next_missing some hNext used
    have pulled : receiver.pull = .ok { receiver with inbound := stopped } := by
      simp only [pull, stands.next, hStop]
    refine ⟨_, pulled, ⟨outbound, ideal, ready, ?_, ?_, follows, .begun due fun later => ?_, ?_⟩, ?_⟩
    · rw [due]
      exact within
    · rw [due]
      exact performed
    · have resumed : Inbound.next (ideal.feed later) = _ := Inbound.next_feed later
      rw [resumed, hStop]
    · rw [due]
      exact complete
    · intro last
      rw [pendingSplit] at last
      exact absurd (List.append_eq_nil_iff.1 last).1 some

/-- Only a packet that is due can have been begun. -/
theorem Tracks.inbound_eq (tracks : receiver.Tracks limit all pending final outbound ideal)
    (other : ∀ entropy payload rest, receiver.due ≠ .send entropy payload :: rest) :
    receiver.inbound = ideal := by
  cases tracks.stands with
  | same same => exact same
  | begun send alike => exact absurd send (other _ _ _)

/-- Nothing is left of the wire when nothing is due. -/
theorem Tracks.exhausted (tracks : receiver.Tracks limit all pending final outbound ideal)
    (none : receiver.due = []) :
    receiver.inbound = ideal ∧ ideal.opener.buffer = [] ∧ outbound = final := by
  have performed := tracks.performed
  rw [none] at performed
  have wire : (.ok [] outbound : EStateM.Result Error Outbound Bytes) = _ := performed
  injection wire with bytes state
  refine ⟨tracks.inbound_eq ?_, (List.append_eq_nil_iff.1 bytes.symm).1, state⟩
  intro entropy payload rest due
  rw [none] at due
  cases due

/-- A command that puts nothing on the wire is done once the receiver has followed it. -/
theorem Tracks.follow {command : Command} {rest : List Command} {after : Outbound}
    {followed : Inbound} (tracks : receiver.Tracks limit all pending final outbound ideal)
    (due : receiver.due = command :: rest) (silent : command.perform outbound = .ok [] after)
    (unpaid : Command.payloads (command :: rest) = Command.payloads rest) (ready : after.Ready)
    (follows : followed.Follows limit after)
    (buffer : followed.opener.buffer = ideal.opener.buffer) :
    OnTrack ⟨followed, rest, receiver.received⟩ limit all pending final := by
  obtain ⟨-, within, performed, -, -, complete⟩ := tracks
  rw [due] at within performed complete
  rw [unpaid] at complete
  refine ⟨after, followed, ready, within.2 _ _ silent, ?_, follows, .same rfl, complete⟩
  rw [buffer]
  exact Command.performAll_silent silent performed

/-- A receiver whose turn it is does what is due, or waits for bytes to arrive. -/
theorem move_turn (onTrack : receiver.OnTrack limit all pending final) :
    ∃ after, receiver.move .turn = .ok after ∧ after.OnTrack limit all pending final ∧
      (pending = [] → after.due = receiver.due.tail) := by
  obtain ⟨outbound, ideal, tracks⟩ := onTrack
  obtain ⟨inbound, due, received⟩ := receiver
  cases due with
  | nil =>
    obtain ⟨rfl, empty, -⟩ := tracks.exhausted rfl
    refine ⟨_, ?_, ⟨outbound, inbound, tracks⟩, fun _ => rfl⟩
    simp only [move, pull, tracks.follows.next_empty empty]
  | cons command rest =>
    cases command with
    | send entropy payload => exact pull_send tracks rfl
    | arm keys =>
      obtain rfl : inbound = ideal := tracks.inbound_eq nofun
      obtain ⟨after, hArm, ready, -, arming⟩ := Inbound.arm_follows outbound tracks.within.1
      obtain ⟨armed, hArmed, follows, buffer⟩ := arming tracks.follows
      have silent : (Command.arm keys).perform outbound = .ok [] after := by
        simp only [Command.perform, hArm]
      refine ⟨⟨armed, rest, received⟩, ?_, ?_, fun _ => rfl⟩
      · simp only [move, hArmed, bind, Except.bind, pure, Except.pure]
      · exact tracks.follow rfl silent rfl ready follows buffer
    | compress =>
      obtain rfl : inbound = ideal := tracks.inbound_eq nofun
      have ready : outbound.activateCompression.Ready := ⟨tracks.ready.framer, tracks.ready.encrypts⟩
      refine ⟨⟨inbound.activateCompression, rest, received⟩, rfl, ?_, fun _ => rfl⟩
      exact tracks.follow rfl rfl rfl ready tracks.follows.activate rfl

theorem run_cons (move : Move) (rest : List Move) :
    receiver.run (move :: rest) = (receiver.move move).bind fun after => after.run rest :=
  List.foldlM_cons

theorem run_append (first second : List Move) :
    receiver.run (first ++ second) = (receiver.run first).bind fun after => after.run second :=
  List.foldlM_append

/-- In whatever order bytes arrive and turns are taken. -/
theorem run_onTrack {moves : List Move}
    (onTrack : receiver.OnTrack limit all (Move.fed moves ++ pending) final) :
    ∃ after, receiver.run moves = .ok after ∧ after.OnTrack limit all pending final := by
  induction moves generalizing receiver with
  | nil => exact ⟨receiver, rfl, onTrack⟩
  | cons move rest ih =>
    cases move with
    | feed data =>
      rw [Move.fed, List.append_assoc] at onTrack
      obtain ⟨after, hMove, afterOnTrack⟩ := move_feed onTrack
      obtain ⟨last, hRun, lastOnTrack⟩ := ih afterOnTrack
      refine ⟨last, ?_, lastOnTrack⟩
      rw [run_cons, hMove]
      exact hRun
    | turn =>
      obtain ⟨after, hMove, afterOnTrack, -⟩ := move_turn onTrack
      obtain ⟨last, hRun, lastOnTrack⟩ := ih afterOnTrack
      refine ⟨last, ?_, lastOnTrack⟩
      rw [run_cons, hMove]
      exact hRun

/-- When all bytes have arrived, every turn does something that is due. -/
theorem run_turns (count : Nat) (onTrack : receiver.OnTrack limit all [] final) :
    ∃ after, receiver.run (List.replicate count .turn) = .ok after ∧
      after.OnTrack limit all [] final ∧ after.due = receiver.due.drop count := by
  induction count generalizing receiver with
  | zero => exact ⟨receiver, rfl, onTrack, rfl⟩
  | succ count ih =>
    obtain ⟨after, hMove, afterOnTrack, fewer⟩ := move_turn onTrack
    obtain ⟨last, hRun, lastOnTrack, due⟩ := ih afterOnTrack
    refine ⟨last, ?_, lastOnTrack, ?_⟩
    · rw [List.replicate_succ, run_cons, hMove]
      exact hRun
    · rw [due, fewer rfl, List.drop_tail]

theorem pull_due {after : Receiver} (h : receiver.pull = .ok after) :
    after.due.length ≤ receiver.due.length := by
  unfold pull at h
  split at h <;> cases h
  · exact Nat.le_refl _
  · rw [List.length_tail]
    exact Nat.sub_le ..

/-- What is due never grows. -/
theorem move_due {after : Receiver} {move : Move} (h : receiver.move move = .ok after) :
    after.due.length ≤ receiver.due.length := by
  cases move with
  | feed data =>
    cases h
    exact Nat.le_refl _
  | turn =>
    unfold Receiver.move at h
    split at h
    · contradiction
    · split at h
      · rename_i keys rest due
        cases armed : receiver.inbound.arm keys with
        | error error =>
          rw [armed] at h
          cases h
        | ok inbound =>
          rw [armed] at h
          cases h
          rw [due]
          exact Nat.le_succ _
      · rename_i rest due
        cases h
        rw [due]
        exact Nat.le_succ _
      · exact pull_due h

theorem run_due {after : Receiver} {moves : List Move} (h : receiver.run moves = .ok after) :
    after.due.length ≤ receiver.due.length := by
  induction moves generalizing receiver with
  | nil =>
    cases h
    exact Nat.le_refl _
  | cons move rest ih =>
    rw [run_cons] at h
    cases moved : receiver.move move with
    | error error =>
      rw [moved] at h
      cases h
    | ok between =>
      rw [moved] at h
      exact Nat.le_trans (ih h) (move_due moved)

theorem start_onTrack {commands : List Command} {wire : Bytes} (limit inflateBuffer : Nat)
    (within : Command.AllWithin limit commands {})
    (performed : Command.performAll commands {} = .ok wire final) :
    (start limit inflateBuffer commands).OnTrack limit (Command.payloads commands) wire final :=
  ⟨{}, .create limit inflateBuffer, Outbound.ready_fresh, within, performed,
    Inbound.create_follows limit inflateBuffer, .same rfl, rfl⟩

theorem OnTrack.exhausted (onTrack : receiver.OnTrack limit all [] final) (none : receiver.due = []) :
    receiver.received = all ∧ Inbound.next receiver.inbound = .ok .none receiver.inbound ∧
      receiver.inbound.buffered = 0 ∧ receiver.inbound.sequence = final.sequence := by
  obtain ⟨outbound, ideal, tracks⟩ := onTrack
  obtain ⟨rfl, empty, rfl⟩ := tracks.exhausted none
  have complete := tracks.complete
  rw [none, Command.payloads, List.append_nil] at complete
  refine ⟨complete, tracks.follows.next_empty empty, ?_, tracks.follows.opener.sequence⟩
  simp [Inbound.buffered, Opener.buffered, empty, tracks.follows.opener.free]

end Receiver

/-- Round trip. A fresh sender carries out any commands that it may be told: keys of the
lengths that are derived, and payloads that are, like the packets they are framed into, at
most as long as the receiver accepts. A fresh receiver then gets the payloads in order,
none lost, merged or doubled, wherever the bytes are cut and whenever it takes its turns:
as long as bytes are to come, what it has received and what is due make up what was sent,
and soon after the last of them it has received all, holds nothing back, and has counted
as many packets as the sender. -/
theorem received_of_performed (limit inflateBuffer : Nat) (commands : List Command)
    (within : Command.AllWithin limit commands {}) :
    ∃ wire final, Command.performAll commands {} = .ok wire final ∧
      final.sequence = UInt32.ofNat (Command.payloads commands).length ∧
      (∀ moves, Move.fed moves <+: wire → ∃ receiver,
        (Receiver.start limit inflateBuffer commands).run moves = .ok receiver ∧
          receiver.received ++ Command.payloads receiver.due = Command.payloads commands) ∧
      ∀ moves, Move.fed moves = wire → ∃ receiver,
        (Receiver.start limit inflateBuffer commands).run
            (moves ++ List.replicate commands.length .turn) = .ok receiver ∧
          receiver.received = Command.payloads commands ∧
          Inbound.next receiver.inbound = .ok none receiver.inbound ∧
          receiver.inbound.buffered = 0 ∧
          receiver.inbound.sequence = UInt32.ofNat (Command.payloads commands).length := by
  obtain ⟨wire, final, performed, sequence⟩ := Command.performAll_ok Outbound.ready_fresh within
  have counted : final.sequence = UInt32.ofNat (Command.payloads commands).length :=
    sequence.trans (UInt32.zero_add _)
  have onTrack := Receiver.start_onTrack limit inflateBuffer within performed
  refine ⟨wire, final, performed, counted, ?_, ?_⟩
  · rintro moves ⟨pending, rfl⟩
    obtain ⟨receiver, hRun, outbound, ideal, tracks⟩ := Receiver.run_onTrack onTrack
    exact ⟨receiver, hRun, tracks.complete⟩
  · rintro moves rfl
    rw [← List.append_nil (Move.fed moves)] at onTrack
    obtain ⟨heard, hHeard, heardOnTrack⟩ := Receiver.run_onTrack onTrack
    obtain ⟨receiver, hTurns, receiverOnTrack, due⟩ :=
      Receiver.run_turns commands.length heardOnTrack
    have followed : receiver.due = [] := by
      rw [due]
      exact List.drop_of_length_le (Receiver.run_due hHeard)
    obtain ⟨received, next, buffered, same⟩ := receiverOnTrack.exhausted followed
    refine ⟨receiver, ?_, received, next, buffered, same.trans counted⟩
    rw [Receiver.run_append, hHeard]
    exact hTurns

theorem send_compressor {entropy : Entropy} {payload wire : Bytes} {outbound after : Outbound}
    (h : Outbound.send entropy payload outbound = .ok wire after) :
    after.compressor = (outbound.compressor.compress payload).2 := by
  rw [Outbound.send_eq] at h
  obtain ⟨sealer, _, rfl⟩ := focus_eq_ok_iff.1 h
  rfl

theorem arm_compressor {keys : DirectionKeys} {wire : Bytes} {outbound after : Outbound}
    (h : (Command.arm keys).perform outbound = .ok wire after) :
    after.compressor = outbound.compressor := by
  simp only [Command.perform] at h
  split at h
  · rename_i armed hArm
    cases h
    obtain ⟨sealer, -, hArm⟩ := exceptBind_eq_ok_iff.1 hArm
    cases hArm
    rfl
  · cases h

def sampleKeys : DirectionKeys := .derive [1] [2] [3] .serverToClient .aes128Ctr .sha1

def sampleCommands : List Command :=
  [.send (.repeating [0]) [21], .arm sampleKeys, .compress, .send (.repeating [7]) [5, 5, 5, 5, 6]]

theorem sampleCommands_within : Command.AllWithin 1024 sampleCommands {} := by
  have fresh := Outbound.ready_fresh
  have sized : ∀ outbound, Command.Within 1024 outbound (.arm sampleKeys) :=
    fun _ => DirectionKeys.derive_sized ..
  have accepted : Command.Within 1024 {} (.send (.repeating [0]) [21]) :=
    fresh.accepts (by decide) (by decide) (by decide)
  refine ⟨accepted, ?_⟩
  intro _ first hFirst
  have firstReady := Command.perform_ready fresh accepted hFirst
  refine ⟨sized first, ?_⟩
  intro _ second hSecond
  have secondReady := Command.perform_ready firstReady (sized first) hSecond
  refine ⟨trivial, ?_⟩
  intro _ third hThird
  cases hThird
  have compressor : second.compressor = {} := by
    rw [arm_compressor hSecond, send_compressor hFirst]
    rfl
  have short : ((Compressor.activate {}).compress [5, 5, 5, 5, 6]).1.length + 20 ≤ 1024 := by
    decide +kernel
  refine ⟨Outbound.Ready.accepts ⟨secondReady.framer, secondReady.encrypts⟩ (by decide) ?_ (by decide),
    fun _ _ _ => trivial⟩
  simp only [Outbound.activateCompression, compressor]
  exact short

/-- Two payloads come through, although keys and compression change between them. -/
theorem received_of_performed_sample :
    ∃ wire final, Command.performAll sampleCommands {} = .ok wire final ∧ final.sequence = 2 ∧
      ∀ moves, Move.fed moves = wire → ∃ receiver,
        (Receiver.start 1024 64 sampleCommands).run (moves ++ List.replicate 4 .turn) = .ok receiver ∧
          receiver.received = [[21], [5, 5, 5, 5, 6]] ∧ receiver.inbound.buffered = 0 := by
  obtain ⟨wire, final, performed, sequence, -, receives⟩ :=
    received_of_performed 1024 64 sampleCommands sampleCommands_within
  refine ⟨wire, final, performed, sequence, fun moves fed => ?_⟩
  obtain ⟨receiver, hRun, received, -, buffered, -⟩ := receives moves fed
  exact ⟨receiver, hRun, received, buffered⟩

end SecureShell.Pipeline
