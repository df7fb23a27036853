import SecureShell.Zlib.Inflater
import SecureShell.Proofs.Zlib.Stepping

/-! Inflating by the piece gives the output of the decoder and takes all of its input,
however large the pieces and wherever the windows end. The invariant is that the bits
not yet taken lead the decoder to the same end, which may be an error as well. -/
namespace SecureShell.Zlib

namespace Decoder

variable {d after : Decoder}

def Grows (d after : Decoder) : Prop := d.output.toList <+: after.output.toList

theorem Grows.refl : d.Grows d := List.prefix_refl _

theorem Grows.trans {last : Decoder} (first : d.Grows after) (second : after.Grows last) :
    d.Grows last := List.IsPrefix.trans first second

theorem grows_write (b : UInt8) : d.Grows (d.write b) := by
  simp [Grows, write]

theorem grows_copy (distance length : Nat) : d.Grows (d.copy distance length) := by
  induction length generalizing d with
  | zero => exact .refl
  | succ n ih => exact (grows_write _).trans ih

theorem output_nextBlock : d.nextBlock.output = d.output := by
  unfold nextBlock
  split <;> rfl

theorem output_nextStored (left : Nat) : (d.nextStored left).output = d.output := by
  unfold nextStored
  split
  · exact output_nextBlock
  · rfl

theorem output_nextCodeLength (sizes : TableSizes) (code : PrefixCode) (lengths : List Nat) :
    (d.nextCodeLength sizes code lengths).output = d.output := by
  unfold nextCodeLength
  dsimp only
  split
  · rfl
  · split
    · rfl
    · split <;> rfl

theorem output_nextMetaLength (sizes : TableSizes) (left : Nat) (lengths : List Nat) :
    (d.nextMetaLength sizes left lengths).output = d.output := by
  unfold nextMetaLength
  dsimp only
  split
  · rfl
  · split
    · exact output_nextCodeLength ..
    · rfl

theorem output_startBlock (header : Nat) : (d.startBlock header).output = d.output := by
  unfold startBlock
  dsimp only
  split <;> rfl

theorem grows_of_output (same : after.output = d.output) : d.Grows after := by
  simp only [Grows, same, List.prefix_refl]

theorem grows_takeNumber (what : Number) (value : Nat) : d.Grows (d.takeNumber what value) := by
  cases what with
  | streamHeader =>
    rw [takeNumber]
    split
    · exact grows_of_output output_nextBlock
    · exact .refl
  | blockHeader => exact grows_of_output (output_startBlock value)
  | storedSize skipped =>
    rw [takeNumber]
    split
    · exact grows_of_output (output_nextStored _)
    · exact .refl
  | storedByte left => exact (grows_write _).trans (grows_of_output (output_nextStored _))
  | tableSizes =>
    rw [takeNumber]
    split
    · exact grows_of_output (output_nextMetaLength ..)
    · exact .refl
  | metaLength sizes left lengths =>
    rw [takeNumber]
    exact grows_of_output (output_nextMetaLength ..)
  | repetition sizes code lengths length least => exact grows_of_output (output_nextCodeLength ..)
  | lengthExtra codes least => exact .refl
  | distanceExtra codes length least => exact grows_copy ..
  | checksum skipped =>
    rw [takeNumber]
    split <;> exact .refl

theorem grows_takeSymbol (what : Word) (symbol : Nat) : d.Grows (d.takeSymbol what symbol) := by
  cases what with
  | codeLength sizes code lengths =>
    unfold takeSymbol
    dsimp only
    split <;> first | exact .refl | exact grows_of_output (output_nextCodeLength ..)
  | literal codes =>
    rw [takeSymbol]
    split
    · exact grows_write _
    · split
      · exact grows_of_output output_nextBlock
      · split <;> exact .refl
  | distance codes length =>
    rw [takeSymbol]
    split <;> first | exact .refl | exact grows_copy ..

theorem grows_step (bit : Bool) : d.Grows (d.step bit) := by
  have moved : d.Grows (d.skip 1) := .refl
  unfold step
  dsimp only
  split
  · split
    · exact .refl
    · exact moved.trans (grows_takeNumber ..)
  · split
    · exact moved.trans (grows_takeSymbol ..)
    · exact .refl
    · exact .refl
  · exact .refl
  · exact .refl

theorem Grows.size_le (grows : d.Grows after) : d.output.size ≤ after.output.size :=
  grows.length_le

def Live (d : Decoder) : Prop := d.isFinished = false ∧ d.isCorrupt = false

theorem live_of_step {bit : Bool} (live : (d.step bit).Live) : d.Live := by
  obtain ⟨stage, position, lastBlock, output⟩ := d
  cases stage with
  | number what width got value => exact ⟨rfl, rfl⟩
  | word what below => exact ⟨rfl, rfl⟩
  | finished => exact live
  | corrupt => exact live

/-- There is no way back from the end of a stream, nor from an error. -/
theorem live_of_steps (bits : List Bool) (live : (d.steps bits).Live) : d.Live := by
  induction bits generalizing d with
  | nil => exact live
  | cons bit rest ih => exact live_of_step (ih live)

/-- Takes bits until the stream has ended or is found to be corrupt, or none are left, and
gives back the others. -/
def exhaust (d : Decoder) : List Bool → Decoder × List Bool
  | [] => (d, [])
  | bit :: rest =>
    if d.isFinished || d.isCorrupt then (d, bit :: rest) else (d.step bit).exhaust rest

theorem exhaust_stopped (stopped : d.isFinished = true ∨ d.isCorrupt = true) (bits : List Bool) :
    d.exhaust bits = (d, bits) := by
  cases bits with
  | nil => rfl
  | cons bit rest => rw [exhaust, if_pos (by simpa using stopped)]

theorem exhaust_step (live : d.Live) (bit : Bool) (rest : List Bool) :
    d.exhaust (bit :: rest) = (d.step bit).exhaust rest := by
  rw [exhaust, live.1, live.2]
  rfl

theorem stopped_or_live (d : Decoder) : (d.isFinished = true ∨ d.isCorrupt = true) ∨ d.Live := by
  unfold Live
  cases d.isFinished <;> cases d.isCorrupt <;> simp

theorem exhaust_of_live (bits : List Bool) (live : (d.steps bits).Live) :
    d.exhaust bits = (d.steps bits, []) := by
  induction bits generalizing d with
  | nil => rfl
  | cons bit rest ih =>
    have here : d.Live := live_of_steps (bit :: rest) live
    rw [exhaust_step here]
    exact ih live

theorem grows_exhaust (bits : List Bool) : d.Grows (d.exhaust bits).1 := by
  induction bits generalizing d with
  | nil => exact .refl
  | cons bit rest ih =>
    rcases d.stopped_or_live with stopped | live
    · rw [exhaust_stopped stopped]
      exact .refl
    · rw [exhaust_step live]
      exact (grows_step bit).trans ih

/-- The bits `taken`, in front of whatever others, lead to the same as they do from `after`. -/
def Leads (d : Decoder) (taken : List Bool) (after : Decoder) : Prop :=
  ∀ more, d.exhaust (taken ++ more) = after.exhaust more

theorem Leads.refl : d.Leads [] d := fun _ => rfl

theorem Leads.trans {first second : List Bool} {last : Decoder} (one : d.Leads first after)
    (two : after.Leads second last) : d.Leads (first ++ second) last := by
  intro more
  rw [List.append_assoc, one, two]

theorem halted_of_stopped (room : Nat) (stopped : d.isFinished = true ∨ d.isCorrupt = true) :
    d.halted room = true := by
  obtain ⟨stage, position, lastBlock, output⟩ := d
  cases stage with
  | number => rcases stopped with no | no <;> cases no
  | word => rcases stopped with no | no <;> cases no
  | finished => rfl
  | corrupt => rfl

theorem run_stopped (room : Nat) (bits : List Bool)
    (stopped : d.isFinished = true ∨ d.isCorrupt = true) : d.run room bits = (d, bits) := by
  cases bits with
  | nil => rfl
  | cons bit rest => rw [run, if_pos (halted_of_stopped room stopped)]

/-- What a run takes are steps that end nothing but with the last one; it stops early only
where output may not grow. -/
theorem run_spec (room : Nat) (bits : List Bool) :
    ∃ taken, bits = taken ++ (d.run room bits).2 ∧ d.Leads taken (d.run room bits).1 ∧
      d.Grows (d.run room bits).1 ∧
      ((d.run room bits).2 = [] ∨ (d.run room bits).1.halted room = true) := by
  induction bits generalizing d with
  | nil => exact ⟨[], rfl, .refl, .refl, .inl rfl⟩
  | cons bit rest ih =>
    rw [run]
    split
    · rename_i halted
      exact ⟨[], rfl, .refl, .refl, .inr halted⟩
    · rename_i runs
      have live : d.Live := by
        rcases d.stopped_or_live with stopped | live
        · exact absurd (halted_of_stopped room stopped) runs
        · exact live
      obtain ⟨taken, split, leads, grows, stopped⟩ := ih (d := d.step bit)
      refine ⟨bit :: taken, congrArg (bit :: ·) split, ?_, (grows_step bit).trans grows, stopped⟩
      intro more
      rw [List.cons_append, exhaust_step live]
      exact leads more

theorem room_le_of_halted {room : Nat} (live : d.Live) (stops : d.halted room = true) :
    room ≤ d.output.size := by
  obtain ⟨stage, position, lastBlock, output⟩ := d
  unfold halted at stops
  split at stops
  · rename_i finished
    cases finished
    cases live.1
  · rename_i corrupt
    cases corrupt
    cases live.2
  · exact of_decide_eq_true stops
  · exact Nat.le_of_lt (of_decide_eq_true stops)

section Finishing

theorem nextBlock_unfinished : d.nextBlock.isFinished = false := by
  unfold nextBlock
  split <;> rfl

theorem nextStored_unfinished (left : Nat) : (d.nextStored left).isFinished = false := by
  unfold nextStored
  split
  · exact nextBlock_unfinished
  · rfl

theorem nextCodeLength_unfinished (sizes : TableSizes) (code : PrefixCode) (lengths : List Nat) :
    (d.nextCodeLength sizes code lengths).isFinished = false := by
  unfold nextCodeLength
  dsimp only
  split
  · rfl
  · split
    · rfl
    · split <;> rfl

theorem nextMetaLength_unfinished (sizes : TableSizes) (left : Nat) (lengths : List Nat) :
    (d.nextMetaLength sizes left lengths).isFinished = false := by
  unfold nextMetaLength
  dsimp only
  split
  · rfl
  · split
    · exact nextCodeLength_unfinished ..
    · rfl

theorem startBlock_unfinished (header : Nat) : (d.startBlock header).isFinished = false := by
  unfold startBlock
  dsimp only
  split <;> rfl

theorem takeSymbol_unfinished (what : Word) (symbol : Nat) :
    (d.takeSymbol what symbol).isFinished = false := by
  cases what with
  | codeLength sizes code lengths =>
    unfold takeSymbol
    dsimp only
    split <;> first | rfl | exact nextCodeLength_unfinished ..
  | literal codes =>
    rw [takeSymbol]
    split
    · rfl
    · split
      · exact nextBlock_unfinished
      · split <;> rfl
  | distance codes length =>
    rw [takeSymbol]
    split <;> rfl

/-- Only the checksum ends a stream, and it writes nothing. -/
theorem takeNumber_finished {what : Number} {value : Nat}
    (finished : (d.takeNumber what value).isFinished = true) :
    (∃ skipped, what = .checksum skipped) ∧ (d.takeNumber what value).output = d.output := by
  have never {after : Decoder} (unfinished : after.isFinished = false)
      (finished : after.isFinished = true) : False := by
    rw [unfinished] at finished
    cases finished
  cases what with
  | checksum skipped =>
    refine ⟨⟨skipped, rfl⟩, ?_⟩
    rw [takeNumber]
    split <;> rfl
  | streamHeader =>
    rw [takeNumber] at finished
    split at finished
    · exact (never nextBlock_unfinished finished).elim
    · cases finished
  | blockHeader => exact (never (startBlock_unfinished value) finished).elim
  | storedSize skipped =>
    rw [takeNumber] at finished
    split at finished
    · exact (never (nextStored_unfinished _) finished).elim
    · cases finished
  | storedByte left => exact (never (nextStored_unfinished _) finished).elim
  | tableSizes =>
    rw [takeNumber] at finished
    split at finished
    · exact (never (nextMetaLength_unfinished ..) finished).elim
    · cases finished
  | metaLength sizes left lengths => exact (never (nextMetaLength_unfinished ..) finished).elim
  | repetition sizes code lengths length least =>
    exact (never (nextCodeLength_unfinished ..) finished).elim
  | lengthExtra codes least => cases finished
  | distanceExtra codes length least => cases finished

/-- A step that ends the stream writes nothing, and is not taken behind the window. -/
theorem step_finished {room : Nat} {bit : Bool} (runs : ¬ d.halted room = true)
    (finished : (d.step bit).isFinished = true) : (d.step bit).output.size ≤ room := by
  obtain ⟨stage, position, lastBlock, output⟩ := d
  cases stage with
  | number what width got value =>
    unfold step at finished ⊢
    dsimp only at finished ⊢
    split at finished
    · cases finished
    · rename_i last
      rw [if_neg last]
      obtain ⟨⟨skipped, rfl⟩, same⟩ := takeNumber_finished finished
      rw [same]
      simpa [halted] using runs
  | word what below =>
    unfold step at finished
    dsimp only at finished
    split at finished
    · rw [takeSymbol_unfinished] at finished
      cases finished
    · cases finished
    · cases finished
  | finished => exact absurd rfl runs
  | corrupt => exact absurd rfl runs

/-- Where a run finds the end of the stream, all output is within the window. -/
theorem run_finished (room : Nat) (bits : List Bool) (live : d.Live)
    (finished : (d.run room bits).1.isFinished = true) : (d.run room bits).1.output.size ≤ room := by
  induction bits generalizing d with
  | nil =>
    rw [run, live.1] at finished
    cases finished
  | cons bit rest ih =>
    rw [run] at finished ⊢
    split at finished
    · rw [live.1] at finished
      cases finished
    · rename_i runs
      rw [if_neg runs]
      rcases (d.step bit).stopped_or_live with stopped | live
      · rw [run_stopped room rest stopped] at finished ⊢
        exact step_finished runs finished
      · exact ih live finished

end Finishing

end Decoder

namespace Inflater

variable {i after : Inflater} {bits rest taken : List Bool} {last : Decoder}

/-- No more has been delivered than released, nor more released than decoded; at the end of
the stream everything has been released. -/
structure Sound (i : Inflater) : Prop where
  delivered : i.delivered ≤ i.released
  released : i.released ≤ i.decoder.output.size
  complete : i.decoder.isFinished = true → i.released = i.decoder.output.size

def ahead (i : Inflater) (last : Decoder) : Bytes := last.output.toList.drop i.delivered

def atEnd (last : Decoder) : Inflater := ⟨last, last.output.size, last.output.size⟩

theorem atEnd_sound (last : Decoder) : (atEnd last).Sound :=
  ⟨Nat.le_refl _, Nat.le_refl _, fun _ => rfl⟩

/-- Bits have been taken and bytes delivered, the next ones of whatever comes out in the end. -/
structure Gives (i : Inflater) (taken : List Bool) (bytes : Bytes) (after : Inflater) : Prop where
  leads : i.decoder.Leads taken after.decoder
  grows : i.decoder.Grows after.decoder
  sound : after.Sound
  delivered : after.delivered = i.delivered + bytes.length
  ahead : ∀ last, after.decoder.Grows last → i.ahead last = bytes ++ after.ahead last

theorem Gives.trans {first second : List Bool} {bytes more : Bytes} {last : Inflater}
    (one : i.Gives first bytes after) (two : after.Gives second more last) :
    i.Gives (first ++ second) (bytes ++ more) last where
  leads := one.leads.trans two.leads
  grows := one.grows.trans two.grows
  sound := two.sound
  delivered := by rw [two.delivered, one.delivered, List.length_append, Nat.add_assoc]
  ahead decoder grown := by
    rw [one.ahead decoder (two.grows.trans grown), two.ahead decoder grown, List.append_assoc]

/-- All there was has been released: no bits are left, or the stream has ended. -/
structure Settled (i : Inflater) (rest : List Bool) : Prop where
  released : i.released = i.decoder.output.size
  healthy : i.decoder.isCorrupt = false
  done : rest = [] ∨ i.decoder.isFinished = true

theorem Settled.exhaust (settled : i.Settled rest) : i.decoder.exhaust rest = (i.decoder, rest) := by
  rcases settled.done with rfl | finished
  · rfl
  · exact Decoder.exhaust_stopped (.inl finished) rest

theorem Sound.settled_of_ended (sound : i.Sound) (ended : i.ended = true) (rest : List Bool) :
    i.delivered = i.released ∧ i.Settled rest := by
  simp only [Inflater.ended, Bool.and_eq_true, beq_iff_eq] at ended
  obtain ⟨finished, caughtUp⟩ := ended
  refine ⟨caughtUp, sound.complete finished, ?_, .inr finished⟩
  cases i with
  | mk decoder released delivered =>
    cases decoder with
    | mk stage position lastBlock output => cases stage <;> first | rfl | cases finished

/-- Decoding up to the end of a window releases something, unless there is an error in it or
nothing was left. -/
theorem Sound.advance (sound : i.Sound) (bits : List Bool) :
    ∃ after rest taken, i.advance bits = (after, rest) ∧ bits = taken ++ rest ∧
      i.Gives taken [] after ∧
      (i.released < after.released ∨ after.decoder.isCorrupt = true ∨ after.Settled rest) := by
  obtain ⟨taken, split, leads, grows, stopped⟩ :=
    Decoder.run_spec (d := i.decoder) ((i.released / windowSize + 1) * windowSize) bits
  have window : i.released < (i.released / windowSize + 1) * windowSize := by
    rw [windowSize]
    omega
  have ending := Decoder.run_finished (d := i.decoder) ((i.released / windowSize + 1) * windowSize) bits
  have still := Decoder.run_stopped (d := i.decoder) ((i.released / windowSize + 1) * windowSize) bits
  refine ⟨_, _, taken, rfl, split, ?_⟩
  generalize (i.released / windowSize + 1) * windowSize = room at *
  generalize i.decoder.run room bits = ran at *
  obtain ⟨decoder, rest⟩ := ran
  dsimp only at split leads grows stopped ending still ⊢
  obtain ⟨delivered, released, complete⟩ := sound
  have grown : i.decoder.output.size ≤ decoder.output.size := grows.size_le
  have finish (finished : decoder.isFinished = true) :
      min decoder.output.size room = decoder.output.size := by
    rcases i.decoder.stopped_or_live with stopped | live
    · obtain ⟨rfl, -⟩ := Prod.mk.inj (still stopped)
      have := complete finished
      omega
    · exact Nat.min_eq_left (ending live finished)
  refine ⟨⟨leads, grows, ⟨?_, Nat.min_le_left .., finish⟩, rfl, fun last _ => rfl⟩, ?_⟩
  · dsimp only
    omega
  · -- a run ends where the bits end or the stream does, or where the output has filled the window
    cases corrupt : decoder.isCorrupt with
    | true => exact .inr (.inl rfl)
    | false =>
      cases finished : decoder.isFinished with
      | true => exact .inr (.inr ⟨finish finished, corrupt, .inr finished⟩)
      | false =>
        rcases stopped with rfl | halted
        · by_cases all : decoder.output.size ≤ i.released
          · have full : min decoder.output.size room = decoder.output.size := by omega
            exact .inr (.inr ⟨full, corrupt, .inl rfl⟩)
          · exact .inl (by omega)
        · have := Decoder.room_le_of_halted ⟨finished, corrupt⟩ halted
          exact .inl (by omega)

/-- What is delivered is the next piece of the output, as much as has been released. -/
theorem Sound.deliver (sound : i.Sound) (space : Nat) :
    ∃ bytes after, i.deliver space = (bytes, after) ∧ i.Gives [] bytes after ∧
      after.decoder = i.decoder ∧ after.released = i.released ∧
      bytes.length = min space (i.released - i.delivered) := by
  obtain ⟨delivered, released, complete⟩ := sound
  have length : (i.decoder.output.extract i.delivered
      (i.delivered + min space (i.released - i.delivered))).toList.length =
      min space (i.released - i.delivered) := by
    rw [Array.length_toList, Array.size_extract]
    omega
  refine ⟨_, _, rfl, ⟨.refl, .refl, ⟨?_, released, complete⟩, ?_, ?_⟩, rfl, rfl, length⟩
  · dsimp only
    omega
  · rw [length]
  · rintro last ⟨more, whole⟩
    replace whole : i.decoder.output.toList ++ more = last.output.toList := whole
    have piece : (i.decoder.output.extract i.delivered
        (i.delivered + min space (i.released - i.delivered))).toList =
        (last.output.toList.drop i.delivered).take (min space (i.released - i.delivered)) := by
      rw [Array.toList_extract, List.extract_eq_take_drop, Nat.add_sub_cancel_left, ← whole,
        List.drop_append_of_le_length (by rw [Array.length_toList]; omega),
        List.take_append_of_le_length (by rw [List.length_drop, Array.length_toList]; omega)]
    rw [piece, ahead, ahead, ← List.drop_drop, List.take_append_drop]

/-- What a call that decodes may give: nothing only for a corrupt stream, and no bytes only
if all there was has been delivered. -/
def Filled (i : Inflater) (bits : List Bool) (done : Bytes) :
    Option (Bytes × Inflater × List Bool) → Prop
  | none => (i.decoder.exhaust bits).1.isCorrupt = true
  | some (given, after, rest) => ∃ taken bytes, given = done ++ bytes ∧ bits = taken ++ rest ∧
      i.Gives taken bytes after ∧
      (bytes = [] → after.delivered = after.released ∧ after.Settled rest)

theorem Sound.fill {space : Nat} (sound : i.Sound) (caughtUp : i.delivered = i.released)
    (pos : 0 < space) (done : Bytes) (bits : List Bool) :
    i.Filled bits done (i.fill space done bits) := by
  -- each turn of the loop delivers a byte, or finds that there is none
  induction space using Nat.strongRecOn generalizing i bits done with
  | _ space ih =>
    obtain ⟨advanced, rest, taken, hAdvance, split, advances, progress⟩ := sound.advance bits
    obtain ⟨bytes, after, hDeliver, delivers, sameDecoder, sameReleased, length⟩ :=
      advances.sound.deliver space
    have gives : i.Gives taken bytes after := by
      have both := advances.trans delivers
      rwa [List.append_nil, List.nil_append] at both
    rw [fill, hAdvance]
    cases corrupt : advanced.decoder.isCorrupt with
    | true =>
      simp only [corrupt, if_true]
      rw [Filled, split, advances.leads rest, Decoder.exhaust_stopped (.inr corrupt)]
      exact corrupt
    | false =>
      simp only [hDeliver, corrupt, Bool.false_eq_true, if_false]
      split
      · refine ⟨taken, bytes, rfl, split, gives, ?_⟩
        rintro rfl
        have moved := gives.delivered
        have released := advances.sound.delivered
        have same := advances.delivered
        rw [List.length_nil] at length moved same
        rcases progress with more | broken | settled
        · omega
        · rw [corrupt] at broken
          cases broken
        · refine ⟨by omega, ?_, ?_, ?_⟩
          · rw [sameReleased, sameDecoder, settled.released]
          · rw [sameDecoder, settled.healthy]
          · rw [sameDecoder]
            exact settled.done
      · rename_i goesOn
        have filled := ih (space - bytes.length) (by omega) gives.sound
          (by have := gives.sound.delivered; omega) (by omega) (done ++ bytes) rest
        cases result : after.fill (space - bytes.length) (done ++ bytes) rest with
        | none =>
          rw [result] at filled
          rw [Filled, split, gives.leads rest]
          exact filled
        | some given =>
          obtain ⟨given, final, left⟩ := given
          rw [result] at filled
          obtain ⟨next, more, rfl, rfl, moreGives, ended⟩ := filled
          refine ⟨taken ++ next, bytes ++ more, ?_, ?_, gives.trans moreGives, ?_⟩
          · rw [List.append_assoc]
          · rw [split, List.append_assoc]
          · intro none
            exact ended (List.append_eq_nil_iff.1 none).2

end Inflater

end SecureShell.Zlib
