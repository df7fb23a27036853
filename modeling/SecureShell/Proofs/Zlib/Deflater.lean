import SecureShell.Zlib.Deflater
import SecureShell.Proofs.Zlib.Inflater

/-! Collecting the output of a deflate stream comes to an end, with everything that was
given to the stream decodable from what it has written. -/
namespace SecureShell.Zlib

/-- A decoder makes `data` of what has been written so far, and waits for more. -/
def Decodes (written data : Bytes) : Prop :=
  (Decoder.steps {} (toBits written)).Live ∧
    (Decoder.steps {} (toBits written)).output.toList = data

namespace Deflater

variable {deflater : Deflater}

/-- A state that calls lead to, with the bytes that they took and those that they wrote. -/
inductive History (deflater : Deflater) : (given written : Bytes) → deflater.State → Prop
  | fresh : History deflater [] [] deflater.fresh
  | flush {given written data : Bytes} {space : Nat} {before after : deflater.State}
      {flushed : Flushed} : History deflater given written before →
      deflater.flush data space before = .ok flushed after →
      History deflater (given ++ data.take flushed.taken) (written ++ flushed.written) after

/-- What is known of a deflate stream that does not fail: as long as it gets room it makes
progress, and a flush that is complete has made all data decodable. -/
structure Lawful (deflater : Deflater) : Prop where
  works : ∀ {given written state} data space, History deflater given written state →
    0 < space → ∃ flushed after, deflater.flush data space state = .ok flushed after
  decodable : ∀ {given written data space before flushed after},
    History deflater given written before →
      deflater.flush data space before = .ok flushed after →
      flushed.written.length < space → Decodes (written ++ flushed.written) (given ++ data)

theorem collect_flush (growth : Growth) {state after : deflater.State} {data out : Bytes}
    {capacity : Nat} {flushed : Flushed}
    (called : deflater.flush data (capacity - out.length) state = .ok flushed after) :
    deflater.collect growth state data out capacity =
      if data.drop flushed.taken = [] ∧ (out ++ flushed.written).length < capacity then
        .ok (out ++ flushed.written) after
      else
        deflater.collect growth after (data.drop flushed.taken) (out ++ flushed.written)
          (growth.reserve (out ++ flushed.written).length capacity (max capacity 256)) := by
  rw [collect]
  split
  · rename_i failed
    cases called.symm.trans failed
  · rename_i again
    cases called.symm.trans again
    simp only [dite_eq_ite]

/-- With enough calls the flush is complete. -/
theorem collect_ok (lawful : deflater.Lawful) (growth : Growth) {state : deflater.State}
    {given written out : Bytes} {capacity : Nat} (history : History deflater given written state)
    (data : Bytes) (room : out.length < capacity) :
    ∃ more after, deflater.collect growth state data out capacity = .ok (out ++ more) after ∧
      History deflater (given ++ data) (written ++ more) after ∧
      Decodes (written ++ more) (given ++ data) := by
  induction left : deflater.remaining state data out capacity using Nat.strongRecOn
    generalizing state given written data out capacity with
  | _ _ ih =>
    subst left
    obtain ⟨flushed, after, called⟩ := lawful.works data (capacity - out.length) history (by omega)
    have grown := history.flush called
    rw [collect_flush growth called]
    by_cases complete : flushed.written.length < capacity - out.length
    · have all := deflater.takes called complete
      rw [List.take_of_length_le all] at grown
      refine ⟨flushed.written, after, ?_, grown, lawful.decodable history called complete⟩
      rw [if_pos ⟨List.drop_of_length_le all, by rw [List.length_append]; omega⟩]
    · have unfinished : ¬(data.drop flushed.taken = [] ∧
          flushed.written.length < capacity - out.length) := fun ends => complete ends.2
      have full : (out ++ flushed.written).length = capacity := by
        rw [List.length_append, (fills called unfinished).1]
        omega
      have more := reserve_full growth (Nat.le_of_eq full.symm)
      obtain ⟨others, last, collected, reached, decodes⟩ :=
        ih _ (remaining_lt growth called unfinished) grown _ (by omega) rfl
      rw [List.append_assoc, List.append_assoc, List.take_append_drop] at reached decodes
      rw [if_neg (by omega)]
      exact ⟨flushed.written ++ others, last, by rw [collected, List.append_assoc], reached, decodes⟩

end Deflater

end SecureShell.Zlib
