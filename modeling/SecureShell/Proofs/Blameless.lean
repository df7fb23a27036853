import SecureShell.Proofs.Ordinary
import SecureShell.Proofs.Pipeline.Unpacking

/-! Who complains that a packet was changed on its way: nobody but the check of its tag.
Reading a message, looking at what it says and unpacking a packet fail for other reasons
only. -/
namespace SecureShell

variable {α σ : Type}

/-- A computation that never complains that a packet was changed. -/
def Blameless (run : EStateM Error σ α) : Prop :=
  ∀ s error after, run s = .error error after → ¬ error.Tampered

theorem Inbound.unpack_blameless (packet : Bytes) : Blameless (Inbound.unpack packet) := by
  refine (Inbound.unpack_raises packet).mono ?_
  rintro error (ordinary | rfl)
  · exact ordinary.untampered
  · rintro ⟨fault, other⟩
    cases other

theorem LineReader.feed_blameless (data : Bytes) : Blameless (LineReader.feed data) :=
  (LineReader.feed_raises data).mono fun _ ordinary => ordinary.untampered

end SecureShell
