import SecureShell.Focus

/-! What a computation leaves behind, in success and in failure alike: a failure keeps
the changes that were made before it. A statement about a sequence of steps is put
together from statements about the steps. -/
namespace SecureShell

variable {ε σ α β : Type}

/-- An outcome with a property of the value and the state, or of the state after a failure. -/
def Leaves (success : α → σ → Prop) (failure : σ → Prop) : EStateM.Result ε σ α → Prop
  | .ok a s => success a s
  | .error _ s => failure s

namespace Leaves

variable {success : α → σ → Prop} {failure : σ → Prop} {s : σ}

theorem bind {first : EStateM ε σ β} {rest : β → EStateM ε σ α}
    (h : Leaves (fun b t => Leaves success failure (rest b t)) failure (first s)) :
    Leaves success failure ((first >>= rest) s) := by
  simp only [bind_apply]
  cases taken : first s with
  | ok b t =>
    rw [taken] at h
    exact h
  | error e t =>
    rw [taken] at h
    exact h

theorem get {rest : σ → EStateM ε σ α} (h : Leaves success failure (rest s s)) :
    Leaves success failure ((MonadState.get >>= rest) s) := h

theorem modify {f : σ → σ} {rest : PUnit → EStateM ε σ α}
    (h : Leaves success failure (rest ⟨⟩ (f s))) :
    Leaves success failure ((modify f >>= rest) s) := h

theorem set {t : σ} {rest : PUnit → EStateM ε σ α} (h : Leaves success failure (rest ⟨⟩ t)) :
    Leaves success failure ((MonadStateOf.set t >>= rest) s) := h

theorem ite {c : Prop} [Decidable c] {first second : EStateM ε σ α}
    (hTrue : c → Leaves success failure (first s))
    (hFalse : ¬ c → Leaves success failure (second s)) :
    Leaves success failure ((if c then first else second) s) := by
  split
  · exact hTrue ‹_›
  · exact hFalse ‹_›

theorem imp {success' : α → σ → Prop} {failure' : σ → Prop} {result : EStateM.Result ε σ α}
    (h : Leaves success failure result) (hSuccess : ∀ a s, success a s → success' a s)
    (hFailure : ∀ s, failure s → failure' s) : Leaves success' failure' result := by
  cases result with
  | ok a s => exact hSuccess a s h
  | error e s => exact hFailure s h

end Leaves

end SecureShell
