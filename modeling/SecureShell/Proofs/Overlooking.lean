import SecureShell.Focus

/-! Computations that do not notice a change of the state: they give the same
result before it and after it, and leave the change in place. Whatever is composed
of such computations is one itself. Where a computation looks at the state, what it does
then is compared from there on. -/
namespace SecureShell

variable {ε σ τ α β : Type}

/-- The outcome of a computation with its state changed. -/
def mapState (f : σ → σ) : EStateM.Result ε σ α → EStateM.Result ε σ α
  | .ok a s => .ok a (f s)
  | .error e s => .error e (f s)

/-- From one state, a computation does what another does from the changed state. -/
def Mirrors (f : σ → σ) (s : σ) (run run' : EStateM ε σ α) : Prop :=
  run' (f s) = mapState f (run s)

namespace Mirrors

variable {f : σ → σ} {s : σ}

theorem pure (a : α) : Mirrors f s (pure a : EStateM ε σ α) (pure a) := rfl

theorem throw (e : ε) : Mirrors f s (throw e : EStateM ε σ α) (throw e) := rfl

/-- What follows is compared in the states that the first computation leads to. -/
theorem bind {first first' : EStateM ε σ α} {rest rest' : α → EStateM ε σ β}
    (hFirst : Mirrors f s first first')
    (hRest : ∀ a t, first s = .ok a t → Mirrors f t (rest a) (rest' a)) :
    Mirrors f s (first >>= rest) (first' >>= rest') := by
  rw [Mirrors] at hFirst ⊢
  simp only [bind_apply]
  cases taken : first s with
  | ok a t =>
    rw [taken] at hFirst
    simp only [hFirst, mapState]
    exact hRest a t taken
  | error e t =>
    rw [taken] at hFirst
    simp only [hFirst, mapState]

theorem get {rest rest' : σ → EStateM ε σ α} (h : Mirrors f s (rest s) (rest' (f s))) :
    Mirrors f s (MonadState.get >>= rest) (MonadState.get >>= rest') := h

theorem set {t t' : σ} {rest rest' : PUnit → EStateM ε σ α} (same : t' = f t)
    (h : Mirrors f t (rest ⟨⟩) (rest' ⟨⟩)) :
    Mirrors f s (MonadState.set t >>= rest) (MonadState.set t' >>= rest') := by
  subst same
  exact h

theorem ite {c : Prop} [Decidable c] {first first' second second' : EStateM ε σ α}
    (hTrue : Mirrors f s first first') (hFalse : Mirrors f s second second') :
    Mirrors f s (if c then first else second) (if c then first' else second') := by
  split
  · exact hTrue
  · exact hFalse

theorem focus {g : τ → τ} {get : σ → τ} {put : τ → σ → σ} {run run' : EStateM ε τ α}
    (part : get (f s) = g (get s)) (commutes : ∀ t, put (g t) (f s) = f (put t s))
    (h : Mirrors g (get s) run run') :
    Mirrors f s (focus get put run) (SecureShell.focus get put run') := by
  rw [Mirrors] at h ⊢
  simp only [SecureShell.focus, part, h]
  cases run (get s) <;> simp only [mapState, commutes]

end Mirrors

def Overlooks (f : σ → σ) (run : EStateM ε σ α) : Prop :=
  ∀ s, run (f s) = mapState f (run s)

namespace Overlooks

variable {f : σ → σ}

theorem pure (a : α) : Overlooks f (pure a : EStateM ε σ α) := fun _ => rfl

theorem throw (e : ε) : Overlooks f (throw e : EStateM ε σ α) := fun _ => rfl

theorem mirrors {run : EStateM ε σ α} (overlooks : Overlooks f run) (s : σ) :
    Mirrors f s run run := overlooks s

theorem bind {first : EStateM ε σ α} {rest : α → EStateM ε σ β}
    (hFirst : Overlooks f first) (hRest : ∀ a, Overlooks f (rest a)) :
    Overlooks f (first >>= rest) :=
  fun s => Mirrors.bind (hFirst.mirrors s) fun a t _ => (hRest a).mirrors t

theorem before {s : σ} {first : EStateM ε σ α} {rest rest' : α → EStateM ε σ β}
    (hFirst : Overlooks f first) (hRest : ∀ a t, Mirrors f t (rest a) (rest' a)) :
    Mirrors f s (first >>= rest) (first >>= rest') :=
  .bind (hFirst.mirrors s) fun a t _ => hRest a t

theorem get {rest : σ → EStateM ε σ α} (h : ∀ s, Mirrors f s (rest s) (rest (f s))) :
    Overlooks f (MonadState.get >>= rest) := h

theorem ite {c : Prop} [Decidable c] {first second : EStateM ε σ α}
    (hTrue : Overlooks f first) (hFalse : Overlooks f second) :
    Overlooks f (if c then first else second) :=
  fun s => Mirrors.ite (hTrue.mirrors s) (hFalse.mirrors s)

theorem modify {g : σ → σ} (commutes : ∀ s, g (f s) = f (g s)) :
    Overlooks f (modify g : EStateM ε σ PUnit) :=
  fun s => congrArg (EStateM.Result.ok ()) (commutes s)

theorem focus {get : σ → τ} {put : τ → σ → σ} {run : EStateM ε τ α}
    (beside : ∀ s, get (f s) = get s) (commutes : ∀ t s, put t (f s) = f (put t s)) :
    Overlooks f (focus get put run) := by
  intro s
  have same : Mirrors id (get s) run run := by
    rw [Mirrors, id]
    cases run (get s) <;> rfl
  exact Mirrors.focus (beside s) (fun t => commutes t s) same

end Overlooks

end SecureShell
