/-!
Computations on a part of a state. The rest of the state stays as it is, whether
the computation fails or not. Main statements: how a computation that succeeds is
made up of the successes of its parts.
-/
namespace SecureShell

variable {ε σ τ α β : Type}

section Steps

variable {first : EStateM ε σ α} {rest : α → EStateM ε σ β}

theorem pure_apply (a : α) (s : σ) : (pure a : EStateM ε σ α) s = .ok a s := rfl

theorem get_apply (s : σ) : (get : EStateM ε σ σ) s = .ok s s := rfl

theorem set_apply (s t : σ) : (set t : EStateM ε σ PUnit) s = .ok ⟨⟩ t := rfl

theorem modify_apply (f : σ → σ) (s : σ) : (modify f : EStateM ε σ PUnit) s = .ok ⟨⟩ (f s) := rfl

theorem bind_apply (s : σ) :
    (first >>= rest) s = match first s with | .ok a t => rest a t | .error e t => .error e t := rfl

end Steps

/-- Runs a computation on the part of the state that `get` finds and `put` replaces. -/
def focus (get : σ → τ) (put : τ → σ → σ) (run : EStateM ε τ α) : EStateM ε σ α := fun s =>
  match run (get s) with
  | .ok a t => .ok a (put t s)
  | .error e t => .error e (put t s)

theorem focus_eq_ok_iff {get : σ → τ} {put : τ → σ → σ} {run : EStateM ε τ α} {s s' : σ} {a : α} :
    focus get put run s = .ok a s' ↔ ∃ t, run (get s) = .ok a t ∧ s' = put t s := by
  unfold focus
  split
  · rename_i value t h
    constructor
    · intro same
      cases same
      exact ⟨t, h, rfl⟩
    · rintro ⟨t', h', rfl⟩
      rw [h] at h'
      cases h'
      rfl
  · rename_i e t h
    constructor
    · intro same
      cases same
    · rintro ⟨t', h', rfl⟩
      rw [h] at h'
      cases h'

theorem bind_eq_ok_iff {first : EStateM ε σ α} {rest : α → EStateM ε σ β} {s s' : σ} {b : β} :
    (first >>= rest) s = .ok b s' ↔ ∃ a t, first s = .ok a t ∧ rest a t = .ok b s' := by
  rw [bind_apply]
  split
  · rename_i a t h
    constructor
    · intro same
      exact ⟨a, t, h, same⟩
    · rintro ⟨a', t', h', same⟩
      rw [h] at h'
      cases h'
      exact same
  · rename_i e t h
    constructor
    · intro same
      cases same
    · rintro ⟨a', t', h', same⟩
      rw [h] at h'
      cases h'

theorem focus_eq_error_iff {get : σ → τ} {put : τ → σ → σ} {run : EStateM ε τ α} {s s' : σ}
    {e : ε} : focus get put run s = .error e s' ↔ ∃ t, run (get s) = .error e t ∧ s' = put t s := by
  unfold focus
  split
  · rename_i value t h
    constructor
    · intro same
      cases same
    · rintro ⟨t', h', rfl⟩
      rw [h] at h'
      cases h'
  · rename_i e' t h
    constructor
    · intro same
      cases same
      exact ⟨t, h, rfl⟩
    · rintro ⟨t', h', rfl⟩
      rw [h] at h'
      cases h'
      rfl

/-- A sequence fails in its first step or behind it. -/
theorem bind_eq_error_iff {first : EStateM ε σ α} {rest : α → EStateM ε σ β} {s s' : σ} {e : ε} :
    (first >>= rest) s = .error e s' ↔
      first s = .error e s' ∨ ∃ a t, first s = .ok a t ∧ rest a t = .error e s' := by
  rw [bind_apply]
  split
  · rename_i a t h
    constructor
    · intro same
      exact .inr ⟨a, t, h, same⟩
    · rintro (h' | ⟨a', t', h', same⟩)
      · rw [h] at h'
        cases h'
      · rw [h] at h'
        cases h'
        exact same
  · rename_i e' t h
    constructor
    · intro same
      cases same
      exact .inl h
    · rintro (h' | ⟨a', t', h', same⟩)
      · rw [h] at h'
        cases h'
        rfl
      · rw [h] at h'
        cases h'

theorem exceptBind_eq_ok_iff {ε α β : Type} {first : Except ε α} {rest : α → Except ε β} {b : β} :
    (first >>= rest) = .ok b ↔ ∃ a, first = .ok a ∧ rest a = .ok b := by
  cases first with
  | ok a =>
    constructor
    · exact fun h => ⟨a, rfl, h⟩
    · rintro ⟨a', same, h⟩
      rwa [← Except.ok.inj same] at h
  | error e =>
    constructor
    · exact fun h => nomatch h
    · exact fun ⟨_, h, _⟩ => nomatch h

end SecureShell
