import SecureShell.Bytes

/-! Networks whose rounds are undone by the same rounds between two exchanges of the
halves: the keys reversed then take a block back. -/
namespace SecureShell.Feistel

variable {κ σ : Type} {round : σ → κ → σ} {exchange : σ → σ}

/-- Exchanged, a block after all rounds runs back to the exchanged block before them. -/
theorem foldl_reverse (undo : ∀ s key, round (exchange (round s key)) key = exchange s)
    (keys : List κ) (s : σ) :
    keys.reverse.foldl round (exchange (keys.foldl round s)) = exchange s := by
  induction keys generalizing s with
  | nil => rfl
  | cons key rest ih =>
    simp only [List.reverse_cons, List.foldl_append, List.foldl_cons, List.foldl_nil]
    rw [ih (round s key), undo]

end SecureShell.Feistel
