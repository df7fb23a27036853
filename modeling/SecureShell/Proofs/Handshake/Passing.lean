import SecureShell.Proofs.Handshake.Runs

/-! Calls that all succeed, with everything that they ask for. Messages that any phase
drops make no difference to them, wherever they stand. -/
namespace SecureShell.Handshake

/-- A message that any phase drops: IGNORE or DEBUG, whatever it holds. -/
def Call.isNoise : Call → Bool
  | .packet _ payload => [MessageCode.ignore, .debug].any (some ·.toByte == payload.head?)
  | _ => false

/-- Calls succeed one after the other, and ask for actions in order. -/
inductive Passes : List Call → Handshake → List Action → Handshake → Prop where
  | nil (h : Handshake) : Passes [] h [] h
  | cons {action : Call} {rest : List Call} {h next after : Handshake} {first more : List Action} :
      h.call action = (.ok first, next) → Passes rest next more after →
      Passes (action :: rest) h (first ++ more) after

namespace Passes

variable {calls more : List Call} {h next after : Handshake} {first second : List Action}

theorem one {action : Call} (passes : h.call action = (.ok first, after)) :
    Passes [action] h first after := by
  have run := Passes.cons passes (.nil after)
  rwa [List.append_nil] at run

theorem append (hFirst : Passes calls h first next) (hSecond : Passes more next second after) :
    Passes (calls ++ more) h (first ++ second) after := by
  induction hFirst with
  | nil => exact hSecond
  | cons passes _ ih =>
    rw [List.append_assoc]
    exact .cons passes (ih hSecond)

theorem behind {action : Call} (passes : Passes (action :: calls) h second after)
    (known : h.call action = (.ok first, next)) : ∃ more, Passes calls next more after := by
  cases passes with
  | cons passed rest =>
    rw [known] at passed
    cases passed
    exact ⟨_, rest⟩

theorem call_noise {action : Call} (noise : action.isNoise = true) (h : Handshake) :
    h.call action = (.ok [], h) := by
  cases action with
  | packet entropy payload =>
    cases payload with
    | nil => cases noise
    | cons code rest =>
      simp only [Call.isNoise, List.any_cons, List.any_nil, Bool.or_false, Bool.or_eq_true,
        List.head?_cons, beq_iff_eq, Option.some.injEq] at noise
      rcases noise with rfl | rfl <;> rfl
  | version | write | close | abort => cases noise

/-- Messages that are dropped make no difference. -/
theorem of_filter (run : Passes (calls.filter (!·.isNoise)) h first after) :
    Passes calls h first after := by
  induction calls generalizing h first with
  | nil => exact run
  | cons action rest ih =>
    cases noise : action.isNoise with
    | true =>
      rw [List.filter_cons_of_neg (by simp [noise])] at run
      exact .cons (call_noise noise h) (ih run)
    | false =>
      rw [List.filter_cons_of_pos (by simp [noise])] at run
      cases run with
      | cons passes run => exact .cons passes (ih run)

/-- What a history of such calls shows. -/
theorem run (passes : Passes calls h first after) :
    (run calls h).2 = after ∧
      (∀ record ∈ (Handshake.run calls h).1, ∃ actions, record.outcome = .ok actions) ∧
      asked (Handshake.run calls h).1 = first := by
  induction passes with
  | nil => exact ⟨rfl, (fun _ member => nomatch member), rfl⟩
  | cons passes _ ih =>
    obtain ⟨reached, succeeded, same⟩ := ih
    simp only [Handshake.run, passes]
    refine ⟨reached, ?_, ?_⟩
    · intro record member
      rcases List.mem_cons.1 member with rfl | later
      · exact ⟨_, rfl⟩
      · exact succeeded record later
    · rw [← same]
      rfl

end Passes

end SecureShell.Handshake
