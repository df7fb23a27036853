import SecureShell.Proofs.Pipeline.RoundTrip

/-! The packets that come of commands, one for each payload that is sent, in order. -/
namespace SecureShell.Pipeline

namespace Command

def packet (wire : Bytes) : Command → List Bytes
  | .send _ _ => [wire]
  | .arm _ | .compress => []

def packets : List Command → EStateM Error Outbound (List Bytes)
  | [] => pure []
  | command :: rest => do
    let wire ← command.perform
    let more ← packets rest
    return command.packet wire ++ more

variable {first second rest commands : List Command} {command : Command}
  {outbound between after : Outbound} {wire : Bytes} {wires more : List Bytes}

theorem packets_cons (performed : command.perform outbound = .ok wire between)
    (later : packets rest between = .ok more after) :
    packets (command :: rest) outbound = .ok (command.packet wire ++ more) after := by
  simp only [packets, bind_apply, performed, later, pure_apply]

theorem packets_append (performed : packets first outbound = .ok wires between)
    (later : packets second between = .ok more after) :
    packets (first ++ second) outbound = .ok (wires ++ more) after := by
  induction first generalizing outbound wires with
  | nil =>
    cases performed
    exact later
  | cons command rest ih =>
    obtain ⟨wire, middle, sent, performed⟩ := bind_eq_ok_iff.1 performed
    obtain ⟨further, left, performed, made⟩ := bind_eq_ok_iff.1 performed
    cases made
    rw [List.append_assoc]
    exact packets_cons sent (ih performed)

theorem payloads_append (first second : List Command) :
    payloads (first ++ second) = payloads first ++ payloads second := by
  induction first with
  | nil => rfl
  | cons command rest ih =>
    rw [List.cons_append, payloads_cons, ih, payloads_cons command rest, List.append_assoc]

end Command

end SecureShell.Pipeline
