import SecureShell.Proofs.Engine.Chunking
import SecureShell.Proofs.Engine.Runs
import SecureShell.Proofs.LineReader
import SecureShell.Proofs.Negotiation

/-! The client's own line. A configuration that is accepted names the program in one word of
printable characters, so the line that introduces it is read as it was meant, up to the
length that a line may have; a longer name is accepted and makes a line that is refused. -/
namespace SecureShell

namespace Config

variable {config : Config}

theorem software_of_check (checked : config.check = .ok ()) :
    ∀ c ∈ config.software.toList, softwareChar c = true := by
  unfold check at checked
  obtain ⟨-, checked⟩ := passed checked
  obtain ⟨named, -⟩ := passed checked
  rw [Bool.or_eq_true, not_or, Bool.not_eq_true', Bool.not_eq_false] at named
  exact List.all_eq_true.1 named.2

theorem notMem_software (checked : config.check = .ok ()) {c : Char}
    (other : softwareChar c = false) : c ∉ config.software.toList := by
  intro among
  rw [software_of_check checked c among] at other
  cases other

end Config

section Lines

variable {software : String}

theorem toBytes_line (version : Identification) : version.toBytes =
    Bytes.ofText version.line ++ List.replicate 1 0x0d ++ 0x0a :: [] := by
  rw [Identification.toBytes, Bytes.ofText_append, List.append_assoc]
  rfl

theorem unbroken_line (unbroken : '\n' ∉ software.toList) :
    0x0a ∉ Bytes.ofText (Identification.ofSoftware software none).line ++ List.replicate 1 0x0d := by
  rw [List.mem_append, Bytes.newline_mem_ofText_iff, Identification.line_ofSoftware,
    String.toList_append, List.mem_append]
  rintro ((front | named) | returns)
  · exact absurd front (by decide)
  · exact unbroken named
  · exact absurd returns (by decide)

/-- The line of a program with a short name introduces it. -/
theorem introduces_toBytes (single : ' ' ∉ software.toList) (noNul : '\x00' ∉ software.toList)
    (bare : '\r' ∉ software.toList) (unbroken : '\n' ∉ software.toList)
    (short : (Bytes.ofText software).length ≤ 247) :
    LineReader.Introduces 32 (Identification.ofSoftware software none).toBytes
      (.ofSoftware software none) [] := by
  have names : Identification.Names _ (.ofSoftware software none) :=
    ⟨Identification.legible_ofSoftware single noNul short, Identification.bare_ofSoftware bare, 1, rfl⟩
  rw [toBytes_line]
  refine .line (LineReader.preamble_nil 32) (unbroken_line unbroken) ?_ names
  rw [List.length_append, Identification.length_line, List.length_replicate]
  omega

/-- The line of a program with a longer name is refused. -/
theorem offends_toBytes (bare : '\r' ∉ software.toList) (unbroken : '\n' ∉ software.toList)
    (long : 247 < (Bytes.ofText software).length) :
    LineReader.Offends 32 (Identification.ofSoftware software none).toBytes := by
  rw [toBytes_line]
  have length : (Bytes.ofText (Identification.ofSoftware software none).line ++
      List.replicate 1 0x0d).length = 9 + (Bytes.ofText software).length := by
    rw [List.length_append, Identification.length_line, List.length_replicate]
    omega
  by_cases fits : 9 + (Bytes.ofText software).length ≤ 257
  · refine .illegal (LineReader.preamble_nil 32) (unbroken_line unbroken) (length ▸ fits) ?_ ?_
    · rw [Identification.line_ofSoftware, Bytes.ofText_append, List.append_assoc]
      exact ⟨Bytes.ofText "2.0-" ++ _, by rw [← List.append_assoc]; rfl⟩
    · intro version names
      have short := names.legible.short
      rw [names.line_eq (Identification.bare_ofSoftware bare), Identification.length_line] at short
      exact absurd short (by rw [Identification.maxLength]; omega)
  · exact LineReader.offends_long (unbroken_line unbroken) (by omega) _

end Lines

namespace Engine

variable (entropy : Entropy) {config : Config}

theorem create_of_check (checked : config.check = .ok ()) :
    ∃ engine, Engine.create entropy config = .ok engine ∧
      engine.handshake.clientVersion = .ofSoftware config.software none ∧
      engine.start.outgoing = engine.handshake.clientVersion.toBytes := by
  have created : Engine.create entropy config = .ok
      { handshake := .create entropy config, inbound := freshInbound config } := by
    rw [Engine.create, checked]
    rfl
  exact ⟨_, created, rfl, List.append_nil _⟩

/-- A client that is created for an accepted configuration sends one line, its own. However
that line is cut on its way, a server that reads it finds the client's identification, the
same line included, and nothing behind it, as long as the name of the program has at most
247 bytes. Any longer name is accepted too, and its line is refused. -/
theorem start_introduces (checked : config.check = .ok ()) :
    ∃ engine, Engine.create entropy config = .ok engine ∧
      engine.start.outgoing = engine.handshake.clientVersion.toBytes ∧
      ∀ pieces : List Bytes, pieces.flatten = engine.start.outgoing →
        ((Bytes.ofText config.software).length ≤ 247 → ∃ stopped,
          LineReader.feedAll pieces {} = .ok (some (engine.handshake.clientVersion, [])) stopped) ∧
        (247 < (Bytes.ofText config.software).length → ∃ error failed,
          LineReader.feedAll pieces {} = .error error failed) := by
  obtain ⟨engine, created, own, line⟩ := create_of_check entropy checked
  have bare := Config.notMem_software checked (c := '\r') (by decide)
  have unbroken := Config.notMem_software checked (c := '\n') (by decide)
  refine ⟨engine, created, line, fun pieces whole => ?_⟩
  rw [LineReader.feedAll_eq, whole, line, own]
  constructor
  · intro short
    have single := Config.notMem_software checked (c := ' ') (by decide)
    have noNul := Config.notMem_software checked (c := '\x00') (by decide)
    exact (introduces_toBytes single noNul bare unbroken short).feed
  · intro long
    exact (offends_toBytes bare unbroken long).feed

/-- A line that is cut in the middle of the name. -/
theorem start_introduces_plain :
    let pieces := [Bytes.ofText "SSH-2.0-cli", Bytes.ofText "ent\r\n"]
    plainClient.check = .ok () ∧ ∃ engine,
      Engine.create (.repeating [0]) plainClient = .ok engine ∧
      engine.start.outgoing = engine.handshake.clientVersion.toBytes ∧
      pieces.flatten = engine.start.outgoing ∧ ∃ stopped, LineReader.feedAll pieces {} =
        .ok (some (engine.handshake.clientVersion, [])) stopped := by
  intro pieces
  have checked : plainClient.check = .ok () := by rfl
  obtain ⟨engine, created, line, reads⟩ := start_introduces (.repeating [0]) checked
  have whole : pieces.flatten = engine.start.outgoing := by
    obtain rfl := create_eq created
    decide
  exact ⟨checked, engine, created, line, whole, (reads pieces whole).1 (by decide)⟩

def verboseClient (letters : Nat) : Config :=
  { plainClient with software := String.ofList (List.replicate letters 'x') }

section Verbose

variable {letters : Nat}

theorem length_verbose : (Bytes.ofText (verboseClient letters).software).length = letters := by
  have single : String.utf8EncodeChar 'x' = [0x78] := by decide
  rw [verboseClient, Bytes.ofText_replicate single, List.length_replicate]

theorem check_verbose (some : letters ≠ 0) : (verboseClient letters).check = .ok () := by
  have named : (verboseClient letters).software.isEmpty = false := by
    rw [← Bool.not_eq_true, String.isEmpty_iff, ← String.toList_inj]
    simpa [verboseClient] using some
  have legal : (verboseClient letters).software.toList.all Config.softwareChar = true := by
    rw [verboseClient, String.toList_ofList, List.all_replicate]
    simp [show Config.softwareChar 'x' = true by decide]
  rw [Config.check, named, legal]
  rfl

end Verbose

/-- A name of 248 letters is accepted, and its line of 256 bytes is refused. -/
theorem start_introduces_long : ∃ engine,
    Engine.create (.repeating [0]) (verboseClient 248) = .ok engine ∧ ∃ error failed,
      LineReader.feed engine.start.outgoing {} = .error error failed := by
  have checked : (verboseClient 248).check = .ok () := check_verbose (by decide)
  have offends := offends_toBytes (Config.notMem_software checked (c := '\r') (by decide))
    (Config.notMem_software checked (c := '\n') (by decide)) (by rw [length_verbose]; decide)
  obtain ⟨engine, created, own, line⟩ := create_of_check (.repeating [0]) checked
  rw [← own, ← line] at offends
  exact ⟨engine, created, offends.feed⟩

end Engine

end SecureShell
