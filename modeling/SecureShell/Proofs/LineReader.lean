import SecureShell.Focus
import SecureShell.Proofs.Identification
import SecureShell.Proofs.Resumption

/-! How a server introduces itself: some lines that are skipped, and then the line of its
identification. What the reader makes of a stream is decided by this grammar, and it leaves
what follows the identification as it came. -/
namespace SecureShell.LineReader

section Grammar

def lines (skipped : List Bytes) : Bytes := skipped.flatMap (· ++ [0x0a])

theorem lines_cons (line : Bytes) (skipped : List Bytes) (rest : Bytes) :
    lines (line :: skipped) ++ rest = line ++ 0x0a :: (lines skipped ++ rest) := by
  simp [lines]

/-- A line that is no identification, and not too long to be skipped. -/
structure Skippable (line : Bytes) : Prop where
  unbroken : 0x0a ∉ line
  other : ¬Bytes.ofText "SSH-" <+: line
  short : line.length ≤ 257

/-- Lines that may come before an identification, if so many may be skipped. -/
structure Preamble (spare : Nat) (skipped : List Bytes) : Prop where
  few : skipped.length ≤ spare
  skippable : ∀ line ∈ skipped, Skippable line

/-- A stream that introduces a server, and what follows in it. -/
inductive Introduces (spare : Nat) : (stream : Bytes) → Identification → (rest : Bytes) → Prop where
  | line {skipped : List Bytes} {line rest : Bytes} {version : Identification} :
      Preamble spare skipped → 0x0a ∉ line → line.length ≤ 257 → version.Names line →
      Introduces spare (lines skipped ++ (line ++ 0x0a :: rest)) version rest

/-- A stream with a line too many, a line that is too long, or an illegal identification. -/
inductive Offends (spare : Nat) : (stream : Bytes) → Prop where
  | many {skipped : List Bytes} {rest : Bytes} : skipped.length = spare + 1 →
      (∀ line ∈ skipped, Skippable line) → Offends spare (lines skipped ++ rest)
  | long {skipped : List Bytes} {front rest : Bytes} : Preamble spare skipped →
      0x0a ∉ front → front.length = 258 → Offends spare (lines skipped ++ (front ++ rest))
  | illegal {skipped : List Bytes} {line rest : Bytes} : Preamble spare skipped →
      0x0a ∉ line → line.length ≤ 257 → Bytes.ofText "SSH-" <+: line →
      (∀ version : Identification, ¬version.Names line) →
      Offends spare (lines skipped ++ (line ++ 0x0a :: rest))

/-- A stream that ends before an identification does. -/
inductive Trails (spare : Nat) : (stream : Bytes) → Prop where
  | part {skipped : List Bytes} {part : Bytes} : Preamble spare skipped →
      0x0a ∉ part → part.length ≤ 257 → Trails spare (lines skipped ++ part)

end Grammar

section Steps

variable {reader : LineReader} {byte : UInt8} {front line rest : Bytes}

theorem isIdentification_iff : isIdentification line = true ↔ Bytes.ofText "SSH-" <+: line :=
  List.isPrefixOf_iff_prefix

theorem step_front (other : byte ≠ 0x0a) (room : reader.line.length ≤ 256) :
    step byte reader = .ok none { reader with line := reader.line ++ [byte] } := by
  have short : ¬reader.line.length > Identification.maxLength + 1 := Nat.not_lt.2 room
  simp only [step, bind_apply, get_apply, if_pos other, if_neg short]
  rfl

theorem step_full (other : byte ≠ 0x0a) (full : 257 ≤ reader.line.length) :
    step byte reader = .error (.protocol .versionLineTooLong) reader := by
  have long : reader.line.length > Identification.maxLength + 1 := full
  simp only [step, bind_apply, get_apply, if_pos other, if_pos long]
  rfl

theorem step_other (other : ¬Bytes.ofText "SSH-" <+: reader.line) :
    step 0x0a reader =
      if reader.skipped + 1 > maxSkipped then
        .error (.protocol .tooManyLines) ⟨[], reader.skipped + 1⟩
      else .ok none ⟨[], reader.skipped + 1⟩ := by
  rw [← isIdentification_iff] at other
  simp only [step, bind_apply, get_apply, ne_eq, not_true_eq_false, if_false, if_neg other,
    set_apply]
  split <;> rfl

/-- A line feed behind a line that claims to be an identification. -/
theorem step_introduction (claims : Bytes.ofText "SSH-" <+: reader.line) :
    step 0x0a reader =
      match Bytes.toText? reader.line with
      | some text =>
        match Identification.parse text with
        | .ok version => .ok (some version) { reader with line := [] }
        | .error error => .error error { reader with line := [] }
      | none => .error (.protocol .versionEncoding) { reader with line := [] } := by
  rw [← isIdentification_iff] at claims
  simp only [step, bind_apply, get_apply, ne_eq, not_true_eq_false, if_false, if_pos claims,
    set_apply]
  cases Bytes.toText? reader.line with
  | none => rfl
  | some text =>
    dsimp only
    cases Identification.parse text <;> rfl

theorem prefix_of_names {version : Identification} (names : version.Names line) :
    Bytes.ofText "SSH-" <+: line := by
  obtain ⟨returns, rfl⟩ := names.written
  obtain ⟨said, form, -⟩ := names.legible.spelled
  refine ⟨Bytes.ofText (version.protocol ++ "-" ++ said) ++ List.replicate returns 0x0d, ?_⟩
  rw [form]
  simp

theorem step_named {version : Identification} (unbroken : 0x0a ∉ reader.line)
    (names : version.Names reader.line) :
    step 0x0a reader = .ok (some version) { reader with line := [] } := by
  obtain ⟨text, valid, parsed⟩ := (Identification.names_iff unbroken).1 names
  rw [step_introduction (prefix_of_names names), valid]
  dsimp only
  rw [parsed]

theorem step_illegal (unbroken : 0x0a ∉ reader.line)
    (claims : Bytes.ofText "SSH-" <+: reader.line)
    (illegal : ∀ version : Identification, ¬version.Names reader.line) :
    ∃ error, step 0x0a reader = .error error { reader with line := [] } := by
  rw [step_introduction claims]
  cases valid : Bytes.toText? reader.line with
  | none => exact ⟨_, rfl⟩
  | some text =>
    cases parsed : Identification.parse text with
    | error error => exact ⟨error, by simp only [parsed]⟩
    | ok version =>
      have names := (Identification.names_iff unbroken).2 ⟨text, valid, parsed⟩
      exact absurd names (illegal version)

theorem feed_front (unbroken : 0x0a ∉ front) (room : reader.line.length + front.length ≤ 257) :
    feed (front ++ rest) reader = feed rest { reader with line := reader.line ++ front } := by
  induction front generalizing reader with
  | nil => rw [List.append_nil, List.nil_append]
  | cons byte front ih =>
    obtain ⟨other, unbroken⟩ := not_or.1 (mt List.mem_cons.2 unbroken)
    rw [List.length_cons] at room
    rw [List.cons_append, feed, bind_apply, step_front (Ne.symm other) (by omega)]
    have later := @ih { reader with line := reader.line ++ [byte] } unbroken
      (by rw [List.length_append, List.length_singleton]; omega)
    rw [List.append_assoc] at later
    exact later

/-- Lines are skipped as long as there are few. -/
theorem feed_lines {skipped : List Bytes} {count : Nat}
    (skippable : ∀ line ∈ skipped, Skippable line) (few : count + skipped.length ≤ 32) :
    feed (lines skipped ++ rest) ⟨[], count⟩ = feed rest ⟨[], count + skipped.length⟩ := by
  induction skipped generalizing count with
  | nil => rfl
  | cons line skipped ih =>
    rw [List.length_cons] at few ⊢
    have first := skippable line (by simp)
    have later := ih (fun other among => skippable other (by simp [among]))
      (show count + 1 + skipped.length ≤ 32 by omega)
    have room : ¬count + 1 > maxSkipped := Nat.not_lt.2 (by rw [maxSkipped]; omega)
    rw [lines_cons, feed_front first.unbroken (by simpa using first.short), List.nil_append, feed,
      bind_apply, step_other first.other]
    simp only [if_neg room]
    rw [later, Nat.add_assoc, Nat.add_comm 1]

theorem feed_preamble {skipped : List Bytes} (preamble : Preamble 32 skipped)
    (unbroken : 0x0a ∉ front) (short : front.length ≤ 257) :
    feed (lines skipped ++ (front ++ rest)) {} = feed rest ⟨front, skipped.length⟩ := by
  have few := preamble.few
  rw [feed_lines preamble.skippable (by omega), feed_front unbroken (by simpa using short),
    Nat.zero_add, List.nil_append]

end Steps

section Pieces

/-- Hands over one piece after the other, up to the one that completes an identification;
gives back what is left of that one, with the pieces behind it. -/
def feedAll : List Bytes → EStateM Error LineReader (Option (Identification × Bytes))
  | [] => return none
  | piece :: pieces => do
    match ← feed piece with
    | some (version, rest) => return some (version, rest ++ pieces.flatten)
    | none => feedAll pieces

theorem feedAll_eq (pieces : List Bytes) (reader : LineReader) :
    feedAll pieces reader = feed pieces.flatten reader := by
  induction pieces generalizing reader with
  | nil => rfl
  | cons piece pieces ih =>
    rw [List.flatten_cons, feed_append, feedAll, bind_apply]
    cases feed piece reader with
    | error error failed => rfl
    | ok found stopped =>
      cases found with
      | none => exact ih stopped
      | some found => rfl

end Pieces

section Streams

variable {stream rest : Bytes} {version : Identification} {spare : Nat}

theorem Introduces.feed (introduces : Introduces 32 stream version rest) :
    ∃ stopped, feed stream {} = .ok (some (version, rest)) stopped := by
  cases introduces with
  | @line skipped line _ _ preamble unbroken short names =>
    refine ⟨⟨[], skipped.length⟩, ?_⟩
    rw [feed_preamble preamble unbroken short, LineReader.feed, bind_apply,
      step_named unbroken names]
    rfl

theorem Offends.feed (offends : Offends 32 stream) :
    ∃ error failed, feed stream {} = .error error failed := by
  cases offends with
  | @many skipped rest count skippable =>
    obtain ⟨front, last, rfl, few⟩ := exists_concat_of_length count
    have earlier : ∀ line ∈ front, Skippable line := fun line among => skippable line (by simp [among])
    have excess := skippable last (by simp)
    have split : lines (front ++ [last]) ++ rest = lines front ++ (last ++ 0x0a :: rest) := by
      simp [lines]
    refine ⟨.protocol .tooManyLines, ⟨[], 33⟩, ?_⟩
    rw [split, feed_lines earlier (by omega), feed_front excess.unbroken (by simpa using excess.short),
      List.nil_append, LineReader.feed, bind_apply, step_other excess.other, few]
    rfl
  | @long skipped front rest preamble unbroken length =>
    obtain ⟨held, byte, rfl, full⟩ := exists_concat_of_length length
    have other : byte ≠ 0x0a := fun same => unbroken (by simp [same])
    have unbroken : 0x0a ∉ held := fun among => unbroken (by simp [among])
    have split : held ++ [byte] ++ rest = held ++ byte :: rest := by simp
    refine ⟨.protocol .versionLineTooLong, ⟨held, skipped.length⟩, ?_⟩
    rw [split, feed_preamble preamble unbroken (by omega), LineReader.feed, bind_apply,
      step_full other (by simp [full])]
  | @illegal skipped line rest preamble unbroken short claims illegal =>
    have bare : 0x0a ∉ (LineReader.mk line skipped.length).line := unbroken
    obtain ⟨error, refused⟩ := step_illegal bare claims illegal
    refine ⟨error, ⟨[], skipped.length⟩, ?_⟩
    rw [feed_preamble preamble unbroken short, LineReader.feed, bind_apply, refused]

theorem Trails.feed (trails : Trails 32 stream) : ∃ stopped, feed stream {} = .ok none stopped := by
  cases trails with
  | @part skipped part preamble unbroken short =>
    have collected : LineReader.feed (lines skipped ++ (part ++ [])) {} = _ :=
      feed_preamble preamble unbroken short
    rw [List.append_nil] at collected
    exact ⟨⟨part, skipped.length⟩, collected⟩

section Behind

variable {line : Bytes} {skipped : List Bytes}

theorem Preamble.cons (preamble : Preamble spare skipped) (skippable : Skippable line) :
    Preamble (spare + 1) (line :: skipped) where
  few := Nat.succ_le_succ preamble.few
  skippable := List.forall_mem_cons.2 ⟨skippable, preamble.skippable⟩

/-- A line in front that is skipped uses up a spare one. -/
theorem Introduces.behind (introduces : Introduces spare stream version rest)
    (skippable : Skippable line) :
    Introduces (spare + 1) (line ++ 0x0a :: stream) version rest := by
  cases introduces with
  | line preamble unbroken short names =>
    rw [← lines_cons]
    exact .line (preamble.cons skippable) unbroken short names

theorem Offends.behind (offends : Offends spare stream) (skippable : Skippable line) :
    Offends (spare + 1) (line ++ 0x0a :: stream) := by
  cases offends with
  | many count all =>
    rw [← lines_cons]
    exact .many (congrArg (· + 1) count) (List.forall_mem_cons.2 ⟨skippable, all⟩)
  | long preamble unbroken length =>
    rw [← lines_cons]
    exact .long (preamble.cons skippable) unbroken length
  | illegal preamble unbroken short claims illegal =>
    rw [← lines_cons]
    exact .illegal (preamble.cons skippable) unbroken short claims illegal

theorem Trails.behind (trails : Trails spare stream) (skippable : Skippable line) :
    Trails (spare + 1) (line ++ 0x0a :: stream) := by
  cases trails with
  | part preamble unbroken short =>
    rw [← lines_cons]
    exact .part (preamble.cons skippable) unbroken short

theorem preamble_nil (spare : Nat) : Preamble spare [] := ⟨Nat.zero_le _, nofun⟩

theorem offends_long {front : Bytes} (unbroken : 0x0a ∉ front) (long : 258 ≤ front.length)
    (rest : Bytes) : Offends spare (front ++ rest) := by
  have kept : 0x0a ∉ front.take 258 := fun among => unbroken (List.mem_of_mem_take among)
  have split : front ++ rest = lines [] ++ (front.take 258 ++ (front.drop 258 ++ rest)) := by
    rw [← List.append_assoc (front.take 258), List.take_append_drop]
    rfl
  rw [split]
  exact .long (preamble_nil spare) kept (by rw [List.length_take]; omega)

theorem offends_many (skippable : Skippable line) (rest : Bytes) :
    Offends 0 (line ++ 0x0a :: rest) := by
  have split := lines_cons line [] rest
  rw [show lines [] ++ rest = rest from rfl] at split
  rw [← split]
  exact .many rfl (List.forall_mem_singleton.2 skippable)

/-- Whatever is sent is one of the three. -/
theorem sorts (spare : Nat) (stream : Bytes) :
    (∃ version rest, Introduces spare stream version rest) ∨ Offends spare stream ∨
      Trails spare stream := by
  -- on the length: behind a line that is skipped, the stream is judged with one spare line less
  induction size : stream.length using Nat.strongRecOn generalizing stream spare with
  | _ n ih =>
    by_cases broken : 0x0a ∈ stream
    · obtain ⟨line, rest, rfl, unbroken⟩ := List.eq_append_cons_of_mem broken
      by_cases long : 258 ≤ line.length
      · exact .inr (.inl (offends_long unbroken long _))
      · have short : line.length ≤ 257 := by omega
        by_cases claims : Bytes.ofText "SSH-" <+: line
        · by_cases named : ∃ version : Identification, version.Names line
          · obtain ⟨version, names⟩ := named
            exact .inl ⟨version, rest, .line (preamble_nil spare) unbroken short names⟩
          · exact .inr (.inl (.illegal (preamble_nil spare) unbroken short claims
              (not_exists.1 named)))
        · have skippable : Skippable line := ⟨unbroken, claims, short⟩
          cases spare with
          | zero => exact .inr (.inl (offends_many skippable rest))
          | succ spare =>
            have shorter : rest.length < n := by
              rw [← size, List.length_append, List.length_cons]
              omega
            rcases ih _ shorter spare rest rfl with ⟨version, behind, introduces⟩ | offends | trails
            · exact .inl ⟨version, behind, introduces.behind skippable⟩
            · exact .inr (.inl (offends.behind skippable))
            · exact .inr (.inr (trails.behind skippable))
    · by_cases long : 258 ≤ stream.length
      · rw [← List.append_nil stream]
        exact .inr (.inl (offends_long broken long []))
      · exact .inr (.inr (.part (preamble_nil spare) broken (by omega)))

end Behind

/-- What the reader makes of a stream is decided by how the stream begins. A server is
introduced exactly if its line comes behind at most 32 others, and then all that follows is
handed back as it came; a stream is refused exactly for a line too many, a line that is too
long or an illegal identification; every other stream waits for more. It does not matter
how the stream is cut. -/
theorem feed_iff (stream : Bytes) :
    (∀ version rest, (∃ stopped, feed stream {} = .ok (some (version, rest)) stopped) ↔
      Introduces 32 stream version rest) ∧
    ((∃ error failed, feed stream {} = .error error failed) ↔ Offends 32 stream) ∧
    ((∃ stopped, feed stream {} = .ok none stopped) ↔ Trails 32 stream) ∧
    ∀ pieces : List Bytes, pieces.flatten = stream → feedAll pieces {} = feed stream {} := by
  refine ⟨?_, ?_, ?_, fun pieces whole => whole ▸ feedAll_eq pieces {}⟩
  · intro version rest
    refine ⟨?_, Introduces.feed⟩
    rintro ⟨stopped, read⟩
    rcases sorts 32 stream with ⟨other, behind, introduces⟩ | offends | trails
    · obtain ⟨_, same⟩ := introduces.feed
      cases read.symm.trans same
      exact introduces
    · obtain ⟨_, _, refused⟩ := offends.feed
      cases read.symm.trans refused
    · obtain ⟨_, waiting⟩ := trails.feed
      cases read.symm.trans waiting
  · refine ⟨?_, Offends.feed⟩
    rintro ⟨error, failed, refused⟩
    rcases sorts 32 stream with ⟨version, behind, introduces⟩ | offends | trails
    · obtain ⟨_, read⟩ := introduces.feed
      cases refused.symm.trans read
    · exact offends
    · obtain ⟨_, waiting⟩ := trails.feed
      cases refused.symm.trans waiting
  · refine ⟨?_, Trails.feed⟩
    rintro ⟨stopped, waiting⟩
    rcases sorts 32 stream with ⟨version, behind, introduces⟩ | offends | trails
    · obtain ⟨_, read⟩ := introduces.feed
      cases waiting.symm.trans read
    · obtain ⟨_, _, refused⟩ := offends.feed
      cases waiting.symm.trans refused
    · exact trails

/-- Behind a greeting, a line with comments between blanks. -/
theorem feed_iff_greeted :
    let version : Identification := ⟨"1.99", "srv", some "two words", "SSH-1.99-srv  two words "⟩
    let stream := Bytes.ofText "Welcome\r\nSSH-1.99-srv  two words \r\nXY"
    (∃ stopped, feed stream {} = .ok (some (version, [0x58, 0x59])) stopped) ∧
      [stream.take 10, stream.drop 10].flatten = stream ∧
      feedAll [stream.take 10, stream.drop 10] {} = feed stream {} := by
  intro version stream
  have trims : Text.Trims " two words " "two words" := Text.trim_eq_iff.1 (by decide)
  have single : ' ' ∉ "srv".toList := by decide
  have legible : version.Legible :=
    { short := by decide
      noNul := by decide
      protocol := .inr rfl
      spelled := ⟨"srv  two words ", by decide, .commented single trims⟩ }
  have names : version.Names (Bytes.ofText "SSH-1.99-srv  two words \r") :=
    ⟨legible, by decide, 1, by decide⟩
  have greeting : Skippable (Bytes.ofText "Welcome\r") := ⟨by decide, by decide, by decide⟩
  have introduces : Introduces 32 stream version [0x58, 0x59] :=
    .line ((preamble_nil 31).cons greeting) (by decide) (by decide) names
  obtain ⟨read, -, -, cut⟩ := feed_iff stream
  have whole : [stream.take 10, stream.drop 10].flatten = stream := by simp
  exact ⟨(read version _).2 introduces, whole, cut _ whole⟩

/-- A line of 257 bytes without a carriage return is skipped, though 255 is the limit, and
two carriage returns are dropped, though one belongs to the end of the line. -/
theorem feed_lenient :
    (∃ stopped, feed (List.replicate 257 0x61 ++ 0x0a :: Bytes.ofText "SSH-2.0-srv\r\n") {} =
      .ok (some (⟨"2.0", "srv", none, "SSH-2.0-srv"⟩, [])) stopped) ∧
    ∃ stopped, feed (Bytes.ofText "SSH-2.0-srv\r\r\n") {} =
      .ok (some (⟨"2.0", "srv", none, "SSH-2.0-srv"⟩, [])) stopped := by
  have legible : (Identification.ofSoftware "srv" none).Legible :=
    Identification.legible_ofSoftware (by decide) (by decide) (by decide)
  have bare := @Identification.bare_ofSoftware "srv" (by decide)
  have names (returns : Nat) : Identification.Names
      (Bytes.ofText "SSH-2.0-srv" ++ List.replicate returns 0x0d)
      (.ofSoftware "srv" none) := ⟨legible, bare, returns, rfl⟩
  constructor
  · have only {byte : UInt8} (among : byte ∈ List.replicate 257 0x61) : byte = 0x61 :=
      List.eq_of_mem_replicate among
    have other : ¬Bytes.ofText "SSH-" <+: List.replicate 257 0x61 := fun claims =>
      absurd (only (claims.subset (show 0x53 ∈ Bytes.ofText "SSH-" by decide))) (by decide)
    have long : Skippable (List.replicate 257 0x61) :=
      ⟨fun among => absurd (only among) (by decide), other, by rw [List.length_replicate]⟩
    have introduction : Introduces 32 (lines [List.replicate 257 0x61] ++
        ((Bytes.ofText "SSH-2.0-srv" ++ List.replicate 1 0x0d) ++ 0x0a :: []))
        (.ofSoftware "srv" none) [] :=
      .line ((preamble_nil 31).cons long) (by decide) (by decide) (names 1)
    rw [lines_cons] at introduction
    exact introduction.feed
  · have introduction : Introduces 32 (lines [] ++
        ((Bytes.ofText "SSH-2.0-srv" ++ List.replicate 2 0x0d) ++ 0x0a :: []))
        (.ofSoftware "srv" none) [] :=
      .line (preamble_nil 32) (by decide) (by decide) (names 2)
    exact introduction.feed

end Streams

end SecureShell.LineReader
