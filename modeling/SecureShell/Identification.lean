import SecureShell.Error
import SecureShell.Bytes
import SecureShell.Text.Blank

/-!
The line of text with which each side introduces itself, and the incremental
reader that skips whatever lines a server sends before it. The line is kept
without its ending because the exchange hash covers it in that form.
-/
namespace SecureShell

structure Identification where
  protocol : String
  software : String
  comments : Option String
  /-- The whole line without its ending. -/
  line : String
  deriving DecidableEq

namespace Identification

/-- The most bytes that a line may have, its ending not counted. -/
def maxLength : Nat := 255

def ofSoftware (software : String) (comments : Option String) : Identification where
  protocol := "2.0"
  software := software
  comments := comments
  line := match comments with
    | some comments => "SSH-2.0-" ++ software ++ " " ++ comments
    | none => "SSH-2.0-" ++ software

def splitOnce (c : Char) (cs : List Char) : Option (List Char × List Char) :=
  match cs.span (· != c) with
  | (_, []) => none
  | (before, _ :: after) => some (before, after)

def afterMarker (marker cs : List Char) : Option (List Char) :=
  if marker.isPrefixOf cs then some (cs.drop marker.length) else none

/-- Reads a line, with or without its ending. -/
def parse (text : String) : Except Error Identification := do
  let cs := Text.stripEnd (· == '\r') (Text.stripEnd (· == '\n') text.toList)
  let line := String.ofList cs
  if line.utf8ByteSize > maxLength then
    throw (.protocol (.versionTooLong line.utf8ByteSize))
  if '\x00' ∈ cs then throw (.protocol .versionNul)
  let some rest := afterMarker "SSH-".toList cs
    | throw (.protocol (.versionStart line))
  let some (protocol, software) := splitOnce '-' rest
    | throw (.protocol (.versionFormat line))
  let protocol := String.ofList protocol
  if protocol ≠ "2.0" ∧ protocol ≠ "1.99" then
    throw (.protocol (.versionProtocol protocol))
  match splitOnce ' ' software with
  | some (software, comments) =>
    return ⟨protocol, String.ofList software, some (Text.trim (String.ofList comments)), line⟩
  | none => return ⟨protocol, String.ofList software, none, line⟩

def toBytes (identification : Identification) : Bytes :=
  Bytes.ofText (identification.line ++ "\r\n")

end Identification

/-- What has arrived of the current line, and how many lines were skipped. -/
structure LineReader where
  line : Bytes := []
  skipped : Nat := 0

namespace LineReader

def maxSkipped : Nat := 32

def isIdentification (line : Bytes) : Bool := (Bytes.ofText "SSH-").isPrefixOf line

/-- Takes one byte; gives the identification when the byte completes it. -/
def step (byte : UInt8) : EStateM Error LineReader (Option Identification) := do
  let reader ← get
  if byte ≠ 0x0a then
    if reader.line.length > Identification.maxLength + 1 then
      throw (.protocol .versionLineTooLong)
    set { reader with line := reader.line ++ [byte] }
    return none
  else if isIdentification reader.line then
    set { reader with line := [] }
    let some text := Bytes.toText? reader.line
      | throw (.protocol .versionEncoding)
    match Identification.parse text with
    | .ok identification => return some identification
    | .error error => throw error
  else
    set { reader with line := [], skipped := reader.skipped + 1 }
    if reader.skipped + 1 > maxSkipped then throw (.protocol .tooManyLines)
    return none

/-- Takes bytes up to the end of the identification and hands the others back. -/
def feed : Bytes → EStateM Error LineReader (Option (Identification × Bytes))
  | [] => return none
  | byte :: rest => do
    match ← step byte with
    | some identification => return some (identification, rest)
    | none => feed rest

end LineReader

end SecureShell
