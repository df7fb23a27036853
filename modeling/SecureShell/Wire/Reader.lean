import SecureShell.Bytes
import SecureShell.Error

/-!
Readers of the primitive wire types. A reader takes what it wants from the front
of the unread bytes and leaves the rest, also when it fails: bytes that are
missing are not taken, and a string whose contents are refused has been taken.
-/
namespace SecureShell

abbrev Reader := EStateM Error Bytes

namespace Reader

/-- The first `count` bytes, known to be that many. -/
def exactly (count : Nat) (field : Field) : Reader { bytes : Bytes // bytes.length = count } :=
  fun unread =>
    if h : unread.length < count then
      .error (.protocol (.truncated field count unread.length)) unread
    else .ok ⟨unread.take count, by rw [List.length_take]; omega⟩ (unread.drop count)

def take (count : Nat) (field : Field) : Reader Bytes := return (← exactly count field).1

def byte : Reader UInt8 := return (← take 1 .byte).headD 0

/-- Every byte but zero is true. -/
def bool : Reader Bool := return (← byte) != 0

def uint32 : Reader UInt32 := return Bytes.toUInt32 (← take 4 .uint32)

def raw (count : Nat) : Reader Bytes := take count .raw

def string : Reader Bytes := do take (← uint32).toNat .string

def text : Reader String := do
  match Bytes.toText? (← string) with
  | some text => return text
  | none => throw (.protocol .textEncoding)

/-- The magnitude of an integer, without leading zeros; negative ones are refused. -/
def mpint : Reader Bytes := do
  let body ← string
  if body.headD 0 ≥ 0x80 then throw (.protocol .negativeMpint)
  return Bytes.trimZeros body

/-- The names between commas; an empty text holds none. -/
def splitNames (text : String) : List String :=
  if text.isEmpty then [] else (text.toList.splitOn ',').map String.ofList

def nameList : Reader (List String) := do
  match Bytes.toText? (← string) with
  | some text => return splitNames text
  | none => throw (.protocol .nameListEncoding)

def rest : Reader Bytes := fun unread => .ok unread []

/-- Reads from the front of `data`; what is left over is dropped. -/
def parse (reader : Reader α) (data : Bytes) : Except Error α :=
  match reader data with
  | .ok value _ => .ok value
  | .error error _ => .error error

def expect (code : MessageCode) : Reader Unit := do
  let got ← byte
  if got ≠ code.toByte then throw (.protocol (.expected code got))

end Reader

end SecureShell
