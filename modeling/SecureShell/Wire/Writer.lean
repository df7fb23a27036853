import SecureShell.Bytes

/-!
Wire forms of the primitive types: bytes, booleans, 32-bit words, strings behind
their length, non-negative integers and lists of names. A length that does not
fit a word is written modulo 2^32.
-/
namespace SecureShell.Wire

def bool (value : Bool) : Bytes := [if value then 1 else 0]

def uint32 (value : UInt32) : Bytes := Bytes.ofUInt32 value

def string (data : Bytes) : Bytes := uint32 (UInt32.ofNat data.length) ++ data

def text (value : String) : Bytes := string (Bytes.ofText value)

/-- The two's complement body of a magnitude: no leading zeros, but one zero byte
where the first bit is set, and nothing at all for zero. -/
def mpintBody (magnitude : Bytes) : Bytes :=
  match Bytes.trimZeros magnitude with
  | [] => []
  | first :: rest => if first < 0x80 then first :: rest else 0 :: first :: rest

def mpint (magnitude : Bytes) : Bytes := string (mpintBody magnitude)

def nameList (names : List String) : Bytes := text (String.intercalate "," names)

end SecureShell.Wire
