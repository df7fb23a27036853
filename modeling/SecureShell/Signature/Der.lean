import SecureShell.Bytes
import SecureShell.Error

/-!
The distinguished encoding of a pair of numbers, for signatures that travel as two
halves of twenty bytes: each integer without leading zeros, except one where its
first bit is set or nothing else is left.
-/
namespace SecureShell.Der

def integer (magnitude : Bytes) : Bytes :=
  let body := match Bytes.trimZeros magnitude with
    | [] => [0]
    | first :: rest => if first < 0x80 then first :: rest else 0 :: first :: rest
  0x02 :: UInt8.ofNat body.length :: body

def sequence (content : Bytes) : Bytes := 0x30 :: UInt8.ofNat content.length :: content

/-- The length of a signature that is two numbers side by side. -/
def dssLength : Nat := 40

def ofDssSignature (raw : Bytes) : Except Error Bytes :=
  if raw.length = dssLength then
    .ok (sequence (integer (raw.take 20) ++ integer (raw.drop 20)))
  else .error (.hostKey (.dssLength raw.length))

end SecureShell.Der
