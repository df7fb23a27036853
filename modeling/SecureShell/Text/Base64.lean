import SecureShell.Bytes

/-!
Base 64: three bytes as four characters, the last group without padding.
-/
namespace SecureShell.Text

def base64Digits : List Char :=
  "ABCDEFGHIJKLMNOPQRSTUVWXYZabcdefghijklmnopqrstuvwxyz0123456789+/".toList

def base64Digit (n : Nat) : Char := base64Digits.getD (n % 64) 'A'

def base64Chars : Bytes → List Char
  | a :: b :: c :: rest =>
    let n := Bytes.toNat [a, b, c]
    base64Digit (n / 2 ^ 18) :: base64Digit (n / 2 ^ 12) :: base64Digit (n / 2 ^ 6) ::
      base64Digit n :: base64Chars rest
  | [a, b] =>
    let n := Bytes.toNat [a, b]
    [base64Digit (n / 2 ^ 10), base64Digit (n / 2 ^ 4), base64Digit (n * 2 ^ 2)]
  | [a] => [base64Digit (a.toNat / 2 ^ 2), base64Digit (a.toNat * 2 ^ 4)]
  | [] => []

def base64 (bytes : Bytes) : String := String.ofList (base64Chars bytes)

end SecureShell.Text
