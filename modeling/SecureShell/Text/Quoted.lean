import SecureShell.Text.Combining
import SecureShell.Text.Unprintable

/-!
Quoted text for messages: double quotes around the text, a backslash before what
would end or garble it, and the code point in braces for a character that cannot
be shown by itself.
-/
namespace SecureShell.Text

def codePoint (c : Char) : String :=
  "\\u\x7b" ++ String.ofList (Nat.toDigits 16 c.toNat) ++ "\x7d"

def escape (c : Char) : String :=
  match c with
  | '\x00' => "\\0"
  | '\t' => "\\t"
  | '\r' => "\\r"
  | '\n' => "\\n"
  | '"' => "\\\""
  | '\\' => "\\\\"
  | _ =>
    if ' ' ≤ c ∧ c ≤ '~' then c.toString
    else if isCombining c || isUnprintable c then codePoint c
    else c.toString

def quoted (text : String) : String :=
  "\"" ++ String.join (text.toList.map escape) ++ "\""

/-- Quoted texts between brackets, separated by a comma and a space. -/
def quotedList (texts : List String) : String :=
  "[" ++ String.intercalate ", " (texts.map quoted) ++ "]"

end SecureShell.Text
