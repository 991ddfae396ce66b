/-
GuardedCalls.Text.Quoted — texts between quotes, for reports.

* `escape` — a character as it stands between quotes: quotes, backslashes
  and the four control characters that have a letter stand behind a
  backslash, characters that do not show stand as their code.
* `quoted` — a text between quotes.
-/
import GuardedCalls.Text.Hex
import GuardedCalls.Text.Hidden

namespace GuardedCalls.Text

/-- A number in lower-case hexadecimal digits, without zeros in front. -/
def hexNumeral (n : Nat) : String := String.ofList (Nat.toDigits 16 n)

/-- A character as it stands between quotes. -/
def escape (c : Char) : String :=
  match c with
  | '"' => "\\\""
  | '\\' => "\\\\"
  | '\n' => "\\n"
  | '\t' => "\\t"
  | '\r' => "\\r"
  | '\x00' => "\\0"
  | c => if isHidden c then "\\u\x7b" ++ hexNumeral c.toNat ++ "\x7d" else c.toString

/-- A text between quotes. -/
def quoted (s : String) : String := "\"" ++ String.join (s.toList.map escape) ++ "\""

end GuardedCalls.Text
