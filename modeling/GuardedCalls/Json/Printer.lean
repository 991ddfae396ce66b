/-
GuardedCalls.Json.Printer — the text of a document.

* `Json.text` — the document with nothing between its parts. Members are
  written as they stand, and numbers as `Number.text` says.
* `quoted` — a string in quotes: a quote and a backslash have a backslash
  in front, control characters are given by number, and every other
  character stands for itself.
-/
import GuardedCalls.Json
import GuardedCalls.Text.Hex

namespace GuardedCalls

namespace Json

/-- A character inside a string. -/
def quotedChar (c : Char) : List Char :=
  if c = '"' then ['\\', '"']
  else if c = '\\' then ['\\', '\\']
  else if c.toNat < 0x20 ∨ c.toNat = 0x7f then
    '\\' :: 'u' :: '0' :: '0' :: Text.Hex.encode [UInt8.ofNat c.toNat]
  else [c]

/-- A string in quotes. -/
def quoted (s : String) : String :=
  "\"" ++ String.ofList (s.toList.flatMap quotedChar) ++ "\""

mutual

/-- The text of a document. -/
def text : Json → String
  | .null => "null"
  | .bool b => if b then "true" else "false"
  | .number n => n.text
  | .string s => quoted s
  | .array items => "[" ++ ",".intercalate (itemTexts items) ++ "]"
  | .object members => "\x7b" ++ ",".intercalate (memberTexts members) ++ "\x7d"

/-- The texts of the items of an array. -/
def itemTexts : List Json → List String
  | [] => []
  | j :: rest => text j :: itemTexts rest

/-- The texts of the members of an object. -/
def memberTexts : List (String × Json) → List String
  | [] => []
  | (key, j) :: rest => (quoted key ++ ":" ++ text j) :: memberTexts rest

end

end Json

end GuardedCalls
