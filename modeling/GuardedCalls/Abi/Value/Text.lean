/-
GuardedCalls.Abi.Value.Text — values for a reader of reports.

* `AbiValue.text` — the sort of a value, and in round brackets what it
  holds: numbers with their width, words in hexadecimal, texts between
  quotes, items in square brackets.
-/
import GuardedCalls.Abi.Value
import GuardedCalls.Text.Quoted

namespace GuardedCalls

/-- Texts in square brackets. -/
def bracketed (texts : List String) : String := "[" ++ ", ".intercalate texts ++ "]"

namespace AbiValue

mutual

/-- The text of a value. -/
def text : AbiValue → String
  | .uint w bits => "Uint(" ++ Nat.repr w.toNat ++ ", " ++ Nat.repr bits ++ ")"
  | .int w bits => "Int(" ++ Int.repr w.toInt ++ ", " ++ Nat.repr bits ++ ")"
  | .bool b => if b then "Bool(true)" else "Bool(false)"
  | .address a => "Address(" ++ Text.Hex.text a.bytes ++ ")"
  | .fixedBytes w size => "FixedBytes(" ++ Text.Hex.text w.bytes ++ ", " ++ Nat.repr size ++ ")"
  | .function f => "Function(" ++ Text.Hex.text (bigEndian 24 f.toNat) ++ ")"
  | .bytes bs => "Bytes(" ++ bracketed (bs.map fun b => Nat.repr b.toNat) ++ ")"
  | .string s => "String(" ++ Text.quoted s ++ ")"
  | .fixedArray items => "FixedArray(" ++ bracketed (texts items) ++ ")"
  | .array items => "Array(" ++ bracketed (texts items) ++ ")"
  | .tuple items => "Tuple(" ++ bracketed (texts items) ++ ")"

/-- The texts of some values. -/
def texts : List AbiValue → List String
  | [] => []
  | v :: vs => text v :: texts vs

end

end AbiValue

end GuardedCalls
