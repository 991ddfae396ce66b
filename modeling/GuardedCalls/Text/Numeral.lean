/-
GuardedCalls.Text.Numeral — decimal and hexadecimal digits, and the
reading of whole numbers of a limited size.

* `digit?`, `hexDigit?` — the value of one ASCII digit.
* `ofDigits` — the number a list of digit characters denotes.
* `readNatural` — an unsigned number with an upper limit, an optional
  `+` in front; the first character that cannot be taken decides the
  fault (`NumeralFault`).
* `readSigned?` — a 64-bit signed number with an optional sign.

Only ASCII digits count: no digit of another script is accepted.
-/
import GuardedCalls.Power

namespace GuardedCalls.Text

/-! ## Digits -/

/-- The value of a decimal digit. -/
def digit? (c : Char) : Option Nat :=
  if '0' ≤ c ∧ c ≤ '9' then some (c.toNat - '0'.toNat) else none

/-- The value of a hexadecimal digit of either case. -/
def hexDigit? (c : Char) : Option Nat :=
  if '0' ≤ c ∧ c ≤ '9' then some (c.toNat - '0'.toNat)
  else if 'a' ≤ c ∧ c ≤ 'f' then some (c.toNat - 'a'.toNat + 10)
  else if 'A' ≤ c ∧ c ≤ 'F' then some (c.toNat - 'A'.toNat + 10)
  else none

/-- A decimal digit. -/
def isDigit (c : Char) : Bool := (digit? c).isSome

/-- An ASCII letter. -/
def isLetter (c : Char) : Bool := ('a' ≤ c ∧ c ≤ 'z') ∨ ('A' ≤ c ∧ c ≤ 'Z')

/-- The number that a list of decimal digits denotes. A character that
is no digit counts as zero; callers check for digits first. -/
def ofDigits (cs : List Char) : Nat :=
  cs.foldl (fun n c => n * 10 + (digit? c).getD 0) 0

/-! ## Whole numbers of a limited size -/

/-- Why a text is no whole number of the wanted size. -/
inductive NumeralFault
  /-- There is nothing to read. -/
  | nothing
  /-- A character is no decimal digit. -/
  | badDigit
  /-- The number passes the limit. -/
  | tooLarge
  deriving DecidableEq, Repr

/-- The wording of a fault. -/
def NumeralFault.message : NumeralFault → String
  | .nothing => "cannot parse integer from empty string"
  | .badDigit => "invalid digit found in string"
  | .tooLarge => "number too large to fit in target type"

/-- Reads digits onto a number already read, up to a limit. The first
character that fails decides the fault. -/
def readDigits (limit : Nat) : Nat → List Char → Except NumeralFault Nat
  | n, [] => .ok n
  | n, c :: cs =>
    match digit? c with
    | none => .error .badDigit
    | some d => if limit < n * 10 + d then .error .tooLarge else readDigits limit (n * 10 + d) cs

/-- An unsigned number of at most `limit`, written in decimal digits
with an optional `+` in front. -/
def readNatural (limit : Nat) (text : String) : Except NumeralFault Nat :=
  match text.toList with
  | [] => .error .nothing
  | ['+'] => .error .badDigit
  | '+' :: cs => readDigits limit 0 cs
  | cs => readDigits limit 0 cs

/-- A number written in decimal digits alone, with no sign. -/
def readCount? (limit : Nat) (cs : List Char) : Option Nat :=
  if cs.isEmpty then none else (readDigits limit 0 cs).toOption

/-- A number from −2^63 to 2^63−1 written in decimal digits with an
optional sign. -/
def readSigned? (cs : List Char) : Option Int :=
  match cs with
  | '-' :: cs => (readCount? (2 ^ 63) cs).map fun n => -(n : Int)
  | '+' :: cs => (readCount? (2 ^ 63 - 1) cs).map fun n => (n : Int)
  | cs => (readCount? (2 ^ 63 - 1) cs).map fun n => (n : Int)

/-- The largest number of 64 bits. -/
def maxWord64 : Nat := 2 ^ 64 - 1

end GuardedCalls.Text
