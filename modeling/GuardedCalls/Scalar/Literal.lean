/-
GuardedCalls.Scalar.Literal — the literals of guards and rule files, as
scalars.

A literal is `true`, `false`, a hexadecimal number (`0xff`) or a decimal
number (`1_000`, `2.5`, `1e18`), with an optional minus sign and an
optional unit (`Denomination`). It is read for a target with a number of
digits after the point: the value is the number times the unit times
that power of ten, and it must be whole and fit 256 bits.

* `Denomination.ofName?` — the unit of a name.
* `LiteralFault` — why a text is no literal; the first fault in reading
  order is the one reported.
* `Scalar.ofLiteral` — the scalar of a literal. Nothing is rounded: a
  literal that is not whole after scaling is refused.
-/
import GuardedCalls.Scalar
import GuardedCalls.Text.Blank
import GuardedCalls.Text.Numeral
import GuardedCalls.Text.Utf8

namespace GuardedCalls

/-! ## Units -/

/-- A unit: a factor and a power of ten. The power of ten joins the
target's own digits after the point, the factor is applied last. -/
structure Denomination where
  /-- The factor. -/
  factor : Nat
  /-- The power of ten. -/
  shift : Nat
  deriving DecidableEq, Repr

/-- The unit of a name; no name is the unit itself. -/
def Denomination.ofName? : Option String → Option Denomination
  | none => some ⟨1, 0⟩
  | some "wei" => some ⟨1, 0⟩
  | some "seconds" => some ⟨1, 0⟩
  | some "gwei" => some ⟨1, 9⟩
  | some "szabo" => some ⟨1, 12⟩
  | some "finney" => some ⟨1, 15⟩
  | some "ether" => some ⟨1, 18⟩
  | some "minutes" => some ⟨60, 0⟩
  | some "hours" => some ⟨3600, 0⟩
  | some "days" => some ⟨86400, 0⟩
  | some "weeks" => some ⟨604800, 0⟩
  | some _ => none

/-! ## Faults -/

/-- Why a text is no literal of the target. -/
inductive LiteralFault
  /-- Nothing is left without blanks and underscores. -/
  | emptyLiteral
  /-- The unit has no known name. -/
  | unknownDenomination
  /-- A byte of a hexadecimal number is no hexadecimal digit. -/
  | badHexDigit (shown : Char)
  /-- A hexadecimal number needs more than 256 bits. -/
  | hexTooLarge
  /-- The power of ten of the target and unit needs more than 256 bits. -/
  | scaleOverflow
  /-- The value needs more than 256 bits. -/
  | tooLarge
  /-- What follows `e` is no 64-bit number. -/
  | badExponent
  /-- There is no digit before or after the point. -/
  | noDigits
  /-- A character is neither digit nor point. -/
  | notANumber
  /-- The power of ten to divide by needs more than 256 bits. -/
  | fractionTooLong
  /-- A fractional part is left. -/
  | fractional
  deriving DecidableEq, Repr

/-- The wording of a fault. -/
def LiteralFault.message : LiteralFault → String
  | .emptyLiteral => "empty literal"
  | .unknownDenomination => "unknown sub-denomination"
  | .badHexDigit c => "bad hex digits: invalid digit: " ++ String.singleton c
  | .hexTooLarge => "bad hex digits: the value is too large to fit the target type"
  | .scaleOverflow => "scale overflow"
  | .tooLarge => "exceeds 256 bits"
  | .badExponent => "bad exponent"
  | .noDigits => "no digits"
  | .notANumber => "not a number"
  | .fractionTooLong => "fractional part too long"
  | .fractional => "fractional value for an integer domain"

/-- A text that is no literal, and why. -/
structure BadLiteral where
  /-- The text as it was given. -/
  literal : String
  /-- Why it is no literal. -/
  fault : LiteralFault
  deriving DecidableEq, Repr

/-- The wording of the error. -/
def BadLiteral.message (e : BadLiteral) : String :=
  "cannot use literal `" ++ e.literal ++ "`: " ++ e.fault.message

/-! ## Magnitudes -/

namespace Literal

/-- A number, unless it needs more than 256 bits. -/
def fit? (n : Nat) : Option Nat := if n < 2 ^ 256 then some n else none

/-- A power of ten, unless it needs more than 256 bits; 10^77 is the
largest that fits. -/
def tenPower? (e : Nat) : Option Nat := if e < 78 then some (10 ^ e) else none

/-- The number of hexadecimal digits, given from the last one to the
first: `place` digits have been read and make up `n`. The first byte
that cannot be taken decides the fault. -/
def hexFromLast (place n : Nat) : List UInt8 → Except LiteralFault Nat
  | [] => .ok n
  | b :: bs =>
    match Text.hexDigit? (Char.ofNat b.toNat) with
    | none => .error (.badHexDigit (Char.ofNat b.toNat))
    | some d =>
      if d = 0 then hexFromLast (place + 1) n bs
      else if 64 ≤ place then .error .hexTooLarge
      else hexFromLast (place + 1) (n + d * 16 ^ place) bs

/-- The magnitude of hexadecimal digits, scaled by a power of ten. -/
def hexMagnitude (shift : Nat) (digits : List Char) : Except LiteralFault Nat :=
  match hexFromLast 0 0 (Text.Utf8.encode digits).reverse with
  | .error fault => .error fault
  | .ok n =>
    match tenPower? shift with
    | none => .error .scaleOverflow
    | some power =>
      match fit? (n * power) with
      | none => .error .tooLarge
      | some n => .ok n

/-- Cuts a list at its first member with a property, which belongs to
neither part. -/
def splitAtFirst? (p : Char → Bool) : List Char → Option (List Char × List Char)
  | [] => none
  | c :: cs =>
    if p c then some ([], cs) else (splitAtFirst? p cs).map fun (a, b) => (c :: a, b)

/-- The digits before the point, the digits after it and the exponent. -/
structure Parts where
  /-- The characters before the point. -/
  whole : List Char
  /-- The characters after the point. -/
  fraction : List Char
  /-- The exponent; zero if none is written. -/
  exponent : Int

/-- Cuts a decimal number into its parts, without looking at the
digits. -/
def parts (body : List Char) : Except LiteralFault Parts :=
  match splitAtFirst? (fun c => c == 'e' || c == 'E') body with
  | none =>
    let (whole, fraction) := (splitAtFirst? (· == '.') body).getD (body, [])
    .ok ⟨whole, fraction, 0⟩
  | some (mantissa, exponent) =>
    match Text.readSigned? exponent with
    | none => .error .badExponent
    | some e =>
      let (whole, fraction) := (splitAtFirst? (· == '.') mantissa).getD (mantissa, [])
      .ok ⟨whole, fraction, e⟩

/-- Scales a whole number by a power of ten, which divides it if it is
below one. -/
def scale (n : Nat) (power : Int) : Except LiteralFault Nat :=
  if 0 ≤ power then
    match tenPower? power.toNat with
    | none => .error .tooLarge
    | some factor =>
      match fit? (n * factor) with
      | none => .error .tooLarge
      | some n => .ok n
  else
    match tenPower? power.natAbs with
    | none => .error .fractionTooLong
    | some divisor => if n % divisor = 0 then .ok (n / divisor) else .error .fractional

/-- A shift as a power of ten: a signed number of 64 bits, so that one of
2^63 or more counts as below zero. -/
def powerOfShift (shift : Nat) : Int := Int.bmod shift (2 ^ 64)

/-- The magnitude of a decimal number, scaled by a power of ten. -/
def decimalMagnitude (shift : Nat) (body : List Char) : Except LiteralFault Nat :=
  match parts body with
  | .error fault => .error fault
  | .ok p =>
    if p.whole.isEmpty && p.fraction.isEmpty then .error .noDigits
    else if !(p.whole ++ p.fraction).all Text.isDigit then .error .notANumber
    else
      match fit? (Text.ofDigits (p.whole ++ p.fraction)) with
      | none => .error .tooLarge
      | some n => scale n (p.exponent + powerOfShift shift - p.fraction.length)

/-- The magnitude of a number without its sign. -/
def magnitude (shift : Nat) : List Char → Except LiteralFault Nat
  | '0' :: 'x' :: digits => hexMagnitude shift digits
  | '0' :: 'X' :: digits => hexMagnitude shift digits
  | body => decimalMagnitude shift body

/-- The scalar with a sign and a magnitude. -/
def signed (negative : Bool) (n : Nat) : Except LiteralFault Scalar :=
  match Scalar.ofInt? (if negative then -(n : Int) else n) with
  | none => .error .tooLarge
  | some s => .ok s

/-- Reads a number with its sign. -/
def readNumber (unit : Denomination) (decimals : Nat) (negative : Bool) (body : List Char) :
    Except LiteralFault Scalar :=
  match magnitude (unit.shift + decimals) body with
  | .error fault => .error fault
  | .ok n => signed negative (n * unit.factor)

/-- A text without blank ends and without underscores. -/
def cleaned (text : String) : List Char :=
  (Text.trimList text.toList).filter (· != '_')

/-- Reads a literal that has been cleaned. -/
def read (unit : Option String) (decimals : Nat) (cs : List Char) : Except LiteralFault Scalar :=
  if cs.isEmpty then .error .emptyLiteral
  else if cs = "true".toList then .ok Scalar.one
  else if cs = "false".toList then .ok Scalar.zero
  else
    match Denomination.ofName? unit with
    | none => .error .unknownDenomination
    | some unit =>
      match cs with
      | '-' :: body => readNumber unit decimals true body
      | body => readNumber unit decimals false body

end Literal

/-- The scalar of a literal with an optional unit, for a target with
`decimals` digits after the point. -/
def Scalar.ofLiteral (text : String) (unit : Option String) (decimals : Nat) :
    Except BadLiteral Scalar :=
  match Literal.read unit decimals (Literal.cleaned text) with
  | .error fault => .error ⟨text, fault⟩
  | .ok s => .ok s

end GuardedCalls
