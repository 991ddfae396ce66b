/-
GuardedCalls.Binary64.Shortest — the fewest decimal digits that read
back as the same double.

The numbers that round to a double make up an interval around it, with
its ends where the mantissa is even. `shortest` tries 1, 2, … 17
significant digits and takes the first grid of that many digits with a
point in the interval: only the two grid points next to the double can
be such points. Of two the nearer one is taken, and of two equally near
ones the even one.
-/
import GuardedCalls.Binary64

namespace GuardedCalls.Binary64

/-- A decimal number: `digits · 10^exponent`. -/
structure Decimal where
  /-- The digits as a number. -/
  digits : Nat
  /-- The power of ten. -/
  exponent : Int
  deriving DecidableEq, Repr

/-- A double and the ends of its interval, as numerators over one common
denominator. -/
structure Interval where
  /-- The lower end. -/
  low : Nat
  /-- The double itself. -/
  mid : Nat
  /-- The upper end. -/
  high : Nat
  /-- The common denominator. -/
  den : Nat
  /-- The ends belong to the interval. -/
  closed : Bool

/-- The interval of the positive doubles' magnitudes. Below a power of
two the neighbour is half as far away as above. -/
def interval (a : Binary64) : Interval :=
  let m := 4 * a.mantissa
  let below := if a.mantissa = 2 ^ 52 ∧ minExponent < a.exponent then 1 else 2
  let e := a.exponent - 2
  ⟨(m - below) * pow2 e, m * pow2 e, (m + 2) * pow2 e, pow2 (-e), a.mantissa % 2 = 0⟩

/-- A ratio lies in the interval. -/
def Interval.holds (i : Interval) (num den : Nat) : Bool :=
  let x := num * i.den
  if i.closed then i.low * den ≤ x && x ≤ i.high * den
  else i.low * den < x && x < i.high * den

/-- A power of ten with a natural exponent, one where the exponent is
below zero. -/
def tenTo (e : Int) : Nat := 10 ^ e.toNat

/-- The point of the grid of multiples of 10^exponent that lies in the
interval and nearest to its middle. -/
def Interval.gridPoint? (i : Interval) (exponent : Int) : Option Nat :=
  let num := i.mid * tenTo (-exponent)
  let den := i.den * tenTo exponent
  let d := num / den
  let inside (d : Nat) : Bool := i.holds (d * tenTo exponent) (tenTo (-exponent))
  let rest := num % den
  let lower := 2 * rest < den || (2 * rest == den && d % 2 == 0)
  match inside d, inside (d + 1) with
  | true, true => some (if lower then d else d + 1)
  | true, false => some d
  | false, true => some (d + 1)
  | false, false => none

/-- The power of ten of the first digit of a positive ratio. -/
def leadingPower (num den : Nat) : Int :=
  let guess : Int := (Nat.toDigits 10 num).length - (Nat.toDigits 10 den).length
  if den * tenTo guess ≤ num * tenTo (-guess) then guess else guess - 1

/-- Tries grids of more and more digits, the first with `count` of
them. -/
def searchGrids (i : Interval) (leading : Int) : Nat → Nat → Decimal
  | 0, count => ⟨i.mid / i.den, count⟩
  | fuel + 1, count =>
    let exponent := leading + 1 - count
    match i.gridPoint? exponent with
    | some d => ⟨d, exponent⟩
    | none => searchGrids i leading fuel (count + 1)

/-- Moves trailing zeros of the digits into the power of ten. -/
def Decimal.strip : Nat → Decimal → Decimal
  | 0, d => d
  | fuel + 1, d =>
    if d.digits ≠ 0 ∧ d.digits % 10 = 0 then strip fuel ⟨d.digits / 10, d.exponent + 1⟩ else d

/-- The fewest digits that read back as the magnitude of the double. -/
def shortest (a : Binary64) : Decimal :=
  if a.mantissa = 0 then ⟨0, 0⟩
  else
    let i := a.interval
    (searchGrids i (leadingPower i.mid i.den) 17 1).strip 17

end GuardedCalls.Binary64
