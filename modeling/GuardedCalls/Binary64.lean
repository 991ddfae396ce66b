/-
GuardedCalls.Binary64 — finite IEEE 754 doubles as exact numbers.

A double is a sign, a mantissa and a power of two, in the one form in
which the mantissa is below 2^53 and the power is the least that fits.
All operations are exact arithmetic on natural numbers followed by one
rounding to nearest, ties to even.

* `ofRatio?` — the double nearest to a ratio; `none` above the largest
  finite double.
* `ofNat?`, `mul?`, `div?` — a rounded whole number, product, quotient.
* `toBits` — the 64 bits of the interchange format.
* `compareMagnitude` — the order of magnitudes.
-/
import GuardedCalls.Power

namespace GuardedCalls

/-- A finite double: `mantissa · 2^exponent`, with a sign that zero has
too. -/
structure Binary64 where
  /-- Below zero, or the zero that counts as such. -/
  negative : Bool
  /-- Below 2^53. -/
  mantissa : Nat
  /-- At least −1074, and the least that fits the mantissa. -/
  exponent : Int
  deriving DecidableEq, Repr

namespace Binary64

/-- The exponent of the smallest doubles. -/
def minExponent : Int := -1074

/-- The largest exponent of a finite double. -/
def maxExponent : Int := 971

/-- Positive zero. -/
def zero : Binary64 := ⟨false, 0, minExponent⟩

/-- A power of two with a natural exponent, one where the exponent is
below zero. -/
def pow2 (e : Int) : Nat := 2 ^ e.toNat

/-- A ratio rounded to the nearest whole number, ties to even. -/
def nearest (num den : Nat) : Nat :=
  let q := num / den
  let r := num % den
  if den < 2 * r ∨ (den = 2 * r ∧ q % 2 = 1) then q + 1 else q

/-- The exponent of the double that a positive ratio rounds to, before
rounding. -/
def exponentOf (num den : Nat) : Int :=
  let e := max ((Nat.log2 num : Int) - Nat.log2 den - 53) minExponent
  if den * pow2 e * 2 ^ 53 ≤ num * pow2 (-e) then e + 1 else e

/-- The double nearest to a ratio with a positive denominator, ties to
even. -/
def ofRatio? (negative : Bool) (num den : Nat) : Option Binary64 :=
  if num = 0 then some { zero with negative := negative }
  else
    let e := exponentOf num den
    let m := nearest (num * pow2 (-e)) (den * pow2 e)
    let (m, e) := if m = 2 ^ 53 then (2 ^ 52, e + 1) else (m, e)
    if maxExponent < e then none else some ⟨negative, m, e⟩

/-- The double nearest to a natural number. -/
def ofNat? (n : Nat) : Option Binary64 := ofRatio? false n 1

/-- The product, rounded. -/
def mul? (a b : Binary64) : Option Binary64 :=
  let e := a.exponent + b.exponent
  ofRatio? (a.negative != b.negative) (a.mantissa * b.mantissa * pow2 e) (pow2 (-e))

/-- The quotient by a number that is not zero, rounded. -/
def div? (a b : Binary64) : Option Binary64 :=
  let e := a.exponent - b.exponent
  ofRatio? (a.negative != b.negative) (a.mantissa * pow2 e) (b.mantissa * pow2 (-e))

/-- The same magnitude with the other sign. -/
def neg (a : Binary64) : Binary64 := { a with negative := !a.negative }

/-- The bits of the interchange format: sign, 11 bits of exponent, 52
bits of mantissa. -/
def toBits (a : Binary64) : Nat :=
  (if a.negative then 2 ^ 63 else 0) +
    (if a.mantissa < 2 ^ 52 then a.mantissa
     else (a.exponent + 1075).toNat * 2 ^ 52 + (a.mantissa - 2 ^ 52))

/-- How the magnitudes of two doubles compare. -/
def compareMagnitude (a b : Binary64) : Ordering :=
  compare (a.mantissa * pow2 (a.exponent - b.exponent))
    (b.mantissa * pow2 (b.exponent - a.exponent))

end Binary64

end GuardedCalls
