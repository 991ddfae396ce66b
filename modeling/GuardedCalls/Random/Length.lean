/-
GuardedCalls.Random.Length — how long drawn bytes, texts and arrays are.

Lengths start at one, thin out exponentially around a mean, and are cut
off at a limit.

* `Lengths` — the mean and the limit.
* `Lengths.draw` — a length.
* `length_le`, `one_le_length` — a length lies between one and the limit.
-/
import GuardedCalls.Random.Draw

namespace GuardedCalls.Random

/-- The law of lengths. -/
structure Lengths where
  /-- The length to be expected. A mean below one counts as one. -/
  mean : Nat
  /-- The largest length. A limit below one counts as one. -/
  max : Nat
  deriving DecidableEq, Repr

namespace Lengths

/-- A mean of 64 and a limit of 1024. -/
def standard : Lengths := ⟨64, 1024⟩

/-- The largest length that is drawn. -/
def limit (l : Lengths) : Nat := Nat.max l.max 1

/-- The length at a point of the unit interval: one, and the whole part
of an exponentially distributed excess. -/
def length (l : Lengths) (u : Float) : Nat :=
  let excess := -(Float.log (1.0 - u)) * (Float.ofNat l.mean - 1.0)
  min (1 + excess.floor.toUInt64.toNat) l.limit

/-- A length. With a mean of one nothing is drawn for it. -/
def draw (l : Lengths) : Draw Nat := do
  if l.mean ≤ 1 then return 1
  else return l.length (← unit)

theorem one_le_limit (l : Lengths) : 1 ≤ l.limit := Nat.le_max_right ..

theorem one_le_length (l : Lengths) (u : Float) : 1 ≤ l.length u := by
  have := l.one_le_limit
  simp only [length]
  omega

theorem length_le (l : Lengths) (u : Float) : l.length u ≤ l.limit := Nat.min_le_right ..

end Lengths

end GuardedCalls.Random
