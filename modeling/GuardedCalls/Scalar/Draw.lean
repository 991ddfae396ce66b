/-
GuardedCalls.Scalar.Draw — scalars at random.

* `Scalar.between` — a scalar of an interval, each with the same chance.
-/
import GuardedCalls.Random.Draw
import GuardedCalls.Scalar

namespace GuardedCalls

/-- A scalar from `low` to `high`. Where no scalar lies between them, or
they are 2^256 or more apart, it is `low` and nothing is drawn. -/
def Scalar.between (low high : Scalar) : Random.Draw Scalar := do
  match Scalar.distance? low high with
  | none => return low
  | some span => return (low.add? (← Random.upTo span)).getD low

end GuardedCalls
