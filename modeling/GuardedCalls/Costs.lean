/-
GuardedCalls.Costs — what calls have cost, and what they were expected
to cost.

* `CostBound` — a bound on the cost of a function, or none; the weaker of
  two bounds is the one that promises less.
* `CostBook` — bounds and observed costs by function. Both tables stand in the
  order of the names, and carry the proof that they do.
* `CostBook.merge` — adds the book of another session: costs are appended,
  of two bounds the weaker one stays.
* `CostBook.summarize?` — number, least, greatest and total of the costs
  of a function; `CostSummary.mean` — their mean, as a double.
* `CostBook.assess?` — where the bound lies against the mean, and how
  often costs occur as they grow.
-/
import GuardedCalls.Binary64
import GuardedCalls.Table
import GuardedCalls.Text.Blank
import GuardedCalls.Text.Numeral

namespace GuardedCalls

/-! ## Bounds -/

/-- What a function is expected to cost at most. -/
inductive CostBound
  /-- There is no bound. -/
  | unbounded
  /-- At most so much gas. -/
  | bounded (gas : Nat)
  deriving DecidableEq, Repr

namespace CostBound

/-- The bound that promises less. -/
def weaker : CostBound → CostBound → CostBound
  | .bounded a, .bounded b => .bounded (max a b)
  | _, _ => .unbounded

/-- The word for the lack of a bound. -/
def unboundedWord : String := "infinite"

/-- The text of a bound. -/
def text : CostBound → String
  | .unbounded => unboundedWord
  | .bounded gas => Nat.repr gas

/-- The bound of a text: the word in letters of either case, or a
number of 64 bits. Blanks around it are passed over. -/
def ofText (text : String) : Except Text.NumeralFault CostBound :=
  let text := Text.trim text
  if text.toLower = unboundedWord then .ok .unbounded
  else (Text.readNatural Text.maxWord64 text).map .bounded

end CostBound

/-! ## Costs -/

/-- Bounds and costs by function. -/
structure CostBook where
  /-- What functions are expected to cost. -/
  bounds : Table String CostBound
  /-- What calls of them have cost, in the order of the calls. -/
  costs : Table String (List Nat)
  /-- The bounds stand in the order of the names. -/
  bounds_ordered : bounds.Ordered
  /-- So do the costs. -/
  costs_ordered : costs.Ordered
  deriving DecidableEq, Repr

/-- The costs of a function in brief. -/
structure CostSummary where
  /-- How many there are. -/
  count : Nat
  /-- The least. -/
  least : Nat
  /-- The greatest. -/
  greatest : Nat
  /-- Their sum. -/
  total : Nat
  deriving DecidableEq, Repr

/-- The mean: sum and number are each rounded to a double, and so is
their quotient. -/
def CostSummary.mean (s : CostSummary) : Binary64 :=
  let mean? : Option Binary64 := do (← Binary64.ofNat? s.total).div? (← Binary64.ofNat? s.count)
  mean?.getD Binary64.zero

/-- Where a bound lies against the mean. -/
inductive BoundFit
  | below
  | above
  | equal
  /-- There is no bound to compare. -/
  | none
  deriving DecidableEq, Repr

/-- The name of a place against the mean. -/
def BoundFit.name : BoundFit → String
  | .below => "less_than"
  | .above => "greater_than"
  | .equal => "equal"
  | .none => "none"

/-- How often costs occur as they grow. -/
inductive CostTrend
  /-- There is one cost only. -/
  | constant
  /-- Never more often. -/
  | decreasing
  /-- Never less often. -/
  | increasing
  | other
  deriving DecidableEq, Repr

/-- The name of a trend. -/
def CostTrend.name : CostTrend → String
  | .constant => "constant"
  | .decreasing => "decreasing"
  | .increasing => "increasing"
  | .other => "other"

/-- How often each cost occurs, in the order of the costs. -/
def frequencies (costs : List Nat) : Table Nat Nat :=
  costs.foldl (fun t c => t.alter c fun n => n.getD 0 + 1) []

/-- All neighbours in a list stand in a relation. -/
def neighbours (r : Nat → Nat → Bool) (ns : List Nat) : Bool :=
  (ns.zip ns.tail).all fun (a, b) => r a b

/-- The trend of costs. -/
def CostTrend.ofCosts (costs : List Nat) : CostTrend :=
  let counts := (frequencies costs).map (·.2)
  if counts.length = 1 then .constant
  else if neighbours (fun a b => b ≤ a) counts then .decreasing
  else if neighbours (fun a b => a ≤ b) counts then .increasing
  else .other

/-- Where a bound lies against a mean; it is rounded to a double. -/
def BoundFit.ofMean (mean : Binary64) : Option CostBound → BoundFit
  | some (.bounded gas) =>
    match ((Binary64.ofNat? gas).getD Binary64.zero).compareMagnitude mean with
    | .lt => .below
    | .eq => .equal
    | .gt => .above
  | _ => .none

namespace CostBook

/-- The book without entries. -/
def empty : CostBook := ⟨[], [], Table.ordered_nil, Table.ordered_nil⟩

/-- Sets what a function is expected to cost. -/
def setBound (b : CostBook) (function : String) (e : CostBound) : CostBook :=
  { b with
    bounds := b.bounds.alter function fun _ => e
    bounds_ordered := b.bounds_ordered.alter _ _ }

/-- What a function is expected to cost. -/
def bound? (b : CostBook) (function : String) : Option CostBound :=
  b.bounds.get? function

/-- Adds costs of a function. -/
def addCosts (b : CostBook) (function : String) (costs : List Nat) : CostBook :=
  { b with
    costs := b.costs.alter function fun before => before.getD [] ++ costs
    costs_ordered := b.costs_ordered.alter _ _ }

/-- Adds the cost of one call of a function. -/
def record (b : CostBook) (function : String) (gas : Nat) : CostBook :=
  b.addCosts function [gas]

/-- The costs of a function, in the order in which they were added. -/
def costsOf (b : CostBook) (function : String) : List Nat := (b.costs.get? function).getD []

/-- The functions that costs are kept for. -/
def functions (b : CostBook) : List String := b.costs.keys

/-- Adds a bound of another session. -/
def weaken (b : CostBook) (function : String) (e : CostBound) : CostBook :=
  { b with
    bounds := b.bounds.alter function fun before =>
      match before with
      | none => e
      | some old => old.weaker e
    bounds_ordered := b.bounds_ordered.alter _ _ }

/-- Adds the book of another session. -/
def merge (b other : CostBook) : CostBook :=
  let weakened := other.bounds.foldl (fun b (function, e) => b.weaken function e) b
  other.costs.foldl (fun b (function, costs) => b.addCosts function costs) weakened

/-- The costs of a function in brief; nothing if there are none. -/
def summarize? (b : CostBook) (function : String) : Option CostSummary :=
  match b.costsOf function with
  | [] => none
  | c :: cs => some ⟨cs.length + 1, cs.foldl min c, cs.foldl max c, cs.foldl (· + ·) c⟩

/-- Where the bound of a function lies against the mean of its costs, and
their trend; nothing if there are no costs. -/
def assess? (b : CostBook) (function : String) : Option (BoundFit × CostTrend) := do
  let summary ← b.summarize? function
  return (BoundFit.ofMean summary.mean (b.bound? function),
    CostTrend.ofCosts (b.costsOf function))

end CostBook

end GuardedCalls
