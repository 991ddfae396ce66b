/-
GuardedCalls.Domain — the values that a number argument may take.

A domain is an interval inside the range of a type, less some excluded
values, perhaps pinned to one value, and with bounds that are read from
state each time a value is drawn.

* `Domain.ofType` — the whole range of a number type.
* `Domain.isInType` — the value lies in the range of the type;
  `Domain.allows` — it also honours everything folded in so far.
* `Domain.restrict` — folds a comparison with a number in, and says why
  nothing is left if nothing is. What was folded in stays folded in.
* `Domain.constrain` — applies a constraint: a literal bound is folded in, a
  bound read from state is kept if it leaves something now.
* `Domain.text` — the domain as it stands in reports.
-/
import GuardedCalls.Constraint

namespace GuardedCalls

/-! ## Errors -/

/-- Why a domain has no value. -/
inductive EmptyReason
  /-- Two different values are both the only one. -/
  | conflictingPins (pinned other : Scalar)
  /-- Nothing is greater than the value. -/
  | nothingGreater (value : Scalar)
  /-- Nothing is less than the value. -/
  | nothingLess (value : Scalar)
  /-- The interval ends before it begins. -/
  | crossed (low high : Scalar)
  /-- The only value lies outside the interval. -/
  | pinOutside (pinned low high : Scalar)
  /-- The only value is excluded. -/
  | pinExcluded (pinned : Scalar)
  /-- All values of the interval are excluded. -/
  | allExcluded (low high : Scalar)
  /-- Nothing is left after a bound was read from state. -/
  | afterReading (reason : EmptyReason) (bound : Bound)
  /-- The value is none of the type. -/
  | unfit (value : Scalar) (type : AbiType)
  deriving DecidableEq

/-- The text of an interval. -/
def intervalText (low high : Scalar) : String := "[" ++ low.text ++ ", " ++ high.text ++ "]"

/-- The wording of a reason. -/
def EmptyReason.message : EmptyReason → String
  | .conflictingPins pinned other => "conflicting pins " ++ pinned.text ++ " and " ++ other.text
  | .nothingGreater value => "no value is greater than " ++ value.text
  | .nothingLess value => "no value is less than " ++ value.text
  | .crossed low high => "lower bound " ++ low.text ++ " exceeds upper bound " ++ high.text
  | .pinOutside pinned low high =>
    "pinned value " ++ pinned.text ++ " outside " ++ intervalText low high
  | .pinExcluded pinned => "pinned value " ++ pinned.text ++ " is also excluded"
  | .allExcluded low high => "every value in " ++ intervalText low high ++ " is excluded"
  | .afterReading reason bound => reason.message ++ " (after reading " ++ bound.text ++ ")"
  | .unfit value type => value.text ++ " does not fit `" ++ type.name ++ "`"

/-- Why values cannot be narrowed or drawn. -/
inductive ConstrainError
  /-- Values of this sort do not honour the comparison. -/
  | notApplicable (kind : AbiKind)
  /-- Nothing is left. -/
  | empty (reason : EmptyReason)
  /-- A bound has no number. -/
  | bound (error : BoundError)
  deriving DecidableEq

/-! ## Domains -/

/-- The values that a number argument may take. -/
structure Domain where
  /-- The least value of the type. -/
  floor : Scalar
  /-- The greatest value of the type. -/
  ceiling : Scalar
  /-- The least value left. -/
  low : Scalar
  /-- The greatest value left. -/
  high : Scalar
  /-- Values taken out, in ascending order. -/
  excluded : List Scalar
  /-- The only value, if there is one. -/
  pinned : Option Scalar
  /-- Constraints whose bounds are read from state, in the order they
  came. -/
  live : List Constraint
  /-- How many digits values have after the point. -/
  decimals : Nat
  deriving DecidableEq

namespace Domain

/-- An interval. -/
def ofInterval (floor ceiling : Scalar) (decimals : Nat) : Domain :=
  { floor, ceiling, low := floor, high := ceiling, excluded := [], pinned := none, live := []
    decimals }

/-- The least value of a number type. -/
def leastOf : NumberType → Scalar
  | .int bits => Scalar.minSigned bits
  | .fixed bits _ => Scalar.minSigned bits
  | _ => Scalar.zero

/-- The greatest value of a number type. -/
def greatestOf : NumberType → Scalar
  | .uint bits => Scalar.maxUnsigned bits
  | .ufixed bits _ => Scalar.maxUnsigned bits
  | .int bits => Scalar.maxSigned bits
  | .fixed bits _ => Scalar.maxSigned bits
  | .address => Scalar.maxUnsigned 160
  | .bool => Scalar.one

/-- All values of a number type. -/
def ofType (type : NumberType) : Domain :=
  ofInterval (leastOf type) (greatestOf type) type.decimals

/-- Nothing has been applied to the domain. -/
def isFull (d : Domain) : Bool :=
  d.low = d.floor ∧ d.high = d.ceiling ∧ d.excluded = [] ∧ d.pinned = none ∧ d.live = []

/-- The value lies in the range of the type. -/
def isInType (d : Domain) (v : Scalar) : Bool := d.floor ≤ v ∧ v ≤ d.ceiling

/-- The value honours everything that has been folded in. -/
def allows (d : Domain) (v : Scalar) : Bool :=
  (d.low ≤ v ∧ v ≤ d.high) ∧ v ∉ d.excluded ∧ (d.pinned = none ∨ d.pinned = some v)

/-! ## Narrowing -/

/-- Puts a value into an ascending list, unless it is there. -/
def exclude (v : Scalar) : List Scalar → List Scalar
  | [] => [v]
  | w :: ws => if v < w then v :: w :: ws else if v = w then w :: ws else w :: exclude v ws

/-- Lifts the lower end to a value above it. -/
def raiseLow (d : Domain) (v : Scalar) : Domain := if d.low < v then { d with low := v } else d

/-- Drops the upper end to a value below it. -/
def dropHigh (d : Domain) (v : Scalar) : Domain := if v < d.high then { d with high := v } else d

/-- How many values of the interval are excluded. -/
def blocked (d : Domain) : Nat := d.excluded.countP fun v => d.low ≤ v ∧ v ≤ d.high

/-- Why the domain has no value, if it has none. Bounds read from state
play no part. -/
def whyEmpty? (d : Domain) : Option EmptyReason :=
  if d.high < d.low then some (.crossed d.low d.high)
  else match d.pinned with
    | some pin =>
      if pin < d.low ∨ d.high < pin then some (.pinOutside pin d.low d.high)
      else if pin ∈ d.excluded then some (.pinExcluded pin)
      else none
    | none =>
      match Scalar.distance? d.low d.high with
      | some span => if span < d.blocked then some (.allExcluded d.low d.high) else none
      | none => none

/-- The domain with the reason why it is empty, if it is. -/
def checked (d : Domain) : Domain × Option EmptyReason := (d, d.whyEmpty?)

/-- Folds a comparison with a number into the domain. -/
def restrict (d : Domain) (comparison : Comparison) (v : Scalar) : Domain × Option EmptyReason :=
  match comparison with
  | .equal =>
    match d.pinned with
    | some pin => if pin = v then d.checked else (d, some (.conflictingPins pin v))
    | none => { d with pinned := some v }.checked
  | .notEqual => { d with excluded := exclude v d.excluded }.checked
  | .greater =>
    match v.succ? with
    | some next => (d.raiseLow next).checked
    | none => (d, some (.nothingGreater v))
  | .greaterOrEqual => (d.raiseLow v).checked
  | .less =>
    match v.pred? with
    | some before => (d.dropHigh before).checked
    | none => (d, some (.nothingLess v))
  | .lessOrEqual => (d.dropHigh v).checked

/-- Applies a constraint. A literal bound is folded in. A bound read from
state is tried with its present number, and kept if something is left. -/
def constrain {σ : Type} (view : StateView σ) (c : Constraint) (d : Domain) :
    StateM σ (Domain × Option ConstrainError) := fun s =>
  match c.boundValue view d.decimals s with
  | .error e s => ((d, some (.bound e)), s)
  | .ok v s =>
    let (narrowed, reason?) := d.restrict c.comparison v
    if c.bound.readsState then
      match reason? with
      | some reason => ((d, some (.empty reason)), s)
      | none => (({ d with live := d.live ++ [c] }, none), s)
    else ((narrowed, reason?.map .empty), s)

/-! ## Text -/

/-- The text of a value, with its point if values have one. -/
def valueText (d : Domain) (v : Scalar) : String :=
  if d.decimals = 0 then v.text else v.fixedText d.decimals

/-- The text of a domain. -/
def text (d : Domain) : String :=
  let interval := "[" ++ d.valueText d.low ++ ", " ++ d.valueText d.high ++ "]"
  let pin := match d.pinned with
    | some pin => " == " ++ d.valueText pin
    | none => ""
  let exclusions :=
    if d.excluded.isEmpty then ""
    else " except \x7b" ++ ", ".intercalate (d.excluded.map d.valueText) ++ "\x7d"
  let live := d.live.map fun c => " " ++ c.comparison.symbol ++ " " ++ c.bound.text
  interval ++ pin ++ exclusions ++ String.join live

end Domain

end GuardedCalls
