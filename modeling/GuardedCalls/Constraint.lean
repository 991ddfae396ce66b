/-
GuardedCalls.Constraint — comparisons that narrow the values of an
argument.

* `Comparison` — the six comparisons, their symbols and converses.
* `AbiKind.honours` — which comparisons the values of a sort can honour:
  all of them for numbers and accounts, equality and inequality for truth
  values, none for the rest.
* `Bound` — what a value is compared with: a literal, or a getter that is
  read anew whenever the bound is needed.
* `Constraint` — a comparison, a bound, and where it comes from.
* `Constraint.boundValue` — the number of the bound. A literal that does not
  parse is an unsupported construct; reading a getter may fail.
-/
import GuardedCalls.Abi.Type
import GuardedCalls.Scalar.Literal
import GuardedCalls.Source.Location
import GuardedCalls.StateView

namespace GuardedCalls

/-! ## Comparisons -/

/-- A comparison of an argument with a bound. -/
inductive Comparison
  | equal
  | notEqual
  | greater
  | greaterOrEqual
  | less
  | lessOrEqual
  deriving DecidableEq, Repr

namespace Comparison

/-- All comparisons. -/
def all : List Comparison := [.equal, .notEqual, .greater, .greaterOrEqual, .less, .lessOrEqual]

/-- The operator that stands for a comparison. -/
def symbol : Comparison → String
  | .equal => "=="
  | .notEqual => "!="
  | .greater => ">"
  | .greaterOrEqual => ">="
  | .less => "<"
  | .lessOrEqual => "<="

/-- The comparison of an operator. -/
def ofSymbol? (symbol : String) : Option Comparison := all.find? fun c => c.symbol == symbol

/-- The comparison with its sides exchanged. -/
def converse : Comparison → Comparison
  | .equal => .equal
  | .notEqual => .notEqual
  | .greater => .less
  | .greaterOrEqual => .lessOrEqual
  | .less => .greater
  | .lessOrEqual => .greaterOrEqual

/-- The comparison speaks about order. -/
def isOrder : Comparison → Bool
  | .equal => false
  | .notEqual => false
  | _ => true

/-- Two numbers stand in the comparison. -/
def holds : Comparison → Scalar → Scalar → Bool
  | .equal, a, b => a = b
  | .notEqual, a, b => a ≠ b
  | .greater, a, b => b < a
  | .greaterOrEqual, a, b => b ≤ a
  | .less, a, b => a < b
  | .lessOrEqual, a, b => a ≤ b

end Comparison

/-- The values of a sort can honour a comparison. -/
def AbiKind.honours : AbiKind → Comparison → Bool
  | .unsigned, _ => true
  | .signed, _ => true
  | .fixedPoint, _ => true
  | .address, _ => true
  | .bool, c => !c.isOrder
  | _, _ => false

/-! ## Bounds and constraints -/

/-- What a value is compared with. -/
inductive Bound
  /-- A literal with an optional unit. -/
  | literal (text : String) (unit : Option String)
  /-- A getter without arguments. -/
  | getter (name : String)
  deriving DecidableEq, Repr

/-- The bound is read from state. -/
def Bound.readsState : Bound → Bool
  | .literal _ _ => false
  | .getter _ => true

/-- The text of a bound. -/
def Bound.text : Bound → String
  | .literal text none => text
  | .literal text (some unit) => text ++ " " ++ unit
  | .getter name => name ++ "()"

/-- Where a constraint comes from. -/
inductive Origin
  /-- A guard in source code, and the arguments that it speaks about. -/
  | guard (location : Source.Location) (arguments : List String)
  /-- A rule of a rule file. -/
  | rule (type : String)
  deriving DecidableEq, Repr

/-- A comparison with a bound that narrows the values of an argument. -/
structure Constraint where
  /-- How values are compared. -/
  comparison : Comparison
  /-- What they are compared with. -/
  bound : Bound
  /-- Where the constraint comes from. -/
  origin : Origin
  deriving DecidableEq, Repr

/-- Something in source code that guards are not read from, and where it
stands. -/
structure Unsupported where
  /-- What it is. -/
  construct : String
  /-- Where it stands. -/
  location : String
  deriving DecidableEq, Repr

/-- The wording of the error. -/
def Unsupported.message (u : Unsupported) : String := u.construct ++ " at " ++ u.location

/-- Why a bound has no number. -/
inductive BoundError
  /-- The literal does not parse. -/
  | literal (error : BadLiteral) (location : String)
  /-- The getter has no answer. -/
  | read (error : ViewError)
  deriving DecidableEq, Repr

namespace Constraint

/-- The arguments that a constraint speaks about; rules name none. -/
def arguments (c : Constraint) : List String :=
  match c.origin with
  | .guard _ arguments => arguments
  | .rule _ => []

/-- Where the constraint stands. -/
def location (c : Constraint) : String :=
  match c.origin with
  | .guard location _ => location.text
  | .rule type => "rule `" ++ type ++ "`"

/-- The text of a constraint. -/
def text (c : Constraint) : String :=
  match c.origin with
  | .guard location arguments =>
    ",".intercalate arguments ++ " " ++ c.comparison.symbol ++ " " ++ c.bound.text ++ " @" ++
      location.text
  | .rule type => type ++ ": " ++ c.comparison.symbol ++ " " ++ c.bound.text

/-- The values of a type can honour the constraint. -/
def appliesTo (c : Constraint) (type : AbiType) : Bool := type.kind.honours c.comparison

/-- The number of the bound, for a target with `decimals` digits after
the point. A getter is read each time. -/
def boundValue {σ : Type} (view : StateView σ) (c : Constraint) (decimals : Nat) :
    EStateM BoundError σ Scalar := fun s =>
  match c.bound with
  | .literal text unit =>
    match Scalar.ofLiteral text unit decimals with
    | .ok v => .ok v s
    | .error e => .error (.literal e c.location) s
  | .getter name =>
    match view name s with
    | .ok v s => .ok v s
    | .error e s => .error (.read e) s

end Constraint

end GuardedCalls
