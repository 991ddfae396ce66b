/-
GuardedCalls.Guard — guards of source code as constraints.

A guard is the condition of a `require` statement. The one shape that
narrows an argument is a comparison with the argument on one side and, on
the other, a literal or a getter without arguments. A condition that is
nothing but such a getter is a requirement of the function instead.

* `Operand.ofNode` — what a side of a comparison is.
* `Guard.compile` — the constraint of a condition: there may be none, or
  the condition may hold something that guards are not read from.
* `Requirement.ofNode?` — the requirement of a condition.
* `Node.conditions` — the conditions of all `require` statements below a
  node, in source order.
-/
import GuardedCalls.Constraint
import GuardedCalls.Source.Node

namespace GuardedCalls

open Source

/-! ## Operands -/

/-- A side of a comparison. -/
inductive Operand
  /-- An argument of the function. -/
  | argument (name : String)
  /-- Something that an argument can be compared with. -/
  | bound (b : Bound)
  /-- A call with arguments, or through something else than a name. -/
  | otherCall
  deriving DecidableEq, Repr

/-- The operand of a literal: only numbers and truth values can be
compared with. -/
def Operand.ofLiteral (value hexValue : Option String) (kind : String) (unit : Option String)
    (location : Location) : Except Unsupported Operand :=
  if kind ≠ "number" ∧ kind ≠ "bool" then .error ⟨kind ++ " literal", location.text⟩
  else
    match value, hexValue with
    | some text, _ => .ok (.bound (.literal text unit))
    | none, some hex => .ok (.bound (.literal ("0x" ++ hex) unit))
    | none, none => .error ⟨"literal without value", location.text⟩

/-- What a side of a comparison is, in a function with the given
parameters. A name that is no parameter is a getter. -/
def Operand.ofNode (parameters : List String) (n : Node) : Except Unsupported Operand :=
  match n with
  | .identifier name _ =>
    if name ∈ parameters then .ok (.argument name) else .ok (.bound (.getter name))
  | .literal value hexValue kind unit location =>
    Operand.ofLiteral value hexValue kind unit location
  | .call _ arguments _ =>
    match n.calledName?, arguments with
    | some name, [] => .ok (.bound (.getter name))
    | _, _ => .ok .otherCall
  | n => .error ⟨n.typeName ++ " operand", n.locationText⟩

/-! ## Conditions -/

namespace Guard

/-- The constraint of a comparison, if an argument is compared with a
bound. -/
def ofOperands (comparison : Comparison) (location : Location) : Operand → Operand →
    Option Constraint
  | .argument name, .bound b => some ⟨comparison, b, .guard location [name]⟩
  | .bound b, .argument name => some ⟨comparison.converse, b, .guard location [name]⟩
  | _, _ => none

/-- The constraint of a condition in a function with the given
parameters. -/
def compile (parameters : List String) (condition : Node) :
    Except Unsupported (Option Constraint) :=
  match condition with
  | .binary operator left right location =>
    match Comparison.ofSymbol? operator with
    | none => .error ⟨"binary operator `" ++ operator ++ "`", location.text⟩
    | some comparison =>
      match Operand.ofNode parameters left with
      | .error e => .error e
      | .ok left =>
        match Operand.ofNode parameters right with
        | .error e => .error e
        | .ok right => .ok (ofOperands comparison location left right)
  | .unary operator _ location => .error ⟨"unary operator `" ++ operator ++ "`", location.text⟩
  | .call _ _ _ => .ok none
  | n => .error ⟨n.typeName ++ " guard", n.locationText⟩

end Guard

/-- A getter that has to be true whenever the function is called. -/
structure Requirement where
  /-- The getter. -/
  getter : String
  /-- Where the condition stands. -/
  location : Location
  deriving DecidableEq, Repr

namespace Requirement

/-- The requirement of a condition that is nothing but a getter. -/
def ofNode? (condition : Node) : Option Requirement :=
  match condition with
  | .call _ [] location => condition.calledName?.map fun getter => ⟨getter, location⟩
  | _ => none

/-- The getter is true now: it is read, and is not zero. -/
def holds {σ : Type} (view : StateView σ) (p : Requirement) :
    EStateM ViewError σ Bool := fun s =>
  match view p.getter s with
  | .ok v s => .ok (decide (v ≠ Scalar.zero)) s
  | .error e s => .error e s

end Requirement

/-! ## Function bodies -/

/-- The name of the function that guards are calls of. -/
def guardFunction : String := "require"

/-- The condition of an expression that calls the guard function. -/
def Source.Node.condition? : Node → Option Node
  | .call (.identifier name _) (condition :: _) _ =>
    if name = guardFunction then some condition else none
  | _ => none

namespace Source.Node

mutual

/-- The conditions of the guard statements below a node, in source
order. -/
def conditions : Node → List Node
  | .sourceUnit nodes => conditionsOfAll nodes
  | .contract _ nodes => conditionsOfAll nodes
  | .function _ body => conditionsOfSome body
  | .block statements => conditionsOfAll statements
  | .uncheckedBlock statements => conditionsOfAll statements
  | .expressionStatement expression => expression.condition?.toList
  | .ifStatement _ thenBody elseBody => conditions thenBody ++ conditionsOfSome elseBody
  | .forStatement body => conditions body
  | .whileStatement body => conditions body
  | .doWhileStatement body => conditions body
  | _ => []

/-- The conditions below each of some nodes. -/
def conditionsOfAll : List Node → List Node
  | [] => []
  | n :: ns => conditions n ++ conditionsOfAll ns

/-- The conditions below a node that may not be there. -/
def conditionsOfSome : Option Node → List Node
  | none => []
  | some n => conditions n

end

end Source.Node

/-- The constraint of a condition that is no requirement. -/
def Guard.constraint? (parameters : List String) (condition : Node) : Option Constraint :=
  match Requirement.ofNode? condition with
  | some _ => none
  | none => (Guard.compile parameters condition).toOption.join

namespace Source.FunctionDefinition

/-- The conditions of the guards of a function, in source order. -/
def conditions (f : FunctionDefinition) : List Node := Node.conditionsOfSome f.body

/-- The constraints that the guards of a function put on its arguments;
guards that cannot be read are passed over. -/
def guards (f : FunctionDefinition) : List Constraint :=
  f.conditions.filterMap (Guard.constraint? f.namedParameters)

/-- The requirements that the guards of a function state. -/
def requirements (f : FunctionDefinition) : List Requirement :=
  f.conditions.filterMap Requirement.ofNode?

end Source.FunctionDefinition

end GuardedCalls
