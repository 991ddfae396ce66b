/-
GuardedCalls.Source.Node — the syntax trees that guards are read from.

A tree keeps what the reading of guards looks at and nothing else: a
node of any other type is `unknown` and has no children.

* `Node.statements` — the children of a node that are statements.
  Expressions are not entered.
* `Node.calledName?` — the name that a call goes through, if it is a plain
  one.
* `FunctionDefinition.namedParameters` — the names that guards can speak
  about.
-/
import GuardedCalls.Source.Location

namespace GuardedCalls.Source

/-- A parameter of a function. -/
structure Parameter where
  /-- Its name, empty if it has none. -/
  name : String
  /-- The text of its type, if the tree tells. -/
  type : Option String
  deriving DecidableEq, Repr

/-- What a function definition says in front of its body. -/
structure FunctionHead where
  /-- The name, empty for functions without one. -/
  name : String
  /-- What sort of function it is, if the tree tells. -/
  kind : Option String
  /-- The parameters in order. -/
  parameters : List Parameter
  /-- The place of the definition. -/
  location : Location
  deriving DecidableEq, Repr

/-- A node of a syntax tree. -/
inductive Node
  | sourceUnit (nodes : List Node)
  | contract (name : String) (nodes : List Node)
  | function (head : FunctionHead) (body : Option Node)
  | block (statements : List Node)
  | uncheckedBlock (statements : List Node)
  | expressionStatement (expression : Node)
  | ifStatement (condition thenBody : Node) (elseBody : Option Node)
  | forStatement (body : Node)
  | whileStatement (body : Node)
  | doWhileStatement (body : Node)
  | call (function : Node) (arguments : List Node) (location : Location)
  | binary (operator : String) (left right : Node) (location : Location)
  | unary (operator : String) (operand : Node) (location : Location)
  | identifier (name : String) (location : Location)
  | literal (value hexValue : Option String) (kind : String) (unit : Option String)
      (location : Location)
  | unknown
  deriving Repr

/-- A function definition with its body, if it has one. -/
structure FunctionDefinition where
  /-- What stands in front of the body. -/
  head : FunctionHead
  /-- The body. -/
  body : Option Node
  deriving Repr

namespace Node

/-- The name of the type of a node. -/
def typeName : Node → String
  | .sourceUnit _ => "SourceUnit"
  | .contract _ _ => "ContractDefinition"
  | .function _ _ => "FunctionDefinition"
  | .block _ => "Block"
  | .uncheckedBlock _ => "UncheckedBlock"
  | .expressionStatement _ => "ExpressionStatement"
  | .ifStatement _ _ _ => "IfStatement"
  | .forStatement _ => "ForStatement"
  | .whileStatement _ => "WhileStatement"
  | .doWhileStatement _ => "DoWhileStatement"
  | .call _ _ _ => "FunctionCall"
  | .binary _ _ _ _ => "BinaryOperation"
  | .unary _ _ _ => "UnaryOperation"
  | .identifier _ _ => "Identifier"
  | .literal _ _ _ _ _ => "Literal"
  | .unknown => "unrecognised node"

/-- The place of a node; statements and declarations other than functions
have none. -/
def location? : Node → Option Location
  | .function head _ => some head.location
  | .call _ _ location => some location
  | .binary _ _ _ location => some location
  | .unary _ _ location => some location
  | .identifier _ location => some location
  | .literal _ _ _ _ location => some location
  | _ => none

/-- The text of the place of a node, empty if it has none. -/
def locationText (n : Node) : String := (n.location?.map Location.text).getD ""

/-- The children of a node that are statements, in source order. -/
def statements : Node → List Node
  | .sourceUnit nodes => nodes
  | .contract _ nodes => nodes
  | .function _ body => body.toList
  | .block statements => statements
  | .uncheckedBlock statements => statements
  | .ifStatement _ thenBody elseBody => thenBody :: elseBody.toList
  | .forStatement body => [body]
  | .whileStatement body => [body]
  | .doWhileStatement body => [body]
  | _ => []

/-- The name that a call goes through, if it goes through a plain one. -/
def calledName? : Node → Option String
  | .call (.identifier name _) _ _ => some name
  | _ => none

end Node

/-- The names of the parameters that have one. -/
def FunctionDefinition.namedParameters (f : FunctionDefinition) : List String :=
  (f.head.parameters.map (·.name)).filter (· ≠ "")

end GuardedCalls.Source
