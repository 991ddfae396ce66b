/-
GuardedCalls.Source.Node.Reader — syntax trees from documents.

A node is an object with a `nodeType` and the fields of that type; other
fields are passed over, and a type that is not listed gives an `unknown`
node. A record may also be given as an array of its fields in order,
where fields at the end may be left out if they have a default; a node in
this form begins with its type. Within a node, the type of another node
may be given by its place in the list of types.

* `Record` — the fields of a record, in either form. The three readers of
  a field say what absence means: `required`, `withDefault`, `optional`.
  Only an optional field may be `null`.
* `Node.ofJson?`, `FunctionDefinition.ofJson?` — the tree of a document.
* `Node.ofText`, `FunctionDefinition.ofText` — the tree of the text of a
  document. A node is read as a whole before its type is looked up; a
  function definition is read field by field (`FunctionDefinition.shape`).
-/
import GuardedCalls.Json.Shape
import GuardedCalls.Source.Node

namespace GuardedCalls.Source

/-! ## Records -/

/-- The fields of a record by name; `none` where a field is absent. -/
abbrev Record := List (String × Option Json)

namespace Record

/-- The fields of an array in order. -/
def ofItems? : List String → List Json → Option Record
  | [], [] => some []
  | [], _ :: _ => none
  | name :: names, [] => do some ((name, none) :: (← ofItems? names []))
  | name :: names, item :: items => do some ((name, some item) :: (← ofItems? names items))

/-- The value of a key that is given at most once. -/
def single? (name : String) (members : List (String × Json)) : Option (Option Json) :=
  match members.filter fun m => m.1 = name with
  | [] => some none
  | [m] => some (some m.2)
  | _ => none

/-- The fields of a document that is a record with the given names, none
of them given twice. -/
def ofJson? (names : List String) : Json → Option Record
  | .object members => names.mapM fun name => do some (name, ← single? name members)
  | .array items => ofItems? names items
  | _ => none

/-- The document of a field, if it is there. -/
def field? (r : Record) (name : String) : Option Json :=
  (r.find? fun f => f.1 == name).bind (·.2)

/-- A field that has to be there. -/
def required {α : Type} (r : Record) (name : String) (read : Json → Option α) : Option α :=
  (r.field? name).bind read

/-- A field that takes a value of its own when it is absent. -/
def withDefault {α : Type} (r : Record) (name : String) (value : α) (read : Json → Option α) :
    Option α :=
  match r.field? name with
  | none => some value
  | some j => read j

/-- A field that may be absent or `null`. -/
def optional {α : Type} (r : Record) (name : String) (read : Json → Option α) :
    Option (Option α) :=
  match r.field? name with
  | none => some none
  | some .null => some none
  | some j => (read j).map some

end Record

/-- A document that is a text. -/
def text? : Json → Option String
  | .string s => some s
  | _ => none

/-- A document that is a place. -/
def place? (j : Json) : Option Location := (text? j).map Location.ofText

/-- A document that is an array of documents of one kind. -/
def list? {α : Type} (read : Json → Option α) : Json → Option (List α)
  | .array items => items.mapM read
  | _ => none

/-! ## Function heads -/

/-- A parameter. -/
def Parameter.ofJson? (j : Json) : Option Parameter := do
  let r ← Record.ofJson? ["name", "typeDescriptions"] j
  let name ← r.withDefault "name" "" text?
  let type ← r.optional "typeDescriptions" fun d => do
    (← Record.ofJson? ["typeString"] d).optional "typeString" text?
  some ⟨name, type.join⟩

/-- A parameter list. -/
def parameters? (j : Json) : Option (List Parameter) := do
  (← Record.ofJson? ["parameters"] j).withDefault "parameters" [] (list? Parameter.ofJson?)

/-- The names of the fields of a function definition. -/
def FunctionDefinition.fields : List String := ["name", "kind", "parameters", "body", "src"]

/-- The head of a function definition. -/
def FunctionHead.ofRecord? (r : Record) : Option FunctionHead := do
  let name ← r.required "name" text?
  let kind ← r.optional "kind" text?
  let parameters ← r.required "parameters" parameters?
  let location ← r.withDefault "src" Location.none place?
  some ⟨name, kind, parameters, location⟩

/-! ## Nodes -/

namespace Node

/-- The listed types of nodes, in order. -/
def typeNames : List String :=
  ["SourceUnit", "ContractDefinition", "FunctionDefinition", "Block", "UncheckedBlock",
   "ExpressionStatement", "IfStatement", "ForStatement", "WhileStatement", "DoWhileStatement",
   "FunctionCall", "BinaryOperation", "UnaryOperation", "Identifier", "Literal"]

/-- The name of a type of node: a text, or within a node a number. -/
def tag? (inner : Bool) : Json → Option String
  | .string s => some s
  | .number (.integer n) => if inner ∧ 0 ≤ n then some (typeNames.getD n.toNat "") else none
  | _ => none

/-- The type of a node and a document with the fields of that type. -/
def tagged? (inner : Bool) : Json → Option (String × Json)
  | .object members => do
    some (← tag? inner (← (← Record.single? "nodeType" members)), .object members)
  | .array (tag :: items) => do some (← tag? inner tag, .array items)
  | _ => none

/-- The tree of a document that nests at most so many nodes. -/
def read (inner : Bool) : Nat → Json → Option Node
  | 0, _ => none
  | fuel + 1, j => do
    let node := read true fuel
    let nodes := list? node
    let (tag, body) ← tagged? inner j
    let place (r : Record) := r.withDefault "src" Location.none place?
    match tag with
    | "SourceUnit" =>
      let r ← Record.ofJson? ["nodes"] body
      some (.sourceUnit (← r.withDefault "nodes" [] nodes))
    | "ContractDefinition" =>
      let r ← Record.ofJson? ["name", "nodes"] body
      some (.contract (← r.required "name" text?) (← r.withDefault "nodes" [] nodes))
    | "FunctionDefinition" =>
      let r ← Record.ofJson? FunctionDefinition.fields body
      some (.function (← FunctionHead.ofRecord? r) (← r.optional "body" node))
    | "Block" =>
      let r ← Record.ofJson? ["statements"] body
      some (.block (← r.withDefault "statements" [] nodes))
    | "UncheckedBlock" =>
      let r ← Record.ofJson? ["statements"] body
      some (.uncheckedBlock (← r.withDefault "statements" [] nodes))
    | "ExpressionStatement" =>
      let r ← Record.ofJson? ["expression"] body
      some (.expressionStatement (← r.required "expression" node))
    | "IfStatement" =>
      let r ← Record.ofJson? ["condition", "trueBody", "falseBody"] body
      some (.ifStatement (← r.required "condition" node) (← r.required "trueBody" node)
        (← r.optional "falseBody" node))
    | "ForStatement" =>
      let r ← Record.ofJson? ["body"] body
      some (.forStatement (← r.required "body" node))
    | "WhileStatement" =>
      let r ← Record.ofJson? ["body"] body
      some (.whileStatement (← r.required "body" node))
    | "DoWhileStatement" =>
      let r ← Record.ofJson? ["body"] body
      some (.doWhileStatement (← r.required "body" node))
    | "FunctionCall" =>
      let r ← Record.ofJson? ["expression", "arguments", "src"] body
      some (.call (← r.required "expression" node) (← r.withDefault "arguments" [] nodes)
        (← place r))
    | "BinaryOperation" =>
      let r ← Record.ofJson? ["operator", "leftExpression", "rightExpression", "src"] body
      some (.binary (← r.required "operator" text?) (← r.required "leftExpression" node)
        (← r.required "rightExpression" node) (← place r))
    | "UnaryOperation" =>
      let r ← Record.ofJson? ["operator", "subExpression", "src"] body
      some (.unary (← r.required "operator" text?) (← r.required "subExpression" node)
        (← place r))
    | "Identifier" =>
      let r ← Record.ofJson? ["name", "src"] body
      some (.identifier (← r.required "name" text?) (← place r))
    | "Literal" =>
      let r ← Record.ofJson? ["value", "hexValue", "kind", "subdenomination", "src"] body
      some (.literal (← r.optional "value" text?) (← r.optional "hexValue" text?)
        (← r.required "kind" text?) (← r.optional "subdenomination" text?) (← place r))
    | _ =>
      match body with
      | .array (_ :: _) => none
      | _ => some .unknown

end Node

/-- The tree of a document. Each node is an array or object of its own,
so the nesting of the document bounds that of the nodes. -/
def Node.ofJson? (j : Json) : Option Node := Node.read false (j.depth + 1) j

/-- What the document of a node has to be. -/
def Node.shape : Json.Shape := .tested (.tagged "nodeType") fun j => (Node.ofJson? j).isSome

/-- The value of a reading that passed the test for one. -/
def orShapeFault {α : Type} : Option α → Except Json.Fault α
  | some a => .ok a
  | none => .error .shape

/-- The tree of the text of a document. -/
def Node.ofText (text : String) : Except Json.Fault Node := do
  orShapeFault (Node.ofJson? (← Node.shape.ofText text))

/-- The function definition of a document, which need not say that it is
one. -/
def FunctionDefinition.ofJson? (j : Json) : Option FunctionDefinition := do
  let r ← Record.ofJson? FunctionDefinition.fields j
  let head ← FunctionHead.ofRecord? r
  some ⟨head, ← r.optional "body" Node.ofJson?⟩

/-- What the document of a parameter has to be. -/
def Parameter.shape : Json.Shape :=
  .record [("name", false, .text),
    ("typeDescriptions", false, .optional (.record [("typeString", false, .optional .text)]))]

/-- What the document of a function definition has to be. -/
def FunctionDefinition.shape : Json.Shape :=
  .record [("name", true, .text), ("kind", false, .optional .text),
    ("parameters", true, .record [("parameters", false, .list Parameter.shape)]),
    ("body", false, .optional Node.shape), ("src", false, .text)]

/-- The function definition of the text of a document. -/
def FunctionDefinition.ofText (text : String) : Except Json.Fault FunctionDefinition := do
  orShapeFault (FunctionDefinition.ofJson? (← FunctionDefinition.shape.ofText text))

end GuardedCalls.Source
