/-
GuardedCalls.Contract.Interface.Reader — interfaces from documents.

An interface is an array of entries. Those that say they are functions
have a name, inputs and outputs, and say what they may do to the state;
other entries are passed over. What a function may do stands as a name, or
as an object with nothing under that name. Older interfaces say it in two
truth values instead, `payable` and `constant`, of which one at most is
true.

A parameter is an object of its fields, or an array of them in order, of
which the last may be left out. The type of a parameter with components is
spelled out from them.

* `Interface.ofJson?` — the interface of a document.
-/
import GuardedCalls.Contract.Interface
import GuardedCalls.Json

namespace GuardedCalls

namespace Interface

/-- The text of a field. -/
def text? (j : Json) (key : String) : Option String :=
  match j.get? key with
  | some (.string s) => some s
  | _ => none

/-- The items of a field; none if it is absent. -/
def items (j : Json) (key : String) : List Json :=
  match j.get? key with
  | some (.array items) => items
  | _ => []

/-! ## Parameters -/

/-- The fields of a parameter, in order. -/
def parameterFields : List String := ["name", "type", "indexed", "internalType", "components"]

/-- A parameter as an object of its fields. -/
def asObject : Json → Json
  | .array values => .object (parameterFields.zip values)
  | j => j

/-- What follows the word for a tuple in the name of a type. -/
def tupleSuffix (type : String) : String :=
  if type.startsWith "tuple" then (type.drop 5).toString else ""

/-- The name of the type of a parameter that nests at most so deep. -/
def typeName : Nat → Json → Option String
  | 0, _ => none
  | fuel + 1, j => do
    let type ← text? (asObject j) "type"
    match items (asObject j) "components" with
    | [] => return type
    | components =>
      let names ← components.mapM (typeName fuel)
      return "(" ++ ",".intercalate names ++ ")" ++ tupleSuffix type

/-- A parameter. -/
def parameter? (j : Json) : Option ContractParameter := do
  return ⟨(text? (asObject j) "name").getD "", ← typeName (j.depth + 1) j⟩

/-! ## Functions -/

/-- What a name says that a function may do to the state. -/
def mutabilityOfName? : String → Option Mutability
  | "pure" => some .pure
  | "view" => some .view
  | "nonpayable" => some .nonpayable
  | "payable" => some .payable
  | _ => none

/-- A field is true. -/
def holds (j : Json) (key : String) : Bool :=
  match j.get? key with
  | some (.bool b) => b
  | _ => false

/-- What the two truth values of older interfaces say that a function may
do to the state. -/
def olderMutability? (j : Json) : Option Mutability :=
  match holds j "payable", holds j "constant" with
  | true, true => none
  | true, false => some .payable
  | false, true => some .view
  | false, false => some .nonpayable

/-- What a function may do to the state. -/
def mutability? (j : Json) : Option Mutability :=
  match j.get? "stateMutability" with
  | some (.string name) => mutabilityOfName? name
  | some (.object [(name, _)]) => mutabilityOfName? name
  | _ => olderMutability? j

/-- A function. -/
def function? (j : Json) : Option ContractFunction := do
  let name ← text? j "name"
  let inputs ← (items j "inputs").mapM parameter?
  let outputs ← (items j "outputs").mapM parameter?
  let mutability ← mutability? j
  return ⟨name, inputs, outputs.map (·.type), mutability⟩

/-- The interface of a document. -/
def ofJson? : Json → Option Interface
  | .array entries => do
    let functions := entries.filter fun e => text? e "type" == some "function"
    return ofList (← functions.mapM function?)
  | _ => none

end Interface

end GuardedCalls
