/-
GuardedCalls.Rules.Reader — rule books from rule files.

A rule file is a document of contracts, in each of them functions, in
each of those types with their rules. Every rule is checked against its
type when it is read, so constraints that are read apply to values of the
type. The first fault in the order of the keys is reported, with its
place.

* `RuleBook.ofDocument`, `RuleBook.ofText`, `RuleBook.ofFile` — the rules
  of a document, of its text and of a file with that text.
* `comparisonsOf?` — what each rule compares, and with which parameters.
-/
import GuardedCalls.Domain
import GuardedCalls.Json.Reader
import GuardedCalls.Rules
import GuardedCalls.Text.Utf8

namespace GuardedCalls

namespace RuleBook

/-- The members of an object at a place. -/
def membersAt (path : String) (j : Json) : Except InvalidRule (List (String × Json)) :=
  match j.members? with
  | some members => .ok members
  | none => .error ⟨path, .notObject⟩

/-- The text under a key, if it is a text. -/
def textOf? (key : String) (members : List (String × Json)) : Option String :=
  match Json.lookup? key members with
  | some (.string s) => some s
  | _ => none

/-! ## Rules -/

/-- What a rule compares values with: each comparison with the name of
the parameter that is its bound. -/
def comparisonsOf? : String → Option (List (Comparison × String))
  | "limits" => some [(.greaterOrEqual, "min"), (.lessOrEqual, "max")]
  | "constant" => some [(.equal, "value")]
  | "not-equal" => some [(.notEqual, "value")]
  | "greater-than" => some [(.greater, "min")]
  | "greater-than-equal" => some [(.greaterOrEqual, "min")]
  | "less-than" => some [(.less, "max")]
  | "less-than-equal" => some [(.lessOrEqual, "max")]
  | _ => none

/-- The text of a parameter. Numbers and truth values are written out. -/
def parameterText (path rule : String) (members : List (String × Json)) (parameter : String) :
    Except InvalidRule String :=
  match Json.lookup? parameter members with
  | some (.number n) => .ok n.text
  | some (.string s) => .ok s
  | some (.bool b) => .ok (if b then "true" else "false")
  | some _ => .error ⟨path ++ "." ++ parameter, .notScalar⟩
  | none => .error ⟨path ++ "." ++ parameter, .missingParameter rule parameter⟩

/-- The number is one of the type. A type without numbers is measured by
the range of truth values. -/
def inRange (type : AbiType) (v : Scalar) : Bool :=
  match type with
  | .number type => (Domain.ofType type).isInType v
  | _ => (Domain.ofType .bool).isInType v

/-- The constraint of a comparison with a text, checked against the
type. -/
def checkedConstraint (path rule : String) (type : AbiType) (comparison : Comparison)
    (text : String) : Except InvalidRule Constraint :=
  if type.kind.honours comparison then
    match Scalar.ofLiteral text none type.decimals with
    | .error e => .error ⟨path, .notLiteral e⟩
    | .ok v =>
      if inRange type v then .ok ⟨comparison, .literal text none, .rule rule⟩
      else .error ⟨path, .outOfRange text type⟩
  else .error ⟨path, .notForType rule type⟩

/-- A rule of a type. All its parameters are looked up before any of them
is checked. -/
def readRule (type : AbiType) (path : String) (j : Json) : Except InvalidRule Rule := do
  let members ← membersAt path j
  match textOf? "rule-type" members with
  | none => .error ⟨path, .noRuleType⟩
  | some rule =>
    match comparisonsOf? rule with
    | none => .error ⟨path, .unknownRule rule⟩
    | some comparisons =>
      let parts ← comparisons.mapM fun (comparison, parameter) => do
        return (comparison, ← parameterText path rule members parameter)
      let constraints ← parts.mapM fun (comparison, text) =>
        checkedConstraint path rule type comparison text
      return ⟨rule, constraints⟩

/-- Rules from a number on, each at its place. -/
def readRules (type : AbiType) (path : String) : Nat → List Json → Except InvalidRule (List Rule)
  | _, [] => return []
  | i, j :: js => do
    let rule ← readRule type (path ++ ".rules[" ++ Nat.repr i ++ "]") j
    return rule :: (← readRules type path (i + 1) js)

/-! ## Entries -/

/-- Which rules a selector chooses. -/
def readSelection (path : String) : Option Json → Except InvalidRule RuleChoice
  | none => .ok .all
  | some .null => .ok .all
  | some j => do
    match textOf? "selector-type" (← membersAt path j) with
    | none => .error ⟨path, .noSelectorType⟩
    | some "all" => .ok .all
    | some "first" => .ok .first
    | some name => .error ⟨path, .unknownSelector name⟩

/-- The rules of a type. -/
def readEntry (path typeName : String) (j : Json) : Except InvalidRule RuleEntry := do
  match AbiType.ofName typeName with
  | .error e => .error ⟨path, .notType e⟩
  | .ok type =>
    let members ← membersAt path j
    match Json.lookup? "rules" members with
    | none => .error ⟨path, .noRules⟩
    | some (.array items) =>
      let selection ← readSelection (path ++ ".selector") (Json.lookup? "selector" members)
      return ⟨type, ← readRules type path 0 items, selection⟩
    | some _ => .error ⟨path ++ ".rules", .notArray⟩

/-- The entries of the types of a function. -/
def readTypes (contract function : String) (j : Json) :
    Except InvalidRule (List (RulePlace × RuleEntry)) := do
  let path := contract ++ "." ++ function
  (← membersAt path j).mapM fun (typeName, entry) => do
    return (⟨contract, function, typeName⟩, ← readEntry (path ++ "." ++ typeName) typeName entry)

/-- The entries of the functions of a contract. -/
def readFunctions (contract : String) (j : Json) :
    Except InvalidRule (List (RulePlace × RuleEntry)) := do
  let entries ← (← membersAt contract j).mapM fun (function, types) =>
    readTypes contract function types
  return entries.flatten

/-- The rules of a document. Of a key that is given twice, the last value
counts. -/
def ofDocument (j : Json) : Except InvalidRule RuleBook := do
  let entries ← (← membersAt "$" j.canonical).mapM fun (contract, functions) =>
    readFunctions contract functions
  return ⟨entries.flatten⟩

/-- The rules of the text of a document. -/
def ofText (text : String) : Except InvalidRule RuleBook :=
  match Json.ofText? text with
  | none => .error ⟨"$", .notDocument⟩
  | some j => ofDocument j

/-- The rules of the file at a path, given its bytes or why there are
none. -/
def ofFile (path : String) (content : Except FileFault (List UInt8)) :
    Except InvalidRule RuleBook :=
  match content with
  | .error fault => .error ⟨path, .unreadable fault⟩
  | .ok bytes =>
    match Text.Utf8.decode? bytes with
    | none => .error ⟨path, .unreadable .notText⟩
    | some text => ofText text

end RuleBook

end GuardedCalls
