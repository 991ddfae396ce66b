/-
GuardedCalls.Rules — constraints that a rule file lays on argument types.

* `Rule`, `RuleEntry` — a rule is a list of constraints; the rules of a
  type apply all together, or only the first of them.
* `RuleBook` — rules by contract, function and type name. A contract or a
  function may be the wildcard `*`.
* `RuleBook.lookup?` — the rules for a type. A contract that has entries of
  its own does not use those of the wildcard, and a function likewise;
  only where the own entries of a contract lead to nothing is the
  wildcard contract searched.
* `RuleFault`, `InvalidRule` — what is wrong with a rule file, and where.
-/
import GuardedCalls.Abi.Type.Reader
import GuardedCalls.Constraint
import GuardedCalls.Files

namespace GuardedCalls

/-! ## Errors -/

/-- What is wrong with a part of a rule file. -/
inductive RuleFault
  /-- The file cannot be read. -/
  | unreadable (fault : FileFault)
  /-- The text is no document. -/
  | notDocument
  /-- The part is no object. -/
  | notObject
  /-- The part is no array. -/
  | notArray
  /-- The key is no type. -/
  | notType (error : TypeError)
  /-- The entry has no rules. -/
  | noRules
  /-- The selector does not say which. -/
  | noSelectorType
  /-- There is no such selector. -/
  | unknownSelector (name : String)
  /-- The rule does not say which. -/
  | noRuleType
  /-- There is no such rule. -/
  | unknownRule (name : String)
  /-- The rule lacks a parameter. -/
  | missingParameter (rule parameter : String)
  /-- The parameter has no text. -/
  | notScalar
  /-- The rule compares in a way that values of the type do not honour. -/
  | notForType (rule : String) (type : AbiType)
  /-- The parameter is no number of the type. -/
  | notLiteral (error : BadLiteral)
  /-- The parameter lies outside the type. -/
  | outOfRange (text : String) (type : AbiType)
  /-- A constraint was applied to values that do not honour it. -/
  | notForKind (constraint : Constraint) (kind : AbiKind)
  deriving DecidableEq

/-- The wording of a fault. -/
def RuleFault.message : RuleFault → String
  | .unreadable fault => "unreadable: " ++ fault.message
  | .notDocument => "invalid JSON"
  | .notObject => "expected an object"
  | .notArray => "expected an array"
  | .notType error => error.message
  | .noRules => "types must define rules when declared"
  | .noSelectorType => "missing `selector-type`"
  | .unknownSelector name => "unknown selector type `" ++ name ++ "`"
  | .noRuleType => "missing `rule-type`"
  | .unknownRule name => "unknown rule type `" ++ name ++ "`"
  | .missingParameter rule parameter => "`" ++ rule ++ "` requires `" ++ parameter ++ "`"
  | .notScalar => "expected a number or string"
  | .notForType rule type =>
    "`" ++ rule ++ "` does not apply to " ++ type.kind.text ++ " `" ++ type.name ++ "`"
  | .notLiteral error => error.message
  | .outOfRange text type => text ++ " is outside the range of `" ++ type.name ++ "`"
  | .notForKind constraint kind => constraint.text ++ " does not apply to " ++ kind.text

/-- A fault and its place in a rule file. -/
structure InvalidRule where
  /-- The place. -/
  path : String
  /-- The fault. -/
  fault : RuleFault
  deriving DecidableEq

/-- The wording of the error. -/
def InvalidRule.message (e : InvalidRule) : String := e.path ++ ": " ++ e.fault.message

/-! ## Rules -/

/-- A rule. -/
structure Rule where
  /-- Its name. -/
  name : String
  /-- What it says. -/
  constraints : List Constraint
  deriving DecidableEq, Repr

/-- Which rules of a type apply. -/
inductive RuleChoice
  | all
  | first
  deriving DecidableEq, Repr

/-- The name of a choice. -/
def RuleChoice.name : RuleChoice → String
  | .all => "all"
  | .first => "first"

/-- The rules of a type. -/
structure RuleEntry where
  /-- The type. -/
  type : AbiType
  /-- The rules, in the order of the file. -/
  rules : List Rule
  /-- Which of them apply. -/
  selection : RuleChoice
  deriving DecidableEq, Repr

/-- The rules that apply. -/
def RuleEntry.chosen (t : RuleEntry) : List Rule :=
  match t.selection with
  | .all => t.rules
  | .first => t.rules.take 1

/-- The constraints of the rules that apply, in order. -/
def RuleEntry.constraints (t : RuleEntry) : List Constraint :=
  t.chosen.flatMap (·.constraints)

/-- What rules are found by. -/
structure RulePlace where
  contract : String
  function : String
  typeName : String
  deriving DecidableEq, Repr

/-- Stands for every contract, or for every function. -/
def wildcard : String := "*"

/-- Rules by contract, function and type name. -/
structure RuleBook where
  /-- The rules, in the order of the file. -/
  entries : Table RulePlace RuleEntry

namespace RuleBook

/-- No rules. -/
def empty : RuleBook := ⟨[]⟩

/-- How many entries there are. -/
def size (r : RuleBook) : Nat := r.entries.length

/-- The contract has entries. -/
def hasContract (r : RuleBook) (contract : String) : Bool :=
  r.entries.any fun e => e.1.contract = contract

/-- The function of the contract has entries. -/
def hasFunction (r : RuleBook) (contract function : String) : Bool :=
  r.entries.any fun e => e.1.contract = contract ∧ e.1.function = function

/-- A name if it is known, else the wildcard if that is. -/
def orWildcard? (known : String → Bool) (name : String) : Option String :=
  if known name then some name else if known wildcard then some wildcard else none

/-- The rules under the entries that a contract and a function lead to,
for the first of some type names that has any. -/
def entryFor? (r : RuleBook) (contract function : String) (names : List String) :
    Option RuleEntry := do
  let contract ← orWildcard? r.hasContract contract
  let function ← orWildcard? (r.hasFunction contract) function
  names.findSome? fun name => r.entries.get? ⟨contract, function, name⟩

/-- The rules for a type in a function of a contract. -/
def lookup? (r : RuleBook) (contract function : String) (type : AbiType) : Option RuleEntry :=
  r.entryFor? contract function type.lookupNames <|> r.entryFor? wildcard function type.lookupNames

end RuleBook

end GuardedCalls
