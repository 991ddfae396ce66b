/-
GuardedCalls.Contract.Interface — the functions of a contract.

* `ContractFunction` — a function with its parameters, its results and
  what it may do to the state.
* `ContractFunction.selector` — the first four bytes of the hash of its
  name and the types of its parameters.
* `Interface` — the functions of a contract by name, overloads in the
  order in which they are listed.
-/
import GuardedCalls.Hash.Keccak
import GuardedCalls.Message
import GuardedCalls.Text.Utf8

namespace GuardedCalls

/-- What a function may do to the state. -/
inductive Mutability
  /-- Neither read nor write it. -/
  | pure
  /-- Read it. -/
  | view
  /-- Write it, without taking money. -/
  | nonpayable
  /-- Write it and take money. -/
  | payable
  deriving DecidableEq, Repr

/-- A parameter of a function: its name, which may be empty, and the name
of its type, in which tuples are spelled out. -/
structure ContractParameter where
  name : String
  type : String
  deriving DecidableEq, Repr

/-- A function of a contract. -/
structure ContractFunction where
  name : String
  /-- What it takes. -/
  inputs : List ContractParameter
  /-- The types of what it returns. -/
  outputs : List String
  /-- What it may do to the state. -/
  mutability : Mutability
  deriving DecidableEq, Repr

namespace ContractFunction

/-- The name and the types of the parameters. -/
def signature (f : ContractFunction) : String :=
  f.name ++ "(" ++ ",".intercalate (f.inputs.map (·.type)) ++ ")"

/-- What the function is called by. -/
def selector (f : ContractFunction) : Selector :=
  BitVec.ofNat 32
    (ofBigEndian ((Hash.keccak256 (Text.Utf8.encodeText f.signature)).take 4))

/-- The function changes nothing. -/
def isReadOnly (f : ContractFunction) : Bool :=
  f.mutability = .view ∨ f.mutability = .pure

/-- Calls of the function may carry money. -/
def isPayable (f : ContractFunction) : Bool := f.mutability = .payable

end ContractFunction

/-- The functions of a contract, in the order of their names. -/
abbrev Interface := List ContractFunction

namespace Interface

/-- Listed functions in the order of their names; overloads keep theirs. -/
def ofList (functions : List ContractFunction) : Interface :=
  functions.mergeSort fun f g => f.name ≤ g.name

/-- The overloads of a name. -/
def overloads (i : Interface) (name : String) : List ContractFunction :=
  i.filter (·.name = name)

end Interface

end GuardedCalls
