/-
GuardedCalls.Contract.View — reading numbers off a contract by calling
it.

* `Getter`, `Interface.getters` — the functions that change nothing, one
  a name: of overloads the one without arguments.
* `ContractView` — a contract in an environment, and how it is called;
  `ContractView.read` — the view that calls a getter and decodes the
  first thing it returns. What can be seen to fail beforehand is not
  called at all.
-/
import GuardedCalls.Abi.Decoding
import GuardedCalls.Abi.Type.Reader
import GuardedCalls.Contract.Interface
import GuardedCalls.StateView
import GuardedCalls.Text.Hex

namespace GuardedCalls

/-- A function that is read from. -/
structure Getter where
  /-- What it is called by. -/
  selector : Selector
  /-- It cannot be called without arguments. -/
  takesArguments : Bool
  /-- The type of the first thing it returns. -/
  output : Option String
  deriving DecidableEq, Repr

/-- A function as a getter. -/
def Getter.ofFunction (f : ContractFunction) : Getter :=
  ⟨f.selector, !f.inputs.isEmpty, f.outputs.head?⟩

/-- Adds a getter. A name that is there keeps its getter, unless that
takes arguments and the new one does not. -/
def addGetter (t : Table String Getter) (name : String) (g : Getter) : Table String Getter :=
  match t.get? name with
  | none => t.put name g
  | some old => if old.takesArguments && !g.takesArguments then t.put name g else t

/-- The getters of an interface, by name. -/
def Interface.getters (i : Interface) : Table String Getter :=
  (i.filter (·.isReadOnly)).foldl (fun t f => addGetter t f.name (Getter.ofFunction f)) []

/-- A contract in an environment, and how it is called. -/
structure ContractView (σ : Type) where
  /-- What runs the calls. -/
  environment : Environment σ
  /-- The contract. -/
  target : Address
  /-- Who calls it. -/
  caller : Address
  /-- The gas for each call. -/
  gasLimit : Nat
  /-- Its getters. -/
  getters : Table String Getter

namespace ContractView

variable {σ : Type}

/-- What a getter is called by, and the number type that it returns. -/
def plan (r : ContractView σ) (name : String) :
    Except ViewError (Selector × NumberType) :=
  match r.getters.get? name with
  | none => .error (.unknownGetter name)
  | some getter =>
    if getter.takesArguments then .error (.takesArguments name)
    else match getter.output with
      | none => .error (.noOutput name)
      | some output =>
        match AbiType.ofName output with
        | .error e => .error (.undecodable name e.message)
        | .ok (.number type) => .ok (getter.selector, type)
        | .ok type => .error (.nonNumeric name type.name)

/-- The number in the first thing that a call returned. -/
def number (name : String) (type : NumberType) (output : List UInt8) :
    Except ViewError Scalar :=
  match decodeAll [.number type] output with
  | .error e => .error (.undecodable name e.message)
  | .ok values =>
    match values.head?.bind AbiValue.scalar? with
    | some s => .ok s
    | none => .error (.undecodable name "empty output")

/-- What a call says about the getter. -/
def interpret (name : String) (type : NumberType) (o : Receipt) :
    Except ViewError Scalar :=
  match o.status with
  | .success => number name type o.output
  | .reverted => .error (.reverted name (Text.Hex.text o.output))
  | .halted reason => .error (.halted name reason)

/-- The view that calls getters. -/
def read (r : ContractView σ) : StateView σ := fun name s =>
  match r.plan name with
  | .error e => .error e s
  | .ok (selector, type) =>
    match r.environment r.target selector (.query r.caller r.gasLimit) s with
    | .error e s => .error (.environment name e.message) s
    | .ok o s =>
      match interpret name type o with
      | .ok v => .ok v s
      | .error e => .error e s

end ContractView

end GuardedCalls
