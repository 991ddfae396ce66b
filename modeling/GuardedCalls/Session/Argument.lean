/-
GuardedCalls.Session.Argument — arguments at random.

The space of an argument is assembled when it is first asked for; from then on
the same space is drawn from. Bounds that are read from state are
read anew for every value.

* `Session.argument` — the next value of an argument.
* `Session.arguments`, `Session.callData` — a value for each parameter of
  a function, and the call data with them.
-/
import GuardedCalls.Abi.Encoding
import GuardedCalls.Contract.Interface
import GuardedCalls.Session.Assembly

namespace GuardedCalls

namespace Session

variable {σ : Type}

/-- A step of a session beside a state to read from. -/
abbrev Step (σ α : Type) := EStateM SessionError (Session × σ) α

/-- The space of an argument, assembled if it was not asked for
before. -/
def space (view : StateView σ) (key : ArgumentKey) : Step σ Space := fun (s, state) =>
  match s.space? key with
  | some space => .ok space (s, state)
  | none =>
    match argumentSpace view s.rules s.guards key state with
    | .ok space state => .ok space ({ s with spaces := s.spaces.put key space }, state)
    | .error e state => .error e (s, state)

/-- What an error of a draw says about the argument. -/
def drawError (key : ArgumentKey) (space : Space) : ConstrainError → SessionError
  | .bound e => .bound e
  | .empty reason => .unsatisfiable ⟨key, .domain space.domain? reason, []⟩
  | .notApplicable kind => .unsatisfiable ⟨key, .kind kind, []⟩

/-- The next value of a space. -/
def draw (view : StateView σ) (key : ArgumentKey) (space : Space) : Step σ AbiValue :=
  fun (s, state) =>
    match space.draw view s.sampling ⟨state, s.stream⟩ with
    | .ok v w => .ok v ({ s with stream := w.stream }, w.state)
    | .error e w => .error (drawError key space e) ({ s with stream := w.stream }, w.state)

/-- The next value of an argument, checked against its type. -/
def value (view : StateView σ) (key : ArgumentKey) : Step σ AbiValue := do
  let space ← space view key
  let v ← draw view key space
  match space.check v with
  | .ok () => return v
  | .error misfit => throw (.misfit misfit)

/-- The next value of an argument whose type is given by name. -/
def argument (view : StateView σ) (contract function typeName name : String) :
    Step σ AbiValue :=
  match AbiType.ofName typeName with
  | .error e => throw (.notType e)
  | .ok type => value view ⟨contract, function, type, name⟩

/-- The name of a parameter: its own, or one made of its place. -/
def parameterName (place : Nat) (p : ContractParameter) : String :=
  if p.name = "" then "_" ++ Nat.repr place else p.name

/-- A value for each of some parameters, the first of them at a place. -/
def argumentsFrom (view : StateView σ) (contract function : String) :
    Nat → List ContractParameter → Step σ (List AbiValue)
  | _, [] => return []
  | place, p :: ps => do
    let v ← argument view contract function p.type (parameterName place p)
    let vs ← argumentsFrom view contract function (place + 1) ps
    return v :: vs

/-- A value for each parameter of a function, in order. -/
def arguments (view : StateView σ) (contract : String) (f : ContractFunction) :
    Step σ (List AbiValue) :=
  argumentsFrom view contract f.name 0 f.inputs

/-- Call data of a function: its selector and drawn arguments. -/
def callData (view : StateView σ) (contract : String) (f : ContractFunction) :
    Step σ (List UInt8) := do
  let values ← arguments view contract f
  return f.selector.bytes ++ encodeAll values

end Session

end GuardedCalls
