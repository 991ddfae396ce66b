/-
GuardedCalls.Session.Assembly — the space of an argument.

The space of a type is narrowed by the rules for that type, then by
the rules for the types nested in it, the outer ones first, and last by
the guards that speak about the argument. A guard that values of the type
do not honour is passed over; a rule that they do not honour is an error.

* `Assembly` — what an assembly moves on: the state that bounds are read
  from, and the constraints applied so far.
* `narrowByRules`, `narrowByGuards` — the two stages; `argumentSpace` — both.
-/
import GuardedCalls.Session

namespace GuardedCalls

/-- What an assembly moves on. -/
structure Assembly (σ : Type) where
  /-- The state that bounds are read from. -/
  state : σ
  /-- The constraints applied so far, in order. -/
  applied : List Constraint

namespace Assembly

variable {σ : Type}

/-- A step of an assembly. -/
abbrev Step (σ α : Type) := EStateM SessionError (Assembly σ) α

/-- Applies a constraint to a space. What becomes of a constraint that
values of the sort do not honour is for `mismatch` to say. -/
def narrowBy (view : StateView σ) (key : ArgumentKey) (c : Constraint) (space : Space)
    (mismatch : AbiKind → Step σ Space) : Step σ Space := fun a =>
  let ((narrowed, error?), state) := space.constrain view c a.state
  match error? with
  | none => .ok narrowed ⟨state, a.applied ++ [c]⟩
  | some (.notApplicable kind) => mismatch kind { a with state }
  | some (.empty reason) =>
    .error (.unsatisfiable ⟨key, .constraint c reason, a.applied⟩) { a with state }
  | some (.bound e) => .error (.bound e) { a with state }

/-- Applies the constraints of rules in order. -/
def narrowByEntry (view : StateView σ) (key : ArgumentKey) (entry : RuleEntry)
    (space : Space) : Step σ Space :=
  entry.constraints.foldlM
    (fun space c => narrowBy view key c space fun kind =>
      throw (.invalidRule
        ⟨key.contract ++ "." ++ key.function ++ "." ++ entry.type.name, .notForKind c kind⟩)) space

/-- Applies the rules for the type of a space, if there are any. -/
def narrowByOwn (view : StateView σ) (rules : RuleBook) (key : ArgumentKey) (space : Space) :
    Step σ Space :=
  match rules.lookup? key.contract key.function space.type with
  | none => pure space
  | some entry => narrowByEntry view key entry space

mutual

/-- Applies the rules for the type of a space and for all types nested
in it. A space that has others in it takes no constraint, so it is
what it was. -/
def narrowByRules (view : StateView σ) (rules : RuleBook) (key : ArgumentKey) :
    Space → Step σ Space
  | .fixedArray element length => do
    let _ ← narrowByOwn view rules key (.fixedArray element length)
    return .fixedArray (← narrowByRules view rules key element) length
  | .array element => do
    let _ ← narrowByOwn view rules key (.array element)
    return .array (← narrowByRules view rules key element)
  | .tuple items => do
    let _ ← narrowByOwn view rules key (.tuple items)
    return .tuple (← narrowByRulesAll view rules key items)
  | space => narrowByOwn view rules key space

/-- Applies the rules to spaces in turn. -/
def narrowByRulesAll (view : StateView σ) (rules : RuleBook) (key : ArgumentKey) :
    List Space → Step σ (List Space)
  | [] => return []
  | space :: spaces => do
    let space ← narrowByRules view rules key space
    let spaces ← narrowByRulesAll view rules key spaces
    return space :: spaces

end

/-- Applies the guards that speak about the argument, in order. -/
def narrowByGuards (view : StateView σ) (guards : GuardTable) (key : ArgumentKey)
    (space : Space) : Step σ Space :=
  (guards.constraintsOn ⟨key.contract, key.function⟩ key.name).foldlM
    (fun space c => narrowBy view key c space fun _ => pure space) space

end Assembly

open Assembly in
/-- The space of an argument. -/
def argumentSpace {σ : Type} (view : StateView σ) (rules : RuleBook) (guards : GuardTable)
    (key : ArgumentKey) : EStateM SessionError σ Space := fun s =>
  let step : Step σ Space := do
    let space ← narrowByRules view rules key (Space.ofType key.type)
    narrowByGuards view guards key space
  match step ⟨s, []⟩ with
  | .ok space a => .ok space a.state
  | .error e a => .error e a.state

end GuardedCalls
