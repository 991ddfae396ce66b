/-
GuardedCalls.StateView — reading numbers off the state of a contract.

A bound may be a getter of the contract under test. What answers it is a
view over a state of its own: a running chain, a script of replies, or
nothing at all.

* `StateView` — answers a getter, or says why it cannot; either way the
  state may move on.
* `detached` — the view that answers nothing.
* `Script`, `scripted` — a view that answers from a list of replies for
  each getter and keeps a log of what it was asked; `scriptedIfAny` — one
  that answers nothing without a script.
-/
import GuardedCalls.Scalar
import GuardedCalls.Table

namespace GuardedCalls

/-! ## Errors -/

/-- Why a getter has no answer. -/
inductive ViewError
  /-- The contract has no read-only getter of that name. -/
  | unknownGetter (name : String)
  /-- The getter takes arguments. -/
  | takesArguments (name : String)
  /-- The getter returns nothing. -/
  | noOutput (name : String)
  /-- The call was reverted. -/
  | reverted (name reason : String)
  /-- The call was halted. -/
  | halted (name reason : String)
  /-- What the call returned cannot be read. -/
  | undecodable (name reason : String)
  /-- The getter returns something that is no number. -/
  | nonNumeric (name type : String)
  /-- Nothing is there to read from. -/
  | unbound (name : String)
  /-- The call could not be made. -/
  | environment (name reason : String)
  deriving DecidableEq, Repr

/-- The wording of an error. -/
def ViewError.message : ViewError → String
  | .unknownGetter name => "no read-only getter `" ++ name ++ "` in contract ABI"
  | .takesArguments name => "getter `" ++ name ++ "` takes arguments"
  | .noOutput name => "getter `" ++ name ++ "` has no return value"
  | .reverted name reason => "call to `" ++ name ++ "` reverted: " ++ reason
  | .halted name reason => "call to `" ++ name ++ "` halted: " ++ reason
  | .undecodable name reason => "output of `" ++ name ++ "` could not be decoded: " ++ reason
  | .nonNumeric name type => "`" ++ name ++ "` returned non-numeric `" ++ type ++ "`"
  | .unbound name => "no execution environment bound for reading `" ++ name ++ "`"
  | .environment name reason =>
    "environment failure while reading `" ++ name ++ "`: " ++ reason

/-! ## Views -/

/-- Answers a getter from a state, which may move on. -/
abbrev StateView (σ : Type) := String → EStateM ViewError σ Scalar

/-- The view that has nothing to read from. -/
def detached {σ : Type} : StateView σ := fun name => throw (.unbound name)

/-- A reply of a script: a number, or an error that is told the name of
the getter. -/
inductive Reply
  | value (s : Scalar)
  | failure (error : String → ViewError)

/-- Replies for each getter, and a log of the getters asked for. -/
structure Script where
  /-- The replies still to come; the last one of a getter stays. -/
  replies : Table String (List Reply)
  /-- What was asked for, the latest first. -/
  asked : List String

/-- The getters asked for, in order. -/
def Script.log (s : Script) : List String := s.asked.reverse

/-- The view that answers from a script. A getter that the script does
not list is unknown. -/
def scripted : StateView Script := fun name s =>
  let s := { s with asked := name :: s.asked }
  match s.replies.get? name with
  | none => .error (.unknownGetter name) s
  | some [] => .error (.unknownGetter name) s
  | some (reply :: rest) =>
    let s := if rest.isEmpty then s else { s with replies := s.replies.put name rest }
    match reply with
    | .value v => .ok v s
    | .failure error => .error (error name) s

/-- The view that answers from a script if there is one. -/
def scriptedIfAny : StateView (Option Script) := fun name s =>
  match s with
  | none => detached name none
  | some script =>
    match scripted name script with
    | .ok v script => .ok v (some script)
    | .error e script => .error e (some script)

end GuardedCalls
