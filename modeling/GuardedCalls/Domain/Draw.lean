/-
GuardedCalls.Domain.Draw — values of a domain at random.

* `World` — a stream of random words beside a state to read from: what a
  draw moves on.
* `Domain.refreshed` — the domain with its bounds read anew and folded
  in.
* `Domain.candidate` — a value of the interval, drawn again a number of
  times while it is excluded.
* `Domain.climb` — the first value from a start that is not excluded, going
  up, and on from the lower end when the upper end is passed.
* `Domain.draw` — an admissible value of the refreshed domain.
-/
import GuardedCalls.Domain
import GuardedCalls.Scalar.Draw

namespace GuardedCalls

/-! ## What a draw moves on -/

/-- A stream of random words beside a state to read from. -/
structure World (σ : Type) where
  /-- The state that getters are read from. -/
  state : σ
  /-- The random words. -/
  stream : Random.Stream

namespace World

variable {σ ε α : Type}

/-- Draws; the state stays. -/
def draw (d : Random.Draw α) : EStateM ε (World σ) α := fun w =>
  let (a, stream) := d w.stream
  .ok a { w with stream }

/-- Reads; the stream stays. -/
def read (r : EStateM ε σ α) : EStateM ε (World σ) α := fun w =>
  match r w.state with
  | .ok a state => .ok a { w with state }
  | .error e state => .error e { w with state }

end World

namespace Domain

variable {σ : Type}

/-- Reads one bound and folds it in. -/
def narrowLive (view : StateView σ) (decimals : Nat) (d : Domain) (c : Constraint) :
    EStateM ConstrainError σ Domain := do
  let v ← EStateM.adaptExcept .bound (c.boundValue view decimals)
  match d.restrict c.comparison v with
  | (narrowed, none) => return narrowed
  | (_, some reason) => throw (.empty (.afterReading reason c.bound))

/-- The domain with every bound read anew and folded in, in order. -/
def refreshed (view : StateView σ) (d : Domain) : EStateM ConstrainError σ Domain :=
  d.live.foldlM (narrowLive view d.decimals) { d with live := [] }

/-- A value of the interval. While it is excluded it is drawn again, at
most `attempts` times. -/
def candidate (d : Domain) : Nat → Random.Draw Scalar
  | 0 => Scalar.between d.low d.high
  | attempts + 1 => do
    let v ← Scalar.between d.low d.high
    if v ∈ d.excluded then candidate d attempts else return v

/-- Where a climb from `start` goes from a place: up, and from the upper
end once to the lower one. It ends when it is back at its start. -/
def onward? (d : Domain) (start : Scalar) (place : Scalar) (wrapped : Bool) :
    Option (Scalar × Bool) :=
  let next := match place.succ?.filter (· ≤ d.high) with
    | some next => some (next, wrapped)
    | none => if wrapped then none else some (d.low, true)
  next.filter fun (place, wrapped) => !(wrapped && start ≤ place)

/-- The climb from a place on, for at most `fuel` places. -/
def climbFrom (d : Domain) (start : Scalar) : Nat → Scalar → Bool → Option Scalar
  | 0, _, _ => none
  | fuel + 1, place, wrapped =>
    if place ∉ d.excluded then some place
    else match d.onward? start place wrapped with
      | some (place, wrapped) => climbFrom d start fuel place wrapped
      | none => none

/-- The first value from `start` on that is not excluded. Each place that
a climb passes is an excluded value of the interval, which bounds its
length. -/
def climb (d : Domain) (start : Scalar) : Option Scalar :=
  d.climbFrom start (d.blocked + 1) start false

/-- An admissible value of a domain without live bounds: the pinned one,
or a candidate, or the first value above the last candidate. -/
def pick (d : Domain) (attempts : Nat) : Random.Draw (Except EmptyReason Scalar) := do
  match d.pinned with
  | some pin => return .ok pin
  | none =>
    match d.climb (← d.candidate attempts) with
    | some v => return .ok v
    | none => return .error (.allExcluded d.low d.high)

/-- An admissible value, with every bound read anew. -/
def draw (view : StateView σ) (attempts : Nat) (d : Domain) :
    EStateM ConstrainError (World σ) Scalar := do
  let d ← World.read (d.refreshed view)
  match ← World.draw (d.pick attempts) with
  | .ok v => return v
  | .error reason => throw (.empty reason)

end Domain

end GuardedCalls
