/-
GuardedCalls.Proofs.SessionTheorems — what every run of a session keeps.

A run is a list of operations, each of them with a state of its own to read
from, if it reads at all. An operation that fails is part of a run as well; the
session goes on from where the failure left it.

* `Leaves` — a relation between the sessions before and after that holds whatever
  comes of a step. What looking up a space and drawing from it leave, requests leave.
* `Requested` — what a request does to a session: it adds spaces, each of them
  assembled from the rules and guards of the moment, and leaves the spaces
  that are there as they are. `IsRequest` says this of a step.
* `guards_after` — the guards of a session are those of the source units it was
  shown.
* `assembled_of_cached` — each cached space goes back to a moment of the run:
  the key had no space then, the rules were the present ones, and the guards
  were those of the source units before it.
-/
import GuardedCalls.Proofs.AssemblyTheorems
import GuardedCalls.Proofs.GuardTheorems
import GuardedCalls.Session.Call

namespace GuardedCalls.Session

/-! ## Operations -/

/-- Something that a session is asked to do. -/
inductive Operation : Type 1
  | useRules (rules : RuleBook)
  | addUnit (unit : Source.Node)
  | forget
  | argument {σ : Type} (view : StateView σ) (state : σ)
      (contract function typeName name : String)
  | arguments {σ : Type} (view : StateView σ) (state : σ) (contract : String)
      (f : ContractFunction)
  | callData {σ : Type} (view : StateView σ) (state : σ) (contract : String)
      (f : ContractFunction)
  | call {σ : Type} (environment : Environment σ) (mint : Mint σ) (state : σ) (contract : String)
      (f : ContractFunction) (target : Address) (interface : Interface)

/-- The session that an outcome leaves, whether it is a result or an error. -/
def remaining {σ α : Type} : EStateM.Result SessionError (Session × σ) α → Session
  | .ok _ p => p.1
  | .error _ p => p.1

/-- The session after an operation. -/
def Operation.run (s : Session) : Operation → Session
  | .useRules rules => s.useRules rules
  | .addUnit unit => s.addUnit unit
  | .forget => s.forget
  | .argument view state contract function typeName name =>
    remaining (Session.argument view contract function typeName name (s, state))
  | .arguments view state contract f => remaining (Session.arguments view contract f (s, state))
  | .callData view state contract f => remaining (Session.callData view contract f (s, state))
  | .call environment mint state contract f target interface =>
    remaining (Session.call environment mint contract f target interface (s, state))

/-- The source unit that an operation shows the session. -/
def Operation.unit? : Operation → Option Source.Node
  | .addUnit unit => some unit
  | _ => none

/-- The session after some operations in turn. -/
def after (s : Session) (ops : List Operation) : Session := ops.foldl Operation.run s

/-- The source units that a session is shown in a run, in order. -/
def unitsOf (ops : List Operation) : List Source.Node := ops.filterMap Operation.unit?

theorem after_append (s : Session) (ops ops' : List Operation) :
    s.after (ops ++ ops') = (s.after ops).after ops' := List.foldl_append

/-! ## What steps leave -/

/-- A relation between sessions that holds of a session and itself, and of the
first and the last of sessions in turn. -/
structure Chains (R : Session → Session → Prop) : Prop where
  refl : ∀ s, R s s
  trans : ∀ {s s' s''}, R s s' → R s' s'' → R s s''

/-- Whatever comes of a step, the session that it leaves is in the relation to the
one that it was given. -/
def Leaves {σ α : Type} (R : Session → Session → Prop) (m : Step σ α) : Prop :=
  ∀ p, R p.1 (remaining (m p))

section Leaves

variable {σ α β : Type} {R : Session → Session → Prop} {view : StateView σ}

protected theorem Leaves.pure (h : Chains R) (a : α) : Leaves R (pure a : Step σ α) :=
  fun p => h.refl p.1

protected theorem Leaves.throw (h : Chains R) (e : SessionError) :
    Leaves R (throw e : Step σ α) := fun p => h.refl p.1

protected theorem Leaves.get (h : Chains R) : Leaves R (get : Step σ (Session × σ)) :=
  fun p => h.refl p.1

protected theorem Leaves.bind (h : Chains R) {m : Step σ α} {next : α → Step σ β}
    (first : Leaves R m) (later : ∀ a, Leaves R (next a)) : Leaves R (m >>= next) := by
  intro p
  have first := first p
  simp only [Bind.bind, EStateM.bind]
  cases run : m p with
  | ok a p' =>
    rw [run] at first
    exact h.trans first (later a p')
  | error e p' =>
    rw [run] at first
    exact first

/-- What is drawn is checked, and given or refused. -/
theorem draw_check_leaves (h : Chains R) {key : ArgumentKey} {space : Space}
    (draw : Leaves R (Session.draw view key space)) :
    Leaves R (do
      let v ← Session.draw view key space
      match space.check v with
      | .ok () => return v
      | .error misfit => throw (.misfit misfit)) := by
  refine .bind h draw fun v => ?_
  cases space.check v with
  | ok => exact .pure h v
  | error misfit => exact .throw h _

/-! A request looks up spaces and draws from them, and that is all that it does to the
session. -/

variable (h : Chains R) (space : ∀ key, Leaves R (Session.space view key))
  (draw : ∀ key space, Leaves R (Session.draw view key space))
include h space draw

theorem value_leaves (key : ArgumentKey) : Leaves R (value view key) :=
  .bind h (space key) fun found => draw_check_leaves h (draw key found)

theorem argument_leaves (contract function typeName name : String) :
    Leaves R (Session.argument view contract function typeName name) := by
  unfold Session.argument
  cases AbiType.ofName typeName with
  | error e => exact .throw h _
  | ok type => exact value_leaves h space draw _

theorem argumentsFrom_leaves (contract function : String) (ps : List ContractParameter) :
    ∀ place, Leaves R (argumentsFrom view contract function place ps) := by
  induction ps with
  | nil => exact fun place => .pure h []
  | cons p ps ih =>
    exact fun place => .bind h (argument_leaves h space draw contract function p.type _)
      fun v => .bind h (ih (place + 1)) fun vs => .pure h (v :: vs)

theorem arguments_leaves (contract : String) (f : ContractFunction) :
    Leaves R (Session.arguments view contract f) :=
  argumentsFrom_leaves h space draw contract f.name f.inputs 0

theorem callData_leaves (contract : String) (f : ContractFunction) :
    Leaves R (Session.callData view contract f) :=
  .bind h (arguments_leaves h space draw contract f) fun _ => .pure h _

end Leaves

/-! ## Requests -/

/-- What a request does to a session. -/
structure Requested (s s' : Session) : Prop where
  rules_eq : s'.rules = s.rules
  guards_eq : s'.guards = s.guards
  kept : ∀ key space, s.space? key = some space → s'.space? key = some space
  assembled : ∀ key space, s.space? key = none → s'.space? key = some space →
    ∃ (σ : Type) (view : StateView σ) (state state' : σ),
      argumentSpace view s.rules s.guards key state = .ok space state'

namespace Requested

variable {s s' s'' : Session}

/-- Spaces, rules and guards are all that counts. -/
theorem of_eq (spaces : s'.spaces = s.spaces) (rules : s'.rules = s.rules)
    (guards : s'.guards = s.guards) : Requested s s' where
  rules_eq := rules
  guards_eq := guards
  kept key space h := by rwa [space?, spaces]
  assembled key space none some := by
    rw [space?, spaces] at some
    rw [space?, some] at none
    cases none

theorem refl (s : Session) : Requested s s := .of_eq rfl rfl rfl

theorem trans (h : Requested s s') (h' : Requested s' s'') : Requested s s'' where
  rules_eq := h'.rules_eq.trans h.rules_eq
  guards_eq := h'.guards_eq.trans h.guards_eq
  kept key space some := h'.kept key space (h.kept key space some)
  assembled key space none some := by
    cases between : s'.space? key with
    | none =>
      obtain ⟨σ, view, state, state', run⟩ := h'.assembled key space between some
      rw [h.rules_eq, h.guards_eq] at run
      exact ⟨σ, view, state, state', run⟩
    | some space' =>
      obtain rfl : space' = space := Option.some.inj ((h'.kept key space' between).symm.trans some)
      exact h.assembled key space' none between

end Requested

/-- Whatever comes of a step, it is a request. -/
def IsRequest {σ α : Type} (m : Step σ α) : Prop := ∀ p, Requested p.1 (remaining (m p))

theorem requested_chains : Chains Requested := ⟨.refl, .trans⟩

section Requests

variable {σ α β : Type} {view : StateView σ} {key : ArgumentKey}

theorem IsRequest.pure (a : α) : IsRequest (pure a : Step σ α) := Leaves.pure requested_chains a

theorem IsRequest.get : IsRequest (get : Step σ (Session × σ)) := Leaves.get requested_chains

theorem IsRequest.bind {m : Step σ α} {next : α → Step σ β} (h : IsRequest m)
    (h' : ∀ a, IsRequest (next a)) : IsRequest (m >>= next) := Leaves.bind requested_chains h h'

/-- The space of an argument is the cached one, or one assembled now. -/
theorem space_isRequest (view : StateView σ) (key : ArgumentKey) :
    IsRequest (Session.space view key) := by
  rintro ⟨s, state⟩
  simp only [Session.space]
  cases cached : s.space? key with
  | some space => exact .refl s
  | none =>
    cases run : argumentSpace view s.rules s.guards key state with
    | error e state' => exact .refl s
    | ok space state' =>
      have self : ({ s with spaces := s.spaces.put key space } : Session).space? key =
          some space := Table.get?_put_self key space s.spaces
      have others : ∀ other, other ≠ key →
          ({ s with spaces := s.spaces.put key space } : Session).space? other =
            s.space? other := fun other h => Table.get?_put_of_ne space s.spaces h
      refine ⟨rfl, rfl, fun other space' some => ?_, fun other space' none some => ?_⟩
      · by_cases same : other = key
        · rw [same, cached] at some
          cases some
        · exact (others other same).trans some
      · by_cases same : other = key
        · subst same
          obtain rfl : space = space' := Option.some.inj (self.symm.trans some)
          exact ⟨σ, view, state, state', run⟩
        · rw [remaining, others other same, none] at some
          cases some

theorem draw_isRequest (view : StateView σ) (key : ArgumentKey) (space : Space) :
    IsRequest (Session.draw view key space) := by
  rintro ⟨s, state⟩
  simp only [Session.draw]
  cases space.draw view s.sampling ⟨state, s.stream⟩ <;> exact .of_eq rfl rfl rfl

theorem space_of_cached {view : StateView σ} {s : Session} {space : Space} {state : σ}
    (cached : s.space? key = some space) :
    Session.space view key (s, state) = .ok space (s, state) := by
  simp only [Session.space, cached]

theorem space_of_assembled {view : StateView σ} {s : Session} {state state' : σ} {space : Space}
    (unknown : s.space? key = none)
    (assembled : argumentSpace view s.rules s.guards key state = .ok space state') :
    Session.space view key (s, state) =
      .ok space ({ s with spaces := s.spaces.put key space }, state') := by
  simp only [Session.space, unknown, assembled]

/-- A space that is assembled for a value stays in the session, also if nothing
is drawn from it. -/
theorem cached_of_value {view : StateView σ} {s : Session} {state state' : σ} {space : Space}
    (unknown : s.space? key = none)
    (assembled : argumentSpace view s.rules s.guards key state = .ok space state') :
    (remaining (value view key (s, state))).space? key = some space := by
  simp only [value, Bind.bind, EStateM.bind, space_of_assembled unknown assembled]
  exact (draw_check_leaves requested_chains (draw_isRequest view key space) _).kept key space
    (Table.get?_put_self ..)

theorem argument_isRequest (view : StateView σ) (contract function typeName name : String) :
    IsRequest (Session.argument view contract function typeName name) :=
  argument_leaves requested_chains (space_isRequest view) (draw_isRequest view) contract function
    typeName name

theorem arguments_isRequest (view : StateView σ) (contract : String) (f : ContractFunction) :
    IsRequest (Session.arguments view contract f) :=
  arguments_leaves requested_chains (space_isRequest view) (draw_isRequest view) contract f

theorem callData_isRequest (view : StateView σ) (contract : String) (f : ContractFunction) :
    IsRequest (Session.callData view contract f) :=
  callData_leaves requested_chains (space_isRequest view) (draw_isRequest view) contract f

theorem call_isRequest (environment : Environment σ) (mint : Mint σ) (contract : String)
    (f : ContractFunction) (target : Address) (interface : Interface) :
    IsRequest (Session.call environment mint contract f target interface) := by
  have fromWallets : IsRequest (Session.sender mint) := fun p => .of_eq rfl rfl rfl
  have paid : ∀ account, IsRequest (spend account : Step σ Nat) := fun _ p => .of_eq rfl rfl rfl
  refine fromWallets.bind fun sender => ?_
  extract_lets reader rest
  have request : ∀ value, IsRequest (rest value) := fun value =>
    (arguments_isRequest _ contract f).bind fun values => IsRequest.get.bind fun ⟨_, _⟩ => .pure _
  split
  · exact (paid sender).bind request
  · exact (IsRequest.pure 0).bind request

end Requests

/-! ## Runs -/

section Runs

variable {s : Session} {ops : List Operation} {key : ArgumentKey} {space : Space}

/-- An operation sets rules, shows a source unit, drops all spaces, or is a
request. -/
theorem run_cases (s : Session) (op : Operation) :
    (∃ rules, op = .useRules rules) ∨ (∃ unit, op = .addUnit unit) ∨ op = .forget ∨
      (op.unit? = none ∧ Requested s (op.run s)) := by
  cases op with
  | useRules rules => exact .inl ⟨rules, rfl⟩
  | addUnit unit => exact .inr (.inl ⟨unit, rfl⟩)
  | forget => exact .inr (.inr (.inl rfl))
  | argument view state contract function typeName name =>
    exact .inr (.inr (.inr
      ⟨rfl, argument_isRequest view contract function typeName name (s, state)⟩))
  | arguments view state contract f =>
    exact .inr (.inr (.inr ⟨rfl, arguments_isRequest view contract f (s, state)⟩))
  | callData view state contract f =>
    exact .inr (.inr (.inr ⟨rfl, callData_isRequest view contract f (s, state)⟩))
  | call environment mint state contract f target interface =>
    exact .inr (.inr (.inr
      ⟨rfl, call_isRequest environment mint contract f target interface (s, state)⟩))

/-! A source unit leaves rules and spaces as they are. -/

theorem rules_addUnit (s : Session) (unit : Source.Node) : (s.addUnit unit).rules = s.rules := rfl

theorem space?_addUnit (s : Session) (unit : Source.Node) (key : ArgumentKey) :
    (s.addUnit unit).space? key = s.space? key := rfl

/-- The guards of a session are those of the source units it was shown. -/
theorem guards_after (s : Session) (ops : List Operation) :
    (s.after ops).guards = s.guards.addUnits (unitsOf ops) := by
  induction ops generalizing s with
  | nil => rfl
  | cons op ops ih =>
    change ((op.run s).after ops).guards = _
    rw [ih]
    rcases run_cases s op with ⟨rules, rfl⟩ | ⟨unit, rfl⟩ | rfl | ⟨noUnit, requested⟩
    · rfl
    · rfl
    · rfl
    · rw [requested.guards_eq, unitsOf, unitsOf, List.filterMap_cons_none noUnit]

/-- Each cached space was assembled at a moment of the run when its key had no
space, from the rules of the end of the run. -/
theorem assembled_of_cached (unknown : s.space? key = none)
    (cached : (s.after ops).space? key = some space) :
    ∃ before later, ops = before ++ later ∧ (s.after before).space? key = none ∧
      (s.after before).rules = (s.after ops).rules ∧
      ∃ (σ : Type) (view : StateView σ) (state state' : σ),
        argumentSpace view (s.after before).rules (s.after before).guards key state =
          .ok space state' := by
  induction ops using List.reverseRecOn with
  | nil =>
    rw [show (s.after []).space? key = none from unknown] at cached
    cases cached
  | append_singleton ops op ih =>
    have last : s.after (ops ++ [op]) = op.run (s.after ops) := after_append s ops [op]
    rw [last] at cached ⊢
    -- A space that was there before the last operation is the one that is there now.
    have back : (s.after ops).space? key = some space →
        (op.run (s.after ops)).rules = (s.after ops).rules →
        ∃ before later, ops ++ [op] = before ++ later ∧ (s.after before).space? key = none ∧
          (s.after before).rules = (op.run (s.after ops)).rules ∧
          ∃ (σ : Type) (view : StateView σ) (state state' : σ),
            argumentSpace view (s.after before).rules (s.after before).guards key state =
              .ok space state' := by
      intro cached rules
      obtain ⟨before, later, rfl, none, same, run⟩ := ih cached
      exact ⟨before, later ++ [op], List.append_assoc .., none, same.trans rules.symm, run⟩
    rcases run_cases (s.after ops) op with ⟨rules, rfl⟩ | ⟨unit, rfl⟩ | rfl | ⟨-, requested⟩
    · cases cached
    · exact back ((space?_addUnit _ unit key).symm.trans cached) (rules_addUnit _ unit)
    · cases cached
    · cases known : (s.after ops).space? key with
      | some space' =>
        obtain rfl : space' = space :=
          Option.some.inj ((requested.kept key space' known).symm.trans cached)
        exact back known requested.rules_eq
      | none =>
        exact ⟨ops, [op], rfl, known, requested.rules_eq.symm,
          requested.assembled key space known cached⟩

end Runs

end GuardedCalls.Session
