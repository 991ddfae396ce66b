/-
GuardedCalls.Proofs.AssemblyTheorems — which domain an assembly leads to, and
what it depends on.

* `AbiType.parts`, `constraintsOf` — the constraints of an argument: those of
  the rules for its type and for the types in it, and its guards.
* `argumentSpace_reached` — the space of a number argument is a domain that its
  constraints have led to, so everything that is known of such domains holds
  of it.
* `Alike` and `argumentSpace_literal` — where no bound is read from state, the
  state and what answers from it make no difference.
* `argumentSpace_extended_iff` — with further guards a space comes out as it
  was exactly when none of them changes it.
-/
import GuardedCalls.Proofs.NarrowingTheorems
import GuardedCalls.Session.Assembly

namespace GuardedCalls

/-! ## The constraints of an argument -/

namespace AbiType

mutual

/-- A type and the types in it, the outer ones first. -/
def parts : AbiType → List AbiType
  | .fixedArray element length => .fixedArray element length :: parts element
  | .array element => .array element :: parts element
  | .tuple items => .tuple items :: partsOfAll items
  | type => [type]

/-- The parts of some types, in order. -/
def partsOfAll : List AbiType → List AbiType
  | [] => []
  | t :: ts => parts t ++ partsOfAll ts

end

theorem parts_number (type : NumberType) : parts (.number type) = [.number type] := by
  simp [parts]

end AbiType

/-- The constraints that the rules put on a type in the function of an
argument. -/
def ruleConstraints (rules : RuleBook) (key : ArgumentKey) (type : AbiType) : List Constraint :=
  ((rules.lookup? key.contract key.function type).map (·.constraints)).getD []

/-- The guards that speak about an argument. -/
def guardsOn (guards : GuardTable) (key : ArgumentKey) : List Constraint :=
  guards.constraintsOn ⟨key.contract, key.function⟩ key.name

/-- All constraints of an argument: the rules for the parts of its type, and
then its guards. -/
def constraintsOf (rules : RuleBook) (guards : GuardTable) (key : ArgumentKey) :
    List Constraint :=
  key.type.parts.flatMap (ruleConstraints rules key) ++ guardsOn guards key

/-- A step and the rest succeed exactly when the step does and then the rest. -/
theorem bind_eq_ok_iff {ε σ α β : Type} {m : EStateM ε σ α} {next : α → EStateM ε σ β} {s s' : σ}
    {b : β} : (m >>= next) s = .ok b s' ↔ ∃ a s₁, m s = .ok a s₁ ∧ next a s₁ = .ok b s' := by
  simp only [bind, EStateM.bind]
  cases m s <;> simp

/-! ## Number spaces -/

/-- A constraint leads to what it leads to, with its error. -/
theorem Space.constrain_of_error? {σ : Type} {view : StateView σ} {c : Constraint} {space : Space}
    {error? : Option ConstrainError} {s : σ} (failed : (space.constrain view c s).1.2 = error?) :
    space.constrain view c s =
      (((space.constrain view c s).1.1, error?), (space.constrain view c s).2) :=
  Prod.ext (Prod.ext rfl failed) rfl

/-- A space of a sort that honours the comparison is a number space; its domain
takes the constraint. -/
theorem Space.constrain_number {σ : Type} {view : StateView σ} {c : Constraint}
    {type : NumberType} (honoured : c.appliesTo (.number type) = true) (d : Domain) (s : σ) :
    (Space.number type d).constrain view c s =
      ((.number type (d.constrain view c s).1.1, (d.constrain view c s).1.2),
        (d.constrain view c s).2) := by
  have kind : (Space.number type d).kind.honours c.comparison = true := honoured
  unfold Space.constrain
  rw [if_pos kind]
  rfl

/-- A space of another sort takes no constraint. -/
theorem Space.constrain_of_not_appliesTo {σ : Type} {view : StateView σ} {c : Constraint}
    {space : Space} (passed : c.appliesTo space.type = false) (s : σ) :
    space.constrain view c s = ((space, some (.notApplicable space.kind)), s) := by
  have kind : ¬ space.kind.honours c.comparison = true := by
    rw [Bool.not_eq_true]
    exact passed
  unfold Space.constrain
  rw [if_neg kind]
  rfl

/-- Only numbers honour comparisons. -/
theorem Constraint.appliesTo_eq_false {c : Constraint} {type : AbiType}
    (other : ∀ number, type ≠ .number number) : c.appliesTo type = false := by
  cases type with
  | number number => exact absurd rfl (other number)
  | _ => rfl

/-- A number space is passed over, or its domain takes the constraint. -/
theorem Space.constrain_number_cases {σ : Type} {view : StateView σ} {c : Constraint}
    {type : NumberType} {d : Domain} {space' : Space} {error? : Option ConstrainError} {s s' : σ}
    (run : (Space.number type d).constrain view c s = ((space', error?), s')) :
    (space' = .number type d ∧ error? = some (.notApplicable type.kind)) ∨
    ∃ d', space' = .number type d' ∧ d.constrain view c s = ((d', error?), s') := by
  cases honoured : c.appliesTo (Space.number type d).type with
  | false =>
    rw [constrain_of_not_appliesTo honoured] at run
    cases run
    exact .inl ⟨rfl, rfl⟩
  | true =>
    rw [constrain_number honoured] at run
    cases run
    exact .inr ⟨_, rfl, rfl⟩

/-- A space of another sort is passed over. -/
theorem Space.constrain_of_not_number {σ : Type} {view : StateView σ} {c : Constraint}
    {space space' : Space} {error? : Option ConstrainError} {s s' : σ}
    (other : ∀ number, space.type ≠ .number number)
    (run : space.constrain view c s = ((space', error?), s')) :
    space' = space ∧ error? = some (.notApplicable space.kind) := by
  rw [constrain_of_not_appliesTo (Constraint.appliesTo_eq_false other)] at run
  cases run
  exact ⟨rfl, rfl⟩

/-- A domain never says that a constraint is not for it. -/
theorem Domain.constrain_ne_notApplicable {σ : Type} (d : Domain) (view : StateView σ)
    (c : Constraint) (s : σ) (kind : AbiKind) :
    (d.constrain view c s).1.2 ≠ some (.notApplicable kind) := by
  unfold Domain.constrain
  split
  · exact nofun
  · dsimp only
    split
    · split <;> exact nofun
    · cases (d.restrict c.comparison _).2 <;> exact nofun

namespace Assembly

section Numbers

variable {σ : Type} {view : StateView σ} {key : ArgumentKey} {type : NumberType} {c : Constraint}
  {d : Domain} {space : Space} {a a' : Assembly σ}

/-- A constraint that the values do not honour is left to `mismatch`. -/
theorem narrowBy_of_not_appliesTo (space : Space) (passed : c.appliesTo space.type = false)
    (mismatch : AbiKind → Step σ Space) (a : Assembly σ) :
    narrowBy view key c space mismatch a = mismatch space.kind a := by
  simp only [narrowBy, Space.constrain_of_not_appliesTo passed]

/-- What a step does that succeeds on a number space. -/
theorem narrowBy_number_ok {mismatch : AbiKind → Step σ Space}
    (run : narrowBy view key c (.number type d) mismatch a = .ok space a') :
    (c.appliesTo (.number type) = true ∧ ∃ d', space = .number type d' ∧
      d.constrain view c a.state = ((d', none), a'.state)) ∨
    (c.appliesTo (.number type) = false ∧ mismatch type.kind a = .ok space a') := by
  cases honoured : c.appliesTo (.number type) with
  | false =>
    rw [narrowBy_of_not_appliesTo (.number type d) honoured] at run
    exact .inr ⟨rfl, run⟩
  | true =>
    refine .inl ⟨rfl, ?_⟩
    simp only [narrowBy, Space.constrain_number honoured] at run
    have never := d.constrain_ne_notApplicable view c a.state
    generalize d.constrain view c a.state = outcome at run never ⊢
    obtain ⟨⟨d', error?⟩, s⟩ := outcome
    cases error? with
    | none =>
      cases run
      exact ⟨d', rfl, rfl⟩
    | some e =>
      cases e with
      | notApplicable kind => exact absurd rfl (never kind)
      | empty reason => cases run
      | bound e => cases run

/-- Constraints in turn, on a number space: those that its values honour are
accepted one after the other. -/
theorem foldlM_narrowBy_reached {mismatch : Space → Constraint → AbiKind → Step σ Space}
    (keeps : ∀ space c kind a space' a', mismatch space c kind a = .ok space' a' →
      space' = space ∧ a' = a) {cs₀ cs : List Constraint} (before : Domain.Reached type cs₀ d)
    (run : cs.foldlM (fun space c => narrowBy view key c space (mismatch space c))
      (.number type d) a = .ok space a') :
    ∃ d', space = .number type d' ∧
      Domain.Reached type (cs₀ ++ cs.filter (·.appliesTo (.number type))) d' := by
  induction cs generalizing cs₀ d a with
  | nil =>
    cases run
    exact ⟨d, rfl, by simpa using before⟩
  | cons c cs ih =>
    rw [List.foldlM_cons, bind_eq_ok_iff] at run
    obtain ⟨space₁, a₁, first, rest⟩ := run
    rcases narrowBy_number_ok first with ⟨honoured, d₁, rfl, accepted⟩ | ⟨passed, mismatched⟩
    · obtain ⟨d', rfl, reached⟩ := ih (before.step view c accepted) rest
      exact ⟨d', rfl, by simpa [List.filter_cons, honoured] using reached⟩
    · obtain ⟨rfl, rfl⟩ := keeps _ _ _ _ _ _ mismatched
      obtain ⟨d', rfl, reached⟩ := ih before rest
      exact ⟨d', rfl, by simpa [List.filter_cons, passed] using reached⟩

/-- Guards with literal bounds that one value of the domain meets are all
taken. -/
theorem foldlM_narrowBy_of_met (view : StateView σ) (key : ArgumentKey) (a : Assembly σ)
    {cs₀ cs : List Constraint} {x : Scalar} (before : Domain.Reached type cs₀ d)
    (allowed : d.allows x = true)
    (met : ∀ c ∈ cs, c.appliesTo (.number type) = true →
      ∃ p, c.demand? type.decimals = some p ∧ p.Met x) :
    ∃ space a', cs.foldlM (fun space c => narrowBy view key c space fun _ => pure space)
      (.number type d) a = .ok space a' := by
  induction cs generalizing cs₀ d a with
  | nil => exact ⟨_, _, rfl⟩
  | cons c cs ih =>
    obtain ⟨first, rest⟩ := List.forall_mem_cons.1 met
    rw [List.foldlM_cons]
    cases honoured : c.appliesTo (.number type) with
    | false =>
      obtain ⟨space, a', run⟩ := ih a before allowed rest
      exact ⟨space, a', bind_eq_ok_iff.2
        ⟨_, _, narrowBy_of_not_appliesTo (.number type d) honoured _ a, run⟩⟩
    | true =>
      obtain ⟨p, literal, meets⟩ := first honoured
      obtain ⟨d₁, -, accepted, allowed₁⟩ :=
        before.records.constrain_of_left literal allowed meets view a.state
      have taken : narrowBy view key c (.number type d) (fun _ => pure (.number type d)) a =
          .ok (.number type d₁) ⟨a.state, a.applied ++ [c]⟩ := by
        simp only [narrowBy, Space.constrain_number honoured, accepted]
      obtain ⟨space, a', run⟩ := ih _ (before.step view c accepted) allowed₁ rest
      exact ⟨space, a', bind_eq_ok_iff.2 ⟨_, _, taken, run⟩⟩

theorem narrowByRules_number (rules : RuleBook) :
    narrowByRules view rules key (.number type d) =
      narrowByOwn view rules key (.number type d) := by
  simp [narrowByRules]

/-- The rules for a number type. -/
theorem narrowByRules_number_ok {rules : RuleBook}
    (run : narrowByRules view rules key (.number type (Domain.ofType type)) a = .ok space a') :
    ∃ d', space = .number type d' ∧ Domain.Reached type
      ((ruleConstraints rules key (.number type)).filter (·.appliesTo (.number type))) d' := by
  have own : (Space.number type (Domain.ofType type)).type = .number type := rfl
  rw [narrowByRules_number, narrowByOwn, own] at run
  unfold ruleConstraints
  cases found : rules.lookup? key.contract key.function (.number type) with
  | none =>
    rw [found] at run
    cases run
    exact ⟨_, rfl, .whole⟩
  | some entry =>
    rw [found] at run
    exact foldlM_narrowBy_reached (fun _ _ _ _ _ _ failed => by cases failed) .whole run

end Numbers

end Assembly

section Spaces

open Assembly

variable {σ : Type} {view : StateView σ} {rules : RuleBook} {guards : GuardTable}
  {key : ArgumentKey} {s s' : σ} {space : Space}

/-- The two stages of an assembly. -/
def stages (view : StateView σ) (rules : RuleBook) (guards : GuardTable) (key : ArgumentKey) :
    Step σ Space := do
  let space ← narrowByRules view rules key (Space.ofType key.type)
  narrowByGuards view guards key space

theorem argumentSpace_eq : argumentSpace view rules guards key s =
    match stages view rules guards key ⟨s, []⟩ with
    | .ok space a => .ok space a.state
    | .error e a => .error e a.state := rfl

theorem argumentSpace_ok_iff :
    argumentSpace view rules guards key s = .ok space s' ↔
      ∃ space₁ a₁ a', narrowByRules view rules key (Space.ofType key.type) ⟨s, []⟩ =
          .ok space₁ a₁ ∧
        narrowByGuards view guards key space₁ a₁ = .ok space a' ∧ a'.state = s' := by
  have both : argumentSpace view rules guards key s = .ok space s' ↔
      ∃ a', stages view rules guards key ⟨s, []⟩ = .ok space a' ∧ a'.state = s' := by
    rw [argumentSpace_eq]
    cases stages view rules guards key ⟨s, []⟩ <;> simp
  rw [both]
  constructor
  · rintro ⟨a', run, same⟩
    obtain ⟨space₁, a₁, first, second⟩ := bind_eq_ok_iff.1 run
    exact ⟨space₁, a₁, a', first, second, same⟩
  · rintro ⟨space₁, a₁, a', first, second, same⟩
    exact ⟨a', bind_eq_ok_iff.2 ⟨space₁, a₁, first, second⟩, same⟩

/-- **An assembled number space is a reached domain.** The constraints that led
to it are those of the rules for its type and its guards, without the ones
that values of the type do not honour. -/
theorem argumentSpace_reached {type : NumberType} (number : key.type = .number type)
    (assembled : argumentSpace view rules guards key s = .ok space s') :
    ∃ d, space = .number type d ∧ Domain.Reached type
      ((ruleConstraints rules key (.number type) ++ guardsOn guards key).filter
        (·.appliesTo (.number type))) d := by
  obtain ⟨space₁, a₁, a', first, second, -⟩ := argumentSpace_ok_iff.1 assembled
  rw [number] at first
  obtain ⟨d₁, rfl, reached⟩ := narrowByRules_number_ok first
  rw [List.filter_append]
  refine foldlM_narrowBy_reached (fun _ _ _ _ _ _ run => ?_) reached second
  cases run
  exact ⟨rfl, rfl⟩

end Spaces

/-! ## Literal bounds -/

/-- A literal bound is folded in alike whatever there is to read from. -/
theorem Domain.constrain_of_literal {σ : Type} {c : Constraint}
    (literal : c.bound.readsState = false) (d : Domain) (view : StateView σ) (s : σ) :
    d.constrain view c s = ((d.constrain detached c ()).1, s) := by
  cases bound : c.bound with
  | getter name => simp [bound, Bound.readsState] at literal
  | literal text unit =>
    simp only [Domain.constrain, Constraint.boundValue, bound]
    cases Scalar.ofLiteral text unit d.decimals <;> rfl

theorem Space.constrain_of_literal {σ : Type} {c : Constraint}
    (literal : c.bound.readsState = false) (space : Space) (view : StateView σ) (s : σ) :
    space.constrain view c s = ((space.constrain detached c ()).1, s) := by
  cases honoured : c.appliesTo space.type with
  | false => simp only [Space.constrain_of_not_appliesTo honoured]
  | true =>
    cases space with
    | number type d =>
      rw [Space.constrain_number honoured, Space.constrain_number honoured,
        d.constrain_of_literal literal]
    | _ => cases honoured

namespace Assembly

section Literal

variable {σ α β : Type} {view : StateView σ} {key : ArgumentKey} {rules : RuleBook}

/-- An outcome beside another state. -/
def attach (s : σ) :
    EStateM.Result SessionError (Assembly Unit) α → EStateM.Result SessionError (Assembly σ) α
  | .ok x a => .ok x ⟨s, a.applied⟩
  | .error e a => .error e ⟨s, a.applied⟩

/-- A step does what another one does that has nothing to read from, and leaves
the state as it is. -/
def Alike (m : Step σ α) (m₀ : Step Unit α) : Prop :=
  ∀ s applied, m ⟨s, applied⟩ = attach s (m₀ ⟨(), applied⟩)

theorem Alike.pure (x : α) : Alike (pure x : Step σ α) (pure x) := fun _ _ => rfl

theorem Alike.throw (e : SessionError) : Alike (throw e : Step σ α) (throw e) := fun _ _ => rfl

theorem Alike.bind {m : Step σ α} {m₀ : Step Unit α} {f : α → Step σ β} {f₀ : α → Step Unit β}
    (h : Alike m m₀) (next : ∀ x, Alike (f x) (f₀ x)) : Alike (m >>= f) (m₀ >>= f₀) := by
  intro s applied
  simp only [Bind.bind, EStateM.bind, h s applied]
  cases m₀ ⟨(), applied⟩ with
  | ok x a => exact next x s a.applied
  | error e a => rfl

theorem Alike.foldlM {f : α → β → Step σ α} {f₀ : α → β → Step Unit α} {l : List β}
    (h : ∀ y ∈ l, ∀ x, Alike (f x y) (f₀ x y)) :
    ∀ x, Alike (l.foldlM f x) (l.foldlM f₀ x) := by
  induction l with
  | nil => exact fun x => .pure x
  | cons y l ih =>
    intro x
    rw [List.foldlM_cons, List.foldlM_cons]
    exact (h y List.mem_cons_self x).bind (ih fun z hz => h z (List.mem_cons_of_mem _ hz))

theorem narrowBy_alike {c : Constraint} (literal : c.bound.readsState = false) (space : Space)
    {mismatch : AbiKind → Step σ Space} {mismatch₀ : AbiKind → Step Unit Space}
    (passed : ∀ kind, Alike (mismatch kind) (mismatch₀ kind)) :
    Alike (narrowBy view key c space mismatch) (narrowBy detached key c space mismatch₀) := by
  intro s applied
  simp only [narrowBy, space.constrain_of_literal literal view s]
  generalize space.constrain detached c () = outcome
  obtain ⟨⟨narrowed, error?⟩, nothing⟩ := outcome
  cases error? with
  | none => rfl
  | some e =>
    cases e with
    | notApplicable kind => exact passed kind s applied
    | empty reason => rfl
    | bound e => rfl

theorem narrowByOwn_alike (space : Space)
    (literal : ∀ c ∈ ruleConstraints rules key space.type, c.bound.readsState = false) :
    Alike (narrowByOwn view rules key space) (narrowByOwn detached rules key space) := by
  unfold narrowByOwn
  cases found : rules.lookup? key.contract key.function space.type with
  | none => exact .pure space
  | some entry =>
    rw [ruleConstraints, found] at literal
    exact .foldlM (fun c hc space => narrowBy_alike (literal c hc) space fun kind => .throw _) space

mutual

theorem narrowByRules_alike : (space : Space) →
    (∀ c ∈ space.type.parts.flatMap (ruleConstraints rules key), c.bound.readsState = false) →
    Alike (narrowByRules view rules key space) (narrowByRules detached rules key space)
  | .fixedArray element length, literal => by
    rw [Space.type, AbiType.parts, List.flatMap_cons, List.forall_mem_append] at literal
    simp only [narrowByRules]
    exact (narrowByOwn_alike (.fixedArray element length) literal.1).bind fun _ =>
      (narrowByRules_alike element literal.2).bind fun _ => .pure _
  | .array element, literal => by
    rw [Space.type, AbiType.parts, List.flatMap_cons, List.forall_mem_append] at literal
    simp only [narrowByRules]
    exact (narrowByOwn_alike (.array element) literal.1).bind fun _ =>
      (narrowByRules_alike element literal.2).bind fun _ => .pure _
  | .tuple items, literal => by
    rw [Space.type, AbiType.parts, List.flatMap_cons, List.forall_mem_append] at literal
    simp only [narrowByRules]
    exact (narrowByOwn_alike (.tuple items) literal.1).bind fun _ =>
      (narrowByRulesAll_alike items literal.2).bind fun _ => .pure _
  | .number type d, literal => by
    simp only [narrowByRules]
    exact narrowByOwn_alike (.number type d) (by simpa [Space.type, AbiType.parts] using literal)
  | .fixedBytes size, literal => by
    simp only [narrowByRules]
    exact narrowByOwn_alike (.fixedBytes size) (by simpa [Space.type, AbiType.parts] using literal)
  | .function, literal => by
    simp only [narrowByRules]
    exact narrowByOwn_alike .function (by simpa [Space.type, AbiType.parts] using literal)
  | .bytes, literal => by
    simp only [narrowByRules]
    exact narrowByOwn_alike .bytes (by simpa [Space.type, AbiType.parts] using literal)
  | .string, literal => by
    simp only [narrowByRules]
    exact narrowByOwn_alike .string (by simpa [Space.type, AbiType.parts] using literal)

theorem narrowByRulesAll_alike : (spaces : List Space) →
    (∀ c ∈ (AbiType.partsOfAll (Space.types spaces)).flatMap (ruleConstraints rules key),
      c.bound.readsState = false) →
    Alike (narrowByRulesAll view rules key spaces) (narrowByRulesAll detached rules key spaces)
  | [], _ => by
    simp only [narrowByRulesAll]
    exact .pure []
  | space :: spaces, literal => by
    rw [Space.types, AbiType.partsOfAll, List.flatMap_append, List.forall_mem_append] at literal
    simp only [narrowByRulesAll]
    exact (narrowByRules_alike space literal.1).bind fun _ =>
      (narrowByRulesAll_alike spaces literal.2).bind fun _ => .pure _

end

theorem narrowByGuards_alike {guards : GuardTable}
    (literal : ∀ c ∈ guardsOn guards key, c.bound.readsState = false) (space : Space) :
    Alike (narrowByGuards view guards key space) (narrowByGuards detached guards key space) :=
  .foldlM (fun c hc space => narrowBy_alike (literal c hc) space fun _ => .pure space) space

end Literal

end Assembly

/-! ## Types -/

namespace Space

mutual

theorem type_ofType : (t : AbiType) → (ofType t).type = t
  | .number type => rfl
  | .fixedBytes size => rfl
  | .function => rfl
  | .bytes => rfl
  | .string => rfl
  | .fixedArray element length => by simp only [ofType, type, type_ofType element]
  | .array element => by simp only [ofType, type, type_ofType element]
  | .tuple items => by simp only [ofType, type, types_ofTypes items]

theorem types_ofTypes : (ts : List AbiType) → types (ofTypes ts) = ts
  | [] => rfl
  | t :: ts => by simp only [ofTypes, types, type_ofType t, types_ofTypes ts]

end

/-- A constraint does not change the type of a space. -/
theorem type_constrain {σ : Type} (space : Space) (view : StateView σ) (c : Constraint) (s : σ) :
    (space.constrain view c s).1.1.type = space.type := by
  cases honoured : c.appliesTo space.type with
  | false => rw [constrain_of_not_appliesTo honoured]
  | true =>
    cases space with
    | number type d => rw [constrain_number honoured]; rfl
    | _ => cases honoured

end Space

namespace Assembly

section Types

variable {σ : Type} {view : StateView σ} {key : ArgumentKey} {rules : RuleBook}

theorem narrowBy_type {c : Constraint} {space space' : Space} {a a' : Assembly σ}
    {mismatch : AbiKind → Step σ Space}
    (keeps : ∀ kind a a', mismatch kind a = .ok space' a' → space'.type = space.type)
    (run : narrowBy view key c space mismatch a = .ok space' a') : space'.type = space.type := by
  have same := space.type_constrain view c a.state
  simp only [narrowBy] at run
  generalize space.constrain view c a.state = outcome at run same
  obtain ⟨⟨narrowed, error?⟩, s⟩ := outcome
  cases error? with
  | none =>
    cases run
    exact same
  | some e =>
    cases e with
    | notApplicable kind => exact keeps _ _ _ run
    | empty reason => cases run
    | bound e => cases run

theorem foldlM_narrowBy_type {mismatch : Space → Constraint → AbiKind → Step σ Space}
    (keeps : ∀ space c kind a space' a', mismatch space c kind a = .ok space' a' →
      space'.type = space.type) {cs : List Constraint} {space space' : Space} {a a' : Assembly σ}
    (run : cs.foldlM (fun space c => narrowBy view key c space (mismatch space c)) space a =
      .ok space' a') : space'.type = space.type := by
  induction cs generalizing space a with
  | nil =>
    cases run
    rfl
  | cons c cs ih =>
    rw [List.foldlM_cons, bind_eq_ok_iff] at run
    obtain ⟨space₁, a₁, first, rest⟩ := run
    exact (ih rest).trans (narrowBy_type (fun kind a a' => keeps space c kind a _ a') first)

theorem narrowByOwn_type {space space' : Space} {a a' : Assembly σ}
    (run : narrowByOwn view rules key space a = .ok space' a') : space'.type = space.type := by
  unfold narrowByOwn at run
  cases found : rules.lookup? key.contract key.function space.type with
  | none =>
    rw [found] at run
    cases run
    rfl
  | some entry =>
    rw [found] at run
    exact foldlM_narrowBy_type (fun _ _ _ _ _ _ failed => by cases failed) run

mutual

theorem narrowByRules_type : (space : Space) → ∀ {space' : Space} {a a' : Assembly σ},
    narrowByRules view rules key space a = .ok space' a' → space'.type = space.type
  | .fixedArray element length => by
    intro run
    rw [narrowByRules, bind_eq_ok_iff] at run
    obtain ⟨_, a₁, -, run⟩ := run
    obtain ⟨element', a₂, inner, run⟩ := bind_eq_ok_iff.1 run
    cases run
    rw [Space.type, Space.type, narrowByRules_type element inner]
  | .array element => by
    intro run
    rw [narrowByRules, bind_eq_ok_iff] at run
    obtain ⟨_, a₁, -, run⟩ := run
    obtain ⟨element', a₂, inner, run⟩ := bind_eq_ok_iff.1 run
    cases run
    rw [Space.type, Space.type, narrowByRules_type element inner]
  | .tuple items => by
    intro run
    rw [narrowByRules, bind_eq_ok_iff] at run
    obtain ⟨_, a₁, -, run⟩ := run
    obtain ⟨items', a₂, inner, run⟩ := bind_eq_ok_iff.1 run
    cases run
    rw [Space.type, Space.type, narrowByRulesAll_types items inner]
  | .number type d => fun run => narrowByOwn_type (by simpa only [narrowByRules] using run)
  | .fixedBytes size => fun run => narrowByOwn_type (by simpa only [narrowByRules] using run)
  | .function => fun run => narrowByOwn_type (by simpa only [narrowByRules] using run)
  | .bytes => fun run => narrowByOwn_type (by simpa only [narrowByRules] using run)
  | .string => fun run => narrowByOwn_type (by simpa only [narrowByRules] using run)

theorem narrowByRulesAll_types : (spaces : List Space) → ∀ {spaces' : List Space}
    {a a' : Assembly σ}, narrowByRulesAll view rules key spaces a = .ok spaces' a' →
    Space.types spaces' = Space.types spaces
  | [] => by
    intro run
    rw [narrowByRulesAll] at run
    cases run
    rfl
  | space :: spaces => by
    intro run
    rw [narrowByRulesAll, bind_eq_ok_iff] at run
    obtain ⟨space₁, a₁, first, run⟩ := run
    obtain ⟨spaces₁, a₂, rest, run⟩ := bind_eq_ok_iff.1 run
    cases run
    rw [Space.types, Space.types, narrowByRules_type space first,
      narrowByRulesAll_types spaces rest]

end

/-- Guards that values of the type do not honour are passed over. -/
theorem narrowByGuards_passed {guards : GuardTable} {space : Space}
    (passed : ∀ c : Constraint, c.appliesTo space.type = false) (a : Assembly σ) :
    narrowByGuards view guards key space a = .ok space a := by
  unfold narrowByGuards
  induction guards.constraintsOn ⟨key.contract, key.function⟩ key.name with
  | nil => rfl
  | cons c cs ih =>
    rw [List.foldlM_cons]
    exact bind_eq_ok_iff.2 ⟨_, _, narrowBy_of_not_appliesTo space (passed c) _ a, ih⟩

end Types

end Assembly

/-! ## Assemblies without reading -/

section Literal

open Assembly

variable {σ : Type} {rules : RuleBook} {guards guards' : GuardTable} {key : ArgumentKey}
  {space : Space}

/-- Where no bound is read from state, an assembly comes to the same from
every state, and leaves it as it was. -/
theorem argumentSpace_literal
    (literal : ∀ c ∈ constraintsOf rules guards key, c.bound.readsState = false)
    (view : StateView σ) (s : σ) :
    argumentSpace view rules guards key s =
      match argumentSpace detached rules guards key () with
      | .ok space _ => .ok space s
      | .error e _ => .error e s := by
  obtain ⟨ofRules, ofGuards⟩ := List.forall_mem_append.1 literal
  have alike : Alike (stages view rules guards key) (stages detached rules guards key) :=
    (narrowByRules_alike _ (by rwa [Space.type_ofType])).bind (narrowByGuards_alike ofGuards)
  rw [argumentSpace_eq, argumentSpace_eq, alike s []]
  cases stages detached rules guards key ⟨(), []⟩ <;> rfl

/-- A space has the type of its argument. -/
theorem argumentSpace_type {view : StateView σ} {s s' : σ}
    (assembled : argumentSpace view rules guards key s = .ok space s') :
    space.type = key.type := by
  obtain ⟨space₁, a₁, a', first, second, -⟩ := argumentSpace_ok_iff.1 assembled
  have ofGuards : space.type = space₁.type := foldlM_narrowBy_type
    (fun _ _ _ _ _ _ passed => by cases passed; rfl) second
  rw [ofGuards, narrowByRules_type _ first, Space.type_ofType]

/-- Only numbers have guards that matter. -/
theorem argumentSpace_of_not_number {view : StateView σ} {s s' : σ}
    (other : ∀ number, key.type ≠ .number number)
    (assembled : argumentSpace view rules guards key s = .ok space s') :
    argumentSpace view rules guards' key s = .ok space s' := by
  obtain ⟨space₁, a₁, a', first, second, same⟩ := argumentSpace_ok_iff.1 assembled
  have passed : ∀ c : Constraint, c.appliesTo space₁.type = false := by
    rw [narrowByRules_type _ first, Space.type_ofType]
    exact fun c => Constraint.appliesTo_eq_false other
  rw [narrowByGuards_passed passed] at second
  cases second
  exact argumentSpace_ok_iff.2 ⟨_, a₁, a₁, first, narrowByGuards_passed passed a₁, same⟩

/-- A domain that guards do not change is what an assembly with them comes to. -/
theorem argumentSpace_of_unchanged {type : NumberType} {added : List Constraint} {d : Domain}
    (number : key.type = .number type)
    (literal : ∀ c ∈ ruleConstraints rules key (.number type) ++ guardsOn guards' key,
      c.bound.readsState = false)
    (extended : (guardsOn guards' key).Perm (guardsOn guards key ++ added))
    (assembled : argumentSpace detached rules guards key () = .ok (.number type d) ())
    (unchanged : ∀ c ∈ added, c.appliesTo (.number type) = true →
      d.constrain detached c () = ((d, none), ())) :
    argumentSpace detached rules guards' key () = .ok (.number type d) () := by
  obtain ⟨_, same, reached⟩ := argumentSpace_reached number assembled
  cases same
  have kept : ∀ c ∈ added.filter (·.appliesTo (.number type)),
      d.constrain detached c () = ((d, none), ()) :=
    fun c hc => unchanged c (List.mem_filter.1 hc).1 (List.mem_filter.1 hc).2
  have merged := reached.append_unchanged kept
  rw [← List.filter_append, List.append_assoc] at merged
  have members : ∀ c, c ∈ (ruleConstraints rules key (.number type) ++
      guardsOn guards' key).filter (·.appliesTo (.number type)) ↔
        c ∈ (ruleConstraints rules key (.number type) ++ (guardsOn guards key ++ added)).filter
          (·.appliesTo (.number type)) :=
    fun c => ((extended.append_left _).filter _).mem_iff
  -- The rules come to what they came to, and one value meets all guards.
  obtain ⟨x, allowed⟩ := merged.exists_allows
  obtain ⟨inType, met⟩ := (merged.records.allows_iff x).1 allowed
  obtain ⟨space₁, a₁, a', first, -, -⟩ := argumentSpace_ok_iff.1 assembled
  rw [number] at first
  obtain ⟨d₁, rfl, reached₁⟩ := narrowByRules_number_ok first
  have allowed₁ : d₁.allows x = true := by
    refine (reached₁.records.allows_iff x).2 ⟨inType, fun p hp => met p ?_⟩
    rw [List.filter_append, List.filterMap_append]
    exact List.mem_append_left _ hp
  have guardsMet : ∀ c ∈ guardsOn guards' key, c.appliesTo (.number type) = true →
      ∃ p, c.demand? type.decimals = some p ∧ p.Met x := by
    intro c hc honoured
    have onKey := (members c).1 (List.mem_filter.2 ⟨List.mem_append_right _ hc, honoured⟩)
    obtain ⟨p, demand, recorded⟩ :=
      merged.exists_demand onKey (literal c (List.mem_append_right _ hc))
    exact ⟨p, demand, met p recorded⟩
  obtain ⟨space', a'', run⟩ := foldlM_narrowBy_of_met detached key a₁ reached₁ allowed₁ guardsMet
  rw [← number] at first
  have assembled' := argumentSpace_ok_iff.2 ⟨_, a₁, a'', first, run, rfl⟩
  -- The same constraints lead to the same domain.
  obtain ⟨d', rfl, reached'⟩ := argumentSpace_reached number assembled'
  rw [reached'.unique merged (fun c hc => literal c (List.mem_filter.1 hc).1) members]
    at assembled'
  exact assembled'

/-- **Further guards.** A space comes out as it was, with further guards that
have literal bounds, exactly when none of them changes it; guards that values of
the type do not honour never do. -/
theorem argumentSpace_extended_iff {added : List Constraint}
    (literal : ∀ c ∈ constraintsOf rules guards' key, c.bound.readsState = false)
    (extended : (guardsOn guards' key).Perm (guardsOn guards key ++ added))
    (assembled : argumentSpace detached rules guards key () = .ok space ()) :
    argumentSpace detached rules guards' key () = .ok space () ↔
      ∀ c ∈ added, c.appliesTo key.type = true →
        (space.constrain detached c ()).1 = (space, none) := by
  by_cases isNumber : ∃ type, key.type = .number type
  · obtain ⟨type, number⟩ := isNumber
    obtain ⟨d, rfl, reached⟩ := argumentSpace_reached number assembled
    rw [constraintsOf, number, AbiType.parts_number, List.flatMap_singleton] at literal
    rw [number]
    have step : ∀ c : Constraint, c.appliesTo (.number type) = true →
        (((Space.number type d).constrain detached c ()).1 = (.number type d, none) ↔
          d.constrain detached c () = ((d, none), ())) := by
      intro c honoured
      rw [Space.constrain_number honoured]
      generalize d.constrain detached c () = outcome
      obtain ⟨⟨d', error?⟩, nothing⟩ := outcome
      constructor
      · intro same
        obtain ⟨domain, error⟩ := Prod.mk.inj same
        cases domain
        cases error
        rfl
      · intro same
        cases (Prod.mk.inj same).1
        rfl
    constructor
    · intro again c hc honoured
      obtain ⟨_, same, reached'⟩ := argumentSpace_reached number again
      cases same
      have onKey := extended.mem_iff.2 (List.mem_append_right _ hc)
      refine (step c honoured).2 (reached'.constrain_again ?_ ?_ detached ())
      · exact List.mem_filter.2 ⟨List.mem_append_right _ onKey, honoured⟩
      · exact literal c (List.mem_append_right _ onKey)
    · intro unchanged
      exact argumentSpace_of_unchanged number literal extended assembled
        fun c hc honoured => (step c honoured).1 (unchanged c hc honoured)
  · have other : ∀ number, key.type ≠ .number number := fun number same => isNumber ⟨number, same⟩
    refine ⟨fun _ c _ honoured => ?_, fun _ => argumentSpace_of_not_number other assembled⟩
    rw [Constraint.appliesTo_eq_false other] at honoured
    cases honoured

end Literal

end GuardedCalls
