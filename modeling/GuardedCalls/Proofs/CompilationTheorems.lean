/-
GuardedCalls.Proofs.CompilationTheorems — which conditions become constraints,
and what the constraint of a condition says.

* `Node.Names`, `Node.Bounds`, `Node.ComparesParameter` — by the shape of a
  tree: a parameter, something it can be compared with, and a comparison of the
  two. Nothing here refers to the compiler.
* `Guard.compile_eq_some_iff` — everything a condition with a constraint can be;
  `Guard.holds?_of_compile` — its constraint says the same as it does.
* `Guard.compile_exact` — the conditions with a constraint are the comparisons
  of a parameter, and the constraint is true when the condition is.
-/
import GuardedCalls.Proofs.GuardTheorems

namespace GuardedCalls

open Source

/-! ## Shapes of conditions -/

namespace Source.Node

/-- The node is the name of a parameter. -/
inductive Names (parameters : List String) (name : String) : Node → Prop
  | mk {location : Location} (declared : name ∈ parameters) :
      Names parameters name (.identifier name location)

/-- The node is something that a parameter can be compared with: a number or a
truth value that is written out, a name that is no parameter, or a call without
arguments through a plain name. -/
inductive Bounds (parameters : List String) : Node → Prop
  | literal {value hexValue : Option String} {kind : String} {unit : Option String}
      {location : Location} (known : kind = "number" ∨ kind = "bool")
      (carried : value.isSome ∨ hexValue.isSome) :
      Bounds parameters (.literal value hexValue kind unit location)
  | name {name : String} {location : Location} (undeclared : name ∉ parameters) :
      Bounds parameters (.identifier name location)
  | getter {name : String} {place location : Location} :
      Bounds parameters (.call (.identifier name place) [] location)

/-- The operators of comparisons. -/
def comparisonOperators : List String := ["==", "!=", ">", ">=", "<", "<="]

/-- The condition compares a parameter with a bound, in either order. -/
inductive ComparesParameter (parameters : List String) : Node → Prop
  | left {operator name : String} {left right : Node} {location : Location}
      (comparison : operator ∈ comparisonOperators) (parameter : Names parameters name left)
      (bound : Bounds parameters right) :
      ComparesParameter parameters (.binary operator left right location)
  | right {operator name : String} {left right : Node} {location : Location}
      (comparison : operator ∈ comparisonOperators) (bound : Bounds parameters left)
      (parameter : Names parameters name right) :
      ComparesParameter parameters (.binary operator left right location)

end Source.Node

theorem Comparison.exists_ofSymbol?_iff {operator : String} :
    (∃ comparison, Comparison.ofSymbol? operator = some comparison) ↔
      operator ∈ Node.comparisonOperators := by
  constructor
  · rintro ⟨comparison, h⟩
    obtain rfl : comparison.symbol = operator := by simpa using List.find?_some h
    cases comparison <;> simp [Comparison.symbol, Node.comparisonOperators]
  · intro h
    simp only [Node.comparisonOperators, List.mem_cons, List.not_mem_nil, or_false] at h
    rcases h with rfl | rfl | rfl | rfl | rfl | rfl <;> exact ⟨_, rfl⟩

/-! ## Operands -/

namespace Operand

variable {parameters : List String} {n : Node} {name : String}

theorem ofNode_eq_argument_iff :
    ofNode parameters n = .ok (.argument name) ↔ n.Names parameters name := by
  constructor
  · intro h
    cases n with
    | identifier name' location =>
      by_cases declared : name' ∈ parameters
      · simp only [ofNode, if_pos declared, Except.ok.injEq, argument.injEq] at h
        exact h ▸ .mk declared
      · simp [ofNode, declared] at h
    | literal value hexValue kind unit location =>
      simp only [ofNode, ofLiteral] at h
      split at h
      · cases h
      · split at h <;> cases h
    | call function arguments location =>
      simp only [ofNode] at h
      split at h <;> cases h
    | _ => cases h
  · rintro ⟨declared⟩
    simp [ofNode, declared]

theorem exists_ofNode_eq_bound_iff :
    (∃ b, ofNode parameters n = .ok (.bound b)) ↔ n.Bounds parameters := by
  constructor
  · rintro ⟨b, h⟩
    cases n with
    | identifier name location =>
      by_cases declared : name ∈ parameters
      · simp [ofNode, declared] at h
      · exact .name declared
    | literal value hexValue kind unit location =>
      simp only [ofNode, ofLiteral] at h
      split at h
      · cases h
      · next known =>
        refine .literal (by simpa only [not_and_or, ne_eq, not_not] using known) ?_
        cases value <;> cases hexValue <;> simp at h ⊢
    | call function arguments location =>
      simp only [ofNode] at h
      split at h
      · next name plain =>
        unfold Node.calledName? at plain
        split at plain
        · next place _ same =>
          cases same
          exact .getter
        · cases plain
      · cases h
    | _ => cases h
  · intro h
    cases h with
    | @literal value hexValue kind unit location known carried =>
      have number : ¬ (kind ≠ "number" ∧ kind ≠ "bool") := by
        simpa only [not_and_or, ne_eq, not_not] using known
      cases value with
      | some text => exact ⟨_, by simp only [ofNode, ofLiteral, if_neg number]; rfl⟩
      | none =>
        cases hexValue with
        | some hex => exact ⟨_, by simp only [ofNode, ofLiteral, if_neg number]; rfl⟩
        | none => simp at carried
    | name undeclared => exact ⟨_, by simp only [ofNode, if_neg undeclared]; rfl⟩
    | getter => exact ⟨_, rfl⟩

end Operand

/-! ## Conditions -/

namespace Guard

variable {parameters : List String} {condition : Node} {c : Constraint}

/-- The parts of a condition that has a constraint. The operand on the one side is
an argument and the one on the other side a bound. -/
theorem compile_eq_some_iff : compile parameters condition = .ok (some c) ↔
    ∃ operator left right location comparison name b,
      condition = .binary operator left right location ∧
      Comparison.ofSymbol? operator = some comparison ∧
      ((Operand.ofNode parameters left = .ok (.argument name) ∧
          Operand.ofNode parameters right = .ok (.bound b) ∧
          c = ⟨comparison, b, .guard location [name]⟩) ∨
        (Operand.ofNode parameters left = .ok (.bound b) ∧
          Operand.ofNode parameters right = .ok (.argument name) ∧
          c = ⟨comparison.converse, b, .guard location [name]⟩)) := by
  constructor
  · intro h
    cases condition with
    | binary operator left right location =>
      simp only [compile] at h
      split at h
      · cases h
      · next comparison known =>
        split at h
        · cases h
        · next l hl =>
          split at h
          · cases h
          · next r hr =>
            replace h := Except.ok.inj h
            unfold ofOperands at h
            split at h
            · next name b =>
              cases h
              exact ⟨_, _, _, _, _, name, b, rfl, known, .inl ⟨hl, hr, rfl⟩⟩
            · next b name =>
              cases h
              exact ⟨_, _, _, _, _, name, b, rfl, known, .inr ⟨hl, hr, rfl⟩⟩
            · cases h
    | _ => cases h
  · rintro ⟨operator, left, right, location, comparison, name, b, rfl, known,
      ⟨hl, hr, rfl⟩ | ⟨hl, hr, rfl⟩⟩ <;>
    · simp only [compile, known, hl, hr, ofOperands]

/-- The conditions with a constraint are the comparisons of a parameter. -/
theorem exists_compile_iff :
    (∃ c, compile parameters condition = .ok (some c)) ↔
      condition.ComparesParameter parameters := by
  simp only [compile_eq_some_iff]
  constructor
  · rintro ⟨c, operator, left, right, location, comparison, name, b, rfl, known,
      ⟨hl, hr, -⟩ | ⟨hl, hr, -⟩⟩
    · exact .left (Comparison.exists_ofSymbol?_iff.1 ⟨_, known⟩)
        (Operand.ofNode_eq_argument_iff.1 hl) (Operand.exists_ofNode_eq_bound_iff.1 ⟨b, hr⟩)
    · exact .right (Comparison.exists_ofSymbol?_iff.1 ⟨_, known⟩)
        (Operand.exists_ofNode_eq_bound_iff.1 ⟨b, hl⟩) (Operand.ofNode_eq_argument_iff.1 hr)
  · intro h
    cases h with
    | left known parameter bound =>
      obtain ⟨comparison, known⟩ := Comparison.exists_ofSymbol?_iff.2 known
      obtain ⟨b, bound⟩ := Operand.exists_ofNode_eq_bound_iff.2 bound
      have parameter := Operand.ofNode_eq_argument_iff.2 parameter
      exact ⟨_, _, _, _, _, _, _, _, rfl, known, .inl ⟨parameter, bound, rfl⟩⟩
    | right known bound parameter =>
      obtain ⟨comparison, known⟩ := Comparison.exists_ofSymbol?_iff.2 known
      obtain ⟨b, bound⟩ := Operand.exists_ofNode_eq_bound_iff.2 bound
      have parameter := Operand.ofNode_eq_argument_iff.2 parameter
      exact ⟨_, _, _, _, _, _, _, _, rfl, known, .inr ⟨bound, parameter, rfl⟩⟩

/-- The constraint of a condition is about one parameter. It holds of that
parameter when the condition is true, and where its bound is no number the
condition is neither true nor false. -/
theorem holds?_of_compile (h : compile parameters condition = .ok (some c)) :
    ∃ name ∈ parameters, c.arguments = [name] ∧ ∀ (ρ : Valuation) decimals,
      ρ.holds? parameters decimals condition =
        (ρ.bound? decimals c.bound).map (c.comparison.holds (ρ.argument name)) := by
  obtain ⟨operator, left, right, location, comparison, name, b, rfl, known,
    ⟨hl, hr, rfl⟩ | ⟨hl, hr, rfl⟩⟩ := compile_eq_some_iff.1 h
  · obtain ⟨declared⟩ := Operand.ofNode_eq_argument_iff.1 hl
    refine ⟨name, declared, rfl, fun ρ decimals => ?_⟩
    simp only [Valuation.holds?, Operand.side?_of_ofNode hl, Operand.side?_of_ofNode hr,
      Valuation.operand?, Option.bind_some, Comparison.relation?_of_ofSymbol? known]
    cases ρ.bound? decimals b <;> rfl
  · obtain ⟨declared⟩ := Operand.ofNode_eq_argument_iff.1 hr
    refine ⟨name, declared, rfl, fun ρ decimals => ?_⟩
    simp only [Valuation.holds?, Operand.side?_of_ofNode hl, Operand.side?_of_ofNode hr,
      Valuation.operand?, Option.bind_some, Comparison.relation?_of_ofSymbol? known]
    cases ρ.bound? decimals b <;> simp [Comparison.holds_converse]

/-- **Compiling is exact.** A condition has a constraint exactly when it compares a
parameter with a bound. The constraint is about one parameter, and whatever
numbers the names stand for, at any number of decimals, it is true of that
parameter if and only if the condition is true. -/
theorem compile_exact (parameters : List String) (condition : Node) :
    ((∃ c, compile parameters condition = .ok (some c)) ↔
      condition.ComparesParameter parameters) ∧
    ∀ c, compile parameters condition = .ok (some c) →
      ∃ name ∈ parameters, c.arguments = [name] ∧ ∀ (ρ : Valuation) decimals,
        ρ.holds? parameters decimals condition =
          (ρ.bound? decimals c.bound).map (c.comparison.holds (ρ.argument name)) :=
  ⟨exists_compile_iff, fun _ => holds?_of_compile⟩

/-- With the parameter on the right the comparison is turned round: `limit() > x`
is the constraint `x < limit()`. -/
theorem compile_exact_turned :
    let condition : Node := .binary ">" (.call (.identifier "limit" Location.none) [] Location.none)
      (.identifier "x" Location.none) Location.none
    let c : Constraint := ⟨.less, .getter "limit", .guard Location.none ["x"]⟩
    compile ["x"] condition = .ok (some c) ∧ ∀ (ρ : Valuation) decimals,
      ρ.holds? ["x"] decimals condition = some (decide (ρ.argument "x" < ρ.getter "limit")) := by
  intro condition c
  have compiled : compile ["x"] condition = .ok (some c) := by decide
  obtain ⟨name, declared, named, meaning⟩ := (compile_exact ["x"] condition).2 c compiled
  obtain rfl : "x" = name := List.head_eq_of_cons_eq named
  exact ⟨compiled, meaning⟩

end Guard

end GuardedCalls
