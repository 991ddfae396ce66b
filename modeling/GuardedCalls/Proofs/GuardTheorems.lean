/-
GuardedCalls.Proofs.GuardTheorems — what guards say, and where they are kept.

Three questions about the way from a source unit to the constraints of an
argument, each answered without the functions that do the work.

1. WHERE — `Node.Requires` says by the shape of a tree that a `require`
   statement stands in it, at any depth. `mem_conditions_iff`: the conditions
   that are collected are exactly those.
2. WHAT — a `Valuation` gives numbers to arguments and getters, and
   `Valuation.holds?` evaluates a comparison as it is written, with integers.
   `Operand.side?_of_ofNode`: an operand that is made of a side has its number.
3. WHERE TO — `guardsFor` lists the guards of all definitions of a function.
   `constraints_addUnit_perm`: after a unit is added, a table holds what it held
   and these, and nothing is lost, twice there, or under another function.
-/
import GuardedCalls.Guard.Table
import GuardedCalls.Proofs.ScalarTheorems

namespace GuardedCalls

open Source

/-! ## Where guards stand -/

namespace Source.Node

/-- The statement `require(condition, …)` stands in a tree, at any depth. -/
inductive Requires : Node → Node → Prop
  | here {condition : Node} {rest : List Node} {place place' : Location} :
      Requires (.expressionStatement
        (.call (.identifier "require" place) (condition :: rest) place')) condition
  | within {n child condition : Node} (child_mem : child ∈ n.statements)
      (requires : Requires child condition) : Requires n condition

/-- The condition of a node that is a guard statement itself. -/
def ownCondition? : Node → Option Node
  | .expressionStatement expression => expression.condition?
  | _ => none

theorem conditionsOfAll_eq (ns : List Node) : conditionsOfAll ns = ns.flatMap conditions := by
  induction ns with
  | nil => rfl
  | cons n ns ih => rw [conditionsOfAll, ih, List.flatMap_cons]

theorem conditionsOfSome_eq (n : Option Node) :
    conditionsOfSome n = n.toList.flatMap conditions := by
  cases n with
  | none => rfl
  | some n => simp [conditionsOfSome]

/-- A node has its own condition first and then those of its children. -/
theorem conditions_eq (n : Node) :
    n.conditions = n.ownCondition?.toList ++ n.statements.flatMap conditions := by
  cases n <;>
    simp [conditions, ownCondition?, statements, conditionsOfAll_eq, conditionsOfSome_eq]

theorem ownCondition?_eq_some_iff {n condition : Node} :
    n.ownCondition? = some condition ↔ ∃ rest place place', n = .expressionStatement
      (.call (.identifier "require" place) (condition :: rest) place') := by
  constructor
  · intro h
    unfold ownCondition? at h
    split at h
    · unfold condition? at h
      split at h
      · split at h
        · next isGuard =>
          cases h
          obtain rfl := isGuard
          exact ⟨_, _, _, rfl⟩
        · cases h
      · cases h
    · cases h
  · rintro ⟨rest, place, place', rfl⟩
    rfl

theorem sizeOf_lt_of_mem_statements {n child : Node} (h : child ∈ n.statements) :
    sizeOf child < sizeOf n := by
  have inList : ∀ nodes, child ∈ nodes → sizeOf child < sizeOf nodes :=
    fun nodes => List.sizeOf_lt_of_mem
  cases n <;> simp [statements] at h ⊢
  case sourceUnit nodes => have := inList nodes h; omega
  case contract name nodes => have := inList nodes h; omega
  case block nodes => have := inList nodes h; omega
  case uncheckedBlock nodes => have := inList nodes h; omega
  case function head body => subst h; simp; omega
  case ifStatement condition thenBody elseBody =>
    rcases h with rfl | rfl
    · omega
    · simp; omega
  case forStatement body => subst h; omega
  case whileStatement body => subst h; omega
  case doWhileStatement body => subst h; omega

theorem requires_of_mem_conditions {n condition : Node} (h : condition ∈ n.conditions) :
    Requires n condition := by
  rw [conditions_eq, List.mem_append, Option.mem_toList, ownCondition?_eq_some_iff,
    List.mem_flatMap] at h
  rcases h with ⟨rest, place, place', rfl⟩ | ⟨child, child_mem, h⟩
  · exact .here
  · exact .within child_mem (requires_of_mem_conditions h)
termination_by sizeOf n
decreasing_by exact sizeOf_lt_of_mem_statements child_mem

/-- The conditions that are collected are those of the guard statements, at
whatever depth they stand. -/
theorem mem_conditions_iff {n condition : Node} :
    condition ∈ n.conditions ↔ Requires n condition := by
  refine ⟨requires_of_mem_conditions, fun h => ?_⟩
  induction h with
  | here => exact List.mem_singleton_self _
  | within child_mem requires ih =>
    rw [conditions_eq]
    exact List.mem_append_right _ (List.mem_flatMap.2 ⟨_, child_mem, ih⟩)

end Source.Node

theorem Source.FunctionDefinition.mem_conditions_iff {f : FunctionDefinition} {condition : Node} :
    condition ∈ f.conditions ↔ ∃ body, f.body = some body ∧ body.Requires condition := by
  simp [conditions, Node.conditionsOfSome_eq, Node.mem_conditions_iff]

/-! ## What conditions say -/

/-- Numbers for the names that conditions speak about. -/
structure Valuation where
  /-- The arguments of the function. -/
  argument : String → Scalar
  /-- The getters of the contract. -/
  getter : String → Scalar

namespace Valuation

/-- The number of a side of a comparison, in a function with the given
parameters. Literals are numbers with `decimals` digits after the point. -/
def side? (ρ : Valuation) (parameters : List String) (decimals : Nat) : Node → Option Scalar
  | .identifier name _ =>
    if name ∈ parameters then some (ρ.argument name) else some (ρ.getter name)
  | .literal value hexValue kind unit _ =>
    if kind = "number" ∨ kind = "bool" then
      (value <|> hexValue.map ("0x" ++ ·)).bind fun text =>
        (Scalar.ofLiteral text unit decimals).toOption
    else none
  | .call (.identifier name _) [] _ => some (ρ.getter name)
  | _ => none

/-- A comparison operator between two integers. -/
def relation? (operator : String) (a b : Int) : Option Bool :=
  match operator with
  | "==" => some (a = b)
  | "!=" => some (a ≠ b)
  | ">" => some (a > b)
  | ">=" => some (a ≥ b)
  | "<" => some (a < b)
  | "<=" => some (a ≤ b)
  | _ => none

/-- The truth of a comparison, if both its sides are numbers. -/
def holds? (ρ : Valuation) (parameters : List String) (decimals : Nat) : Node → Option Bool
  | .binary operator left right _ =>
    (ρ.side? parameters decimals left).bind fun a =>
      (ρ.side? parameters decimals right).bind fun b => relation? operator a.val b.val
  | _ => none

/-- The number of a bound. -/
def bound? (ρ : Valuation) (decimals : Nat) : Bound → Option Scalar
  | .literal text unit => (Scalar.ofLiteral text unit decimals).toOption
  | .getter name => some (ρ.getter name)

/-- The number of an operand. -/
def operand? (ρ : Valuation) (decimals : Nat) : Operand → Option Scalar
  | .argument name => some (ρ.argument name)
  | .bound b => ρ.bound? decimals b
  | .otherCall => none

end Valuation

/-- The comparison of an operator is the operator between integers. -/
theorem Comparison.relation?_of_ofSymbol? {operator : String} {comparison : Comparison}
    (h : Comparison.ofSymbol? operator = some comparison) (a b : Scalar) :
    Valuation.relation? operator a.val b.val = some (comparison.holds a b) := by
  have symbol : comparison.symbol = operator := by
    simpa using List.find?_some h
  subst symbol
  cases comparison <;>
    simp [Comparison.symbol, Valuation.relation?, Comparison.holds, Scalar.eq_iff, Scalar.lt_iff,
      Scalar.le_iff]

theorem Comparison.holds_converse (comparison : Comparison) (a b : Scalar) :
    comparison.converse.holds a b = comparison.holds b a := by
  cases comparison <;> simp [Comparison.converse, Comparison.holds, eq_comm]

/-- An operand has the number of the side that it was made of. -/
theorem Operand.side?_of_ofNode {parameters : List String} {n : Node} {o : Operand}
    (h : Operand.ofNode parameters n = .ok o) (ρ : Valuation) (decimals : Nat) :
    ρ.side? parameters decimals n = ρ.operand? decimals o := by
  cases n with
  | identifier name location =>
    simp only [ofNode] at h
    split at h
    · next isParameter =>
      cases h
      simp [Valuation.side?, Valuation.operand?, isParameter]
    · next isGetter =>
      cases h
      simp [Valuation.side?, Valuation.operand?, Valuation.bound?, isGetter]
  | literal value hexValue kind unit location =>
    simp only [ofNode, Operand.ofLiteral] at h
    split at h
    · cases h
    · next known =>
      have number : kind = "number" ∨ kind = "bool" := by
        simpa only [not_and_or, not_not] using known
      cases value with
      | some text =>
        cases h
        simp [Valuation.side?, number, Valuation.operand?, Valuation.bound?]
      | none =>
        cases hexValue with
        | some hex =>
          cases h
          simp [Valuation.side?, number, Valuation.operand?, Valuation.bound?]
        | none => cases h
  | call function arguments location =>
    cases arguments with
    | cons first rest =>
      simp only [ofNode] at h
      split at h
      · contradiction
      · cases h
        cases function <;> rfl
    | nil =>
      cases function <;>
      · cases h
        rfl
  | _ => cases h

theorem Guard.constraint?_eq_some_iff {parameters : List String} {condition : Node}
    {c : Constraint} : Guard.constraint? parameters condition = some c ↔
      Guard.compile parameters condition = .ok (some c) := by
  have read : ∀ result : Except Unsupported (Option Constraint),
      result.toOption.join = some c ↔ result = .ok (some c) := by
    intro result
    cases result <;> simp [Except.toOption]
  cases condition with
  | call function arguments location =>
    unfold Guard.constraint?
    cases Requirement.ofNode? (.call function arguments location) <;> simp [compile, read]
  | _ => simp [Guard.constraint?, Requirement.ofNode?, read]

/-- The guards of a function are the constraints of its conditions. -/
theorem Source.FunctionDefinition.mem_guards_iff {f : FunctionDefinition} {c : Constraint} :
    c ∈ f.guards ↔ ∃ condition ∈ f.conditions,
      Guard.compile f.namedParameters condition = .ok (some c) := by
  simp only [guards, List.mem_filterMap, Guard.constraint?_eq_some_iff]

/-! ## Where guards are kept -/

namespace GuardTable

/-- The guards of all definitions of a function in a source unit. -/
def guardsFor (unit : Node) (key : FunctionKey) : List Constraint :=
  ((definitions unit).filter fun d => d.1 = key.contract ∧ d.2.head.name = key.function).flatMap
    (·.2.guards)

theorem constraints_insert_self (contract : String) (f : FunctionDefinition) (table : GuardTable) :
    (table.insert contract f).constraints ⟨contract, f.head.name⟩ =
      (table.constraints ⟨contract, f.head.name⟩ ++ f.guards).mergeSort Constraint.notAfter := by
  simp [insert, constraints]

theorem requirements_insert_self (contract : String) (f : FunctionDefinition)
    (table : GuardTable) :
    (table.insert contract f).requirements ⟨contract, f.head.name⟩ =
      (table.requirements ⟨contract, f.head.name⟩ ++ f.requirements).mergeSort
        fun a b => a.location.le b.location := by
  simp [insert, requirements]

/-- A function that is added leaves the entries of the others as they are. -/
theorem insert_of_ne {contract : String} {f : FunctionDefinition} {key : FunctionKey}
    (table : GuardTable) (other : key ≠ ⟨contract, f.head.name⟩) :
    (table.insert contract f).constraints key = table.constraints key ∧
      (table.insert contract f).requirements key = table.requirements key := by
  simp [insert, constraints, requirements, Table.get?_put_of_ne _ _ other]

/-- A function that is added changes its own entry, and no other. -/
theorem constraints_insert_perm (contract : String) (f : FunctionDefinition) (table : GuardTable)
    (key : FunctionKey) :
    ((table.insert contract f).constraints key).Perm (table.constraints key ++
      if contract = key.contract ∧ f.head.name = key.function then f.guards else []) := by
  by_cases same : key = ⟨contract, f.head.name⟩
  · subst same
    simp only [and_self, if_true]
    rw [constraints_insert_self]
    exact List.mergeSort_perm _ _
  · have other : ¬ (contract = key.contract ∧ f.head.name = key.function) := by
      rintro ⟨rfl, h⟩
      exact same (by rw [h])
    rw [if_neg other, List.append_nil, (table.insert_of_ne same).1]

/-- A source unit adds the guards of its functions to a table. -/
theorem constraints_addUnit_perm (unit : Node) (table : GuardTable) (key : FunctionKey) :
    ((table.addUnit unit).constraints key).Perm (table.constraints key ++ guardsFor unit key) := by
  unfold addUnit guardsFor
  induction definitions unit generalizing table with
  | nil => simp
  | cons d ds ih =>
    rw [List.foldl_cons]
    refine (ih _).trans ?_
    refine ((constraints_insert_perm d.1 d.2 table key).append_right _).trans ?_
    rw [List.append_assoc]
    refine List.Perm.append_left _ (List.Perm.of_eq ?_)
    by_cases own : d.1 = key.contract ∧ d.2.head.name = key.function <;> simp [own]

/-- The table with source units added in turn. -/
def addUnits (table : GuardTable) (units : List Node) : GuardTable :=
  units.foldl (fun table unit => table.addUnit unit) table

/-- Source units add the guards of their functions, in whatever order. -/
theorem constraints_addUnits_perm (units : List Node) (table : GuardTable) (key : FunctionKey) :
    ((table.addUnits units).constraints key).Perm
      (table.constraints key ++ units.flatMap (guardsFor · key)) := by
  induction units generalizing table with
  | nil => simp [addUnits]
  | cons unit units ih =>
    refine (ih (table.addUnit unit)).trans ?_
    refine ((constraints_addUnit_perm unit table key).append_right _).trans ?_
    rw [List.append_assoc, List.flatMap_cons]

end GuardTable

end GuardedCalls
