/-
GuardedCalls.Proofs.CollectionTheorems — collecting guards visits each `require` once, and
in the order of the source.

Guards are collected along the statements of a body. The places of a body are the paths of
child numbers that lead to its nodes, and the order of the source is the lexicographic order
of these paths: a node comes before what is in it, and that comes before what follows.

* `Node.at?` — the node at a path.
* `Node.visits` — the `require` statements of a tree by their paths. `mem_visits_iff`: it is
  all of them; `pairwise_visits`: their paths rise, so no statement comes twice;
  `map_snd_visits`: they are what the collection goes through.
* `Contributes` — what one condition adds: a requirement, or a constraint, or nothing.
* `guards_collected_in_order` — a body has what its statements contribute, one after the
  other, and nothing else.
-/
import GuardedCalls.Proofs.GuardTheorems
import Mathlib.Data.List.Forall2
import Mathlib.Data.List.Lex

namespace GuardedCalls

open Source

namespace Source.Node

/-! ## Places -/

/-- The node that a path leads to, from child to child of the statement tree. -/
def at? (n : Node) : List ℕ → Option Node
  | [] => some n
  | i :: rest => n.statements[i]?.bind fun child => child.at? rest

theorem at?_cons_eq_some_iff {n m : Node} {i : ℕ} {rest : List ℕ} :
    n.at? (i :: rest) = some m ↔ ∃ child, n.statements[i]? = some child ∧ child.at? rest = some m :=
  Option.bind_eq_some_iff

/-- The conditions of the `require` statements in a tree, each with the path of its
statement. -/
def visits (n : Node) : List (List ℕ × Node) :=
  (n.ownCondition?.map ([], ·)).toList ++
    n.statements.zipIdx.attach.flatMap fun p => (visits p.1.1).map fun v => (p.1.2 :: v.1, v.2)
termination_by sizeOf n
decreasing_by exact sizeOf_lt_of_mem_statements (List.fst_mem_of_mem_zipIdx p.2)

/-- A statement of its own comes first, and then those of the children by their numbers. -/
theorem visits_eq (n : Node) : n.visits = (n.ownCondition?.map ([], ·)).toList ++
    n.statements.zipIdx.flatMap fun p => (visits p.1).map fun v => (p.2 :: v.1, v.2) := by
  rw [visits]
  conv_rhs => rw [← n.statements.zipIdx.attach_map_subtype_val, List.flatMap_map]

/-- The collection goes through the visited conditions. -/
theorem map_snd_visits (n : Node) : n.visits.map (·.2) = n.conditions := by
  have children : (n.statements.zipIdx.flatMap fun p =>
      (visits p.1).map fun v => (p.2 :: v.1, v.2)).map (·.2) =
        n.statements.zipIdx.flatMap fun p => p.1.conditions := by
    rw [List.map_flatMap]
    refine List.flatMap_congr fun p hp => ?_
    rw [← map_snd_visits p.1, List.map_map]
    rfl
  have unindexed : (n.statements.zipIdx.flatMap fun p => p.1.conditions) =
      n.statements.flatMap conditions := by
    rw [← List.flatMap_map, List.zipIdx_map_fst]
  rw [visits_eq, List.map_append, children, unindexed, n.conditions_eq]
  cases n.ownCondition? <;> rfl
termination_by sizeOf n
decreasing_by exact sizeOf_lt_of_mem_statements (List.fst_mem_of_mem_zipIdx hp)

/-- The visited conditions are those of the `require` statements of the tree. -/
theorem mem_visits_iff {n condition : Node} {path : List ℕ} :
    (path, condition) ∈ n.visits ↔ ∃ m, n.at? path = some m ∧ m.ownCondition? = some condition := by
  induction path generalizing n with
  | nil =>
    rw [visits_eq]
    simp [at?]
  | cons i rest ih =>
    rw [visits_eq]
    simp only [List.mem_append, Option.mem_toList, Option.map_eq_some_iff, List.mem_flatMap,
      List.mem_map, Prod.exists, Prod.mk.injEq, List.cons.injEq, List.mem_zipIdx_iff_getElem?,
      at?_cons_eq_some_iff]
    constructor
    · rintro (⟨_, -, nowhere, -⟩ | ⟨child, _, here, _, _, visited, ⟨rfl, rfl⟩, rfl⟩)
      · cases nowhere
      · obtain ⟨m, found, own⟩ := ih.1 visited
        exact ⟨m, ⟨child, here, found⟩, own⟩
    · rintro ⟨m, ⟨child, here, found⟩, own⟩
      exact .inr ⟨child, i, here, rest, condition, ih.2 ⟨m, found, own⟩, ⟨rfl, rfl⟩, rfl⟩

/-- Children are numbered in order. -/
theorem numbers_rise (ns : List Node) : ns.zipIdx.Pairwise fun a b => a.2 < b.2 := by
  rw [← List.pairwise_map, List.zipIdx_map_snd]
  exact List.pairwise_lt_range'

/-- The paths of the visited statements rise. -/
theorem pairwise_visits (n : Node) : n.visits.Pairwise fun a b => a.1 < b.1 := by
  rw [visits_eq, List.pairwise_append]
  refine ⟨?_, ?_, fun own hown below hbelow => ?_⟩
  · cases n.ownCondition? <;> simp
  · rw [List.pairwise_flatMap]
    refine ⟨fun p hp => ?_, (numbers_rise n.statements).imp fun before a ha b hb => ?_⟩
    · rw [List.pairwise_map]
      exact (pairwise_visits p.1).imp fun before => List.cons_lt_cons_iff.2 (.inr ⟨rfl, before⟩)
    · obtain ⟨a, -, rfl⟩ := List.mem_map.1 ha
      obtain ⟨b, -, rfl⟩ := List.mem_map.1 hb
      exact List.cons_lt_cons_iff.2 (.inl before)
  · -- A node comes before everything in it.
    obtain ⟨condition, -, rfl⟩ := Option.map_eq_some_iff.1 (Option.mem_toList.1 hown)
    obtain ⟨p, -, hbelow⟩ := List.mem_flatMap.1 hbelow
    obtain ⟨v, -, rfl⟩ := List.mem_map.1 hbelow
    exact List.nil_lt_cons _ _
termination_by sizeOf n
decreasing_by exact sizeOf_lt_of_mem_statements (List.fst_mem_of_mem_zipIdx hp)

end Source.Node

/-! ## What a condition adds -/

/-- What the condition of one `require` statement adds to the requirements and to the
constraints of its function. A getter is one requirement. A condition that compiles is one
constraint. Any other adds nothing, whether the compiler refuses it or has no constraint for
it. -/
inductive Contributes (parameters : List String) : Node → List Requirement → List Constraint → Prop
  | requirement {getter : String} {place location : Location} :
      Contributes parameters (.call (.identifier getter place) [] location)
        [⟨getter, location⟩] []
  | constraint {condition : Node} {c : Constraint}
      (compiled : Guard.compile parameters condition = .ok (some c)) :
      Contributes parameters condition [] [c]
  | nothing {condition : Node}
      (other : ∀ getter place location, condition ≠ .call (.identifier getter place) [] location)
      (unread : ∀ c, Guard.compile parameters condition ≠ .ok (some c)) :
      Contributes parameters condition [] []

theorem Requirement.ofNode?_eq_some_iff {condition : Node} {r : Requirement} :
    Requirement.ofNode? condition = some r ↔
      ∃ place, condition = .call (.identifier r.getter place) [] r.location := by
  constructor
  · intro h
    unfold Requirement.ofNode? at h
    split at h
    · next function location =>
      obtain ⟨getter, called, rfl⟩ := Option.map_eq_some_iff.1 h
      unfold Node.calledName? at called
      split at called
      · next name place _ _ same =>
        cases same
        cases called
        exact ⟨place, rfl⟩
      · cases called
    · cases h
  · rintro ⟨place, rfl⟩
    rfl

/-- A condition contributes its requirement and its constraint, as far as it has them. -/
theorem contributes_condition (parameters : List String) (condition : Node) :
    Contributes parameters condition (Requirement.ofNode? condition).toList
      (Guard.constraint? parameters condition).toList := by
  cases required : Requirement.ofNode? condition with
  | some r =>
    obtain ⟨place, rfl⟩ := Requirement.ofNode?_eq_some_iff.1 required
    have unconstrained : Guard.constraint? parameters
        (.call (.identifier r.getter place) [] r.location) = none := by
      simp only [Guard.constraint?, required]
    rw [unconstrained]
    exact .requirement
  | none =>
    cases compiled : Guard.constraint? parameters condition with
    | some c => exact .constraint (Guard.constraint?_eq_some_iff.1 compiled)
    | none =>
      refine .nothing (fun getter place location same => ?_) fun c unread => ?_
      · rw [Requirement.ofNode?_eq_some_iff (r := ⟨getter, location⟩) |>.2 ⟨place, same⟩]
          at required
        cases required
      · rw [Guard.constraint?_eq_some_iff.2 unread] at compiled
        cases compiled

/-- A condition contributes one thing only. -/
theorem Contributes.unique {parameters : List String} {condition : Node}
    {requirements requirements' : List Requirement} {constraints constraints' : List Constraint}
    (h : Contributes parameters condition requirements constraints)
    (h' : Contributes parameters condition requirements' constraints') :
    requirements = requirements' ∧ constraints = constraints' := by
  cases h with
  | requirement =>
    cases h' with
    | requirement => exact ⟨rfl, rfl⟩
    | constraint compiled => cases compiled
    | nothing other => exact absurd rfl (other _ _ _)
  | constraint compiled =>
    cases h' with
    | requirement => cases compiled
    | constraint compiled' =>
      rw [compiled] at compiled'
      cases compiled'
      exact ⟨rfl, rfl⟩
    | nothing _ unread => exact absurd compiled (unread _)
  | nothing other unread =>
    cases h' with
    | requirement => exact absurd rfl (other _ _ _)
    | constraint compiled => exact absurd compiled (unread _)
    | nothing => exact ⟨rfl, rfl⟩

/-! ## Functions -/

namespace Source.FunctionDefinition

/-- The node at a path in the body of a function. -/
def at? (f : FunctionDefinition) (path : List ℕ) : Option Node := f.body.bind (·.at? path)

/-- **Guards are collected once each and in order.** The `require` statements of a function
stand at places of its body, at whatever depth. Taken in the order of their places, each of
them contributes what its own condition does, which is one thing whatever the others are, and
these contributions one after the other are the requirements and the constraints of the
function. -/
theorem guards_collected_in_order (f : FunctionDefinition) :
    ∃ (visits : List (List ℕ × Node)) (parts : List (List Requirement × List Constraint)),
      (visits.Pairwise fun a b => a.1 < b.1) ∧
      (∀ path condition, (path, condition) ∈ visits ↔ ∃ rest place place', f.at? path =
        some (.expressionStatement
          (.call (.identifier "require" place) (condition :: rest) place'))) ∧
      List.Forall₂ (fun visit part => Contributes f.namedParameters visit.2 part.1 part.2)
        visits parts ∧
      (∀ condition requirements requirements' constraints constraints',
        Contributes f.namedParameters condition requirements constraints →
        Contributes f.namedParameters condition requirements' constraints' →
        requirements = requirements' ∧ constraints = constraints') ∧
      f.requirements = parts.flatMap (·.1) ∧ f.guards = parts.flatMap (·.2) := by
  have collected : ∃ visits : List (List ℕ × Node), (visits.Pairwise fun a b => a.1 < b.1) ∧
      (∀ path condition, (path, condition) ∈ visits ↔
        ∃ m, f.at? path = some m ∧ m.ownCondition? = some condition) ∧
      visits.map (·.2) = f.conditions := by
    unfold at? conditions
    cases f.body with
    | none => exact ⟨[], .nil, by simp, rfl⟩
    | some body =>
      exact ⟨body.visits, body.pairwise_visits, fun _ _ => Node.mem_visits_iff,
        body.map_snd_visits⟩
  obtain ⟨visits, rise, all, through⟩ := collected
  let part (condition : Node) : List Requirement × List Constraint :=
    ((Requirement.ofNode? condition).toList,
      (Guard.constraint? f.namedParameters condition).toList)
  refine ⟨visits, visits.map fun v => part v.2, rise, fun path condition => ?_, ?_,
    fun _ _ _ _ _ => Contributes.unique, ?_, ?_⟩
  · rw [all]
    constructor
    · rintro ⟨m, found, own⟩
      obtain ⟨rest, place, place', rfl⟩ := Node.ownCondition?_eq_some_iff.1 own
      exact ⟨rest, place, place', found⟩
    · rintro ⟨rest, place, place', found⟩
      exact ⟨_, found, rfl⟩
  · rw [List.forall₂_map_right_iff, List.forall₂_same]
    exact fun v _ => contributes_condition f.namedParameters v.2
  · rw [requirements, ← through, List.filterMap_map, List.flatMap_map,
      List.filterMap_eq_flatMap_toList]
    rfl
  · rw [guards, ← through, List.filterMap_map, List.flatMap_map, List.filterMap_eq_flatMap_toList]
    rfl

end Source.FunctionDefinition

end GuardedCalls
