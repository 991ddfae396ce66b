/-
GuardedCalls.Proofs.GuardTableTheorems — what a guard table holds after any
sequence of additions, and in which order.

* `Location.rank`, `Constraint.rank` — the order of places as an order of tuples:
  by file, then start, then length. `le_iff_rank` and `notAfter_iff_rank` say that
  the tables compare in this way.
* `Arranged` — a list holds the same items as another, by rank, and those of one
  rank as they come there. `Arranged.insert` is one addition, and
  `Arranged.eq_of_perm` says that distinct ranks leave no choice.
* `GuardAddition` — a source unit or a single function that is added to a table;
  `GuardTable.ofAdditions` is the table after a sequence of them.
* `GuardTable.Holds` — what a table holds of a function against the definitions
  that were added. `Holds.insert` is the step, `Holds.foldl_insert` and
  `Holds.addition` carry it to units, `holds_ofAdditions` to a whole sequence.
* `guards_kept_in_order` — what a table holds of a function after any additions.
-/
import GuardedCalls.Guard.Table
import GuardedCalls.Proofs.CompilationTheorems
import Mathlib.Data.Int.ConditionallyCompleteOrder
import Mathlib.Data.List.Induction
import Mathlib.Data.Prod.Lex
import Mathlib.Order.ConditionallyCompleteLattice.Basic
import Mathlib.Order.WithBot

namespace GuardedCalls

open Source

/-! ## The order of places -/

/-- A place as a tuple: the file, the start and the length. -/
def Source.Location.rank (l : Location) : ℤ ×ₗ ℕ ×ₗ ℕ := toLex (l.file, toLex (l.start, l.length))

theorem Source.Location.le_iff_rank {a b : Location} : a.le b = true ↔ a.rank ≤ b.rank := by
  simp [le, rank, Prod.Lex.toLex_le_toLex]

/-- Where a constraint stands; a rule stands before every place. -/
def Constraint.rank (c : Constraint) : WithBot (ℤ ×ₗ ℕ ×ₗ ℕ) :=
  match c.origin with
  | .guard place _ => place.rank
  | .rule _ => ⊥

theorem Constraint.notAfter_iff_rank {a b : Constraint} :
    a.notAfter b = true ↔ a.rank ≤ b.rank := by
  unfold notAfter rank
  split <;> simp [Location.le_iff_rank, *]

/-! ## Arranged lists -/

section Arranged

variable {α ρ : Type} [LinearOrder ρ] {rank : α → ρ} {items items' l l' : List α}

/-- A list has the items of another in the order of their ranks. Items of one rank
stand as they come in the other. -/
structure Arranged (rank : α → ρ) (items l : List α) : Prop where
  perm : l.Perm items
  ordered : l.Pairwise fun a b => rank a ≤ rank b
  stable : ∀ r, l.filter (rank · = r) = items.filter (rank · = r)

theorem arranged_nil : Arranged rank [] [] := ⟨.nil, .nil, fun _ => rfl⟩

section Sorting

variable {le : α → α → Bool} (compares : ∀ a b, le a b = true ↔ rank a ≤ rank b)
include compares

theorem trans_of_compares (a b c : α) (first : le a b = true) (second : le b c = true) :
    le a c = true :=
  (compares a c).2 (le_trans ((compares a b).1 first) ((compares b c).1 second))

theorem total_of_compares (a b : α) : (le a b || le b a) = true := by
  simp only [Bool.or_eq_true, compares]
  exact le_total _ _

/-- Sorting keeps items of one rank as they come: they are a sublist that is in
order already. -/
theorem filter_mergeSort (items : List α) (r : ρ) :
    (items.mergeSort le).filter (rank · = r) = items.filter (rank · = r) := by
  have ordered : (items.filter (rank · = r)).Pairwise fun a b => le a b = true := by
    refine List.pairwise_of_forall_mem_list fun a ha b hb => (compares a b).2 ?_
    simp only [List.mem_filter, decide_eq_true_eq] at ha hb
    rw [ha.2, hb.2]
  have kept := List.sublist_mergeSort (trans_of_compares compares) (total_of_compares compares)
    ordered List.filter_sublist
  have inside : (items.filter (rank · = r)).Sublist
      ((items.mergeSort le).filter (rank · = r)) := by
    simpa using kept.filter (rank · = r)
  exact (inside.eq_of_length ((List.mergeSort_perm items le).filter _).length_eq.symm).symm

/-- Items that are added to an arranged list and sorted into it come after those of
their rank that were there. -/
theorem Arranged.insert (h : Arranged rank items l) (more : List α) :
    Arranged rank (items ++ more) ((l ++ more).mergeSort le) where
  perm := (List.mergeSort_perm _ _).trans (h.perm.append_right more)
  ordered := by
    have sorted := List.pairwise_mergeSort (trans_of_compares compares)
      (total_of_compares compares) (l ++ more)
    exact sorted.imp fun {a b} => (compares a b).1
  stable r := by
    rw [filter_mergeSort compares, List.filter_append, List.filter_append, h.stable]

end Sorting

/-- Where no two items have the same rank, their order counts for nothing. -/
theorem Arranged.eq_of_perm (h : Arranged rank items l) (h' : Arranged rank items' l')
    (same : items.Perm items') (distinct : (items.map rank).Nodup) : l = l' := by
  refine List.Perm.eq_of_pairwise ?_ h.ordered h'.ordered
    (h.perm.trans (same.trans h'.perm.symm))
  intro a b ha hb low high
  have known : a ∈ items := h.perm.mem_iff.1 ha
  have known' : b ∈ items := same.mem_iff.2 (h'.perm.mem_iff.1 hb)
  exact List.inj_on_of_nodup_map distinct known known' (le_antisymm low high)

end Arranged

/-! ## Additions -/

/-- What can be added to a guard table. -/
inductive GuardAddition
  /-- A source unit. -/
  | unit (n : Node)
  /-- A function of a contract. -/
  | function (contract : String) (f : FunctionDefinition)

namespace GuardAddition

/-- The functions that are added, each with its contract. -/
def definitions : GuardAddition → List (String × FunctionDefinition)
  | .unit n => GuardTable.definitions n
  | .function contract f => [(contract, f)]

/-- The table with the addition. -/
def addTo (table : GuardTable) : GuardAddition → GuardTable
  | .unit n => table.addUnit n
  | .function contract f => table.insert contract f

end GuardAddition

namespace GuardTable

/-- The table after a sequence of additions. -/
def ofAdditions (additions : List GuardAddition) : GuardTable :=
  additions.foldl GuardAddition.addTo empty

/-- The definitions of a function among those that were added, overloads and
repetitions included. -/
def definitionsOf (key : FunctionKey) (added : List (String × FunctionDefinition)) :
    List FunctionDefinition :=
  added.filterMap fun d =>
    if d.1 = key.contract ∧ d.2.head.name = key.function then some d.2 else none

/-- A table holds the guards of the definitions of a function that were added, all of
them and no others, in the order of their places. -/
structure Holds (key : FunctionKey) (added : List (String × FunctionDefinition))
    (table : GuardTable) : Prop where
  constraints : Arranged Constraint.rank
    ((definitionsOf key added).flatMap (·.guards)) (table.constraints key)
  requirements : Arranged (fun p : Requirement => p.location.rank)
    ((definitionsOf key added).flatMap (·.requirements)) (table.requirements key)

variable {key : FunctionKey} {added : List (String × FunctionDefinition)} {table : GuardTable}

theorem holds_empty (key : FunctionKey) : empty.Holds key [] := ⟨arranged_nil, arranged_nil⟩

/-- One function is added. -/
theorem Holds.insert (h : table.Holds key added) (contract : String) (f : FunctionDefinition) :
    (table.insert contract f).Holds key (added ++ [(contract, f)]) := by
  by_cases own : key = ⟨contract, f.head.name⟩
  · subst own
    have defined : definitionsOf ⟨contract, f.head.name⟩ (added ++ [(contract, f)]) =
        definitionsOf ⟨contract, f.head.name⟩ added ++ [f] := by simp [definitionsOf]
    constructor
    · rw [constraints_insert_self, defined, List.flatMap_append, List.flatMap_singleton]
      refine Arranged.insert ?_ h.constraints f.guards
      intro a b
      exact Constraint.notAfter_iff_rank
    · rw [requirements_insert_self, defined, List.flatMap_append, List.flatMap_singleton]
      refine Arranged.insert ?_ h.requirements f.requirements
      intro a b
      exact Location.le_iff_rank
  · have apart : ¬ (contract = key.contract ∧ f.head.name = key.function) := by
      rintro ⟨rfl, name⟩
      exact own (by rw [name])
    have defined : definitionsOf key (added ++ [(contract, f)]) = definitionsOf key added := by
      simp [definitionsOf, apart]
    obtain ⟨constraints, requirements⟩ := table.insert_of_ne own
    constructor
    · rw [constraints, defined]
      exact h.constraints
    · rw [requirements, defined]
      exact h.requirements

/-- Functions are added one by one. -/
theorem Holds.foldl_insert (h : table.Holds key added)
    (more : List (String × FunctionDefinition)) :
    (more.foldl (fun table d => table.insert d.1 d.2) table).Holds key (added ++ more) := by
  induction more generalizing table added with
  | nil => simpa using h
  | cons d more ih =>
    rw [List.foldl_cons, List.append_cons]
    exact ih (h.insert d.1 d.2)

/-- A unit or a function is added. -/
theorem Holds.addition (h : table.Holds key added) (a : GuardAddition) :
    (a.addTo table).Holds key (added ++ a.definitions) := by
  cases a with
  | unit n => exact h.foldl_insert (definitions n)
  | function contract f => exact h.insert contract f

/-- What a sequence of additions comes to. -/
theorem holds_ofAdditions (additions : List GuardAddition) (key : FunctionKey) :
    (ofAdditions additions).Holds key (additions.flatMap (·.definitions)) := by
  induction additions using List.reverseRecOn with
  | nil => exact holds_empty key
  | append_singleton additions last ih =>
    have step : ofAdditions (additions ++ [last]) = last.addTo (ofAdditions additions) := by
      simp [ofAdditions]
    rw [step, List.flatMap_append, List.flatMap_singleton]
    exact ih.addition last

/-- A guard stands somewhere in source code. -/
theorem exists_place_of_mem_guards {f : FunctionDefinition} {c : Constraint} (h : c ∈ f.guards) :
    ∃ place names, c.origin = .guard place names := by
  obtain ⟨condition, -, compiled⟩ := FunctionDefinition.mem_guards_iff.1 h
  obtain ⟨_, _, _, place, _, name, _, -, -, ⟨-, -, rfl⟩ | ⟨-, -, rfl⟩⟩ :=
    Guard.compile_eq_some_iff.1 compiled <;>
  exact ⟨place, [name], rfl⟩

/-- **Guards are kept, each of them once, in the order of their places.** After any
sequence of source units and functions that are added to a table, it holds of each function
the guards of all definitions with the contract and the name of that function, and nothing
else. They stand by file, start and length, and those of one place in the order in which they
were added. The same goes for the requirements. Where no two of them have one place, the order
of the additions makes no difference. -/
theorem guards_kept_in_order (additions : List GuardAddition) (key : FunctionKey) :
    let added := definitionsOf key (additions.flatMap (·.definitions))
    let guards := added.flatMap (·.guards)
    let requirements := added.flatMap (·.requirements)
    Arranged Constraint.rank guards ((ofAdditions additions).constraints key) ∧
    (∀ c ∈ guards, ∃ place names, c.origin = .guard place names) ∧
    Arranged (fun p : Requirement => p.location.rank) requirements
      ((ofAdditions additions).requirements key) ∧
    ∀ others, additions.Perm others →
      ((guards.map Constraint.rank).Nodup →
        (ofAdditions additions).constraints key = (ofAdditions others).constraints key) ∧
      ((requirements.map (·.location.rank)).Nodup →
        (ofAdditions additions).requirements key = (ofAdditions others).requirements key) := by
  intro added guards requirements
  have holds := holds_ofAdditions additions key
  refine ⟨holds.constraints, ?_, holds.requirements, fun others same => ?_⟩
  · intro c hc
    obtain ⟨f, -, hc⟩ := List.mem_flatMap.1 hc
    exact exists_place_of_mem_guards hc
  · have holds' := holds_ofAdditions others key
    have definitions : added.Perm (definitionsOf key (others.flatMap (·.definitions))) :=
      (same.flatMap_right _).filterMap _
    constructor
    · intro distinct
      exact holds.constraints.eq_of_perm holds'.constraints (definitions.flatMap_right _) distinct
    · intro distinct
      exact holds.requirements.eq_of_perm holds'.requirements (definitions.flatMap_right _) distinct

/-- The function `f(x)` whose body requires that `x` stands in a comparison with a number,
and that a getter is true, one behind the other from a place on. -/
def boundedAt (operator bound getter : String) (start : Nat) : FunctionDefinition :=
  let require (condition : Node) : Node :=
    .expressionStatement (.call (.identifier "require" Location.none) [condition] Location.none)
  ⟨⟨"f", none, [⟨"x", none⟩], Location.none⟩,
    some (.block [
      require (.binary operator (.identifier "x" Location.none)
        (.literal (some bound) none "number" none Location.none) ⟨start, 5, 0⟩),
      require (.call (.identifier getter Location.none) [] ⟨start + 10, 5, 0⟩)])⟩

theorem guards_kept_in_order_overloads :
    let low := boundedAt ">" "1" "open" 40
    let high := boundedAt "<" "9" "live" 20
    let unit := Node.sourceUnit [.contract "C" [.function low.head low.body]]
    let additions : List GuardAddition := [.unit unit, .function "C" high]
    let others : List GuardAddition := [.function "C" high, .unit unit]
    additions.Perm others ∧
      (([low, high].flatMap (·.guards)).map Constraint.rank).Nodup ∧
      (ofAdditions additions).constraints ⟨"C", "f"⟩ =
        (ofAdditions others).constraints ⟨"C", "f"⟩ := by
  intro low high unit additions others
  have same : additions.Perm others := .swap _ _ []
  have distinct : (([low, high].flatMap (·.guards)).map Constraint.rank).Nodup := by decide
  obtain ⟨-, -, -, free⟩ := guards_kept_in_order additions ⟨"C", "f"⟩
  exact ⟨same, distinct, (free others same).1 distinct⟩

end GuardTable

end GuardedCalls
