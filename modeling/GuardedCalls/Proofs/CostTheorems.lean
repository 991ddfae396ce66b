/-
GuardedCalls.Proofs.CostTheorems — merging the books of costs of several sessions.

* `bounds_merge`, `costs_merge` — a merge adds the entries of both tables; `bound?_merge`,
  `costsOf_merge` and `mem_functions_merge` say what the book then holds of a function.
* `MergePlan` — a way to merge the books of sessions: which into which.
  `bound?_result`, `costsOf_result` and `mem_functions_result` say what comes of it; the
  induction is on the plan.
* `summarize?_congr`, `assess?_congr` — what is said of the costs of a function does
  not depend on their order.
* `merge_order_free` — what that comes to: only which sessions there are counts.
-/
import GuardedCalls.Costs.Reader
import GuardedCalls.Proofs.TableTheorems
import Mathlib.Algebra.GroupWithZero.Nat
import Mathlib.Data.List.Induction
import Mathlib.Data.String.Basic

namespace GuardedCalls

/-! ## Bounds -/

namespace CostBound

theorem weaker_comm (a b : CostBound) : a.weaker b = b.weaker a := by
  cases a <;> cases b <;> simp [weaker, Nat.max_comm]

theorem weaker_assoc (a b c : CostBound) : (a.weaker b).weaker c = a.weaker (b.weaker c) := by
  cases a <;> cases b <;> cases c <;> simp [weaker, Nat.max_assoc]

instance : Std.Commutative weaker := ⟨weaker_comm⟩

instance : Std.Associative weaker := ⟨weaker_assoc⟩

/-- The bound that promises least, if there is one at all. -/
def weakest (bounds : List (Option CostBound)) : Option CostBound :=
  bounds.foldr (Option.merge weaker) none

theorem weakest_append (bounds others : List (Option CostBound)) :
    weakest (bounds ++ others) = Option.merge weaker (weakest bounds) (weakest others) := by
  have assoc := (inferInstance : Std.Associative (Option.merge weaker)).assoc
  induction bounds with
  | nil => simp [weakest]
  | cons bound bounds ih =>
    simp only [weakest, List.cons_append, List.foldr_cons] at ih ⊢
    rw [ih, ← assoc]

theorem weakest_perm {bounds others : List (Option CostBound)} (same : bounds.Perm others) :
    weakest bounds = weakest others := by
  have assoc := (inferInstance : Std.Associative (Option.merge weaker)).assoc
  have comm := (inferInstance : Std.Commutative (Option.merge weaker)).comm
  refine same.foldr_eq' (fun a _ b _ c => ?_) none
  rw [← assoc, comm b a, assoc]

end CostBound

namespace CostBook

/-! ## A merge -/

variable (b other : CostBook) (function : String)

theorem bounds_weaken (e : CostBound) : (b.weaken function e).bounds =
    b.bounds.absorb CostBound.weaker [(function, e)] := by
  simp only [weaken, Table.absorb, List.foldl_cons, List.foldl_nil]
  congr
  funext old
  cases old <;> rfl

theorem costs_addCosts (costs : List Nat) : (b.addCosts function costs).costs =
    b.costs.absorb (· ++ ·) [(function, costs)] := by
  simp only [addCosts, Table.absorb, List.foldl_cons, List.foldl_nil]
  congr
  funext old
  cases old <;> rfl

/-- Adding bounds leaves the costs as they are. -/
theorem foldl_weaken (bounds : Table String CostBound) :
    let after := bounds.foldl (fun b (function, e) => b.weaken function e) b
    after.bounds = b.bounds.absorb CostBound.weaker bounds ∧ after.costs = b.costs := by
  induction bounds generalizing b with
  | nil => exact ⟨rfl, rfl⟩
  | cons entry bounds ih =>
    obtain ⟨weakened, kept⟩ := ih (b.weaken entry.1 entry.2)
    rw [bounds_weaken] at weakened
    exact ⟨weakened, kept⟩

/-- Adding costs leaves the bounds as they are. -/
theorem foldl_addCosts (costs : Table String (List Nat)) :
    let after := costs.foldl (fun b (function, costs) => b.addCosts function costs) b
    after.costs = b.costs.absorb (· ++ ·) costs ∧ after.bounds = b.bounds := by
  induction costs generalizing b with
  | nil => exact ⟨rfl, rfl⟩
  | cons entry costs ih =>
    obtain ⟨added, kept⟩ := ih (b.addCosts entry.1 entry.2)
    rw [costs_addCosts] at added
    exact ⟨added, kept⟩

/-- A merge adds the entries of both tables. -/
theorem bounds_merge :
    (b.merge other).bounds = b.bounds.absorb CostBound.weaker other.bounds :=
  (foldl_addCosts _ other.costs).2.trans (foldl_weaken b other.bounds).1

theorem costs_merge : (b.merge other).costs = b.costs.absorb (· ++ ·) other.costs := by
  have added := (foldl_addCosts (other.bounds.foldl (fun b (function, e) => b.weaken function e) b)
    other.costs).1
  rwa [(foldl_weaken b other.bounds).2] at added

theorem bound?_merge : (b.merge other).bound? function =
    Option.merge CostBound.weaker (b.bound? function) (other.bound? function) := by
  rw [bound?, bounds_merge]
  exact b.bounds_ordered.get?_absorb other.bounds_ordered _ function

theorem costs_get?_merge : (b.merge other).costs.get? function =
    Option.merge (· ++ ·) (b.costs.get? function) (other.costs.get? function) := by
  rw [costs_merge]
  exact b.costs_ordered.get?_absorb other.costs_ordered _ function

theorem costsOf_merge :
    (b.merge other).costsOf function = b.costsOf function ++ other.costsOf function := by
  rw [costsOf, costs_get?_merge, costsOf, costsOf]
  cases b.costs.get? function <;> cases other.costs.get? function <;> simp

theorem mem_functions_merge : function ∈ (b.merge other).functions ↔
    function ∈ b.functions ∨ function ∈ other.functions := by
  simp only [functions, Table.mem_keys_iff, costs_get?_merge]
  cases b.costs.get? function <;> cases other.costs.get? function <;> simp

/-! ## Ways to merge -/

/-- A way to merge the books of sessions into one another. -/
inductive MergePlan
  /-- A book without entries. -/
  | empty
  /-- The book of a session. -/
  | session (b : CostBook)
  /-- Adds the second to the first. -/
  | merge (into other : MergePlan)

namespace MergePlan

/-- The book that comes of it. -/
def result : MergePlan → CostBook
  | .empty => CostBook.empty
  | .session b => b
  | .merge into other => into.result.merge other.result

/-- The sessions, in the order in which their books are added. -/
def sessions : MergePlan → List CostBook
  | .empty => []
  | .session b => [b]
  | .merge into other => into.sessions ++ other.sessions

variable (p : MergePlan) (function : String)

/-- Of the bounds of a function, the weakest stays. -/
theorem bound?_result :
    p.result.bound? function = CostBound.weakest (p.sessions.map (·.bound? function)) := by
  induction p with
  | empty => rfl
  | session b => simp [result, sessions, CostBound.weakest]
  | merge into other ih ih' =>
    rw [result, bound?_merge, ih, ih', sessions, List.map_append, CostBound.weakest_append]

/-- No cost is lost, and none is made. -/
theorem costsOf_result : p.result.costsOf function = p.sessions.flatMap (·.costsOf function) := by
  induction p with
  | empty => rfl
  | session b => simp [result, sessions]
  | merge into other ih ih' =>
    rw [result, costsOf_merge, ih, ih', sessions, List.flatMap_append]

theorem mem_functions_result :
    function ∈ p.result.functions ↔ ∃ b ∈ p.sessions, function ∈ b.functions := by
  induction p with
  | empty => simp [result, sessions, functions, CostBook.empty, Table.keys]
  | session b => simp [result, sessions]
  | merge into other ih ih' =>
    rw [result, mem_functions_merge, ih, ih']
    simp only [sessions, List.mem_append, or_and_right, exists_or]

end MergePlan

end CostBook

/-! ## What is said of costs -/

theorem ordered_frequencies (costs : List Nat) : (frequencies costs).Ordered :=
  Table.ordered_nil.foldl_alter costs id fun _ n => n.getD 0 + 1

/-- Each cost has the number of times that it occurs. -/
theorem get?_frequencies (costs : List Nat) (cost : Nat) :
    (frequencies costs).get? cost = if cost ∈ costs then some (costs.count cost) else none := by
  induction costs using List.reverseRecOn with
  | nil => rfl
  | append_singleton costs last ih =>
    have step : frequencies (costs ++ [last]) =
        (frequencies costs).alter last fun n => n.getD 0 + 1 := by simp [frequencies]
    rw [step, (ordered_frequencies costs).get?_alter]
    by_cases own : cost = last
    · subst own
      rw [ih]
      by_cases known : cost ∈ costs
      · simp [known]
      · simp [known, List.count_eq_zero.2 known]
    · rw [if_neg own, ih]
      simp [own, Ne.symm own]

theorem frequencies_congr {costs others : List Nat} (same : costs.Perm others) :
    frequencies costs = frequencies others := by
  refine (ordered_frequencies costs).ext (ordered_frequencies others) fun cost => ?_
  simp only [get?_frequencies, same.count_eq, same.mem_iff]

namespace CostBook

variable {b b' : CostBook} {function : String}

theorem summarize?_eq (b : CostBook) (function : String) :
    b.summarize? function = (do
      let least ← (b.costsOf function).min?
      let greatest ← (b.costsOf function).max?
      return ⟨(b.costsOf function).length, least, greatest, (b.costsOf function).sum⟩) := by
  unfold summarize?
  cases b.costsOf function with
  | nil => rfl
  | cons c cs =>
    have total : cs.foldl (· + ·) c = (c :: cs).sum := by
      rw [List.sum_eq_foldl, List.foldl_cons, Nat.zero_add]
    rw [List.min?_cons', List.max?_cons', ← total]
    rfl

/-- A summary does not depend on the order of the costs. -/
theorem summarize?_congr (same : (b.costsOf function).Perm (b'.costsOf function)) :
    b.summarize? function = b'.summarize? function := by
  have least : (b.costsOf function).min? = (b'.costsOf function).min? :=
    Option.ext fun n => by simp [List.min?_eq_some_iff, same.mem_iff]
  have greatest : (b.costsOf function).max? = (b'.costsOf function).max? :=
    Option.ext fun n => by simp [List.max?_eq_some_iff, same.mem_iff]
  rw [summarize?_eq, summarize?_eq, least, greatest, same.length_eq, same.sum_nat]

/-- Nor does an assessment. -/
theorem assess?_congr (bound : b.bound? function = b'.bound? function)
    (same : (b.costsOf function).Perm (b'.costsOf function)) :
    b.assess? function = b'.assess? function := by
  rw [assess?, assess?, summarize?_congr same, bound, CostTrend.ofCosts, CostTrend.ofCosts,
    frequencies_congr same]

/-! ## Merging in any order -/

open MergePlan

/-- **Only which sessions there are counts.** Whatever books of sessions are merged, in
whatever order and into whatever book first: the bounds come out the same, and so do the
functions that costs are kept for, which are those of the sessions. The costs of a function are
those of the sessions taken together, so its summary and its assessment come out the same
as well. -/
theorem merge_order_free (p q : MergePlan) (same : p.sessions.Perm q.sessions) :
    p.result.bounds = q.result.bounds ∧
    p.result.functions = q.result.functions ∧
    ∀ function,
      (function ∈ p.result.functions ↔ ∃ b ∈ p.sessions, function ∈ b.functions) ∧
      (p.result.costsOf function).Perm (p.sessions.flatMap (·.costsOf function)) ∧
      (p.result.costsOf function).Perm (q.result.costsOf function) ∧
      p.result.summarize? function = q.result.summarize? function ∧
      p.result.assess? function = q.result.assess? function := by
  have bounds : p.result.bounds = q.result.bounds := by
    refine p.result.bounds_ordered.ext q.result.bounds_ordered fun function => ?_
    have first := bound?_result p function
    have second := bound?_result q function
    rw [bound?] at first second
    rw [first, second, CostBound.weakest_perm (same.map _)]
  have functions : p.result.functions = q.result.functions := by
    refine p.result.costs_ordered.eq_of_mem_iff q.result.costs_ordered fun function => ?_
    have first := mem_functions_result p function
    simp only [same.mem_iff] at first
    exact first.trans (mem_functions_result q function).symm
  refine ⟨bounds, functions, fun function => ?_⟩
  have all := costsOf_result p function
  have costs : (p.result.costsOf function).Perm (q.result.costsOf function) := by
    rw [all, costsOf_result q function]
    exact same.flatMap_right _
  have bound : p.result.bound? function = q.result.bound? function := by
    rw [bound?, bound?, bounds]
  exact ⟨mem_functions_result p function, .of_eq all, costs, summarize?_congr costs,
    assess?_congr bound costs⟩

theorem merge_order_free_two :
    let a : CostBook := ((empty.setBound "f" (.bounded 21000)).addCosts "f" [3, 1]).addCosts "g" []
    let b : CostBook := ((empty.setBound "f" .unbounded).setBound "h" (.bounded 7)).record "f" 1
    let p : MergePlan := .merge (.session a) (.session b)
    let q : MergePlan := .merge (.merge .empty (.session b)) (.session a)
    p.result.bounds = q.result.bounds ∧ (p.result.costsOf "f").Perm (q.result.costsOf "f") ∧
      p.result.assess? "f" = q.result.assess? "f" := by
  intro a b p q
  have same : p.sessions.Perm q.sessions := .swap b a []
  obtain ⟨bounds, -, costs⟩ := merge_order_free p q same
  obtain ⟨-, -, all, -, assessed⟩ := costs "f"
  exact ⟨bounds, all, assessed⟩

end CostBook

end GuardedCalls
