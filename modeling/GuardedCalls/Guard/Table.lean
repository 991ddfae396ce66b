/-
GuardedCalls.Guard.Table — the guards of many functions, by contract and
function name.

Definitions that share a name share an entry: their guards are put
together and kept in the order of their places. Sorting is stable, so
guards at one place stay in the order in which they were added.

* `GuardTable.insert`, `GuardTable.addUnit` — add the guards of a
  function, and of all functions in the contracts of a source unit.
* `GuardTable.constraints`, `constraintsOn`, `requirements` — what the
  table holds for a function, and for one argument of it.
-/
import GuardedCalls.Guard

namespace GuardedCalls

open Source

/-- A contract and the name of one of its functions. -/
structure FunctionKey where
  /-- The contract. -/
  contract : String
  /-- The function. -/
  function : String
  deriving DecidableEq, Repr

/-- Guards by function. -/
structure GuardTable where
  /-- The constraints of each function, in the order of their places. -/
  guards : Table FunctionKey (List Constraint)
  /-- The requirements of each function, in the order of their places. -/
  requirementTable : Table FunctionKey (List Requirement)
  deriving Repr

/-- The place of a constraint; a rule stands before every place. -/
def Constraint.notAfter (a b : Constraint) : Bool :=
  match a.origin, b.origin with
  | .guard p _, .guard q _ => p.le q
  | .guard _ _, .rule _ => false
  | .rule _, _ => true

namespace GuardTable

/-- The table without any guards. -/
def empty : GuardTable := ⟨[], []⟩

/-- The constraints of a function. -/
def constraints (table : GuardTable) (key : FunctionKey) : List Constraint :=
  (table.guards.get? key).getD []

/-- The requirements of a function. -/
def requirements (table : GuardTable) (key : FunctionKey) : List Requirement :=
  (table.requirementTable.get? key).getD []

/-- The constraints of a function that speak about an argument. -/
def constraintsOn (table : GuardTable) (key : FunctionKey) (argument : String) :
    List Constraint :=
  (table.constraints key).filter fun c => argument ∈ c.arguments

/-- Adds the guards of a function definition. -/
def insert (contract : String) (f : FunctionDefinition) (table : GuardTable) : GuardTable :=
  let key : FunctionKey := ⟨contract, f.head.name⟩
  let guards := (table.constraints key ++ f.guards).mergeSort Constraint.notAfter
  let requirements := (table.requirements key ++ f.requirements).mergeSort
    fun a b => a.location.le b.location
  { guards := table.guards.put key guards
    requirementTable := table.requirementTable.put key requirements }

/-- The functions that a member of a contract defines. -/
def functionOf? : Node → Option FunctionDefinition
  | .function head body => some ⟨head, body⟩
  | _ => none

/-- The contracts of a source unit with the functions that they define,
in source order. -/
def definitions (unit : Node) : List (String × FunctionDefinition) :=
  unit.statements.flatMap fun n =>
    match n with
    | .contract name members => (members.filterMap functionOf?).map fun f => (name, f)
    | _ => []

/-- Adds the guards of all functions in the contracts of a source unit. -/
def addUnit (unit : Node) (table : GuardTable) : GuardTable :=
  (definitions unit).foldl (fun table d => table.insert d.1 d.2) table

/-- How many constraints the table holds. -/
def size (table : GuardTable) : Nat := (table.guards.flatMap (·.2)).length

end GuardTable

end GuardedCalls
