/-
GuardedCalls.Costs.Reader — books of costs from documents.

A book is kept as a record of two fields, `estimates` and `costs`, both
of them objects by function. An estimate is the word for the lack of a
bound, or a bound with its name. Of a function that is given twice, the
last value counts.

* `CostBook.shape` — what the document of a book has to be.
* `CostBook.ofText` — the book of the text of a document.
-/
import GuardedCalls.Costs
import GuardedCalls.Json.Shape

namespace GuardedCalls

/-- The name of a bound. -/
def CostBound.boundName : String := "bounded"

/-- What the document of a bound has to be. -/
def CostBound.shape : Json.Shape :=
  .variant [(unboundedWord, none), (boundName, some .natural)]

/-- The bound of a document of that shape. -/
def CostBound.ofJson (j : Json) : CostBound :=
  match j.get? boundName with
  | some (.number (.integer n)) => .bounded n.toNat
  | _ => .unbounded

/-- The table of the members of an object, in the order of the keys. -/
def tableOfJson {α : Type} (read : Json → α) (j : Json) : Table String α :=
  (j.members?.getD []).foldl (fun t (key, value) => t.alter key fun _ => read value) []

theorem ordered_tableOfJson {α : Type} (read : Json → α) (j : Json) :
    (tableOfJson read j).Ordered :=
  Table.ordered_nil.foldl_alter (j.members?.getD []) (·.1) fun member _ => read member.2

/-- The numbers of an array. -/
def naturalsOfJson : Json → List Nat
  | .array items => items.filterMap fun j =>
    match j with
    | .number (.integer n) => some n.toNat
    | _ => none
  | _ => []

namespace CostBook

/-- What the document of a book has to be. -/
def shape : Json.Shape :=
  .record [("estimates", true, .table CostBound.shape), ("costs", true, .table (.list .natural))]

/-- The book of a document of that shape. -/
def ofJson (j : Json) : CostBook where
  bounds := tableOfJson CostBound.ofJson ((j.get? "estimates").getD .null)
  costs := tableOfJson naturalsOfJson ((j.get? "costs").getD .null)
  bounds_ordered := ordered_tableOfJson _ _
  costs_ordered := ordered_tableOfJson _ _

/-- The book of the text of a document. -/
def ofText (text : String) : Except Json.Fault CostBook := (shape.ofText text).map ofJson

end CostBook

end GuardedCalls
