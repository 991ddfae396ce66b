/-
GuardedCalls.Space — what values of an argument are drawn from.

A space has the shape of a type. Where the type has a number there is
a domain that constraints narrow; all items of an array come from one
space.

* `Space.ofType` — the space of a type, not narrowed yet;
  `Space.type` — the type of its values.
* `Space.elements`, `withElements` — the spaces one level down;
  `Space.changeAt` — a change of one that is any number of levels
  down.
* `Space.constrain` — applies a constraint to a space of numbers.
* `Space.check` — the value is one of the type. Constraints play
  no part in it; the error names the innermost value that is not.
-/
import GuardedCalls.Abi.Value.Text
import GuardedCalls.Domain

namespace GuardedCalls

/-- What values of an argument are drawn from. -/
inductive Space
  /-- The values of a domain. -/
  | number (type : NumberType) (domain : Domain)
  /-- So many bytes. -/
  | fixedBytes (size : Nat)
  /-- An account with a selector. -/
  | function
  /-- Any number of bytes. -/
  | bytes
  /-- A text. -/
  | string
  /-- So many values of one space. -/
  | fixedArray (element : Space) (length : Nat)
  /-- Any number of values of one space. -/
  | array (element : Space)
  /-- A value of each space. -/
  | tuple (items : List Space)

namespace Space

mutual

/-- The space of a type. -/
def ofType : AbiType → Space
  | .number type => .number type (Domain.ofType type)
  | .fixedBytes size => .fixedBytes size
  | .function => .function
  | .bytes => .bytes
  | .string => .string
  | .fixedArray element length => .fixedArray (ofType element) length
  | .array element => .array (ofType element)
  | .tuple items => .tuple (ofTypes items)

/-- The spaces of some types. -/
def ofTypes : List AbiType → List Space
  | [] => []
  | t :: ts => ofType t :: ofTypes ts

end

mutual

/-- The type of the values. -/
def type : Space → AbiType
  | .number type _ => .number type
  | .fixedBytes size => .fixedBytes size
  | .function => .function
  | .bytes => .bytes
  | .string => .string
  | .fixedArray element length => .fixedArray (type element) length
  | .array element => .array (type element)
  | .tuple items => .tuple (types items)

/-- The types of the values of some spaces. -/
def types : List Space → List AbiType
  | [] => []
  | s :: rest => type s :: types rest

end

/-- The sort of the values. -/
def kind (s : Space) : AbiKind := s.type.kind

/-- The domain of a number space. -/
def domain? : Space → Option Domain
  | .number _ domain => some domain
  | _ => none

/-- The spaces one level down. -/
def elements : Space → List Space
  | .fixedArray element _ => [element]
  | .array element => [element]
  | .tuple items => items
  | _ => []

/-- The space with others one level down. -/
def withElements (s : Space) (elements : List Space) : Space :=
  match s, elements with
  | .fixedArray _ length, [element] => .fixedArray element length
  | .array _, [element] => .array element
  | .tuple _, items => .tuple items
  | s, _ => s

/-- Changes the space that a list of places leads to, and gives what
the change says; nothing if there is no such space. -/
def changeAt {α : Type} (change : Space → α × Space) :
    List Nat → Space → Option α × Space
  | [], s =>
    let (a, s) := change s
    (some a, s)
  | place :: rest, s =>
    match s.elements[place]? with
    | none => (none, s)
    | some element =>
      let (a, element) := changeAt change rest element
      (a, s.withElements (s.elements.set place element))

/-! ## Constraints -/

/-- Applies a constraint, if values of this sort can honour it. -/
def constrain {σ : Type} (view : StateView σ) (c : Constraint) (s : Space) :
    StateM σ (Space × Option ConstrainError) := do
  if s.kind.honours c.comparison then
    match s with
    | .number type domain =>
      let (domain, error?) ← domain.constrain view c
      return (.number type domain, error?)
    | s => return (s, some (.notApplicable s.kind))
  else return (s, some (.notApplicable s.kind))

/-! ## Legal values -/

/-- A value that is none of a type. -/
structure Misfit where
  /-- The type. -/
  type : AbiType
  /-- The value. -/
  value : AbiValue

/-- The wording of the error. -/
def Misfit.message (m : Misfit) : String :=
  "value " ++ m.value.text ++ " is not a valid `" ++ m.type.name ++ "`"

/-- The value has the sort and the width of a number type. -/
def hasShape : NumberType → AbiValue → Bool
  | .uint bits, .uint _ width => bits = width
  | .ufixed bits _, .uint _ width => bits = width
  | .int bits, .int _ width => bits = width
  | .fixed bits _, .int _ width => bits = width
  | .address, .address _ => true
  | .bool, .bool _ => true
  | _, _ => false

/-- The bytes of a word from a place on are zero. -/
def zeroFrom (size : Nat) (w : Word) : Bool := (w.bytes.drop size).all (· = 0)

/-- Accepts the value, or names it. -/
def accept (s : Space) (value : AbiValue) (legal : Bool) : Except Misfit Unit :=
  if legal then .ok () else .error ⟨s.type, value⟩

mutual

/-- Checks that a value is one of the type. -/
def check : Space → AbiValue → Except Misfit Unit
  | .number type domain, v =>
    accept (.number type domain) v (hasShape type v && v.scalar?.any domain.isInType)
  | .fixedBytes size, .fixedBytes word width =>
    accept (.fixedBytes size) (.fixedBytes word width) (size = width && zeroFrom size word)
  | .function, .function _ => .ok ()
  | .bytes, .bytes _ => .ok ()
  | .string, .string _ => .ok ()
  | .fixedArray element length, .fixedArray values =>
    if values.length = length then values.forM fun v => check element v
    else .error ⟨.fixedArray element.type length, .fixedArray values⟩
  | .array element, .array values => values.forM fun v => check element v
  | .tuple items, .tuple values =>
    if items.length = values.length then checkAll items values
    else .error ⟨.tuple (types items), .tuple values⟩
  | s, v => .error ⟨s.type, v⟩

/-- Checks values in turn, each against its space. -/
def checkAll : List Space → List AbiValue → Except Misfit Unit
  | s :: rest, v :: vs => do
    check s v
    checkAll rest vs
  | _, _ => .ok ()

end

end Space

end GuardedCalls
