/-
GuardedCalls.Json.Shape — reading documents of a shape.

A shape says what a document has to be: a text, a natural number, a list,
a table, a record of fields and so on. A text is read against a shape from
left to right, and the first thing that does not fit decides the fault. It
is one of syntax where the text is no document, or holds something that
cannot stand there at all, and one of shape where it is a document of
another shape. What follows the first fault is not looked at.

* `Shape.ofText` — the document of a text. It holds what the shape names
  and nothing else: other members of a record are passed over.
* `Fault` — the two ways in which there may be none.

A record is an object of its fields, none of them twice, or an array of
its fields in order. Fields at the end of an array may be left out if
they need not be there. In either form it is read as an object.
-/
import GuardedCalls.Json.Reader

namespace GuardedCalls.Json

/-- Why a text has no reading. -/
inductive Fault
  /-- The text is no document, or a part of it cannot stand where it
  stands. -/
  | syntactic
  /-- The document does not have the shape that is asked for. -/
  | shape
  deriving DecidableEq, Repr

/-- What a document has to be. -/
inductive Shape
  /-- A string. -/
  | text
  /-- A natural number of 64 bits. -/
  | natural
  /-- `null`, or a document of a shape. -/
  | optional (shape : Shape)
  /-- An array of documents of one shape. -/
  | list (shape : Shape)
  /-- An object whose values are documents of one shape. -/
  | table (shape : Shape)
  /-- An object or array of fields: for each its name, whether it has to
  be there, and its shape. -/
  | record (fields : List (String × Bool × Shape))
  /-- One of some cases: the name of a case without a shape, or an object
  with the name and a document of its shape, where `null` stands for
  none. -/
  | variant (cases : List (String × Option Shape))
  /-- An object with a text under a key, given once, or an array that
  begins with a text. -/
  | tagged (key : String)
  /-- A document of a shape that passes a test. -/
  | tested (shape : Shape) (test : Json → Bool)

namespace Shape

open Reader

/-! ## Steps -/

/-- A step that fails only where the text is no document. -/
def syntactic {α : Type} : Option α → Except Fault α
  | some a => .ok a
  | none => .error .syntactic

/-- The fault of a value of another kind. An array or object is refused
at its first character, any other value when it has been read. -/
def misfit (cs : List Char) : Fault :=
  match skip cs with
  | '[' :: _ => .shape
  | '\x7b' :: _ => .shape
  | cs => if (any 0 cs).isSome then .shape else .syntactic

/-- Reads a string. -/
def readText (cs : List Char) : Except Fault (String × List Char) :=
  match skip cs with
  | '"' :: rest => syntactic (Reader.string rest)
  | cs => .error (misfit cs)

/-- Reads the name of a case at the beginning of an object. Nothing but a
string can stand there. -/
def readName (cs : List Char) : Except Fault (String × List Char) :=
  match skip cs with
  | '"' :: rest => syntactic (Reader.string rest)
  | _ => .error .syntactic

/-- Reads a natural number. -/
def readNatural (cs : List Char) : Except Fault (Json × List Char) :=
  match skip cs with
  | c :: rest =>
    if c = '-' ∨ Text.isDigit c then do
      let (n, rest) ← syntactic (Reader.number (c :: rest))
      match n with
      | .integer n => if 0 ≤ n then .ok (.number (.integer n), rest) else .error .shape
      | .real _ => .error .shape
    else .error (misfit (c :: rest))
  | [] => .error .syntactic

/-- The rest after `null`, where its first letter has been read. -/
def afterNull (rest : List Char) : Except Fault (Json × List Char) := do
  return (.null, ← syntactic (word "ull".toList rest))

/-- Reads `null`. -/
def readNull (cs : List Char) : Except Fault (Json × List Char) :=
  match skip cs with
  | 'n' :: rest => afterNull rest
  | cs => .error (misfit cs)

/-- The rest after a character. -/
def readChar (c : Char) (cs : List Char) : Except Fault (List Char) :=
  match skip cs with
  | d :: rest => if d = c then .ok rest else .error .syntactic
  | [] => .error .syntactic

/-- The next item of an array, or nothing in front of its end. -/
def nextItem (isFirst : Bool) (cs : List Char) : Except Fault (Option (List Char)) :=
  match skip cs with
  | [] => .error .syntactic
  | ']' :: _ => .ok none
  | c :: rest =>
    if isFirst then .ok (some (c :: rest))
    else if c ≠ ',' then .error .syntactic
    else
      match skip rest with
      | [] => .error .syntactic
      | ']' :: _ => .error .syntactic
      | rest => .ok (some rest)

/-- The next key of an object and what follows it, or nothing in front of
its end. -/
def nextKey (isFirst : Bool) (cs : List Char) : Except Fault (Option (String × List Char)) :=
  match skip cs with
  | '\x7d' :: _ => .ok none
  | cs => do
    let cs ← if isFirst then .ok (skip cs) else (readChar ',' cs).map skip
    match cs with
    | '"' :: rest => return some (← syntactic (Reader.string rest))
    | _ => .error .syntactic

/-- One level of nesting less, if there is one. -/
def enter : Nat → Except Fault Nat
  | 0 => .error .syntactic
  | depth + 1 => .ok depth

/-! ## Tagged documents -/

/-- Reads the members of a tagged object, of which the tag has to be a
text. -/
def taggedMembers (key : String) (depth : Nat) :
    Nat → Bool → Bool → List Char → Except Fault (List (String × Json) × List Char)
  | 0, _, _, _ => .error .syntactic
  | fuel + 1, isFirst, isTagged, cs => do
    match ← nextKey isFirst cs with
    | none => if isTagged then .ok ([], cs) else .error .shape
    | some (name, cs) =>
      if name = key ∧ isTagged then .error .shape
      else
        let cs ← readChar ':' cs
        let (value, cs) ←
          if name = key then (readText cs).map fun (s, rest) => (Json.string s, rest)
          else syntactic (any depth cs)
        let (members, cs) ← taggedMembers key depth fuel false (isTagged || name = key) cs
        return ((name, value) :: members, cs)

/-- Reads any items up to the end of an array. -/
def anyItems (depth : Nat) : Nat → List Char → Except Fault (List Json × List Char)
  | 0, _ => .error .syntactic
  | fuel + 1, cs => do
    match ← nextItem false cs with
    | none => return ([], cs)
    | some cs =>
      let (item, cs) ← syntactic (any depth cs)
      let (items, cs) ← anyItems depth fuel cs
      return (item :: items, cs)

/-- Reads the items of a tagged array. -/
def taggedItems (depth : Nat) (cs : List Char) : Except Fault (List Json × List Char) := do
  match ← nextItem true cs with
  | none => .error .shape
  | some cs =>
    let (tag, cs) ← readText cs
    let (items, cs) ← anyItems depth (cs.length + 1) cs
    return (.string tag :: items, cs)

/-- Reads a tagged document. -/
def readTagged (key : String) (depth : Nat) (cs : List Char) : Except Fault (Json × List Char) :=
  match skip cs with
  | '\x7b' :: rest => do
    let depth ← enter depth
    let (members, rest) ← taggedMembers key depth (rest.length + 1) true false rest
    return (.object members, ← readChar '\x7d' rest)
  | '[' :: rest => do
    let depth ← enter depth
    let (items, rest) ← taggedItems depth rest
    return (.array items, ← readChar ']' rest)
  | cs => .error (misfit cs)

/-! ## Documents -/

mutual

/-- Reads a document of a shape in which arrays and objects nest at most
`depth` deep. -/
def read : Nat → Shape → Nat → List Char → Except Fault (Json × List Char)
  | 0, _, _, _ => .error .syntactic
  | fuel + 1, shape, depth, cs =>
    match shape with
    | .text => (readText cs).map fun (s, rest) => (.string s, rest)
    | .natural => readNatural cs
    | .optional shape =>
      match skip cs with
      | 'n' :: rest => afterNull rest
      | cs => read fuel shape depth cs
    | .list shape =>
      match skip cs with
      | '[' :: rest => do
        let (items, rest) ← readItems fuel shape (← enter depth) true rest
        return (.array items, ← readChar ']' rest)
      | cs => .error (misfit cs)
    | .table shape =>
      match skip cs with
      | '\x7b' :: rest => do
        let (members, rest) ← readEntries fuel shape (← enter depth) true rest
        return (.object members, ← readChar '\x7d' rest)
      | cs => .error (misfit cs)
    | .record fields =>
      match skip cs with
      | '[' :: rest => do
        let (members, rest) ← readInOrder fuel fields (← enter depth) true rest
        return (.object members, ← readChar ']' rest)
      | '\x7b' :: rest => do
        let (members, rest) ← readByName fuel fields [] (← enter depth) true rest
        return (.object members, ← readChar '\x7d' rest)
      | cs => .error (misfit cs)
    | .variant cases =>
      match skip cs with
      | '"' :: rest => do
        let (name, rest) ← syntactic (Reader.string rest)
        match cases.lookup name with
        | some none => return (.string name, rest)
        | _ => .error .shape
      | '\x7b' :: rest => do
        let depth ← enter depth
        let (name, rest) ← readName rest
        match cases.lookup name with
        | none => .error .shape
        | some shape? =>
          let rest ← readChar ':' rest
          let (value, rest) ← match shape? with
            | none => readNull rest
            | some shape => read fuel shape depth rest
          return (.object [(name, value)], ← readChar '\x7d' rest)
      | _ => .error .syntactic
    | .tagged key => readTagged key depth cs
    | .tested shape test => do
      let (j, rest) ← read fuel shape depth cs
      if test j then return (j, rest) else .error .shape

/-- Reads the items of an array. -/
def readItems : Nat → Shape → Nat → Bool → List Char → Except Fault (List Json × List Char)
  | 0, _, _, _, _ => .error .syntactic
  | fuel + 1, shape, depth, isFirst, cs => do
    match ← nextItem isFirst cs with
    | none => return ([], cs)
    | some cs =>
      let (item, cs) ← read fuel shape depth cs
      let (items, cs) ← readItems fuel shape depth false cs
      return (item :: items, cs)

/-- Reads the members of a table. -/
def readEntries : Nat → Shape → Nat → Bool → List Char →
    Except Fault (List (String × Json) × List Char)
  | 0, _, _, _, _ => .error .syntactic
  | fuel + 1, shape, depth, isFirst, cs => do
    match ← nextKey isFirst cs with
    | none => return ([], cs)
    | some (name, cs) =>
      let (value, cs) ← read fuel shape depth (← readChar ':' cs)
      let (members, cs) ← readEntries fuel shape depth false cs
      return ((name, value) :: members, cs)

/-- Reads the fields of a record in their order. -/
def readInOrder : Nat → List (String × Bool × Shape) → Nat → Bool → List Char →
    Except Fault (List (String × Json) × List Char)
  | 0, _, _, _, _ => .error .syntactic
  | _ + 1, [], _, _, cs => .ok ([], cs)
  | fuel + 1, (name, isRequired, shape) :: fields, depth, isFirst, cs => do
    match ← nextItem isFirst cs with
    | none => if isRequired then .error .shape else readInOrder fuel fields depth isFirst cs
    | some cs =>
      let (value, cs) ← read fuel shape depth cs
      let (members, cs) ← readInOrder fuel fields depth false cs
      return ((name, value) :: members, cs)

/-- Reads the fields of a record by their names, of which some have been
given before. -/
def readByName : Nat → List (String × Bool × Shape) → List String → Nat → Bool → List Char →
    Except Fault (List (String × Json) × List Char)
  | 0, _, _, _, _, _ => .error .syntactic
  | fuel + 1, fields, given, depth, isFirst, cs => do
    match ← nextKey isFirst cs with
    | none =>
      if fields.all fun (name, isRequired, _) => !isRequired || given.contains name then
        return ([], cs)
      else .error .shape
    | some (name, cs) =>
      match fields.lookup name with
      | none =>
        let cs ← syntactic (pass (← readChar ':' cs))
        readByName fuel fields given depth false cs
      | some (_, shape) =>
        if given.contains name then .error .shape
        else
          let (value, cs) ← read fuel shape depth (← readChar ':' cs)
          let (members, cs) ← readByName fuel fields (name :: given) depth false cs
          return ((name, value) :: members, cs)

end

/-- The document of a text, which holds nothing else but blanks. A level
of nesting takes at most four steps and one character, and a record has
at most so many fields to leave out. -/
def ofText (shape : Shape) (text : String) : Except Fault Json := do
  let cs := text.toList
  let (j, rest) ← read (4 * cs.length + 16) shape maxDepth cs
  if rest.all isSpace then return j else .error .syntactic

end Shape

end GuardedCalls.Json
