/-
GuardedCalls.Json — JSON documents.

An object keeps its members as they are written, repeated keys included.
Whole numbers within 64 bits, signed or unsigned, are kept as they are;
every other number is a double.

* `Json.get?` — the member of an object.
* `Json.canonical` — the document with the members of every object in the
  order of their keys, one member a key: a key that is given twice keeps
  its last value (`insertMember`).
* `Number.text` — a number as text: whole numbers in decimal digits,
  doubles with the fewest digits that read back, positional from 10^-5 up
  to 10^16 and with a signed exponent elsewhere.
-/
import GuardedCalls.Binary64.Shortest

namespace GuardedCalls

/-- A number of a document. -/
inductive Json.Number
  /-- A whole number from −2^63 to 2^64 − 1. -/
  | integer (n : Int)
  /-- Any other number. -/
  | real (x : Binary64)
  deriving DecidableEq, Repr

/-- A document, or a part of one. -/
inductive Json
  | null
  | bool (b : Bool)
  | number (n : Json.Number)
  | string (s : String)
  | array (items : List Json)
  | object (members : List (String × Json))
  deriving Repr, Inhabited

namespace Json

/-! ## Members -/

/-- Puts a member into a list of members ordered by key; an old value of
the key is lost. -/
def insertMember (key : String) (value : Json) : List (String × Json) → List (String × Json)
  | [] => [(key, value)]
  | (k, v) :: rest =>
    if key = k then (key, value) :: rest
    else if key < k then (key, value) :: (k, v) :: rest
    else (k, v) :: insertMember key value rest

mutual

/-- The document with ordered members, one a key. -/
def canonical : Json → Json
  | .array items => .array (canonicalItems items)
  | .object members => .object (canonicalMembers [] members)
  | j => j

/-- The items of an array, each with ordered members. -/
def canonicalItems : List Json → List Json
  | [] => []
  | j :: rest => canonical j :: canonicalItems rest

/-- Members put in turn into a list of ordered members. -/
def canonicalMembers (before : List (String × Json)) :
    List (String × Json) → List (String × Json)
  | [] => before
  | (key, j) :: rest => canonicalMembers (insertMember key (canonical j) before) rest

end

/-- The value of a key in a list of members. -/
def lookup? (key : String) (members : List (String × Json)) : Option Json :=
  (members.find? fun m => m.1 == key).map (·.2)

/-- The member of an object; nothing if the document is no object. -/
def get? (key : String) : Json → Option Json
  | .object members => lookup? key members
  | _ => none

/-- The members of an object. -/
def members? : Json → Option (List (String × Json))
  | .object members => some members
  | _ => none

/-! ## Nesting -/

mutual

/-- How deep arrays and objects nest. -/
def depth : Json → Nat
  | .array items => depthItems items + 1
  | .object members => depthMembers members + 1
  | _ => 0

/-- How deep the items of an array nest. -/
def depthItems : List Json → Nat
  | [] => 0
  | j :: rest => max (depth j) (depthItems rest)

/-- How deep the members of an object nest. -/
def depthMembers : List (String × Json) → Nat
  | [] => 0
  | (_, j) :: rest => max (depth j) (depthMembers rest)

end

/-! ## The text of a number -/

/-- Decimal digits with the point after the first `places`, and at least
one digit on each side. -/
def Number.positional (digits : List Char) (exponent : Int) : String :=
  let places := digits.length + exponent
  if 0 ≤ exponent then
    String.ofList (digits ++ List.replicate exponent.toNat '0') ++ ".0"
  else if 0 < places then
    String.ofList (digits.take places.toNat) ++ "." ++ String.ofList (digits.drop places.toNat)
  else
    "0." ++ String.ofList (List.replicate (-places).toNat '0' ++ digits)

/-- One digit, the point and the other digits if there are any, and a
signed exponent. -/
def Number.scientific (digits : List Char) (exponent : Int) : String :=
  let power := exponent + digits.length - 1
  let fraction := match digits with
    | _ :: c :: rest => "." ++ String.ofList (c :: rest)
    | _ => ""
  String.ofList (digits.take 1) ++ fraction ++ "e" ++
    (if power < 0 then "-" else "+") ++ Nat.repr power.natAbs

/-- The text of a double: positional when its first digit stands between
10^-5 and 10^15. -/
def Number.realText (x : Binary64) : String :=
  let d := x.shortest
  let digits := Nat.toDigits 10 d.digits
  let power := d.exponent + digits.length - 1
  (if x.negative then "-" else "") ++
    (if -5 ≤ power ∧ power ≤ 15 then Number.positional digits d.exponent
     else Number.scientific digits d.exponent)

/-- The text of a number. -/
def Number.text : Number → String
  | .integer n => (if n < 0 then "-" else "") ++ Nat.repr n.natAbs
  | .real x => Number.realText x

end Json

end GuardedCalls
