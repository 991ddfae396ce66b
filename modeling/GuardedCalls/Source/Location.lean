/-
GuardedCalls.Source.Location — places in source files.

* `Location.ofText` — reads `start:length:file`. Reading never fails: a
  part that is missing or no number counts as zero.
* `Location.le` — the order of places: by file, then start, then length.
-/
import GuardedCalls.Text.Blank
import GuardedCalls.Text.Numeral

namespace GuardedCalls.Source

/-- A range of bytes in a source file. -/
structure Location where
  /-- Where the range begins. -/
  start : Nat
  /-- How long it is. -/
  length : Nat
  /-- The number of the file. -/
  file : Int
  deriving DecidableEq, Repr

namespace Location

/-- The place of a node without one. -/
def none : Location := ⟨0, 0, 0⟩

/-- Cuts a text at every colon. -/
def fields : List Char → List (List Char)
  | [] => [[]]
  | c :: cs =>
    match fields cs with
    | [] => [[c]]
    | first :: rest => if c = ':' then [] :: first :: rest else (c :: first) :: rest

/-- A part as an unsigned number of 64 bits. -/
def unsigned (part : Option (List Char)) : Nat :=
  match part with
  | .none => 0
  | some cs => (Text.readNatural Text.maxWord64 (String.ofList (Text.trimList cs))).toOption.getD 0

/-- A part as a signed number of 64 bits. -/
def signed (part : Option (List Char)) : Int :=
  match part with
  | .none => 0
  | some cs => (Text.readSigned? (Text.trimList cs)).getD 0

/-- Reads `start:length:file`; what follows the third part is passed
over. -/
def ofText (text : String) : Location :=
  let parts := fields text.toList
  ⟨unsigned parts[0]?, unsigned parts[1]?, signed parts[2]?⟩

/-- The text of a place. -/
def text (l : Location) : String :=
  Nat.repr l.start ++ ":" ++ Nat.repr l.length ++ ":" ++
    (if l.file < 0 then "-" else "") ++ Nat.repr l.file.natAbs

/-- A place stands before another or is the same. -/
def le (a b : Location) : Bool :=
  a.file < b.file || (a.file == b.file &&
    (a.start < b.start || (a.start == b.start && a.length ≤ b.length)))

end Location

end GuardedCalls.Source
