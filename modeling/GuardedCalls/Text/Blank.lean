/-
GuardedCalls.Text.Blank — blank characters and the cutting of blank ends.

* `isBlank` — the characters of the Unicode property `White_Space`, as
  a closed list of ranges.
* `trimList`, `trim` — a text without the blanks at its two ends. The
  blanks inside a text are never touched.

Both cuts are `List.dropWhile` with the same predicate, so what is left
starts and ends with a character that is not blank, or is empty.
-/

namespace GuardedCalls.Text

/-- The ranges of the Unicode property `White_Space`, in order. -/
def blankRanges : List (Nat × Nat) :=
  [(0x09, 0x0D), (0x20, 0x20), (0x85, 0x85), (0xA0, 0xA0), (0x1680, 0x1680),
   (0x2000, 0x200A), (0x2028, 0x2029), (0x202F, 0x202F), (0x205F, 0x205F),
   (0x3000, 0x3000)]

/-- A character is blank when Unicode lists it as white space. -/
def isBlank (c : Char) : Bool :=
  blankRanges.any fun r => r.1 ≤ c.toNat && c.toNat ≤ r.2

/-- A list of characters without the blanks at its two ends. -/
def trimList (cs : List Char) : List Char :=
  ((cs.dropWhile isBlank).reverse.dropWhile isBlank).reverse

/-- A text without the blanks at its two ends. -/
def trim (text : String) : String :=
  String.ofList (trimList text.toList)

end GuardedCalls.Text
