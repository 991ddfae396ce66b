/-
GuardedCalls.Json.Reader — the reading of JSON text.

* `Json.ofText?` — the document of a text; nothing if the text is no
  document, if anything but blanks follows it, or if its arrays and
  objects nest 128 deep or more.
* `Reader.value` — reads a value off the front of a text.
* `Reader.pass` — passes over a value of which nothing is wanted: only its
  form counts, not whether its numbers have a size, its characters a code
  or its nesting a limit.
* `Number` — whole numbers within 64 bits are exact. Any other number is
  the double of its first digits, as many as fit 64 bits, times or
  divided by a power of ten: the digits are rounded once, the power once
  and the result once, so the last bit may differ from that of the
  nearest double. A number beyond the largest double is no number.

A step of the reader takes a list of characters and gives what it read
with the rest. The fuel of the document reader is computed from the
length of the text, which every second step shortens.
-/
import GuardedCalls.Json
import GuardedCalls.Text.Numeral

namespace GuardedCalls.Json

namespace Reader

/-- The blanks between the parts of a document. -/
def isSpace (c : Char) : Bool := c == ' ' || c == '\n' || c == '\t' || c == '\r'

/-- The rest after blanks. -/
def skip (cs : List Char) : List Char := cs.dropWhile isSpace

/-! ## Numbers -/

/-- The magnitude of a double with `significand` as its digits and a
power of ten that may be far out of range. Powers below 10^-308 are
divided by in steps. -/
def scaleDown : Nat → Binary64 → Nat → Option Binary64
  | 0, _, _ => some Binary64.zero
  | fuel + 1, x, e =>
    if x.mantissa = 0 then some x
    else if e ≤ 308 then do x.div? (← Binary64.ofNat? (10 ^ e))
    else do scaleDown fuel (← x.div? (← Binary64.ofNat? (10 ^ 308))) (e - 308)

/-- The magnitude of the double with the given digits and power of ten. -/
def scaled (significand : Nat) (exponent : Int) : Option Binary64 := do
  let x ← Binary64.ofNat? significand
  if 0 ≤ exponent then
    if exponent ≤ 308 then x.mul? (← Binary64.ofNat? (10 ^ exponent.toNat))
    else if x.mantissa = 0 then some x
    else none
  else scaleDown 4 x exponent.natAbs

/-- The double with a sign. -/
def real (negative : Bool) (significand : Nat) (exponent : Int) : Option Number := do
  let x ← scaled significand exponent
  some (.real (if negative then x.neg else x))

/-- Takes digits onto a number as long as it stays below 2^64. Gives the
number, how many digits were taken, and the rest. -/
def takeDigits : Nat → Nat → List Char → Nat × Nat × List Char
  | n, count, [] => (n, count, [])
  | n, count, c :: cs =>
    match Text.digit? c with
    | none => (n, count, c :: cs)
    | some d =>
      if n * 10 + d < 2 ^ 64 then takeDigits (n * 10 + d) (count + 1) cs else (n, count, c :: cs)

/-- The largest exponent that is read digit by digit. -/
def maxExponent : Nat := 2 ^ 31 - 1

/-- Reads what follows `e`. An exponent out of range makes a number too
large, or zero. -/
def exponentPart (negative : Bool) (significand : Nat) (exponent : Int) (cs : List Char) :
    Option (Number × List Char) := do
  let (down, cs) := match cs with
    | '-' :: rest => (true, rest)
    | '+' :: rest => (false, rest)
    | rest => (false, rest)
  let digits := cs.takeWhile Text.isDigit
  let rest := cs.dropWhile Text.isDigit
  if digits.isEmpty then none
  else
    let e := Text.ofDigits digits
    if maxExponent < e then
      if significand ≠ 0 ∧ !down then none
      else some (.real { Binary64.zero with negative := negative }, rest)
    else
      let n ← real negative significand (exponent + if down then -(e : Int) else e)
      some (n, rest)

/-- Reads an exponent if one is there. -/
def endOfReal (negative : Bool) (significand : Nat) (exponent : Int) :
    List Char → Option (Number × List Char)
  | 'e' :: cs => exponentPart negative significand exponent cs
  | 'E' :: cs => exponentPart negative significand exponent cs
  | cs => do some (← real negative significand exponent, cs)

/-- Reads the digits after a point. Those that no longer fit 64 bits are
passed over. -/
def fractionPart (negative : Bool) (significand : Nat) (exponent : Int) (cs : List Char) :
    Option (Number × List Char) :=
  let (n, count, rest) := takeDigits significand 0 cs
  if count = 0 ∧ !(cs.head?.any Text.isDigit) then none
  else endOfReal negative n (exponent - count) (rest.dropWhile Text.isDigit)

/-- Reads what follows the digits before a point. -/
def afterWhole (negative : Bool) (significand : Nat) (dropped : Nat) :
    List Char → Option (Number × List Char)
  | '.' :: cs => fractionPart negative significand dropped cs
  | cs => endOfReal negative significand dropped cs

/-- A whole number, unless it is below −2^63 or is a zero with a sign. -/
def whole (negative : Bool) (n : Nat) : Option Number :=
  if !negative then some (.integer n)
  else if n ≠ 0 ∧ n ≤ 2 ^ 63 then some (.integer (-(n : Int)))
  else real true n 0

/-- Reads a number without its sign. A number of more than one digit
does not begin with zero. -/
def magnitude (negative : Bool) (cs : List Char) : Option (Number × List Char) :=
  let (n, count, rest) := takeDigits 0 0 cs
  if count = 0 then none
  else if cs.head? = some '0' ∧ 1 < count then none
  else
    let dropped := (rest.takeWhile Text.isDigit).length
    let rest := rest.dropWhile Text.isDigit
    if dropped = 0 then
      match rest with
      | '.' :: _ => afterWhole negative n 0 rest
      | 'e' :: _ => afterWhole negative n 0 rest
      | 'E' :: _ => afterWhole negative n 0 rest
      | _ => do some (← whole negative n, rest)
    else afterWhole negative n dropped rest

/-- Reads a number. -/
def number : List Char → Option (Number × List Char)
  | '-' :: cs => magnitude true cs
  | cs => magnitude false cs

/-! ## Strings -/

/-- The number of four hexadecimal digits. -/
def fourHex : List Char → Option Nat
  | a :: b :: c :: d :: _ => do
    let a ← Text.hexDigit? a
    let b ← Text.hexDigit? b
    let c ← Text.hexDigit? c
    let d ← Text.hexDigit? d
    some (a * 4096 + b * 256 + c * 16 + d)
  | _ => none

/-- The character of a one-letter escape. -/
def shortEscape? : Char → Option Char
  | '"' => some '"'
  | '\\' => some '\\'
  | '/' => some '/'
  | 'b' => some '\x08'
  | 'f' => some '\x0c'
  | 'n' => some '\n'
  | 'r' => some '\r'
  | 't' => some '\t'
  | _ => none

/-- The character of an escape with a number, from its digits on, and how
many characters it has with them. A high surrogate is one half of a
character and needs its other half right behind it; a low one alone is no
character. -/
def numberedEscape (cs : List Char) : Option (Char × Nat) := do
  let n ← fourHex cs
  if n < 0xD800 ∨ 0xE000 ≤ n then some (Char.ofNat n, 4)
  else if 0xDC00 ≤ n then none
  else
    match cs.drop 4 with
    | '\\' :: 'u' :: cs =>
      let low ← fourHex cs
      if 0xDC00 ≤ low ∧ low < 0xE000 then
        some (Char.ofNat (0x10000 + (n - 0xD800) * 1024 + (low - 0xDC00)), 10)
      else none
    | _ => none

/-- The character of an escape, and how many characters it has after the
backslash. -/
def escape : List Char → Option (Char × Nat)
  | [] => none
  | 'u' :: cs => do
    let (c, count) ← numberedEscape cs
    some (c, count + 1)
  | e :: _ => do some (← shortEscape? e, 1)

/-- Reads the characters of a string up to its closing quote, first of all
the rest of an escape, which has been read. A control character has to be
escaped. -/
def stringTail : Nat → List Char → List Char → Option (String × List Char)
  | _, _, [] => none
  | passed + 1, acc, _ :: cs => stringTail passed acc cs
  | 0, acc, '"' :: cs => some (String.ofList acc.reverse, cs)
  | 0, acc, '\\' :: cs =>
    match escape cs with
    | none => none
    | some (c, count) => stringTail count (c :: acc) cs
  | 0, acc, c :: cs => if c.toNat < 0x20 then none else stringTail 0 (c :: acc) cs

/-- Reads a string after its opening quote. -/
def string (cs : List Char) : Option (String × List Char) := stringTail 0 [] cs

/-! ## Forms

What is passed over is looked at for its form alone. -/

/-- The rest after one digit or more. -/
def digitsForm (cs : List Char) : Option (List Char) :=
  if cs.head?.any Text.isDigit then some (cs.dropWhile Text.isDigit) else none

/-- The rest after a number that begins with its first digit. -/
def magnitudeForm (cs : List Char) : Option (List Char) := do
  let rest ← digitsForm cs
  if cs.head? = some '0' ∧ (cs.drop 1).head?.any Text.isDigit then none
  else
    let rest ← match rest with
      | '.' :: rest => digitsForm rest
      | rest => some rest
    let exponent (rest : List Char) : Option (List Char) :=
      match rest with
      | '+' :: rest => digitsForm rest
      | '-' :: rest => digitsForm rest
      | rest => digitsForm rest
    match rest with
    | 'e' :: rest => exponent rest
    | 'E' :: rest => exponent rest
    | rest => some rest

/-- The rest after a number. -/
def numberForm : List Char → Option (List Char)
  | '-' :: cs => magnitudeForm cs
  | cs => magnitudeForm cs

/-- How many characters an escape has after the backslash. -/
def escapeForm : List Char → Option Nat
  | [] => none
  | 'u' :: cs => do
    let _ ← fourHex cs
    some 5
  | e :: _ => do
    let _ ← shortEscape? e
    some 1

/-- The rest after a string, from its opening quote or from within an
escape on. -/
def stringForm : Nat → List Char → Option (List Char)
  | _, [] => none
  | passed + 1, _ :: cs => stringForm passed cs
  | 0, '"' :: cs => some cs
  | 0, '\\' :: cs =>
    match escapeForm cs with
    | none => none
    | some count => stringForm count cs
  | 0, c :: cs => if c.toNat < 0x20 then none else stringForm 0 cs

/-! ## Documents -/

/-- How the parts of a document that have no parts themselves are read,
numbers from their first character on and strings after their opening
quote. -/
structure Leaves where
  number : List Char → Option (Number × List Char)
  string : List Char → Option (String × List Char)

/-- Numbers and strings as they are. -/
def Leaves.exact : Leaves := ⟨Reader.number, Reader.string⟩

/-- Numbers and strings of which the form counts, and nothing else. -/
def Leaves.form : Leaves where
  number cs := (numberForm cs).map fun rest => (.integer 0, rest)
  string cs := (stringForm 0 cs).map fun rest => ("", rest)

/-- The rest behind a given word. -/
def word (w : List Char) (cs : List Char) : Option (List Char) :=
  if w.isPrefixOf cs then some (cs.drop w.length) else none

mutual

/-- Reads one value, in which arrays and objects may nest `depth` deep. -/
def value (leaves : Leaves) : Nat → Nat → List Char → Option (Json × List Char)
  | 0, _, _ => none
  | fuel + 1, depth, cs =>
    match skip cs with
    | 'n' :: rest => do some (.null, ← word "ull".toList rest)
    | 't' :: rest => do some (.bool true, ← word "rue".toList rest)
    | 'f' :: rest => do some (.bool false, ← word "alse".toList rest)
    | '"' :: rest => do
      let (s, rest) ← leaves.string rest
      some (.string s, rest)
    | '[' :: rest =>
      if depth = 0 then none
      else
        match skip rest with
        | ']' :: rest => some (.array [], rest)
        | rest => do
          let (items, rest) ← items leaves fuel (depth - 1) rest
          some (.array items, rest)
    | '\x7b' :: rest =>
      if depth = 0 then none
      else
        match skip rest with
        | '\x7d' :: rest => some (.object [], rest)
        | rest => do
          let (members, rest) ← members leaves fuel (depth - 1) rest
          some (.object members, rest)
    | rest => do
      let (n, rest) ← leaves.number rest
      some (.number n, rest)

/-- Reads the items of an array from the first one to the closing
bracket. -/
def items (leaves : Leaves) : Nat → Nat → List Char → Option (List Json × List Char)
  | 0, _, _ => none
  | fuel + 1, depth, cs => do
    let (v, rest) ← value leaves fuel depth cs
    match skip rest with
    | ',' :: rest =>
      let (vs, rest) ← items leaves fuel depth rest
      some (v :: vs, rest)
    | ']' :: rest => some ([v], rest)
    | _ => none

/-- Reads the members of an object from the first key to the closing
brace. -/
def members (leaves : Leaves) :
    Nat → Nat → List Char → Option (List (String × Json) × List Char)
  | 0, _, _ => none
  | fuel + 1, depth, cs =>
    match skip cs with
    | '"' :: rest => do
      let (key, rest) ← leaves.string rest
      match skip rest with
      | ':' :: rest =>
        let (v, rest) ← value leaves fuel depth rest
        match skip rest with
        | ',' :: rest =>
          let (more, rest) ← members leaves fuel depth rest
          some ((key, v) :: more, rest)
        | '\x7d' :: rest => some ([(key, v)], rest)
        | _ => none
      | _ => none
    | _ => none

end

/-- How deep arrays and objects may nest. -/
def maxDepth : Nat := 127

/-- Reads a value in which arrays and objects nest at most `depth` deep. -/
def any (depth : Nat) (cs : List Char) : Option (Json × List Char) :=
  value .exact (2 * cs.length + 2) depth cs

/-- The rest after a value of which nothing is wanted. -/
def pass (cs : List Char) : Option (List Char) :=
  (value .form (2 * cs.length + 2) cs.length cs).map (·.2)

end Reader

/-- The document of a text, which holds nothing else but blanks. -/
def ofText? (text : String) : Option Json :=
  match Reader.any Reader.maxDepth text.toList with
  | some (v, rest) => if rest.all Reader.isSpace then some v else none
  | none => none

end GuardedCalls.Json
