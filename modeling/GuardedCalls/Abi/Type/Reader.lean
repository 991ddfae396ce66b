/-
GuardedCalls.Abi.Type.Reader — the reading of type names.

A type is a word or a tuple followed by array suffixes, which nest
outward from left to right:

    type   = base suffix*          suffix = "[]" | "[" digits "]"
    base   = word | tuple          word   = letter (letter | digit)*
    tuple  = "()" | "(" type ("," type)* ")"

Spaces may stand around the types of a tuple and nowhere else; blanks
around the whole name are dropped.

* `Reader.type` — reads a type off the front of a text. It is given fuel, and
  where that runs out it has no answer at all, so a reader that stopped too
  early is not taken for a text that is no type.
* `AbiType.ofName` — the type of a name.
* `TypeError` — why a name is no type. All that is consumed before a
  `malformed` place is ASCII, so the place is a count of characters and
  of bytes alike.
-/
import GuardedCalls.Abi.Type
import GuardedCalls.Text.Blank
import GuardedCalls.Text.Numeral

namespace GuardedCalls

/-! ## Errors -/

/-- Why a number in a type name is out of range. -/
inductive WidthFault
  /-- An array of length zero. -/
  | emptyArray
  /-- Digits that need more than 64 bits. -/
  | notAWidth (digits : String)
  /-- A width in bits that is no multiple of 8 up to 256. -/
  | bits (n : Nat)
  /-- A number of digits after the point that is not from 1 to 80. -/
  | decimals (n : Nat)
  /-- A number of bytes that is not from 1 to 32. -/
  | bytes (n : Nat)
  deriving DecidableEq, Repr

/-- The wording of a fault. -/
def WidthFault.message : WidthFault → String
  | .emptyArray => "static array length must be positive"
  | .notAWidth digits => "`" ++ digits ++ "` is not a width"
  | .bits n => "bit width " ++ Nat.repr n ++ " must be a multiple of 8 in 8..=256"
  | .decimals n => "fixed-point exponent " ++ Nat.repr n ++ " is outside 1..=80"
  | .bytes n => "bytes" ++ Nat.repr n ++ " is outside bytes1..bytes32"

/-- Why a text is no type name. -/
inductive TypeError
  /-- There is nothing but blanks. -/
  | empty
  /-- A word that names no type, or a name with a width that is no
  number. -/
  | unknown (text : String)
  /-- A number out of range. -/
  | invalidWidth (type : String) (fault : WidthFault)
  /-- The text breaks off or goes on where it should not. -/
  | malformed (type : String) (position : Nat)
  deriving DecidableEq, Repr

/-- The wording of an error. -/
def TypeError.message : TypeError → String
  | .empty => "empty type string"
  | .unknown text => "unknown type `" ++ text ++ "`"
  | .invalidWidth type fault => "invalid width in `" ++ type ++ "`: " ++ fault.message
  | .malformed type position => "malformed type `" ++ type ++ "` at byte " ++ Nat.repr position

namespace AbiType.Reader

/-- A character that a word goes on with. -/
def isWordChar (c : Char) : Bool := Text.isLetter c || Text.isDigit c

/-- The text has to go on in another way where `rest` begins. -/
def malformed (source rest : List Char) : TypeError :=
  .malformed (String.ofList source) (source.length - rest.length)

/-- A number is out of range. -/
def invalidWidth (source : List Char) (fault : WidthFault) : TypeError :=
  .invalidWidth (String.ofList source) fault

/-! ## Words -/

/-- The number of a width. -/
def width (source digits : List Char) : Except TypeError Nat :=
  if digits.isEmpty || !digits.all Text.isDigit then .error (.unknown (String.ofList source))
  else
    match Text.readCount? Text.maxWord64 digits with
    | none => .error (invalidWidth source (.notAWidth (String.ofList digits)))
    | some n => .ok n

/-- Widths in bits are the multiples of 8 up to 256. -/
def byteWidth (source : List Char) (bits : Nat) : Except TypeError Nat :=
  if bits = 0 ∨ 256 < bits ∨ bits % 8 ≠ 0 then .error (invalidWidth source (.bits bits))
  else .ok bits

/-- The width of an integer, 256 bits if none is written. -/
def integerBits (source rest : List Char) : Except TypeError Nat :=
  if rest.isEmpty then .ok 256
  else
    match width source rest with
    | .error e => .error e
    | .ok bits => byteWidth source bits

/-- The width and the decimals of a fixed-point number, 128x18 if none
are written. -/
def fixedPointWidths (source rest : List Char) : Except TypeError (Nat × Nat) :=
  if rest.isEmpty then .ok (128, 18)
  else if !rest.contains 'x' then .error (.unknown (String.ofList source))
  else
    match width source (rest.takeWhile (· != 'x')) with
    | .error e => .error e
    | .ok bits =>
      match width source ((rest.dropWhile (· != 'x')).drop 1) with
      | .error e => .error e
      | .ok decimals =>
        match byteWidth source bits with
        | .error e => .error e
        | .ok bits =>
          if decimals = 0 ∨ 80 < decimals then .error (invalidWidth source (.decimals decimals))
          else .ok (bits, decimals)

/-- The size of bytes with a fixed size. -/
def byteSize (source rest : List Char) : Except TypeError Nat :=
  match width source rest with
  | .error e => .error e
  | .ok size =>
    if size = 0 ∨ 32 < size then .error (invalidWidth source (.bytes size)) else .ok size

/-- The type that a word names. -/
def ofWord (source word : List Char) : Except TypeError AbiType :=
  if word = "address".toList then .ok (.number .address)
  else if word = "bool".toList then .ok (.number .bool)
  else if word = "string".toList then .ok .string
  else if word = "function".toList then .ok .function
  else if word = "bytes".toList then .ok .bytes
  else if "uint".toList.isPrefixOf word then
    (integerBits source (word.drop 4)).map fun bits => .number (.uint bits)
  else if "int".toList.isPrefixOf word then
    (integerBits source (word.drop 3)).map fun bits => .number (.int bits)
  else if "ufixed".toList.isPrefixOf word then
    (fixedPointWidths source (word.drop 6)).map fun s => .number (.ufixed s.1 s.2)
  else if "fixed".toList.isPrefixOf word then
    (fixedPointWidths source (word.drop 5)).map fun s => .number (.fixed s.1 s.2)
  else if "bytes".toList.isPrefixOf word then
    (byteSize source (word.drop 5)).map .fixedBytes
  else .error (.unknown (String.ofList word))

/-! ## Suffixes, tuples and types -/

/-- The array type that digits between brackets make; `rest` is what
follows the closing bracket. -/
def sized (source : List Char) (element : AbiType) (digits rest : List Char) :
    Except TypeError AbiType :=
  if digits.isEmpty then .ok (.array element)
  else
    match Text.readCount? Text.maxWord64 digits with
    | none => .error (malformed source rest)
    | some 0 => .error (invalidWidth source .emptyArray)
    | some n => .ok (.fixedArray element n)

/-- Reads array suffixes onto a type. The digits of a suffix that has
begun are carried along. -/
def suffixes (source : List Char) : AbiType → Option (List Char) → List Char →
    Except TypeError (AbiType × List Char)
  | t, none, [] => .ok (t, [])
  | t, none, c :: rest => if c = '[' then suffixes source t (some []) rest else .ok (t, c :: rest)
  | _, some _, [] => .error (malformed source [])
  | t, some digits, c :: rest =>
    if Text.isDigit c then suffixes source t (some (digits ++ [c])) rest
    else if c = ']' then
      match sized source t digits rest with
      | .error e => .error e
      | .ok t => suffixes source t none rest
    else .error (malformed source (c :: rest))

/-- The rest after spaces. -/
def dropSpaces (cs : List Char) : List Char := cs.dropWhile (· == ' ')

mutual

/-- Reads a type; nothing if the fuel runs out. -/
def type (source : List Char) :
    Nat → List Char → Option (Except TypeError (AbiType × List Char))
  | 0, _ => none
  | _ + 1, [] => some (.error (malformed source []))
  | _ + 1, '(' :: ')' :: rest => some (suffixes source (.tuple []) none rest)
  | fuel + 1, '(' :: rest =>
    match items source fuel rest with
    | none => none
    | some (.error e) => some (.error e)
    | some (.ok (ts, rest)) => some (suffixes source (.tuple ts) none rest)
  | _ + 1, c :: rest =>
    if Text.isLetter c then
      match ofWord source (c :: rest.takeWhile isWordChar) with
      | .error e => some (.error e)
      | .ok t => some (suffixes source t none (rest.dropWhile isWordChar))
    else some (.error (malformed source (c :: rest)))

/-- Reads the types of a tuple up to its closing bracket; nothing if the fuel
runs out. -/
def items (source : List Char) :
    Nat → List Char → Option (Except TypeError (List AbiType × List Char))
  | 0, _ => none
  | fuel + 1, cs =>
    match type source fuel (dropSpaces cs) with
    | none => none
    | some (.error e) => some (.error e)
    | some (.ok (t, rest)) =>
      match dropSpaces rest with
      | ',' :: rest =>
        match items source fuel rest with
        | none => none
        | some (.error e) => some (.error e)
        | some (.ok (ts, rest)) => some (.ok (t :: ts, rest))
      | ')' :: rest => some (.ok ([t], rest))
      | rest => some (.error (malformed source rest))

end

/-- Fuel for a text. Every second step of the reader consumes a character, so it
never runs out. -/
def fuelFor (source : List Char) : Nat := 2 * source.length + 2

end AbiType.Reader

/-- The type of a name. -/
def AbiType.ofName (text : String) : Except TypeError AbiType :=
  let source := Text.trimList text.toList
  if source.isEmpty then .error .empty
  else
    match Reader.type source (Reader.fuelFor source) source with
    -- This does not occur: there is fuel enough.
    | none => .error (Reader.malformed source source)
    | some (.error e) => .error e
    | some (.ok (t, [])) => .ok t
    | some (.ok (_, rest)) => .error (Reader.malformed source rest)

end GuardedCalls
