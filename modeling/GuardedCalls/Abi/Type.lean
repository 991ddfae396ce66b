/-
GuardedCalls.Abi.Type — the types of call arguments.

* `NumberType` — the types whose values are numbers of a range: integers,
  fixed-point numbers, addresses and truth values. Guards and rules
  narrow values of these types only.
* `AbiType` — all types: number types, bytes, text, arrays and tuples.
* `AbiKind` — the coarse sort of a type, with the name that messages use.
* `AbiType.name` — the canonical name; `lookupNames` adds the short name of
  a default width.
* `AbiType.wire` — the type that travels in call data: a fixed-point
  number travels as the integer of its digits.
-/

namespace GuardedCalls

/-! ## Types -/

/-- A type whose values are the numbers of a range. -/
inductive NumberType
  /-- An unsigned integer of a width in bits. -/
  | uint (bits : Nat)
  /-- A signed integer of a width in bits. -/
  | int (bits : Nat)
  /-- An unsigned number with digits after the point. -/
  | ufixed (bits decimals : Nat)
  /-- A signed number with digits after the point. -/
  | fixed (bits decimals : Nat)
  /-- An account, as an unsigned number of 160 bits. -/
  | address
  /-- A truth value, as zero or one. -/
  | bool
  deriving DecidableEq, Repr

/-- A type of call arguments. -/
inductive AbiType
  /-- A number. -/
  | number (type : NumberType)
  /-- Bytes, as many as the size says. -/
  | fixedBytes (size : Nat)
  /-- An account and the selector of one of its functions: 24 bytes. -/
  | function
  /-- Any number of bytes. -/
  | bytes
  /-- A text. -/
  | string
  /-- So many values of one type. -/
  | fixedArray (element : AbiType) (length : Nat)
  /-- Any number of values of one type. -/
  | array (element : AbiType)
  /-- One value of each type. -/
  | tuple (items : List AbiType)
  deriving Repr

/-- The coarse sort of a type. -/
inductive AbiKind
  | unsigned
  | signed
  | fixedPoint
  | address
  | bool
  | fixedBytes
  | function
  | bytes
  | string
  | fixedArray
  | array
  | tuple
  deriving DecidableEq, Repr

/-- The name of a sort. -/
def AbiKind.text : AbiKind → String
  | .unsigned => "unsigned integer"
  | .signed => "signed integer"
  | .fixedPoint => "fixed-point"
  | .address => "address"
  | .bool => "bool"
  | .fixedBytes => "fixed bytes"
  | .function => "function"
  | .bytes => "dynamic bytes"
  | .string => "string"
  | .fixedArray => "fixed array"
  | .array => "dynamic array"
  | .tuple => "tuple"

/-- The sort of a number type. -/
def NumberType.kind : NumberType → AbiKind
  | .uint _ => .unsigned
  | .int _ => .signed
  | .ufixed _ _ => .fixedPoint
  | .fixed _ _ => .fixedPoint
  | .address => .address
  | .bool => .bool

/-- The digits after the point; none except for fixed-point numbers. -/
def NumberType.decimals : NumberType → Nat
  | .ufixed _ decimals => decimals
  | .fixed _ decimals => decimals
  | _ => 0

namespace AbiType

/-- The sort of a type. -/
def kind : AbiType → AbiKind
  | .number type => type.kind
  | .fixedBytes _ => .fixedBytes
  | .function => .function
  | .bytes => .bytes
  | .string => .string
  | .fixedArray _ _ => .fixedArray
  | .array _ => .array
  | .tuple _ => .tuple

/-- The digits after the point that a literal is scaled by. -/
def decimals : AbiType → Nat
  | .number type => type.decimals
  | _ => 0

/-! ## Equality

The types nest through lists, so equality is decided by a comparison
that goes through the lists, and a proof that it says what it should. -/

mutual

/-- Two types are the same. -/
def same : AbiType → AbiType → Bool
  | .number s, .number t => s = t
  | .fixedBytes m, .fixedBytes n => m = n
  | .function, .function => true
  | .bytes, .bytes => true
  | .string, .string => true
  | .fixedArray s m, .fixedArray t n => same s t && m = n
  | .array s, .array t => same s t
  | .tuple ss, .tuple ts => sameAll ss ts
  | _, _ => false

/-- Two lists of types are the same. -/
def sameAll : List AbiType → List AbiType → Bool
  | [], [] => true
  | s :: ss, t :: ts => same s t && sameAll ss ts
  | _, _ => false

end

mutual

theorem same_iff : (s t : AbiType) → (same s t = true ↔ s = t)
  | .number s, t => by cases t <;> simp [same]
  | .fixedBytes n, t => by cases t <;> simp [same]
  | .function, t => by cases t <;> simp [same]
  | .bytes, t => by cases t <;> simp [same]
  | .string, t => by cases t <;> simp [same]
  | .fixedArray s m, t => by
    cases t with
    | fixedArray t n => simp [same, same_iff s t]
    | _ => simp [same]
  | .array s, t => by
    cases t with
    | array t => simp [same, same_iff s t]
    | _ => simp [same]
  | .tuple ss, t => by
    cases t with
    | tuple ts => simp [same, sameAll_iff ss ts]
    | _ => simp [same]

theorem sameAll_iff : (ss ts : List AbiType) → (sameAll ss ts = true ↔ ss = ts)
  | [], ts => by cases ts <;> simp [sameAll]
  | s :: ss, ts => by
    cases ts with
    | nil => simp [sameAll]
    | cons t ts => simp [sameAll, same_iff s t, sameAll_iff ss ts]

end

instance : DecidableEq AbiType := fun s t => decidable_of_iff _ (same_iff s t)

/-! ## Names -/

end AbiType

/-- The characters of a number in decimal digits. -/
def decimalChars (n : Nat) : List Char := Nat.toDigits 10 n

/-- The canonical name of a number type. -/
def NumberType.chars : NumberType → List Char
  | .uint bits => "uint".toList ++ decimalChars bits
  | .int bits => "int".toList ++ decimalChars bits
  | .ufixed bits decimals => "ufixed".toList ++ decimalChars bits ++ 'x' :: decimalChars decimals
  | .fixed bits decimals => "fixed".toList ++ decimalChars bits ++ 'x' :: decimalChars decimals
  | .address => "address".toList
  | .bool => "bool".toList

namespace AbiType

mutual

/-- The characters of the canonical name. -/
def chars : AbiType → List Char
  | .number type => type.chars
  | .fixedBytes size => "bytes".toList ++ decimalChars size
  | .function => "function".toList
  | .bytes => "bytes".toList
  | .string => "string".toList
  | .fixedArray element length => chars element ++ '[' :: decimalChars length ++ [']']
  | .array element => chars element ++ ['[', ']']
  | .tuple [] => ['(', ')']
  | .tuple (t :: ts) => '(' :: chars t ++ tailChars ts

/-- The characters after the first type of a tuple. -/
def tailChars : List AbiType → List Char
  | [] => [')']
  | t :: ts => ',' :: chars t ++ tailChars ts

end

/-- The canonical name. -/
def name (t : AbiType) : String := String.ofList t.chars

/-- The short name of a type of default width. -/
def shortName? : AbiType → Option String
  | .number (.uint 256) => some "uint"
  | .number (.int 256) => some "int"
  | .number (.ufixed 128 18) => some "ufixed"
  | .number (.fixed 128 18) => some "fixed"
  | _ => none

/-- The names under which rule files may know a type, the canonical one
first. -/
def lookupNames (t : AbiType) : List String := t.name :: t.shortName?.toList

/-! ## Wire types -/

mutual

/-- The type that travels in call data. -/
def wire : AbiType → AbiType
  | .number (.ufixed bits _) => .number (.uint bits)
  | .number (.fixed bits _) => .number (.int bits)
  | .number type => .number type
  | .fixedBytes size => .fixedBytes size
  | .function => .function
  | .bytes => .bytes
  | .string => .string
  | .fixedArray element length => .fixedArray (wire element) length
  | .array element => .array (wire element)
  | .tuple items => .tuple (wireAll items)

/-- The types that travel for each of some types. -/
def wireAll : List AbiType → List AbiType
  | [] => []
  | t :: ts => wire t :: wireAll ts

end

mutual

/-- The name of a wire type, in which a tuple of one has a comma. -/
def wireChars : AbiType → List Char
  | .fixedArray element length => wireChars element ++ '[' :: decimalChars length ++ [']']
  | .array element => wireChars element ++ ['[', ']']
  | .tuple [] => ['(', ')']
  | .tuple [t] => '(' :: wireChars t ++ [',', ')']
  | .tuple (t :: ts) => '(' :: wireChars t ++ wireTailChars ts
  | t => chars t

/-- The characters after the first type of a tuple of several. -/
def wireTailChars : List AbiType → List Char
  | [] => [')']
  | t :: ts => ',' :: wireChars t ++ wireTailChars ts

end

/-- The name of the type that travels in call data. -/
def wireName (t : AbiType) : String := String.ofList t.wire.wireChars

end AbiType

end GuardedCalls
