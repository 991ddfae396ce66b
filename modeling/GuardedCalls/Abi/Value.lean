/-
GuardedCalls.Abi.Value — the values of call arguments.

A value says what it is: an integer carries its width, bytes of a fixed
size carry that size. Nothing ties the number of an integer to its width
here; whether a value is one of a type is a question for the space of
the type.

* `AbiValue.scalar?` — the number of a value that is one.
* `NumberType.value?` — the value of a number type with a given number.
-/
import GuardedCalls.Abi.Type
import GuardedCalls.Scalar
import GuardedCalls.Word

namespace GuardedCalls

/-- A value of a call argument. -/
inductive AbiValue
  /-- An unsigned integer. -/
  | uint (value : Word) (bits : Nat)
  /-- A signed integer, in two's complement. -/
  | int (value : Word) (bits : Nat)
  /-- A truth value. -/
  | bool (value : Bool)
  /-- An account. -/
  | address (value : Address)
  /-- Bytes of a fixed size, at the front of a word. -/
  | fixedBytes (word : Word) (size : Nat)
  /-- An account and the selector of one of its functions. -/
  | function (value : BitVec 192)
  /-- Bytes. -/
  | bytes (value : List UInt8)
  /-- A text. -/
  | string (value : String)
  /-- The items of an array of fixed length. -/
  | fixedArray (items : List AbiValue)
  /-- The items of an array. -/
  | array (items : List AbiValue)
  /-- One value for each type of a tuple. -/
  | tuple (items : List AbiValue)
  deriving Repr, BEq, Inhabited

/-- The number of a value; nothing if the value is no number. -/
def AbiValue.scalar? : AbiValue → Option Scalar
  | .uint w _ => some (Scalar.ofWord w.toNat)
  | .int w _ => some (Scalar.ofSigned w)
  | .bool b => some (Scalar.ofBool b)
  | .address a => some (Scalar.ofWord a.toNat)
  | _ => none

/-- The value of a number type with a given number; nothing if the number
is out of the range of the type. -/
def NumberType.value? (type : NumberType) (s : Scalar) : Option AbiValue :=
  match type with
  | .uint bits => unsigned? bits
  | .ufixed bits _ => unsigned? bits
  | .int bits => signed? bits
  | .fixed bits _ => signed? bits
  | .address =>
    if s < Scalar.zero ∨ Scalar.maxUnsigned 160 < s then none
    else some (.address (BitVec.ofInt 160 s.val))
  | .bool => if s = Scalar.zero then some (.bool false)
    else if s = Scalar.one then some (.bool true)
    else none
where
  /-- The unsigned integer of a width. -/
  unsigned? (bits : Nat) : Option AbiValue :=
    if s < Scalar.zero ∨ Scalar.maxUnsigned bits < s then none
    else some (.uint (BitVec.ofInt 256 s.val) bits)
  /-- The signed integer of a width. -/
  signed? (bits : Nat) : Option AbiValue :=
    if s < Scalar.minSigned bits ∨ Scalar.maxSigned bits < s then none
    else s.signedWord?.map (.int · bits)

/-- The value of a type with a given number; nothing if the type is no
number type or the number is out of range. -/
def AbiType.value? (type : AbiType) (s : Scalar) : Option AbiValue :=
  match type with
  | .number type => type.value? s
  | _ => none

end GuardedCalls
