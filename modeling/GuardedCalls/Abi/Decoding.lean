/-
GuardedCalls.Abi.Decoding — call data as values.

The reader takes what the data says and checks no more than that it can
be read: a word keeps bits that its type has no use for, anything may
follow the last value, and distances may point anywhere within the data.
It keeps two limits: nothing is read past the end, and no more than 16
readers nest (`Cursor.child`).

How many values a machine holds is no matter of the format. Before the
values of a sequence are read, room is asked for them, and what the machine
says to that is a parameter (`Room`).

* `Cursor` — a place in the data: the data that distances count from, the
  data still to read, and how deep the reader is nested.
* `AbiType.read` — one value of a wire type.
* `AbiType.decode`, `decodeAll` — a value, and an argument list, where there
  is always room; `decodeWithin`, `decodeAllWithin` — where there may be
  none. A type without any word is read from no data at all.
-/
import GuardedCalls.Abi.Value
import GuardedCalls.Text.Utf8

namespace GuardedCalls

namespace Abi

/-- Why data cannot be read. -/
inductive DecodeFault
  /-- The data ends too early. -/
  | overrun
  /-- Too many readers are nested. -/
  | tooDeep
  /-- There is no room for the values. -/
  | noRoom (reason : String)
  deriving DecidableEq, Repr

/-- The wording of a fault. -/
def DecodeFault.message : DecodeFault → String
  | .overrun => "ABI decoding failed: buffer overrun while deserializing"
  | .tooDeep => "ABI decoding failed: recursion limit of 16 exceeded during decoding"
  | .noRoom reason => reason

/-- What a machine says when it is asked for room: why there is none, if
there is none. -/
structure Room where
  /-- For a value of a type, before anything is read. -/
  refusesType : AbiType → Option String
  /-- For so many values of an array, before the first is read. -/
  refusesItems : Nat → Option String

/-- There is always room. -/
def Room.ample : Room := ⟨fun _ => none, fun _ => none⟩

/-- A place in the data. -/
structure Cursor where
  /-- The data that distances count from. -/
  base : List UInt8
  /-- The data still to read; an end piece of the base. -/
  rest : List UInt8
  /-- How deep the reader is nested. -/
  depth : Nat

namespace Cursor

/-- The beginning of the data. -/
def start (data : List UInt8) : Cursor := ⟨data, data, 0⟩

/-- How many whole words are still to read. -/
def wordsLeft (c : Cursor) : Nat := c.rest.length / 32

/-- Reads a word. -/
def word (c : Cursor) : Except DecodeFault (Word × Cursor) :=
  let bytes := c.rest.take 32
  if bytes.length < 32 then .error .overrun
  else .ok (Word.ofBytes bytes, { c with rest := c.rest.drop 32 })

/-- Reads a distance or a length: the low 64 bits of a word. -/
def size (c : Cursor) : Except DecodeFault (Nat × Cursor) :=
  match c.word with
  | .error e => .error e
  | .ok (w, c) => .ok (w.toNat % 2 ^ 64, c)

/-- Reads so many bytes. -/
def bytes (count : Nat) (c : Cursor) : Except DecodeFault (List UInt8) :=
  let bytes := c.rest.take count
  if bytes.length < count then .error .overrun else .ok bytes

/-- A nested reader at the beginning of some data. -/
def nested (data : List UInt8) (c : Cursor) : Except DecodeFault Cursor :=
  if 16 ≤ c.depth then .error .tooDeep else .ok ⟨data, data, c.depth + 1⟩

/-- A nested reader at a distance. -/
def child (distance : Nat) (c : Cursor) : Except DecodeFault Cursor :=
  if 16 ≤ c.depth then .error .tooDeep
  else
    match c.base.drop distance with
    | [] => if c.base.length < distance then .error .overrun else c.nested []
    | data => c.nested data

/-- Reads a distance and gives the nested reader there, with the place
after the distance. -/
def indirect (c : Cursor) : Except DecodeFault (Cursor × Cursor) :=
  match c.size with
  | .error e => .error e
  | .ok (distance, after) =>
    match after.child distance with
    | .error e => .error e
    | .ok inner => .ok (inner, after)

end Cursor

/-- Reads so many values one after the other. -/
def repeated (read : Cursor → Except DecodeFault (AbiValue × Cursor)) :
    Nat → Cursor → Except DecodeFault (List AbiValue × Cursor)
  | 0, c => .ok ([], c)
  | n + 1, c =>
    match read c with
    | .error e => .error e
    | .ok (v, c) =>
      match repeated read n c with
      | .error e => .error e
      | .ok (vs, c) => .ok (v :: vs, c)

/-- Reads a length and the bytes behind it, at the end of a distance. -/
def packed (c : Cursor) : Except DecodeFault (List UInt8 × Cursor) :=
  match c.indirect with
  | .error e => .error e
  | .ok (inner, after) =>
    match inner.size with
    | .error e => .error e
    | .ok (count, inner) =>
      match inner.bytes count with
      | .error e => .error e
      | .ok bytes => .ok (bytes, after)

/-- Reads a sequence: in place if it is of fixed length, at the end of a
distance if not. -/
def sequence (dynamic : Bool) (read : Cursor → Except DecodeFault (List AbiValue × Cursor))
    (c : Cursor) : Except DecodeFault (List AbiValue × Cursor) :=
  if dynamic then
    match c.indirect with
    | .error e => .error e
    | .ok (inner, after) =>
      match read inner with
      | .error e => .error e
      | .ok (vs, _) => .ok (vs, after)
  else
    match c.nested c.rest with
    | .error e => .error e
    | .ok inner =>
      match read inner with
      | .error e => .error e
      | .ok (vs, inner) => .ok (vs, { c with rest := inner.rest })

/-- Reads a length and so many values, at the end of a distance. Each
value needs at least `least` words. -/
def counted (room : Room) (least : Nat) (read : Cursor → Except DecodeFault (AbiValue × Cursor))
    (c : Cursor) : Except DecodeFault (List AbiValue × Cursor) :=
  match c.indirect with
  | .error e => .error e
  | .ok (inner, after) =>
    match inner.size with
    | .error e => .error e
    | .ok (0, _) => .ok ([], after)
    | .ok (count, inner) =>
      match inner.nested inner.rest with
      | .error e => .error e
      | .ok inner =>
        if inner.wordsLeft < count * least then .error .overrun
        else
          match room.refusesItems count with
          | some reason => .error (.noRoom reason)
          | none =>
            match repeated read count inner with
            | .error e => .error e
            | .ok (vs, _) => .ok (vs, after)

end Abi

/-- The value of a number type in a word. -/
def NumberType.ofWord (w : Word) : NumberType → AbiValue
  | .uint bits => .uint w bits
  | .int bits => .int w bits
  | .ufixed bits _ => .uint w bits
  | .fixed bits _ => .int w bits
  | .address => .address (Address.ofWord w)
  | .bool => .bool (w != 0)

namespace AbiType

open Abi

mutual

/-- Values of the type differ in length. -/
def isDynamic : AbiType → Bool
  | .bytes => true
  | .string => true
  | .array _ => true
  | .fixedArray element _ => isDynamic element
  | .tuple items => anyDynamic items
  | _ => false

/-- One of the types has values that differ in length. -/
def anyDynamic : List AbiType → Bool
  | [] => false
  | t :: ts => isDynamic t || anyDynamic ts

end

mutual

/-- The least number of words of a value. -/
def leastWords : AbiType → Nat
  | .fixedArray element length => length * leastWords element
  | .tuple items => leastWordsAll items
  | _ => 1

/-- The least number of words of one value of each type. -/
def leastWordsAll : List AbiType → Nat
  | [] => 0
  | t :: ts => leastWords t + leastWordsAll ts

end

mutual

/-- The type is made of empty tuples only. -/
def isHollow : AbiType → Bool
  | .array element => isHollow element
  | .fixedArray element _ => isHollow element
  | .tuple items => allHollow items
  | _ => false

/-- All of the types are made of empty tuples only. -/
def allHollow : List AbiType → Bool
  | [] => true
  | t :: ts => isHollow t && allHollow ts

end

/-- The value of a type made of empty tuples only. -/
def hollowValue : AbiType → AbiValue
  | .array _ => .array []
  | .fixedArray _ _ => .fixedArray []
  | _ => .tuple []

mutual

/-- Reads one value. -/
def read (room : Room) : AbiType → Cursor → Except DecodeFault (AbiValue × Cursor)
  | .number type, c =>
    match c.word with
    | .error e => .error e
    | .ok (w, c) => .ok (type.ofWord w, c)
  | .fixedBytes size, c =>
    match c.word with
    | .error e => .error e
    | .ok (w, c) => .ok (.fixedBytes w size, c)
  | .function, c =>
    match c.word with
    | .error e => .error e
    | .ok (w, c) => .ok (.function ((w >>> 64).setWidth 192), c)
  | .bytes, c =>
    match packed c with
    | .error e => .error e
    | .ok (data, c) => .ok (.bytes data, c)
  | .string, c =>
    match packed c with
    | .error e => .error e
    | .ok (data, c) => .ok (.string (Text.Utf8.decodeLossy data), c)
  | .fixedArray element length, c =>
    match sequence (isDynamic element) (repeated (read room element) length) c with
    | .error e => .error e
    | .ok (vs, c) => .ok (.fixedArray vs, c)
  | .array element, c =>
    match counted room (leastWords element) (read room element) c with
    | .error e => .error e
    | .ok (vs, c) => .ok (.array vs, c)
  | .tuple items, c =>
    match sequence (anyDynamic items) (readAll room items) c with
    | .error e => .error e
    | .ok (vs, c) => .ok (.tuple vs, c)

/-- Reads one value of each type. -/
def readAll (room : Room) : List AbiType → Cursor → Except DecodeFault (List AbiValue × Cursor)
  | [], c => .ok ([], c)
  | t :: ts, c =>
    match read room t c with
    | .error e => .error e
    | .ok (v, c) =>
      match readAll room ts c with
      | .error e => .error e
      | .ok (vs, c) => .ok (v :: vs, c)

end

end AbiType

/-- Data that cannot be read as a type, and why. -/
structure BadData where
  /-- The name of the type. -/
  type : String
  /-- Why the data cannot be read. -/
  fault : Abi.DecodeFault
  deriving DecidableEq, Repr

/-- The wording of the error. -/
def BadData.message (e : BadData) : String :=
  "cannot decode `" ++ e.type ++ "`: " ++ e.fault.message

/-- Reads values that need at least so many words, unless there is no room
for them. -/
def readFrom {α : Type} (data : List UInt8) (least : Nat) (refusal : Option String)
    (read : Abi.Cursor → Except Abi.DecodeFault (α × Abi.Cursor)) : Except Abi.DecodeFault α :=
  if (Abi.Cursor.start data).wordsLeft < least then .error .overrun
  else
    match refusal with
    | some reason => .error (.noRoom reason)
    | none =>
      match read (Abi.Cursor.start data) with
      | .error e => .error e
      | .ok (a, _) => .ok a

/-- The value of a type in some data, as far as there is room. -/
def AbiType.decodeWithin (room : Abi.Room) (t : AbiType) (data : List UInt8) :
    Except BadData AbiValue :=
  if t.wire.isHollow then .ok t.wire.hollowValue
  else
    match readFrom data t.wire.leastWords (room.refusesType t.wire) (t.wire.read room) with
    | .error e => .error ⟨t.name, e⟩
    | .ok v => .ok v

/-- The value of a type in some data. -/
def AbiType.decode (t : AbiType) (data : List UInt8) : Except BadData AbiValue :=
  t.decodeWithin .ample data

/-- The argument list of some types in some data, as far as there is room. -/
def decodeAllWithin (room : Abi.Room) (types : List AbiType) (data : List UInt8) :
    Except BadData (List AbiValue) :=
  let wires := AbiType.wireAll types
  if AbiType.allHollow wires then .ok []
  else
    match readFrom data (AbiType.leastWordsAll wires) (room.refusesType (.tuple wires))
      (AbiType.readAll room wires) with
    | .error e => .error ⟨(AbiType.tuple types).name, e⟩
    | .ok vs => .ok vs

/-- The argument list of some types in some data. -/
def decodeAll (types : List AbiType) (data : List UInt8) : Except BadData (List AbiValue) :=
  decodeAllWithin .ample types data

end GuardedCalls
