/-
GuardedCalls.Abi.Encoding — values as call data.

Call data is made of 32-byte words. A sequence of values is written as
heads followed by tails: a value of fixed length stands in its head, a
value of any other length stands among the tails and its head is the
distance from the beginning of the sequence to it.

* `layout` — heads and tails of parts that are already encoded.
* `AbiValue.encode` — one value, as a sequence of one.
* `encodeAll` — an argument list, as a sequence.

Whether an array of fixed length or a tuple is of fixed length is read
off the items it holds.
-/
import GuardedCalls.Abi.Value
import GuardedCalls.Text.Utf8

namespace GuardedCalls

namespace Abi

/-- The 32 bytes of a number, modulo 2^256. -/
def wordBytes (n : Nat) : List UInt8 := Word.bytes (BitVec.ofNat 256 n)

/-- Bytes filled up with zeros to whole words. -/
def padded (bytes : List UInt8) : List UInt8 :=
  bytes ++ List.replicate ((32 - bytes.length % 32) % 32) 0

/-- A part of a sequence: its bytes, and whether they stand among the
tails. -/
structure Part where
  /-- The bytes stand among the tails. -/
  dynamic : Bool
  /-- The bytes. -/
  body : List UInt8

/-- How many bytes the head of a part takes. -/
def Part.headSize (p : Part) : Nat := if p.dynamic then 32 else p.body.length

/-- How many bytes the heads of parts take. -/
def headsSize : List Part → Nat
  | [] => 0
  | p :: ps => p.headSize + headsSize ps

/-- The heads of parts whose tails begin at a distance. -/
def heads : Nat → List Part → List UInt8
  | _, [] => []
  | offset, p :: ps =>
    if p.dynamic then wordBytes offset ++ heads (offset + p.body.length) ps
    else p.body ++ heads offset ps

/-- The tails of parts. -/
def tails (ps : List Part) : List UInt8 :=
  ps.flatMap fun p => if p.dynamic then p.body else []

/-- The bytes of a sequence of parts. -/
def layout (ps : List Part) : List UInt8 :=
  heads (headsSize ps) ps ++ tails ps

end Abi

namespace AbiValue

mutual

/-- The part that a value is in a sequence. -/
def part : AbiValue → Abi.Part
  | .uint w _ => ⟨false, w.bytes⟩
  | .int w _ => ⟨false, w.bytes⟩
  | .bool b => ⟨false, Abi.wordBytes b.toNat⟩
  | .address a => ⟨false, a.toWord.bytes⟩
  | .fixedBytes w _ => ⟨false, w.bytes⟩
  | .function f => ⟨false, bigEndian 24 f.toNat ++ List.replicate 8 0⟩
  | .bytes bs => ⟨true, Abi.wordBytes bs.length ++ Abi.padded bs⟩
  | .string s =>
    let bs := Text.Utf8.encodeText s
    ⟨true, Abi.wordBytes bs.length ++ Abi.padded bs⟩
  | .fixedArray items =>
    let ps := parts items
    ⟨ps.any (·.dynamic), Abi.layout ps⟩
  | .array items => ⟨true, Abi.wordBytes items.length ++ Abi.layout (parts items)⟩
  | .tuple items =>
    let ps := parts items
    ⟨ps.any (·.dynamic), Abi.layout ps⟩

/-- The parts of a sequence of values. -/
def parts : List AbiValue → List Abi.Part
  | [] => []
  | v :: vs => part v :: parts vs

end

/-- The bytes of one value, as a sequence of one. -/
def encode (v : AbiValue) : List UInt8 := Abi.layout [v.part]

end AbiValue

/-- The bytes of an argument list. -/
def encodeAll (values : List AbiValue) : List UInt8 := Abi.layout (AbiValue.parts values)

end GuardedCalls
