/-
GuardedCalls.Chain.Rlp — the recursive length encoding of nested bytes.

* `Rlp` — bytes, or a list of such items.
* `Rlp.encode` — an item as bytes. A single byte below 0x80 stands for
  itself; anything else follows its length.
-/
import GuardedCalls.Word

namespace GuardedCalls

/-- Bytes, or a list of items. -/
inductive Rlp
  | bytes (bytes : List UInt8)
  | list (items : List Rlp)

namespace Rlp

/-- The bytes of a number without zeros in front, from at most `fuel`
bytes. -/
def minimalBytes : Nat → Nat → List UInt8
  | 0, _ => []
  | fuel + 1, n => if n = 0 then [] else minimalBytes fuel (n / 256) ++ [UInt8.ofNat n]

/-- What stands in front of so many bytes. -/
def header (base length : Nat) : List UInt8 :=
  if length < 56 then [UInt8.ofNat (base + length)]
  else
    let size := minimalBytes 8 length
    UInt8.ofNat (base + 55 + size.length) :: size

/-- A natural number below 2^64: its bytes without zeros in front. -/
def ofNat (n : Nat) : Rlp := .bytes (minimalBytes 8 n)

mutual

/-- The bytes of an item. -/
def encode : Rlp → List UInt8
  | .bytes [b] => if b < 0x80 then [b] else [0x81, b]
  | .bytes bs => header 0x80 bs.length ++ bs
  | .list items =>
    let body := encodeAll items
    header 0xC0 body.length ++ body

/-- The bytes of some items. -/
def encodeAll : List Rlp → List UInt8
  | [] => []
  | i :: is => encode i ++ encodeAll is

end

end Rlp

end GuardedCalls
