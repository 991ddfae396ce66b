/-
GuardedCalls.Word — 256-bit words, account addresses and their bytes.

* `Word`, `Address` — numbers of 256 and of 160 bits.
* `bigEndian` — a number as so many bytes, the first one the most
  significant; `ofBigEndian` — the number of some bytes.
* `Word.bytes`, `Address.bytes` — the 32 and the 20 bytes.
-/
import GuardedCalls.Power

namespace GuardedCalls

/-- A number of 256 bits. -/
abbrev Word := BitVec 256

/-- The number of an account, of 160 bits. -/
abbrev Address := BitVec 160

/-- A number as `count` bytes, the most significant first. -/
def bigEndian (count n : Nat) : List UInt8 :=
  (List.range count).map fun i => UInt8.ofNat (n / 256 ^ (count - 1 - i))

/-- The number that bytes denote, the most significant first. -/
def ofBigEndian (bytes : List UInt8) : Nat :=
  bytes.foldl (fun n b => n * 256 + b.toNat) 0

/-- The 32 bytes of a word. -/
def Word.bytes (w : Word) : List UInt8 := bigEndian 32 w.toNat

/-- The word of at most 32 bytes. -/
def Word.ofBytes (bytes : List UInt8) : Word := BitVec.ofNat 256 (ofBigEndian bytes)

/-- The 20 bytes of an address. -/
def Address.bytes (a : Address) : List UInt8 := bigEndian 20 a.toNat

/-- The address of at most 20 bytes. -/
def Address.ofBytes (bytes : List UInt8) : Address := BitVec.ofNat 160 (ofBigEndian bytes)

/-- The address in the low bits of a word. -/
def Address.ofWord (w : Word) : Address := w.setWidth 160

/-- The word with an address in its low bits. -/
def Address.toWord (a : Address) : Word := a.setWidth 256

end GuardedCalls
