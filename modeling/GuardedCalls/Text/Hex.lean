/-
GuardedCalls.Text.Hex — bytes in hexadecimal.

* `encode` — two lower-case digits a byte, the high one first.
* `decode?` — reads digits of either case; nothing if their number is odd
  or one is no digit.
* `text`, `ofText?` — the digits with `0x` in front; on reading it may be
  missing.
-/
import GuardedCalls.Text.Numeral

namespace GuardedCalls.Text.Hex

/-- The lower-case digit of a number below 16. -/
def digit (n : Nat) : Char :=
  if n < 10 then Char.ofNat (48 + n) else Char.ofNat (87 + n)

/-- The digits of bytes. -/
def encode (bytes : List UInt8) : List Char :=
  bytes.flatMap fun b => [digit (b.toNat / 16), digit (b.toNat % 16)]

/-- The text of bytes, with `0x` in front. -/
def text (bytes : List UInt8) : String := "0x" ++ String.ofList (encode bytes)

/-- The bytes of digits. -/
def decode? : List Char → Option (List UInt8)
  | [] => some []
  | [_] => none
  | a :: b :: rest => do
    let high ← hexDigit? a
    let low ← hexDigit? b
    let bytes ← decode? rest
    some (UInt8.ofNat (high * 16 + low) :: bytes)

/-- The bytes of a text. -/
def ofText? (s : String) : Option (List UInt8) :=
  match s.toList with
  | '0' :: 'x' :: cs => decode? cs
  | cs => decode? cs

end GuardedCalls.Text.Hex
