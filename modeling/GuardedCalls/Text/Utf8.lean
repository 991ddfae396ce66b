/-
GuardedCalls.Text.Utf8 — text as UTF-8 bytes and back.

* `encode` — the bytes of a list of characters.
* `scan` — reads bytes one at a time into characters and `none`s. Each
  `none` stands for one longest run of bytes that begins a character and
  is then broken off, or for one byte that begins none.
* `decode?` — the text of bytes that hold nothing but characters.
* `decodeLossy` — the text with U+FFFD in each broken place.

The reader carries the character it is in the middle of (`Partial`), so
it is one recursion over the bytes: a byte that breaks a character off
is read again as the beginning of the next one.
-/

namespace GuardedCalls.Text.Utf8

/-- The bytes of a list of characters. -/
def encode (cs : List Char) : List UInt8 :=
  cs.flatMap String.utf8EncodeChar

/-- The bytes of a text. -/
def encodeText (text : String) : List UInt8 := encode text.toList

/-- A character that has begun: how many bytes are missing, between which
bounds the next one must lie, and the bits read so far. -/
structure Partial where
  /-- How many bytes are missing; at least one. -/
  missing : Nat
  /-- The least next byte. -/
  low : UInt8
  /-- The greatest next byte. -/
  high : UInt8
  /-- The bits read so far. -/
  bits : Nat

/-- What one byte at the beginning of a character does: it is a character
of its own, begins a longer one, or is broken. -/
inductive Beginning
  /-- A character of one byte. -/
  | whole (c : Char)
  /-- The first byte of a longer character. -/
  | first (p : Partial)
  /-- No character begins with this byte. -/
  | broken

/-- Reads the first byte of a character. The bounds of the second byte
keep out overlong forms, surrogates and numbers above U+10FFFF. -/
def start (b : UInt8) : Beginning :=
  if b < 0x80 then .whole (Char.ofNat b.toNat)
  else if b < 0xC2 then .broken
  else if b < 0xE0 then .first ⟨1, 0x80, 0xBF, b.toNat % 32⟩
  else if b = 0xE0 then .first ⟨2, 0xA0, 0xBF, 0⟩
  else if b = 0xED then .first ⟨2, 0x80, 0x9F, 13⟩
  else if b < 0xF0 then .first ⟨2, 0x80, 0xBF, b.toNat % 16⟩
  else if b = 0xF0 then .first ⟨3, 0x90, 0xBF, 0⟩
  else if b = 0xF4 then .first ⟨3, 0x80, 0x8F, 4⟩
  else if b < 0xF4 then .first ⟨3, 0x80, 0xBF, b.toNat % 8⟩
  else .broken

/-- Reads bytes, after a character that has begun or at the beginning of
one. -/
def scan : Option Partial → List UInt8 → List (Option Char)
  | none, [] => []
  | some _, [] => [none]
  | none, b :: bs =>
    match start b with
    | .whole c => some c :: scan none bs
    | .first p => scan (some p) bs
    | .broken => none :: scan none bs
  | some p, b :: bs =>
    if p.low ≤ b ∧ b ≤ p.high then
      let bits := p.bits * 64 + b.toNat % 64
      if p.missing ≤ 1 then some (Char.ofNat bits) :: scan none bs
      else scan (some ⟨p.missing - 1, 0x80, 0xBF, bits⟩) bs
    else
      match start b with
      | .whole c => none :: some c :: scan none bs
      | .first q => none :: scan (some q) bs
      | .broken => none :: none :: scan none bs

/-- The text of bytes that hold whole characters only. -/
def decode? (bytes : List UInt8) : Option String :=
  ((scan none bytes).mapM id).map String.ofList

/-- The text of any bytes, with U+FFFD in place of each broken run. -/
def decodeLossy (bytes : List UInt8) : String :=
  String.ofList ((scan none bytes).map fun c => c.getD '\uFFFD')

end GuardedCalls.Text.Utf8
