/-
GuardedCalls.Random.Draw — draws from a stream of random words.

* `Draw` — a draw of something, which moves a stream on.
* `word`, `word64`, `word256` — words of three sizes, built from the next
  words of the stream, the least significant first.
* `bytes`, `unit` — bytes, and a number from zero up to one.
* `untilAccepted` — draws again until a draw is accepted. Where more draws in
  a row are refused than the stream has patience for, there is a last resort,
  so that every draw ends; how much patience that is stays open.
* `upTo` — a number from zero to a span; `index`, `index32` and
  `percentage` — a number below a count.

Each refusal is a function of the word alone (`upTo?`, `scaled?`): what a
draw can give and how often is a question about words, not about streams.
-/
import GuardedCalls.Random.Stream
import GuardedCalls.Word

namespace GuardedCalls.Random

/-- A draw from a stream. -/
abbrev Draw := StateM Stream

/-! ## Words -/

/-- The next word. -/
def word : Draw UInt32 := fun s => s.next

/-- Two words as one, the low one first. -/
def word64 : Draw UInt64 := do
  let low ← word
  let high ← word
  return low.toUInt64 ||| (high.toUInt64 <<< 32)

/-- Four 64-bit words as one, the lowest first. -/
def word256 : Draw Word := do
  let a ← word64
  let b ← word64
  let c ← word64
  let d ← word64
  return BitVec.ofNat 256
    (a.toNat + 2 ^ 64 * (b.toNat + 2 ^ 64 * (c.toNat + 2 ^ 64 * d.toNat)))

/-- As many draws as asked for, in order. -/
def times {m : Type → Type} [Monad m] {α : Type} (draw : m α) : Nat → m (List α)
  | 0 => pure []
  | n + 1 => do
    let a ← draw
    let as ← times draw n
    return a :: as

/-- The four bytes of a word, the lowest first. -/
def wordBytes (w : UInt32) : List UInt8 :=
  [w.toUInt8, (w >>> 8).toUInt8, (w >>> 16).toUInt8, (w >>> 24).toUInt8]

/-- Some bytes: those of as many words as needed, without the bytes of
the last word that are left over. -/
def bytes (count : Nat) : Draw (List UInt8) := do
  let words ← times word ((count + 3) / 4)
  return (words.flatMap wordBytes).take count

/-- A multiple of 2⁻⁵³ from zero up to, but not including, one. -/
def unit : Draw Float := do
  let w ← word64
  return (w >>> 11).toFloat / 9007199254740992

/-! ## Drawing until a draw is accepted -/

/-- Draws until a draw is accepted, or so many are refused. The one after
those is taken as `lastResort` says. -/
def acceptedWithin {α β : Type} (draw : Draw α) (accept? : α → Option β) (lastResort : α → β) :
    Nat → Draw β
  | 0 => do return lastResort (← draw)
  | fuel + 1 => do
    let a ← draw
    match accept? a with
    | some b => return b
    | none => acceptedWithin draw accept? lastResort fuel

/-- Draws until a draw is accepted. More refusals than the stream has patience
for bring the last resort. -/
def untilAccepted {α β : Type} (draw : Draw α) (accept? : α → Option β) (lastResort : α → β) :
    Draw β := do
  acceptedWithin draw accept? lastResort ((← get).patience + 1)

/-! ## Numbers up to a span -/

/-- How many binary digits a number has. -/
def bitLength (n : Nat) : Nat := if n = 0 then 0 else n.log2 + 1

/-- The low bits of a word, as many as the span has, unless they exceed
it. -/
def upTo? (span : Nat) (w : Word) : Option Nat :=
  let low := w.toNat % 2 ^ bitLength span
  if low ≤ span then some low else none

/-- A number from zero to a span below 2^256. -/
def upTo (span : Nat) : Draw Nat :=
  untilAccepted word256 (upTo? span) fun w => w.toNat % (span + 1)

/-! ## Numbers below a count

A word of so many bits is scaled by the count; the high part of the
product is the number and the low part, at most `zone`, decides whether
it is taken. -/

/-- The number that a word scales to, unless the low part of the product
exceeds the zone. -/
def scaled? (bits count zone : Nat) (w : Nat) : Option Nat :=
  let product := w * count
  if product % 2 ^ bits ≤ zone then some (product / 2 ^ bits) else none

/-- The zone of a count, shifted up to the full width. -/
def shiftedZone (bits count : Nat) : Nat := count * 2 ^ (bits - bitLength count) - 1

/-- The widest zone that favours no number. -/
def exactZone (bits count : Nat) : Nat := 2 ^ bits - 1 - (2 ^ bits - count) % count

/-- A number below a count, from a 64-bit word. -/
def index (count : Nat) : Draw Nat :=
  untilAccepted word64 (fun w => scaled? 64 count (shiftedZone 64 count) w.toNat)
    fun w => w.toNat * count / 2 ^ 64

/-- A number below a count, from a 32-bit word. -/
def index32 (count : Nat) : Draw Nat :=
  untilAccepted word (fun w => scaled? 32 count (shiftedZone 32 count) w.toNat)
    fun w => w.toNat * count / 2 ^ 32

/-- A number below a hundred. -/
def percentage : Draw Nat :=
  untilAccepted word (fun w => scaled? 32 100 (exactZone 32 100) w.toNat)
    fun w => w.toNat * 100 / 2 ^ 32

end GuardedCalls.Random
