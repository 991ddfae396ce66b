/-
GuardedCalls.Space.Draw — values of a space at random.

* `Sampling` — the law of lengths, and how often an excluded number is
  drawn again.
* `Space.draw` — a value. Items are drawn from left to right;
  numbers read their bounds anew each time.
-/
import GuardedCalls.Domain.Draw
import GuardedCalls.Random.Length
import GuardedCalls.Space

namespace GuardedCalls

/-- How values are drawn. -/
structure Sampling where
  /-- How long bytes, texts and arrays are. -/
  lengths : Random.Lengths
  /-- How often an excluded number is drawn again. -/
  attempts : Nat
  deriving DecidableEq, Repr

/-- The characters of drawn texts. -/
def printable : List Char :=
  "0123456789abcdefghijklmnopqrstuvwxyzABCDEFGHIJKLMNOPQRSTUVWXYZ".toList ++
  "!\"#$%&'()*+,-./:;<=>?@[\\]^_`\x7b|\x7d~ \t\n\r\x0b\x0c".toList

/-- A character of drawn texts. -/
def printableChar : Random.Draw Char := do
  return printable.getD (← Random.index printable.length) ' '

namespace Space

variable {σ : Type}

mutual

/-- A value. -/
def draw (view : StateView σ) (how : Sampling) :
    Space → EStateM ConstrainError (World σ) AbiValue
  | .number type domain => do
    let s ← domain.draw view how.attempts
    match type.value? s with
    | some v => return v
    | none => throw (.empty (.unfit s (.number type)))
  | .fixedBytes size => do
    let bs ← World.draw (Random.bytes size)
    return .fixedBytes (Word.ofBytes (bs ++ List.replicate (32 - size) 0)) size
  | .function => do
    let bs ← World.draw (Random.bytes 24)
    return .function (BitVec.ofNat 192 (ofBigEndian bs))
  | .bytes => do
    let length ← World.draw how.lengths.draw
    return .bytes (← World.draw (Random.bytes length))
  | .string => do
    let length ← World.draw how.lengths.draw
    return .string (String.ofList (← World.draw (Random.times printableChar length)))
  | .fixedArray element length => do
    return .fixedArray (← Random.times (draw view how element) length)
  | .array element => do
    let length ← World.draw how.lengths.draw
    return .array (← Random.times (draw view how element) length)
  | .tuple items => do
    return .tuple (← drawAll view how items)

/-- A value of each space. -/
def drawAll (view : StateView σ) (how : Sampling) :
    List Space → EStateM ConstrainError (World σ) (List AbiValue)
  | [] => return []
  | s :: rest => do
    let v ← draw view how s
    let vs ← drawAll view how rest
    return v :: vs

end

end Space

end GuardedCalls
