/-
GuardedCalls.Random.ChaCha — the ChaCha keystream with twelve rounds.

* `block key n` — the sixteen words of block `n` under a key of eight
  words: six double rounds over the constants, the key and the counter,
  added to what they started from.
* `keyOfSeed` — the key that a 64-bit seed stands for: eight outputs of a
  permuted linear congruential generator.
-/
import GuardedCalls.Power

namespace GuardedCalls.Random

namespace ChaCha

/-- The sixteen words that a block is computed on. -/
abbrev State := Vector UInt32 16

/-- A word turned left by some bits. -/
def rotateLeft (w : UInt32) (bits : UInt32) : UInt32 := (w <<< bits) ||| (w >>> (32 - bits))

/-- Adds the second word to the first, and mixes the sum into the third,
turned left. -/
def mix (a b d : Fin 16) (bits : UInt32) (s : State) : State :=
  let sum := s[a] + s[b]
  let s := s.set a sum
  s.set d (rotateLeft (s[d] ^^^ sum) bits)

/-- The mixing of four words. -/
def quarterRound (a b c d : Fin 16) (s : State) : State :=
  mix c d b 7 (mix a b d 8 (mix c d b 12 (mix a b d 16 s)))

/-- Mixes the four columns, then the four diagonals. -/
def doubleRound (s : State) : State :=
  let columns := quarterRound 3 7 11 15 (quarterRound 2 6 10 14 (quarterRound 1 5 9 13
    (quarterRound 0 4 8 12 s)))
  quarterRound 3 4 9 14 (quarterRound 2 7 8 13 (quarterRound 1 6 11 12
    (quarterRound 0 5 10 15 columns)))

/-- What a block starts from: four constants, the key, the number of the
block as two words, and two zeros. -/
def start (key : Vector UInt32 8) (n : Nat) : State :=
  #v[0x61707865, 0x3320646e, 0x79622d32, 0x6b206574,
    key[0], key[1], key[2], key[3], key[4], key[5], key[6], key[7],
    UInt32.ofNat n, UInt32.ofNat (n / 2 ^ 32), 0, 0]

/-- The words of a block. -/
def block (key : Vector UInt32 8) (n : Nat) : State :=
  let s := start key n
  Vector.zipWith (· + ·) (Nat.repeat doubleRound 6 s) s

/-- The next state of the generator that spreads a seed over a key. -/
def nextSeed (state : UInt64) : UInt64 := state * 6364136223846793005 + 11634580027462260723

/-- The word that a state of that generator gives: its high bits, turned
right by its highest five. -/
def seedWord (state : UInt64) : UInt32 :=
  let word := (((state >>> 18) ^^^ state) >>> 27).toUInt32
  let turn := (state >>> 59).toUInt32
  (word >>> turn) ||| (word <<< ((32 - turn) % 32))

/-- The key that a seed stands for. -/
def keyOfSeed (seed : UInt64) : Vector UInt32 8 :=
  Vector.ofFn fun i => seedWord (Nat.repeat nextSeed (i.val + 1) seed)

end ChaCha

end GuardedCalls.Random
