/-
GuardedCalls.Random.Stream — a stream of random words, and how far it has
been read.

A stream is made of blocks of sixteen words. The block being read is kept
ready, and an invariant says that it is the right one, so nothing about a
stream depends on when blocks are computed. With the words comes the number
of refusals after which a draw gives up, which every draw leaves as it is.

* `Stream.ofBlocks` — the stream of a family of blocks;
  `Stream.ofSeed` — the stream of a seed.
* `Stream.word` — the words by their place.
* `Stream.next` — the next word, and the stream after it.

Main statements: `next_fst` and `position_next` say that reading gives
the words in order, `blocks_next` that it changes no word.
-/
import GuardedCalls.Random.ChaCha

namespace GuardedCalls.Random

/-- Random words, read up to a position. -/
structure Stream where
  /-- The words, in blocks of sixteen. -/
  blocks : Nat → Vector UInt32 16
  /-- How many words have been read. -/
  position : Nat
  /-- The block of the next word. -/
  ready : Vector UInt32 16
  /-- It is the block that the position falls in. -/
  ready_eq : ready = blocks (position / 16)
  /-- How many words in a row may be refused. -/
  patience : Nat

namespace Stream

/-- The stream of a family of blocks, not read yet. -/
def ofBlocks (patience : Nat) (blocks : Nat → Vector UInt32 16) : Stream :=
  ⟨blocks, 0, blocks 0, rfl, patience⟩

/-- More refusals than ever come: each of them has a chance of one half at
most. -/
def amplePatience : Nat := 4095

/-- The stream of a seed. -/
def ofSeed (seed : UInt64) : Stream :=
  let key := ChaCha.keyOfSeed seed
  ofBlocks amplePatience fun n => ChaCha.block key n

/-- The word at a place of the stream. -/
def word (s : Stream) (i : Nat) : UInt32 := (s.blocks (i / 16))[i % 16]

/-- The next word, and the stream after it. -/
def next (s : Stream) : UInt32 × Stream :=
  let word := s.ready[s.position % 16]
  if h : (s.position + 1) % 16 = 0 then
    (word, { s with
      position := s.position + 1
      ready := s.blocks ((s.position + 1) / 16)
      ready_eq := rfl })
  else
    (word, { s with
      position := s.position + 1
      ready_eq := by rw [s.ready_eq]; congr 1; omega })

/-- Reading gives the word at the position. -/
theorem next_fst (s : Stream) : s.next.1 = s.word s.position := by
  unfold next word
  split <;> simp [s.ready_eq]

/-- Reading moves on by one word. -/
theorem position_next (s : Stream) : s.next.2.position = s.position + 1 := by
  unfold next
  split <;> rfl

/-- Reading changes no word. -/
theorem blocks_next (s : Stream) : s.next.2.blocks = s.blocks := by
  unfold next
  split <;> rfl

end Stream

end GuardedCalls.Random
