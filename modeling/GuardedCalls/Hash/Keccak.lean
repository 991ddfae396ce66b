/-
GuardedCalls.Hash.Keccak — the Keccak hash of 256 bits.

The state is 25 words of 64 bits, the word of column `x` and row `y` at
place `x + 5 y`.

* `permute` — the permutation of the state: 24 rounds of mixing columns
  (`theta`), turning and moving words (`rhoPi`), mixing rows (`chi`) and
  adding a constant.
* `keccak256` — the 32 bytes of the hash: padded blocks of 136 bytes are
  added to the state in turn, with a permutation after each.
-/

namespace GuardedCalls.Hash

/-- The state of the permutation. -/
abbrev KeccakState := Vector UInt64 25

namespace KeccakState

/-- The word of a column and a row, both modulo five. -/
def cell (s : KeccakState) (x y : Nat) : UInt64 := s[x % 5 + 5 * (y % 5)]

/-- The state made of a word for each column and row. -/
def build (f : Nat → Nat → UInt64) : KeccakState :=
  Vector.ofFn fun i => f (i.val % 5) (i.val / 5)

end KeccakState

/-- A word turned left by some bits. -/
def turnLeft (w : UInt64) (bits : Nat) : UInt64 :=
  (w <<< UInt64.ofNat bits) ||| (w >>> UInt64.ofNat (64 - bits))

/-- How far each word is turned, by place. -/
def turns : Vector Nat 25 :=
  #v[0, 1, 62, 28, 27,
    36, 44, 6, 55, 20,
    3, 10, 43, 25, 39,
    41, 45, 15, 21, 8,
    18, 2, 61, 56, 14]

/-- The constants of the rounds. -/
def roundConstants : List UInt64 :=
  [0x0000000000000001, 0x0000000000008082, 0x800000000000808A, 0x8000000080008000,
   0x000000000000808B, 0x0000000080000001, 0x8000000080008081, 0x8000000000008009,
   0x000000000000008A, 0x0000000000000088, 0x0000000080008009, 0x000000008000000A,
   0x000000008000808B, 0x800000000000008B, 0x8000000000008089, 0x8000000000008003,
   0x8000000000008002, 0x8000000000000080, 0x000000000000800A, 0x800000008000000A,
   0x8000000080008081, 0x8000000000008080, 0x0000000080000001, 0x8000000080008008]

/-- Adds to each word the parities of the column before it and of the
column behind it, the latter turned by one bit. -/
def theta (s : KeccakState) : KeccakState :=
  let parity : Vector UInt64 5 := Vector.ofFn fun x =>
    s.cell x 0 ^^^ s.cell x 1 ^^^ s.cell x 2 ^^^ s.cell x 3 ^^^ s.cell x 4
  KeccakState.build fun x y =>
    s.cell x y ^^^ parity[(x + 4) % 5] ^^^ turnLeft parity[(x + 1) % 5] 1

/-- Turns each word and moves it to its new place. -/
def rhoPi (s : KeccakState) : KeccakState :=
  KeccakState.build fun x y =>
    let place := (x + 3 * y) % 5 + 5 * (x % 5)
    turnLeft s[place] turns[place]

/-- Adds to each word the next but one of its row where the next one is
clear. -/
def chi (s : KeccakState) : KeccakState :=
  KeccakState.build fun x y => s.cell x y ^^^ (~~~(s.cell (x + 1) y) &&& s.cell (x + 2) y)

/-- One round. -/
def round (s : KeccakState) (constant : UInt64) : KeccakState :=
  let s := chi (rhoPi (theta s))
  s.set 0 (s[0] ^^^ constant)

/-- The permutation of the state. -/
def permute (s : KeccakState) : KeccakState := roundConstants.foldl round s

/-- How many bytes a block has. -/
def blockSize : Nat := 136

/-- What fills a message up to whole blocks. -/
def padding (length : Nat) : List UInt8 :=
  match blockSize - length % blockSize with
  | 1 => [0x81]
  | n => 0x01 :: List.replicate (n - 2) 0 ++ [0x80]

/-- The word of eight bytes, the lowest first. -/
def wordOfBytes (bytes : List UInt8) : UInt64 :=
  bytes.foldr (fun b w => (w <<< 8) ||| b.toUInt64) 0

/-- The eight bytes of a word, the lowest first. -/
def bytesOfWord (w : UInt64) : List UInt8 :=
  (List.range 8).map fun i => (w >>> UInt64.ofNat (8 * i)).toUInt8

/-- Adds a block to the state. -/
def addBlock (s : KeccakState) (block : List UInt8) : KeccakState :=
  Vector.ofFn fun i =>
    if i.val < 17 then s[i] ^^^ wordOfBytes ((block.drop (8 * i.val)).take 8) else s[i]

/-- Adds so many blocks, with a permutation after each. -/
def absorb : Nat → KeccakState → List UInt8 → KeccakState
  | 0, s, _ => s
  | n + 1, s, bytes =>
    absorb n (permute (addBlock s (bytes.take blockSize))) (bytes.drop blockSize)

/-- The hash of a message. -/
def keccak256 (message : List UInt8) : List UInt8 :=
  let padded := message ++ padding message.length
  let s := absorb (padded.length / blockSize) (Vector.replicate 25 0) padded
  (s.toList.take 4).flatMap bytesOfWord

end GuardedCalls.Hash
