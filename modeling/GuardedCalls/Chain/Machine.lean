/-
GuardedCalls.Chain.Machine — the machine that runs the code of a contract.

The machine has a stack of at most 1024 words, the top one first, memory
that grows by words, storage, and gas. It knows the instructions that
small contracts are made of; any other byte is no instruction.

* `Machine.step` — one instruction. Each one that does not end the run
  costs gas, so the gas bounds the length of a run.
* `Machine.run` — a run from the first instruction to its ending.
* `Ending` — how a run ends: it stops, takes everything back, or is
  halted.
-/
import GuardedCalls.Chain.Gas
import GuardedCalls.Table

namespace GuardedCalls.Chain

/-! ## Endings -/

/-- What gas ran out for. -/
inductive Shortage
  /-- An instruction. -/
  | basic
  /-- Memory. -/
  | memory
  /-- An operand beyond 64 bits. -/
  | operand
  deriving DecidableEq, Repr

/-- Why the machine stops a run. -/
inductive Halt
  | outOfGas (shortage : Shortage)
  | stackUnderflow
  | stackOverflow
  /-- A jump to a place that is no jump target. -/
  | invalidJump
  /-- A byte that is no instruction. -/
  | unknownInstruction
  /-- The instruction that is invalid by design. -/
  | invalidInstruction
  /-- The receiver has too much money for more. -/
  | overflowPayment
  /-- The new contract has an address that is taken. -/
  | addressTaken
  /-- The code of the new contract is too long, or begins with a byte that
  no code begins with. -/
  | badCode
  deriving DecidableEq, Repr

/-- The name of a reason. -/
def Halt.name : Halt → String
  | .outOfGas .basic => "OutOfGas(Basic)"
  | .outOfGas .memory => "OutOfGas(Memory)"
  | .outOfGas .operand => "OutOfGas(InvalidOperand)"
  | .stackUnderflow => "StackUnderflow"
  | .stackOverflow => "StackOverflow"
  | .invalidJump => "InvalidJump"
  | .unknownInstruction => "OpcodeNotFound"
  | .invalidInstruction => "InvalidFEOpcode"
  | .overflowPayment => "OverflowPayment"
  | .addressTaken => "CreateCollision"
  | .badCode => "CreateContractSizeLimit"

/-! ## The machine -/

/-- What a run is given. -/
structure Context where
  /-- The code. -/
  code : Array UInt8
  /-- The places in it that can be jumped to. -/
  targets : List Nat
  /-- The call data. -/
  data : Array UInt8
  caller : Address
  value : Nat
  block : Nat
  timestamp : Nat
  /-- The storage before the run. -/
  initial : Table Word Word

/-- What a run moves on. -/
structure Machine where
  /-- The place of the next instruction. -/
  place : Nat
  /-- The stack, the top first. -/
  stack : List Word
  /-- The memory, in whole words. -/
  memory : Array UInt8
  /-- The gas that is left. -/
  gas : Nat
  /-- The storage now. -/
  storage : Table Word Word
  /-- The words of storage that were touched. -/
  warm : List Word
  /-- What is given back in the end. -/
  refund : Int

/-- How a run ends. -/
inductive Ending
  /-- It did what it should; the machine keeps what is left. -/
  | stopped (machine : Machine) (output : List UInt8)
  /-- It took everything back. -/
  | reverted (gas : Nat) (output : List UInt8)
  /-- It was halted. -/
  | halted (reason : Halt)

/-- The places that can be jumped to: instructions of code 0x5B, where the
bytes that are pushed are no instructions. -/
def jumpTargets : Nat → Nat → List UInt8 → List Nat
  | _, _, [] => []
  | place, pushed + 1, _ :: rest => jumpTargets (place + 1) pushed rest
  | place, 0, b :: rest =>
    if b = 0x5B then place :: jumpTargets (place + 1) 0 rest
    else if 0x60 ≤ b ∧ b ≤ 0x7F then jumpTargets (place + 1) (b.toNat - 0x5F) rest
    else jumpTargets (place + 1) 0 rest

/-- The word of storage under a key; zero if there is none. -/
def storedWord (storage : Table Word Word) (key : Word) : Word := (storage.get? key).getD 0

/-- Bytes from a place on, with zeros behind the end. -/
def slice (bytes : Array UInt8) (place count : Nat) : List UInt8 :=
  (List.range count).map fun i => bytes.getD (place + i) 0

namespace Machine

/-- A step: the machine goes on, or ends. -/
abbrev Step (α : Type) := Except Ending α

/-- Halts the run. -/
def halt {α : Type} (reason : Halt) : Step α := .error (.halted reason)

/-- The most words the stack holds. -/
def stackLimit : Nat := 1024

/-- Pays for an instruction. -/
def pay (cost : Nat) (m : Machine) : Step Machine :=
  if m.gas < cost then halt (.outOfGas .basic) else .ok { m with gas := m.gas - cost }

/-- Takes the top of the stack. -/
def pop (m : Machine) : Step (Word × Machine) :=
  match m.stack with
  | [] => halt .stackUnderflow
  | w :: stack => .ok (w, { m with stack })

/-- Takes the two top words of the stack. -/
def pop2 (m : Machine) : Step (Word × Word × Machine) := do
  let (a, m) ← m.pop
  let (b, m) ← m.pop
  return (a, b, m)

/-- Puts a word on the stack. -/
def push (w : Word) (m : Machine) : Step Machine :=
  if stackLimit ≤ m.stack.length then halt .stackOverflow
  else .ok { m with stack := w :: m.stack }

/-- Goes to the next instruction. -/
def advance (m : Machine) : Machine := { m with place := m.place + 1 }

/-- An operand that is a size or a place in memory. -/
def size (w : Word) : Step Nat :=
  if w.toNat < 2 ^ 64 then .ok w.toNat else halt (.outOfGas .operand)

/-- Pays for memory up to a place, and makes it. -/
def grow (size : Nat) (m : Machine) : Step Machine :=
  if size ≤ m.memory.size then .ok m
  else
    let before := m.memory.size / 32
    let after := wordCount size
    let cost := memoryGas after - memoryGas before
    if m.gas < cost then halt (.outOfGas .memory)
    else .ok { m with
      gas := m.gas - cost
      memory := m.memory ++ Array.replicate (32 * (after - before)) 0 }

/-- Writes bytes to memory that has been made. -/
def write (place : Nat) (bytes : List UInt8) (m : Machine) : Machine :=
  { m with memory := (bytes.foldl (fun (memory, i) b => (memory.setIfInBounds i b, i + 1))
      (m.memory, place)).1 }

/-- The bytes of memory that two operands name, and the machine that has
made them. -/
def output (m : Machine) : Step (List UInt8 × Machine) := do
  let (place, count, m) ← m.pop2
  let count ← size count
  if count = 0 then return ([], m)
  else
    let place ← size place
    let m ← m.grow (place + count)
    return (slice m.memory place count, m)

/-- Pushes a word that costs two gas to know. -/
def pushKnown (w : Word) (m : Machine) : Step Machine := do
  return (← (← m.pay 2).push w).advance

/-- One instruction. -/
def step (c : Context) (m : Machine) : Step Machine :=
  let code := (c.code.getD m.place 0).toNat
  match code with
  | 0x00 => .error (.stopped m [])
  | 0x01 => do
    let (a, b, m) ← (← m.pay 3).pop2
    return (← m.push (a + b)).advance
  | 0x33 => m.pushKnown c.caller.toWord
  | 0x34 => m.pushKnown (BitVec.ofNat 256 c.value)
  | 0x35 => do
    let (place, m) ← (← m.pay 3).pop
    return (← m.push (Word.ofBytes (slice c.data place.toNat 32))).advance
  | 0x39 => do
    let (target, place, m) ← m.pop2
    let (count, m) ← m.pop
    let count ← size count
    let m ← m.pay (3 + 3 * wordCount count)
    if count = 0 then return m.advance
    else
      let target ← size target
      let m ← m.grow (target + count)
      return (m.write target (slice c.code place.toNat count)).advance
  | 0x42 => m.pushKnown (BitVec.ofNat 256 c.timestamp)
  | 0x43 => m.pushKnown (BitVec.ofNat 256 c.block)
  | 0x52 => do
    let (place, w, m) ← (← m.pay 3).pop2
    let place ← size place
    let m ← m.grow (place + 32)
    return (m.write place w.bytes).advance
  | 0x54 => do
    let (key, m) ← m.pop
    let m ← m.pay (loadGas (key ∈ m.warm))
    let m ← m.push (storedWord m.storage key)
    return { m with warm := key :: m.warm }.advance
  | 0x55 => do
    let (key, w, m) ← m.pop2
    if m.gas ≤ storeReserve then halt (.outOfGas .basic)
    else
      let initial := storedWord c.initial key
      let current := storedWord m.storage key
      let m ← m.pay (storeGas initial current w (key ∈ m.warm))
      return { m with
        storage := m.storage.put key w
        warm := key :: m.warm
        refund := m.refund + storeRefund initial current w }.advance
  | 0x56 => do
    let (target, m) ← (← m.pay 8).pop
    if target.toNat ∈ c.targets then return { m with place := target.toNat }
    else halt .invalidJump
  | 0x5B => do return (← m.pay 1).advance
  | 0x5F => m.pushKnown 0
  | 0xF3 => do
    let (output, m) ← m.output
    .error (.stopped m output)
  | 0xFD => do
    let (output, m) ← m.output
    .error (.reverted m.gas output)
  | 0xFE => halt .invalidInstruction
  | code =>
    if 0x60 ≤ code ∧ code ≤ 0x7F then do
      let count := code - 0x5F
      let m ← m.pay 3
      let m ← m.push (Word.ofBytes (slice c.code (m.place + 1) count))
      return { m with place := m.place + 1 + count }
    else if 0x80 ≤ code ∧ code ≤ 0x8F then do
      let m ← m.pay 3
      match m.stack[code - 0x80]? with
      | none => halt .stackUnderflow
      | some w => return (← m.push w).advance
    else halt .unknownInstruction

/-- The run from a machine on, for so many instructions. -/
def runFor (c : Context) : Nat → Machine → Ending
  | 0, _ => .halted (.outOfGas .basic)
  | fuel + 1, m =>
    match m.step c with
    | .ok m => runFor c fuel m
    | .error ending => ending

/-- A run with so much gas. -/
def run (c : Context) (gas : Nat) : Ending :=
  runFor c (gas + 1)
    { place := 0, stack := [], memory := #[], gas, storage := c.initial, warm := [], refund := 0 }

end Machine

end GuardedCalls.Chain
