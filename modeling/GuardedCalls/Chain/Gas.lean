/-
GuardedCalls.Chain.Gas — what running code costs.

* `callGas`, `deployGas` — what a transaction costs before any code runs.
* `memoryGas` — what so many words of memory cost.
* `storeGas?`, `storeRefund` — what writing a word of storage costs, and
  what of that is given back. Both depend on what the word was before the
  transaction (`initial`), what it is now (`current`) and what it becomes
  (`new`).
* `gasUsed` — the gas that is paid for in the end.
-/
import GuardedCalls.Word

namespace GuardedCalls.Chain

/-- The words that so many bytes take. -/
def wordCount (bytes : Nat) : Nat := (bytes + 31) / 32

/-- The gas of the data of a transaction. -/
def dataGas (data : List UInt8) : Nat := data.foldl (fun gas b => gas + if b = 0 then 4 else 16) 0

/-- What a call costs before any code runs. -/
def callGas (data : List UInt8) : Nat := 21000 + dataGas data

/-- What a deployment costs before any code runs. -/
def deployGas (code : List UInt8) : Nat := 53000 + dataGas code + 2 * wordCount code.length

/-- What the deployed code costs. -/
def codeGas (code : List UInt8) : Nat := 200 * code.length

/-- What so many words of memory cost. -/
def memoryGas (words : Nat) : Nat := 3 * words + words * words / 512

/-- What reading a word of storage costs. -/
def loadGas (warm : Bool) : Nat := if warm then 100 else 2100

/-- What has to be left for a word of storage to be written. -/
def storeReserve : Nat := 2300

/-- What writing a word of storage costs. -/
def storeGas (initial current new : Word) (warm : Bool) : Nat :=
  (if warm then 0 else 2100) +
    (if new = current then 100
     else if initial = current then (if initial = 0 then 20000 else 2900)
     else 100)

/-- What of the cost of writing a word of storage is given back; below
zero, what was given back before is taken again. -/
def storeRefund (initial current new : Word) : Int :=
  if new = current then 0
  else if initial = current then (if initial ≠ 0 ∧ new = 0 then 4800 else 0)
  else
    (if initial = 0 then 0 else if current = 0 then -4800 else if new = 0 then 4800 else 0) +
      (if initial ≠ new then 0 else if initial = 0 then 19900 else 2800)

/-- The gas that is paid for: what was spent, less what is given back,
which is at most a fifth of it. -/
def gasUsed (spent : Nat) (refund : Int) : Nat := spent - min refund.toNat (spent / 5)

end GuardedCalls.Chain
