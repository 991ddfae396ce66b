/-
GuardedCalls.Message — calls of contracts, and what becomes of them.

* `Message` — who calls, with what, and whether it is to last.
* `Receipt` — how a call ended; `Receipt.result` — its bytes, or the
  failure as an error.
* `Environment` — runs calls on a state of its own; `Mint` — gives
  accounts money there.
* `MessageScript`, `scriptedMachine` — an environment that answers from a
  list of receipts and keeps a log of the calls.
-/
import GuardedCalls.Word

namespace GuardedCalls

/-- What a function of a contract is called by. -/
abbrev Selector := BitVec 32

/-- The four bytes of a selector. -/
def Selector.bytes (s : Selector) : List UInt8 := bigEndian 4 s.toNat

/-- A call of a function, less the function. -/
structure Message where
  /-- Who calls. -/
  caller : Address
  /-- How much money the call carries. -/
  value : Nat
  /-- The arguments as call data. -/
  data : List UInt8
  /-- What the call does is to last. -/
  commit : Bool
  /-- How much gas the call may use. -/
  gasLimit : Nat
  deriving DecidableEq, Repr

/-- A call without arguments or money that leaves no trace. -/
def Message.query (caller : Address) (gasLimit : Nat) : Message :=
  { caller, value := 0, data := [], commit := false, gasLimit }

/-- How a call ended. -/
inductive Verdict
  | success
  /-- The contract took everything back. -/
  | reverted
  /-- The machine stopped the call. -/
  | halted (reason : String)
  deriving DecidableEq, Repr

/-- The text of how a call ended. -/
def Verdict.text : Verdict → String
  | .success => "success"
  | .reverted => "reverted"
  | .halted reason => "halted " ++ reason

/-- What became of a call. -/
structure Receipt where
  /-- How it ended. -/
  status : Verdict
  /-- The gas it used. -/
  gasUsed : Nat
  /-- What it returned. -/
  output : List UInt8
  /-- The block it ran in. -/
  block : Nat
  deriving DecidableEq, Repr

/-- Why a call or a deployment has no result. -/
inductive CallError
  /-- It could not begin. -/
  | rejected (reason : String)
  /-- The contract took everything back. -/
  | reverted (gasUsed : Nat) (output : List UInt8)
  /-- The machine stopped it. -/
  | halted (gasUsed : Nat) (reason : String)
  /-- The deployment gave no address. -/
  | noCreatedAddress
  /-- The arguments could not be encoded. -/
  | encoding (reason : String)
  deriving DecidableEq, Repr

/-- The wording of an error. -/
def CallError.message : CallError → String
  | .rejected reason => "transaction rejected by the VM: " ++ reason
  | .reverted _ _ => "call reverted"
  | .halted _ reason => "call halted: " ++ reason
  | .noCreatedAddress => "contract creation returned no address"
  | .encoding reason => "encoding failed: " ++ reason

namespace Receipt

/-- The call did what it should. -/
def succeeded (r : Receipt) : Bool := r.status = .success

/-- What the call returned, or its failure as an error. -/
def result (r : Receipt) : Except CallError (List UInt8) :=
  match r.status with
  | .success => .ok r.output
  | .reverted => .error (.reverted r.gasUsed r.output)
  | .halted reason => .error (.halted r.gasUsed reason)

end Receipt

/-- Runs calls of a function of a contract on a state. -/
abbrev Environment (σ : Type) :=
  Address → Selector → Message → EStateM CallError σ Receipt

/-- Gives an account an amount of money. -/
abbrev Mint (σ : Type) := Address → Nat → σ → σ

/-- A call of a function of a contract. -/
structure SentMessage where
  target : Address
  selector : Selector
  message : Message
  deriving DecidableEq, Repr

/-- Receipts of calls to come, and a log of the calls. -/
structure MessageScript where
  /-- The receipts still to come; the last one stays. -/
  receipts : List (Except CallError Receipt)
  /-- The calls that were made, the latest first. -/
  made : List SentMessage

/-- The calls that were made, in order. -/
def MessageScript.log (s : MessageScript) : List SentMessage := s.made.reverse

/-- The environment that answers from a script. A script without receipts
rejects every call. -/
def scriptedMachine : Environment MessageScript := fun target selector message s =>
  let s := { s with made := ⟨target, selector, message⟩ :: s.made }
  match s.receipts with
  | [] => .error (.rejected "no reply") s
  | receipt :: rest =>
    let s := if rest.isEmpty then s else { s with receipts := rest }
    match receipt with
    | .ok o => .ok o s
    | .error e => .error e s

end GuardedCalls
