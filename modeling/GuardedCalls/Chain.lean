/-
GuardedCalls.Chain — accounts that hold money and run code, and time that
passes in blocks.

* `Chain.fund`, `Chain.credit`, `Chain.install` — change an account from
  outside; `Chain.advance` — lets blocks pass, twelve seconds each.
* `Chain.deploy` — runs code whose output becomes the code of a new
  account.
* `Chain.call` — runs the code of an account, or that of another one it
  names (`Chain.runningCode`). A call that is not to last leaves the chain
  as it was; one that is reverted or halted leaves only a trace of its
  caller's.
* `Chain.environment`, `Chain.mint` — the chain as what calls run on and
  what senders get their money from.
-/
import GuardedCalls.Chain.Machine
import GuardedCalls.Chain.Rlp
import GuardedCalls.Hash.Keccak
import GuardedCalls.Message

namespace GuardedCalls

namespace Chain

/-- An account. -/
structure Account where
  /-- Its money. -/
  balance : Nat
  /-- How many transactions it has sent. -/
  nonce : Nat
  /-- Its code. -/
  code : List UInt8
  /-- Its storage. -/
  storage : Table Word Word

/-- An account that nothing is known of. -/
def Account.blank : Account := ⟨0, 0, [], []⟩

/-- Why a transaction cannot begin. -/
inductive Refusal
  /-- The code that is to make a contract is too long. -/
  | codeTooLong
  /-- The gas does not cover what is paid beforehand. -/
  | gasLimit
  /-- The caller is a contract. -/
  | callerHasCode
  /-- The caller lacks money. -/
  | lackOfFunds (fee balance : Nat)
  deriving DecidableEq, Repr

/-- The wording of a refusal. -/
def Refusal.message : Refusal → String
  | .codeTooLong => "Transaction(CreateInitCodeSizeLimit)"
  | .gasLimit => "Transaction(CallGasCostMoreThanGasLimit)"
  | .callerHasCode => "Transaction(RejectCallerWithCode)"
  | .lackOfFunds fee balance =>
    "Transaction(LackOfFundForMaxFee \x7b fee: " ++ Nat.repr fee ++ ", balance: " ++
      Nat.repr balance ++ " \x7d)"

end Chain

/-- Accounts, and how far time has passed. -/
structure Chain where
  /-- The accounts that are known. -/
  accounts : Table Address Chain.Account
  /-- The number of the block. -/
  block : Nat
  /-- The seconds that have passed. -/
  timestamp : Nat

namespace Chain

/-- A chain without accounts, at its beginning. -/
def empty : Chain := ⟨[], 0, 0⟩

/-- The account at an address. -/
def account (c : Chain) (a : Address) : Account := (c.accounts.get? a).getD Account.blank

/-- The chain with another account at an address. -/
def withAccount (c : Chain) (a : Address) (account : Account) : Chain :=
  { c with accounts := c.accounts.put a account }

/-- The money of an account. -/
def balance (c : Chain) (a : Address) : Nat := (c.account a).balance

/-! ## Changes from outside -/

/-- Sets the money of an account. -/
def fund (c : Chain) (a : Address) (amount : Nat) : Chain :=
  c.withAccount a { c.account a with balance := amount }

/-- The most money that an account can have. -/
def maxBalance : Nat := 2 ^ 256 - 1

/-- Adds to the money of an account, up to the most it can have. -/
def credit (c : Chain) (a : Address) (amount : Nat) : Chain :=
  c.fund a (min (c.balance a + amount) maxBalance)

/-- Sets the code of an account. Its storage stays. -/
def install (c : Chain) (a : Address) (code : List UInt8) : Chain :=
  c.withAccount a { c.account a with code }

/-- The largest block number and timestamp. -/
def maxTime : Nat := 2 ^ 64 - 1

/-- The seconds between two blocks. -/
def blockTime : Nat := 12

/-- Lets blocks pass. Number and time stop at their largest values. -/
def advance (c : Chain) (blocks : Nat) : Chain :=
  { c with
    block := min (c.block + blocks) maxTime
    timestamp := min (c.timestamp + min (blocks * blockTime) maxTime) maxTime }

/-! ## Code -/

/-- The most bytes in the code of a contract. -/
def codeLimit : Nat := 0x6000

/-- The byte that no deployed code begins with: it marks code of another
kind. -/
def formatMark : UInt8 := 0xEF

/-- The account whose code runs in place of some code: such code is the
mark, a one and a zero, and the address of that account. -/
def delegate? (code : List UInt8) : Option Address :=
  if code.take 3 = [formatMark, 1, 0] ∧ code.length = 23 then some (Address.ofBytes (code.drop 3))
  else none

/-- The code that runs when an account is called. -/
def runningCode (c : Chain) (a : Address) : List UInt8 :=
  match delegate? (c.account a).code with
  | none => (c.account a).code
  | some other => (c.account other).code

/-! ## Transactions -/

/-- Checks that a transaction can begin. An account whose code is that of
another one may send transactions. -/
def checkBegin (c : Chain) (caller : Address) (value intrinsic gasLimit : Nat) :
    Except Refusal Unit :=
  if gasLimit < intrinsic then .error .gasLimit
  else if (c.account caller).code ≠ [] ∧ delegate? (c.account caller).code = none then
    .error .callerHasCode
  else if c.balance caller < value then .error (.lackOfFunds value (c.balance caller))
  else .ok ()

/-- Counts a transaction of an account. -/
def count (c : Chain) (a : Address) : Chain :=
  c.withAccount a { c.account a with nonce := (c.account a).nonce + 1 }

/-- Takes money off an account. -/
def pay (c : Chain) (a : Address) (amount : Nat) : Chain := c.fund a (c.balance a - amount)

/-- Hands money to an account, unless it had too much. -/
def hand? (c : Chain) (a : Address) (amount : Nat) : Option Chain :=
  if maxBalance < c.balance a + amount then none else some (c.fund a (c.balance a + amount))

/-- Runs code on a chain. -/
def execute (c : Chain) (code data : List UInt8) (storage : Table Word Word) (caller : Address)
    (value gas : Nat) : Ending :=
  Machine.run
    { code := code.toArray
      targets := jumpTargets 0 0 code
      data := data.toArray
      caller
      value
      block := c.block
      timestamp := c.timestamp
      initial := storage } gas

/-- How a call on a chain ends, and the chain after it. Money that the
target cannot hold is lost. -/
def runCall (c : Chain) (target : Address) (data : List UInt8) (caller : Address)
    (value gasLimit : Nat) : Verdict × Nat × List UInt8 × Chain :=
  let counted := c.count caller
  let paid := counted.pay caller value
  match paid.hand? target value with
  | none => (.halted Halt.overflowPayment.name, gasLimit, [], paid)
  | some moved =>
    let account := moved.account target
    match moved.execute (moved.runningCode target) data account.storage caller value
      (gasLimit - callGas data) with
    | .stopped m output =>
      (.success, gasUsed (gasLimit - m.gas) m.refund, output,
        moved.withAccount target { account with storage := m.storage })
    | .reverted gas output => (.reverted, gasLimit - gas, output, counted)
    | .halted reason => (.halted reason.name, gasLimit, [], counted)

/-- Runs the code of an account, with the selector and the data of a
message. -/
def call (target : Address) (selector : Selector) (m : Message) :
    EStateM CallError Chain Receipt := fun c =>
  let data := selector.bytes ++ m.data
  match c.checkBegin m.caller m.value (callGas data) m.gasLimit with
  | .error refusal => .error (.rejected refusal.message) c
  | .ok () =>
    let (status, gasUsed, output, after) := c.runCall target data m.caller m.value m.gasLimit
    .ok ⟨status, gasUsed, output, c.block⟩ (if m.commit then after else c)

/-- The address of the contract that an account creates with a
transaction of a number. -/
def createdAddress (creator : Address) (nonce : Nat) : Address :=
  Address.ofBytes
    ((Hash.keccak256 (Rlp.list [.bytes creator.bytes, Rlp.ofNat nonce]).encode).drop 12)

/-- Why bytes cannot become the code of a contract when so much gas is left,
if they cannot. -/
def codeFault? (code : List UInt8) (gas : Nat) : Option Halt :=
  if code.head? = some formatMark ∨ codeLimit < code.length then some .badCode
  else if gas < codeGas code then some (.outOfGas .basic)
  else none

/-- Runs code whose output becomes the code of a new account, and gives
its address. Code in the object format, which begins with the mark and a
zero, takes itself back before it runs. -/
def deploy (creator : Address) (code : List UInt8) (gasLimit : Nat) :
    EStateM CallError Chain Address := fun c =>
  if 2 * codeLimit < code.length then .error (.rejected Refusal.codeTooLong.message) c
  else match c.checkBegin creator 0 (deployGas code) gasLimit with
  | .error refusal => .error (.rejected refusal.message) c
  | .ok () =>
    let created := createdAddress creator (c.account creator).nonce
    let counted := c.count creator
    let before := counted.account created
    if code.take 2 = [formatMark, 0] then .error (.reverted (deployGas code) []) counted
    else if before.code ≠ [] ∨ before.nonce ≠ 0 then
      .error (.halted gasLimit Halt.addressTaken.name) counted
    else
      match counted.execute code [] [] creator 0 (gasLimit - deployGas code) with
      | .stopped m output =>
        match codeFault? output m.gas with
        | some reason => .error (.halted gasLimit reason.name) counted
        | none =>
          .ok created (counted.withAccount created
            { balance := before.balance, nonce := 1, code := output, storage := m.storage })
      | .reverted gas output => .error (.reverted (gasLimit - gas) output) counted
      | .halted reason => .error (.halted gasLimit reason.name) counted

/-- The chain as what calls run on. -/
def environment : Environment Chain := call

/-- The chain as what senders get their money from. -/
def mint : Mint Chain := fun a amount c => c.credit a amount

end Chain

end GuardedCalls
