/-
GuardedCalls.Session.Call — whole calls at random.

* `DrawnCall` — a call with its sender, its money and its arguments;
  `DrawnCall.message` — the message that runs it and lasts.
* `Session.call` — a sender from the wallets, an amount of its money if the
  function takes any, and arguments whose bounds are read off the contract
  as that sender. Sender and amount are drawn, and the amount is taken off
  the balance, before the arguments; an argument that fails does not put
  it back.
-/
import GuardedCalls.Contract.View
import GuardedCalls.Session.Argument

namespace GuardedCalls

/-- A call with everything it needs. -/
structure DrawnCall where
  /-- Who sends it. -/
  sender : Address
  /-- The money it carries. -/
  value : Nat
  /-- The function that is called. -/
  selector : Selector
  /-- The arguments as call data. -/
  data : List UInt8
  /-- The gas it may use. -/
  gasLimit : Nat
  deriving DecidableEq, Repr

namespace DrawnCall

/-- The selector and the arguments. -/
def callData (c : DrawnCall) : List UInt8 := c.selector.bytes ++ c.data

/-- The message that runs the call and lasts. -/
def message (c : DrawnCall) : Message :=
  { caller := c.sender, value := c.value, data := c.data, commit := true, gasLimit := c.gasLimit }

end DrawnCall

namespace Session

variable {σ : Type}

/-- The sender of the next call. A new one is given its money by the
mint. -/
def sender (mint : Mint σ) : Step σ Address := fun (s, state) =>
  let ((sender, wallets), stream) := s.wallets.drawSender s.stream
  let state := match sender.credit with
    | some amount => mint sender.account amount state
    | none => state
  .ok sender.account ({ s with wallets, stream }, state)

/-- An amount that the sender can spend. -/
def spend (account : Address) : Step σ Nat := fun (s, state) =>
  let ((value, wallets), stream) := s.wallets.drawPayment account s.stream
  .ok value ({ s with wallets, stream }, state)

/-- A call of a function of the contract at `target`. -/
def call (environment : Environment σ) (mint : Mint σ) (contract : String)
    (f : ContractFunction) (target : Address) (interface : Interface) : Step σ DrawnCall := do
  let sender ← sender mint
  let value ← if f.isPayable then spend sender else pure 0
  let view : ContractView σ :=
    { environment, target, caller := sender, gasLimit := standardGasLimit
      getters := interface.getters }
  let values ← arguments view.read contract f
  let (session, _) ← get
  return {
    sender
    value
    selector := f.selector
    data := encodeAll values
    gasLimit := session.settings.gasLimit }

end Session

end GuardedCalls
