/-
GuardedCalls.Wallets — the accounts that calls are sent from.

The wallets keep the accounts in the order in which they were opened and, for
each of them, the money that has not been spent as call value yet.

* `Wallets.drawSender` — who sends the next call: with some chance, and
  always if there is nobody, a new account; else a known one.
* `Wallets.drawPayment` — an amount that a sender can spend; it is taken
  off its balance.
-/
import GuardedCalls.Random.Draw
import GuardedCalls.Table

namespace GuardedCalls

open GuardedCalls.Random

/-- Accounts that calls are sent from. -/
structure Wallets where
  /-- The accounts, in the order in which they were opened. -/
  accounts : List Address
  /-- What each account can still spend. -/
  balances : Table Address Nat
  /-- How often, in percent, a sender is new. -/
  newAccountPercent : Nat
  /-- The largest balance of a new account. -/
  maxBalance : Nat
  deriving DecidableEq, Repr

/-- Who sends a call, and how much money the account was opened with if
it is new. -/
structure Sender where
  account : Address
  credit : Option Nat
  deriving DecidableEq, Repr

namespace Wallets

/-- No accounts. A percentage above a hundred counts as a
hundred. -/
def empty (newAccountPercent maxBalance : Nat) : Wallets :=
  ⟨[], [], min newAccountPercent 100, maxBalance⟩

/-- What an account can still spend; nothing if it is not known. -/
def balance (w : Wallets) (account : Address) : Nat := (w.balances.get? account).getD 0

/-! ## New accounts -/

/-- An address: the low bytes of twenty words. -/
def drawAddress : Draw Address := do
  let words ← times word 20
  return Address.ofBytes (words.map (·.toUInt8))

/-- The address can be opened: it is not zero and has no balance yet. -/
def isFresh (w : Wallets) (account : Address) : Bool :=
  account ≠ 0 ∧ w.balances.get? account = none

/-- The least address that can be opened. One of the first so many is, if
the wallets do not hold them all. -/
def leastFresh? (w : Wallets) : Option Address :=
  (List.range (w.balances.length + 1)).findSome? fun i =>
    let account := BitVec.ofNat 160 (i + 1)
    if w.isFresh account then some account else none

/-- An address that can be opened, if there is one. -/
def drawFresh (w : Wallets) : Draw (Option Address) :=
  untilAccepted drawAddress (fun a => if w.isFresh a then some (some a) else none)
    fun _ => w.leastFresh?

/-- Opens an account with a random balance. -/
def openAccount (w : Wallets) (account : Address) : Draw (Sender × Wallets) := do
  let balance ← upTo w.maxBalance
  return (⟨account, some balance⟩, { w with
    accounts := w.accounts ++ [account]
    balances := w.balances.put account balance })

/-! ## Senders and values -/

/-- A known account. -/
def chooseKnown (w : Wallets) : Draw (Sender × Wallets) := do
  let i ← index32 w.accounts.length
  return (⟨w.accounts.getD i 0, none⟩, w)

/-- Whether the next sender is a new account. Without accounts it is, and
nothing is drawn. -/
def drawIsNew (w : Wallets) : Draw Bool := do
  if w.accounts.isEmpty then return true
  else return decide ((← percentage) < w.newAccountPercent)

/-- Who sends the next call. Wallets that hold every address open no
more. -/
def drawSender (w : Wallets) : Draw (Sender × Wallets) := do
  if ← w.drawIsNew then
    match ← w.drawFresh with
    | some account => w.openAccount account
    | none => w.chooseKnown
  else w.chooseKnown

/-- An amount that an account can spend, taken off its balance. For an
account that is not known it is zero, without a draw. -/
def drawPayment (w : Wallets) (account : Address) : Draw (Nat × Wallets) := do
  match w.balances.get? account with
  | none => return (0, w)
  | some balance =>
    let value ← upTo balance
    return (value, { w with balances := w.balances.put account (balance - value) })

end Wallets

end GuardedCalls
