/-
GuardedCalls.Proofs.WalletTheorems — no money is made or lost in the wallets.

* `drawSender_cases`, `drawPayment_cases` — everything that a draw can do to
  wallets: open an account, choose a known one, pay from one, or nothing.
* `Ledger` — a session with the history of what was asked of its wallets: which
  accounts the mint gave money to, what was paid, and who sent.
* `Ledger.Balanced` — the books agree with the wallets. `Balanced.next` says that
  each request keeps them so, `balanced_after` that a whole run does.
* `funds_conserved` — what that comes to.
-/
import GuardedCalls.Proofs.DrawTheorems
import GuardedCalls.Session.Call

namespace GuardedCalls

open GuardedCalls.Random

/-! ## Draws -/

/-- A number below a count is below it. -/
theorem Random.index32_lt {count : Nat} (pos : 0 < count) (s : Stream) :
    (index32 count s).1 < count := by
  have scaled : ∀ w : UInt32, w.toNat * count / 2 ^ 32 < count := by
    intro w
    rw [Nat.div_lt_iff_lt_mul (Nat.two_pow_pos 32), Nat.mul_comm count]
    exact Nat.mul_lt_mul_of_pos_right w.toNat_lt pos
  refine untilAccepted_spec (· < count) (fun w n h => ?_) scaled s
  simp only [scaled?] at h
  split at h
  · exact Option.some.inj h ▸ scaled w
  · cases h

namespace Wallets

variable {w : Wallets}

theorem isFresh_iff {account : Address} :
    w.isFresh account = true ↔ account ≠ 0 ∧ w.balances.get? account = none := by
  simp [isFresh]

theorem isFresh_of_leastFresh? {account : Address} (h : w.leastFresh? = some account) :
    w.isFresh account = true := by
  obtain ⟨i, -, h⟩ := List.exists_of_findSome?_eq_some h
  dsimp only at h
  split at h
  · next fresh => exact Option.some.inj h ▸ fresh
  · cases h

/-- Empty wallets have an address left to open. -/
theorem balances_ne_nil_of_leastFresh? (h : w.leastFresh? = none) : w.balances ≠ [] := by
  intro empty
  have none := List.findSome?_eq_none_iff.1 h 0 (List.mem_range.2 (Nat.succ_pos _))
  have fresh : w.isFresh (BitVec.ofNat 160 1) = true :=
    isFresh_iff.2 ⟨by decide, by rw [empty]; rfl⟩
  simp [fresh] at none

/-- An address that was drawn can be opened; none is drawn only where there are
accounts. -/
theorem drawFresh_spec (w : Wallets) (s : Stream) :
    (∀ account, (w.drawFresh s).1 = some account → w.isFresh account = true) ∧
      ((w.drawFresh s).1 = none → w.balances ≠ []) := by
  refine untilAccepted_spec (fun drawn : Option Address =>
    (∀ account, drawn = some account → w.isFresh account = true) ∧
      (drawn = none → w.balances ≠ [])) (fun a drawn h => ?_) (fun _ => ?_) s
  · split at h
    · next fresh =>
      cases h
      exact ⟨fun account same => Option.some.inj same ▸ fresh, nofun⟩
    · cases h
  · exact ⟨fun _ => isFresh_of_leastFresh?, balances_ne_nil_of_leastFresh?⟩

/-- An account of some is chosen. -/
theorem chooseKnown_mem (some : w.accounts ≠ []) (s : Stream) :
    ∃ account ∈ w.accounts, (w.chooseKnown s).1 = (⟨account, none⟩, w) := by
  have inside := index32_lt (List.length_pos_of_ne_nil some) s
  rw [chooseKnown, bind_apply]
  generalize index32 w.accounts.length s = drawn at inside ⊢
  refine ⟨w.accounts[drawn.1], List.getElem_mem inside, ?_⟩
  rw [List.getD_eq_getElem?_getD, List.getElem?_eq_getElem inside]
  rfl

/-- An account is opened with an amount up to the largest one. -/
theorem openAccount_eq (w : Wallets) (account : Address) (s : Stream) :
    ∃ amount ≤ w.maxBalance, (w.openAccount account s).1 = (⟨account, some amount⟩, { w with
      accounts := w.accounts ++ [account]
      balances := w.balances.put account amount }) := by
  have most := upTo_le w.maxBalance s
  rw [openAccount, bind_apply]
  generalize upTo w.maxBalance s = drawn at most ⊢
  exact ⟨drawn.1, most, rfl⟩

/-- Who sends next: an account that is opened now and given some money, or one of
the known ones. -/
theorem drawSender_cases (w : Wallets) (known : w.balances ≠ [] → w.accounts ≠ []) (s : Stream) :
    (∃ account amount, account ≠ 0 ∧ w.balances.get? account = none ∧ amount ≤ w.maxBalance ∧
      (w.drawSender s).1 = (⟨account, some amount⟩, { w with
        accounts := w.accounts ++ [account]
        balances := w.balances.put account amount })) ∨
    ∃ account ∈ w.accounts, (w.drawSender s).1 = (⟨account, none⟩, w) := by
  have new_of_empty : w.accounts = [] → (w.drawIsNew s).1 = true := by
    intro empty
    rw [drawIsNew, empty]
    rfl
  rw [drawSender, bind_apply]
  generalize w.drawIsNew s = new at new_of_empty ⊢
  cases isNew : new.1 with
  | true =>
    obtain ⟨fresh, taken⟩ := w.drawFresh_spec new.2
    rw [if_pos rfl, bind_apply]
    generalize w.drawFresh new.2 = drawn at fresh taken ⊢
    cases candidate : drawn.1 with
    | some account =>
      obtain ⟨nonzero, unknown⟩ := isFresh_iff.1 (fresh account candidate)
      obtain ⟨amount, most, opened⟩ := w.openAccount_eq account drawn.2
      exact .inl ⟨account, amount, nonzero, unknown, most, opened⟩
    | none => exact .inr (chooseKnown_mem (known (taken candidate)) _)
  | false =>
    rw [if_neg Bool.false_ne_true]
    refine .inr (chooseKnown_mem (fun empty => ?_) _)
    rw [new_of_empty empty] at isNew
    cases isNew

/-- What is paid: nothing by an account that is not known, else no more than its
balance, and that much is taken off. -/
theorem drawPayment_cases (w : Wallets) (account : Address) (s : Stream) :
    (w.balances.get? account = none ∧ w.drawPayment account s = ((0, w), s)) ∨
    ∃ balance value, w.balances.get? account = some balance ∧ value ≤ balance ∧
      (w.drawPayment account s).1 =
        (value, { w with balances := w.balances.put account (balance - value) }) := by
  rw [drawPayment]
  cases found : w.balances.get? account with
  | none => exact .inl ⟨rfl, rfl⟩
  | some balance =>
    have most := upTo_le balance s
    simp only [bind_apply]
    generalize upTo balance s = drawn at most ⊢
    exact .inr ⟨balance, drawn.1, rfl, most, rfl⟩

end Wallets

/-! ## The books -/

namespace Wallets

/-- What wallets are asked for. -/
inductive Request
  /-- The sender of the next call. -/
  | sender
  /-- An amount that an account can spend, whatever account it is. -/
  | payment (account : Address)

end Wallets

/-- A session, and what has come of the requests for senders and payments so far,
each list in order. -/
structure Ledger where
  session : Session
  /-- The accounts that the mint gave money to, and how much. -/
  credits : List (Address × Nat)
  /-- The accounts that were asked to pay, and what they paid. -/
  payments : List (Address × Nat)
  /-- The senders. -/
  senders : List Address

namespace Ledger

/-- The wallets of the session. -/
abbrev wallets (l : Ledger) : Wallets := l.session.wallets

/-- The stream that they draw from. -/
abbrev stream (l : Ledger) : Stream := l.session.stream

/-- Empty wallets without a history, in any session. -/
def start (s : Session) (newAccountPercent maxBalance : Nat) : Ledger :=
  ⟨{ s with wallets := Wallets.empty newAccountPercent maxBalance }, [], [], []⟩

/-- A mint that keeps a record of what it gave. -/
def record : Mint (List (Address × Nat)) := fun account amount credits =>
  credits ++ [(account, amount)]

/-- What comes of a request. -/
def next (l : Ledger) : Wallets.Request → Ledger
  | .sender =>
    match Session.sender record (l.session, l.credits) with
    | .ok account (session, credits) =>
      { l with session, credits, senders := l.senders ++ [account] }
    | .error _ (session, credits) => { l with session, credits }
  | .payment account =>
    match Session.spend account (l.session, l.credits) with
    | .ok value (session, credits) =>
      { l with session, credits, payments := l.payments ++ [(account, value)] }
    | .error _ (session, credits) => { l with session, credits }

/-- What comes of requests in turn. -/
def after (l : Ledger) (requests : List Wallets.Request) : Ledger := requests.foldl next l

/-- What an account has paid in all. -/
def paid (l : Ledger) (account : Address) : Nat :=
  ((l.payments.filter (·.1 = account)).map (·.2)).sum

/-- The books agree with the wallets. -/
structure Balanced (maxBalance : Nat) (l : Ledger) : Prop where
  limit : l.wallets.maxBalance = maxBalance
  nodup : l.wallets.accounts.Nodup
  nonzero : 0 ∉ l.wallets.accounts
  tracked : ∀ a, a ∈ l.wallets.accounts ↔ (l.wallets.balances.get? a).isSome
  credited : l.credits.map (·.1) = l.wallets.accounts
  modest : ∀ c ∈ l.credits, c.2 ≤ maxBalance
  conserved : ∀ c ∈ l.credits, c.2 = l.wallets.balance c.1 + l.paid c.1
  unknown : ∀ a ∉ l.wallets.accounts, l.paid a = 0
  senders : ∀ a ∈ l.senders, a ∈ l.wallets.accounts

section Balanced

variable {maxBalance : Nat} {l : Ledger}

theorem Balanced.accounts_ne_nil (h : Balanced maxBalance l) (some : l.wallets.balances ≠ []) :
    l.wallets.accounts ≠ [] := by
  intro none
  obtain ⟨⟨a, amount⟩, rest, same⟩ := List.exists_cons_of_ne_nil some
  have known : a ∈ l.wallets.accounts := (h.tracked a).2 (by simp [same, Table.get?])
  rw [none] at known
  cases known

theorem get?_eq_none_iff (h : Balanced maxBalance l) {a : Address} :
    l.wallets.balances.get? a = none ↔ a ∉ l.wallets.accounts := by
  rw [h.tracked, Option.not_isSome_iff_eq_none]

/-- A new account is opened, given its money, and sends. -/
theorem Balanced.opened (h : Balanced maxBalance l) {account : Address} {amount : Nat}
    (nonzero : account ≠ 0) (new : account ∉ l.wallets.accounts) (most : amount ≤ maxBalance)
    (stream : Stream) : Balanced maxBalance
      { l with
        session := { l.session with
          wallets := { l.wallets with
            accounts := l.wallets.accounts ++ [account]
            balances := l.wallets.balances.put account amount }
          stream }
        credits := l.credits ++ [(account, amount)]
        senders := l.senders ++ [account] } where
  limit := h.limit
  nodup := List.nodup_append'.2 ⟨h.nodup, List.nodup_singleton account, by simpa using new⟩
  nonzero zero := (List.mem_append.1 zero).elim h.nonzero fun last =>
    nonzero (List.mem_singleton.1 last).symm
  tracked a := by
    by_cases own : a = account
    · simp [own]
    · simp [own, h.tracked a, Table.get?_put_of_ne _ _ own]
  credited := by simp [h.credited]
  modest := List.forall_mem_append.2 ⟨h.modest, List.forall_mem_singleton.2 most⟩
  conserved := by
    refine List.forall_mem_append.2 ⟨fun c hc => ?_, List.forall_mem_singleton.2 ?_⟩
    · have old : c.1 ∈ l.wallets.accounts := h.credited ▸ List.mem_map_of_mem hc
      have other : c.1 ≠ account := fun same => new (same ▸ old)
      rw [h.conserved c hc]
      simp [Wallets.balance, Table.get?_put_of_ne _ _ other, paid]
    · -- Whatever the account was asked for before it was opened, it paid nothing.
      have before := h.unknown account new
      simp only [paid] at before
      simp [Wallets.balance, paid, before]
  unknown a ha := h.unknown a fun old => ha (List.mem_append_left _ old)
  senders := List.forall_mem_append.2
    ⟨fun a ha => List.mem_append_left _ (h.senders a ha), by simp⟩

/-- A known account sends. -/
theorem Balanced.sent (h : Balanced maxBalance l) {account : Address}
    (known : account ∈ l.wallets.accounts) (stream : Stream) :
    Balanced maxBalance
      { l with session := { l.session with stream }, senders := l.senders ++ [account] } :=
  { h with senders := List.forall_mem_append.2 ⟨h.senders, List.forall_mem_singleton.2 known⟩ }

theorem paid_append (l : Ledger) (account a : Address) (value : Nat) :
    paid { l with payments := l.payments ++ [(account, value)] } a =
      l.paid a + if account = a then value else 0 := by
  by_cases own : account = a <;> simp [paid, List.filter_append, own]

/-- An account that is not known is asked to pay. -/
theorem Balanced.paidNothing (h : Balanced maxBalance l) (account : Address) :
    Balanced maxBalance { l with payments := l.payments ++ [(account, 0)] } :=
  { h with
    conserved := fun c hc => by simpa [paid_append] using h.conserved c hc
    unknown := fun a ha => by simpa [paid_append] using h.unknown a ha }

/-- A known account pays some of its balance. -/
theorem Balanced.paidSome (h : Balanced maxBalance l) {account : Address} {balance value : Nat}
    (found : l.wallets.balances.get? account = some balance) (most : value ≤ balance)
    (stream : Stream) : Balanced maxBalance
      { l with
        session := { l.session with
          wallets := { l.wallets with
            balances := l.wallets.balances.put account (balance - value) }
          stream }
        payments := l.payments ++ [(account, value)] } := by
  have known : account ∈ l.wallets.accounts := (h.tracked account).2 (by rw [found]; rfl)
  have total := paid_append l account
  refine { h with tracked := fun a => ?_, conserved := fun c hc => ?_, unknown := fun a ha => ?_ }
  · by_cases own : a = account
    · simp [own, known]
    · simp [h.tracked a, Table.get?_put_of_ne _ _ own]
  · have before := h.conserved c hc
    replace total := total c.1 value
    simp only [paid, Wallets.balance] at total before ⊢
    by_cases own : c.1 = account
    · rw [own, if_pos rfl] at total
      rw [own, found] at before
      rw [own, total, Table.get?_put_self]
      simp only [Option.getD_some] at before ⊢
      omega
    · rw [if_neg (Ne.symm own)] at total
      rw [total, Table.get?_put_of_ne _ _ own]
      exact before
  · have other : account ≠ a := fun same => ha (same ▸ known)
    replace total := total a value
    rw [if_neg other, h.unknown a ha] at total
    exact total

theorem next_sender {sender : Sender} {wallets : Wallets}
    (drawn : (l.wallets.drawSender l.stream).1 = (sender, wallets)) :
    l.next .sender = { l with
      session := { l.session with wallets, stream := (l.wallets.drawSender l.stream).2 }
      credits := l.credits ++ (sender.credit.map (sender.account, ·)).toList
      senders := l.senders ++ [sender.account] } := by
  simp only [next, Session.sender]
  generalize l.wallets.drawSender l.stream = outcome at drawn ⊢
  obtain ⟨_, stream⟩ := outcome
  cases drawn
  obtain ⟨account, credit⟩ := sender
  cases credit <;> simp [record]

theorem next_payment {account : Address} {value : Nat} {wallets : Wallets}
    (drawn : (l.wallets.drawPayment account l.stream).1 = (value, wallets)) :
    l.next (.payment account) = { l with
      session := { l.session with wallets, stream := (l.wallets.drawPayment account l.stream).2 }
      payments := l.payments ++ [(account, value)] } := by
  simp only [next, Session.spend]
  generalize l.wallets.drawPayment account l.stream = outcome at drawn ⊢
  obtain ⟨_, stream⟩ := outcome
  cases drawn
  rfl

/-- A request leaves the books in agreement. -/
theorem Balanced.next (h : Balanced maxBalance l) (request : Wallets.Request) :
    Balanced maxBalance (l.next request) := by
  cases request with
  | sender =>
    rcases l.wallets.drawSender_cases h.accounts_ne_nil l.stream with
      ⟨account, amount, nonzero, new, most, drawn⟩ | ⟨account, known, drawn⟩
    · rw [next_sender drawn]
      exact h.opened nonzero ((get?_eq_none_iff h).1 new) (h.limit ▸ most) _
    · rw [next_sender drawn]
      simpa using h.sent known _
  | payment account =>
    rcases l.wallets.drawPayment_cases account l.stream with
      ⟨-, drawn⟩ | ⟨balance, value, found, most, drawn⟩
    · rw [next_payment (congrArg Prod.fst drawn), drawn]
      exact h.paidNothing account
    · rw [next_payment drawn]
      exact h.paidSome found most _

/-- So do requests in turn. -/
theorem balanced_after (h : Balanced maxBalance l) (requests : List Wallets.Request) :
    Balanced maxBalance (l.after requests) := by
  induction requests generalizing l with
  | nil => exact h
  | cons request requests ih => exact ih (h.next request)

theorem balanced_start (s : Session) (newAccountPercent maxBalance : Nat) :
    Balanced maxBalance (start s newAccountPercent maxBalance) := by
  constructor <;> simp [start, Wallets.empty, Table.get?, paid]

end Balanced

/-- **Funds are conserved.** Whatever the wallets of a session are asked for, and
from whatever stream: their accounts are distinct, none is zero, and they are the
addresses with a balance. The mint gave money to each of them once, in the order in which they
were opened and within the limit, and what it gave is what the account still has
and what it has paid. All senders are accounts of the wallets. The next sender is
given money if it is opened now and not if it is known; the next payment is
within the balance, and for an address that is no account it is zero and leaves
everything as it is. -/
theorem funds_conserved (s : Session) (newAccountPercent maxBalance : Nat)
    (requests : List Wallets.Request) :
    let l := (start s newAccountPercent maxBalance).after requests
    let w := l.wallets
    w.accounts.Nodup ∧ 0 ∉ w.accounts ∧
    (∀ a, a ∈ w.accounts ↔ (w.balances.get? a).isSome) ∧
    l.credits.map (·.1) = w.accounts ∧
    (∀ c ∈ l.credits, c.2 ≤ maxBalance ∧ c.2 = w.balance c.1 + l.paid c.1) ∧
    (∀ a ∈ l.senders, a ∈ w.accounts) ∧
    (∀ sender w', (w.drawSender l.stream).1 = (sender, w') →
      sender.account ∈ w'.accounts ∧ (sender.credit.isSome ↔ sender.account ∉ w.accounts)) ∧
    (∀ a, (w.drawPayment a l.stream).1.1 ≤ w.balance a ∧
      (a ∉ w.accounts → w.drawPayment a l.stream = ((0, w), l.stream))) := by
  intro l w
  have h : Balanced maxBalance l := balanced_after (balanced_start _ _ _) requests
  refine ⟨h.nodup, h.nonzero, h.tracked, h.credited,
    fun c hc => ⟨h.modest c hc, h.conserved c hc⟩, h.senders, fun sender w' drawn => ?_,
    fun a => ?_⟩
  · rcases w.drawSender_cases h.accounts_ne_nil l.stream with
      ⟨account, amount, -, new, -, drawn'⟩ | ⟨account, known, drawn'⟩
    · cases drawn.symm.trans drawn'
      simpa using (get?_eq_none_iff h).1 new
    · cases drawn.symm.trans drawn'
      simpa using known
  · rcases w.drawPayment_cases a l.stream with
      ⟨-, drawn⟩ | ⟨balance, value, found, most, drawn⟩
    · rw [drawn]
      exact ⟨Nat.zero_le _, fun _ => rfl⟩
    · rw [drawn, Wallets.balance, found]
      refine ⟨most, fun unknown => ?_⟩
      rw [(get?_eq_none_iff h).2 unknown] at found
      cases found

end Ledger

end GuardedCalls
