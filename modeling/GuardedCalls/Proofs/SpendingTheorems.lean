/-
GuardedCalls.Proofs.SpendingTheorems — what becomes of the money of calls, also of
those that fail.

* `pledge`, `complete` — a call draws its sender and its money, and then its
  arguments. Only the second part can fail, and it does not touch the wallets.
* `CallBooks` — a session with the history of its calls: what the mint gave, the
  calls that were made, and what was drawn for those that failed.
* `next_call` — everything that a call can do to the books.
* `Accounted` — the books of calls go with balanced books of the wallets.
  `Accounted.next` says that each operation keeps them so, `Accounted.after` that a
  whole run does.
* `failed_calls_forfeit` — what that comes to: the money that was drawn for a call that
  fails is neither with the account nor sent.
-/
import GuardedCalls.Chain
import GuardedCalls.Proofs.UnsatisfiableTheorems
import GuardedCalls.Proofs.WalletTheorems

namespace GuardedCalls

open GuardedCalls.Random

/-! ## Amounts by account -/

/-- What the account has in the list, in all. -/
def amountOf (account : Address) (amounts : List (Address × Nat)) : Nat :=
  ((amounts.filter (·.1 = account)).map (·.2)).sum

section AmountOf

variable {account : Address} {amounts : List (Address × Nat)}

theorem amountOf_append (account : Address) (amounts others : List (Address × Nat)) :
    amountOf account (amounts ++ others) = amountOf account amounts + amountOf account others := by
  simp [amountOf]

theorem amountOf_eq_zero_iff :
    amountOf account amounts = 0 ↔ ∀ p ∈ amounts, p.1 = account → p.2 = 0 := by
  simp only [amountOf, List.sum_eq_zero_iff_forall_eq_nat, List.forall_mem_map, List.mem_filter,
    decide_eq_true_eq, and_imp]

theorem amountOf_of_not_mem (h : account ∉ amounts.map (·.1)) : amountOf account amounts = 0 :=
  amountOf_eq_zero_iff.2 fun _ mem same => absurd (same ▸ List.mem_map_of_mem mem) h

theorem amountOf_singleton (account : Address) (amount : Nat) :
    amountOf account [(account, amount)] = amount := by simp [amountOf]

/-- Of distinct accounts, each has its own amount. -/
theorem amountOf_of_mem (distinct : (amounts.map (·.1)).Nodup) {amount : Nat}
    (mem : (account, amount) ∈ amounts) : amountOf account amounts = amount := by
  obtain ⟨before, after, rfl⟩ := List.append_of_mem mem
  rw [List.map_append, List.map_cons, List.nodup_append] at distinct
  obtain ⟨-, later, apart⟩ := distinct
  have earlier : amountOf account before = 0 :=
    amountOf_of_not_mem fun h => apart _ h _ List.mem_cons_self rfl
  have rest : amountOf account after = 0 := amountOf_of_not_mem (List.nodup_cons.1 later).1
  rw [← List.singleton_append, amountOf_append, amountOf_append, earlier, rest,
    amountOf_singleton]
  omega

end AmountOf

namespace Session

variable {σ : Type}

/-! ## The steps of a call -/

/-- The first steps of a call: who sends it, and the money that it carries. -/
def pledge (mint : Mint σ) (f : ContractFunction) : Step σ (Address × Nat) := do
  let sender ← sender mint
  let value ← if f.isPayable then spend sender else pure 0
  return (sender, value)

/-- The other steps: arguments whose bounds are read as the sender. -/
def complete (environment : Environment σ) (contract : String) (f : ContractFunction)
    (target : Address) (interface : Interface) (pledged : Address × Nat) : Step σ DrawnCall := do
  let view : ContractView σ :=
    { environment, target, caller := pledged.1, gasLimit := standardGasLimit
      getters := interface.getters }
  let values ← arguments view.read contract f
  let (session, _) ← get
  return {
    sender := pledged.1
    value := pledged.2
    selector := f.selector
    data := encodeAll values
    gasLimit := session.settings.gasLimit }

theorem call_eq (environment : Environment σ) (mint : Mint σ) (contract : String)
    (f : ContractFunction) (target : Address) (interface : Interface) :
    call environment mint contract f target interface =
      pledge mint f >>= complete environment contract f target interface := by
  rw [call, pledge]
  cases f.isPayable <;> rfl

/-- Who sends next, and which account is given money for it, depend on the session alone. -/
theorem sender_spec (s : Session) : ∃ (account : Address) (wallets : Wallets) (stream : Stream)
    (gave : List (Address × Nat)), ∀ {σ : Type} (mint : Mint σ) (state : σ),
      Session.sender mint (s, state) = .ok account
        ({ s with wallets, stream }, gave.foldl (fun state c => mint c.1 c.2 state) state) := by
  rcases drawn : s.wallets.drawSender s.stream with ⟨⟨⟨account, credit⟩, wallets⟩, stream⟩
  refine ⟨account, wallets, stream, (credit.map (account, ·)).toList, fun mint state => ?_⟩
  simp only [Session.sender, drawn]
  cases credit <;> rfl

/-- So does what an account spends. -/
theorem spend_spec (account : Address) (s : Session) : ∃ (value : Nat) (wallets : Wallets)
    (stream : Stream), ∀ {σ : Type} (state : σ),
      spend account (s, state) = .ok value ({ s with wallets, stream }, state) :=
  let drawn := s.wallets.drawPayment account s.stream
  ⟨drawn.1.1, drawn.1.2, drawn.2, fun _ => rfl⟩

/-- And so does all that comes of the first steps of a call. -/
theorem pledge_spec (f : ContractFunction) (s : Session) : ∃ (pledged : Address × Nat)
    (wallets : Wallets) (stream : Stream) (gave : List (Address × Nat)),
      ∀ {σ : Type} (mint : Mint σ) (state : σ), pledge mint f (s, state) = .ok pledged
        ({ s with wallets, stream }, gave.foldl (fun state c => mint c.1 c.2 state) state) := by
  obtain ⟨account, wallets, stream, gave, sent⟩ := sender_spec s
  obtain ⟨value, wallets', stream', spent⟩ := spend_spec account { s with wallets, stream }
  cases payable : f.isPayable with
  | false =>
    refine ⟨(account, 0), wallets, stream, gave, fun mint state => ?_⟩
    simp only [pledge, Bind.bind, EStateM.bind, sent, payable]
    rfl
  | true =>
    refine ⟨(account, value), wallets', stream', gave, fun mint state => ?_⟩
    simp only [pledge, Bind.bind, EStateM.bind, sent, payable, if_true, spent]
    rfl

/-- A call fails with what its arguments fail with. -/
theorem call_of_failed {environment : Environment σ} {mint : Mint σ} {contract : String}
    {f : ContractFunction} {target : Address} {interface : Interface} {pledged : Address × Nat}
    {p p' p'' : Session × σ} {e : SessionError} (drawn : pledge mint f p = .ok pledged p')
    (fails : arguments (ContractView.read ⟨environment, target, pledged.1, standardGasLimit,
      interface.getters⟩) contract f p' = .error e p'') :
    call environment mint contract f target interface p = .error e p'' := by
  simp only [call_eq, Bind.bind, EStateM.bind, drawn, complete, fails]

/-- The wallets are the same before and after. -/
def SameWallets (s s' : Session) : Prop := s'.wallets = s.wallets

theorem sameWallets_chains : Chains SameWallets := ⟨fun _ => rfl, fun h h' => h'.trans h⟩

theorem space_sameWallets (view : StateView σ) (key : ArgumentKey) :
    Leaves SameWallets (Session.space view key) := by
  rintro ⟨s, state⟩
  simp only [Session.space]
  cases s.space? key with
  | some space => rfl
  | none => cases argumentSpace view s.rules s.guards key state <;> rfl

theorem draw_sameWallets (view : StateView σ) (key : ArgumentKey) (space : Space) :
    Leaves SameWallets (Session.draw view key space) := by
  rintro ⟨s, state⟩
  simp only [Session.draw]
  cases space.draw view s.sampling ⟨state, s.stream⟩ <;> rfl

/-- The other steps of a call keep the wallets. -/
theorem complete_sameWallets (environment : Environment σ) (contract : String)
    (f : ContractFunction) (target : Address) (interface : Interface) (pledged : Address × Nat) :
    Leaves SameWallets (complete environment contract f target interface pledged) :=
  .bind sameWallets_chains
    (arguments_leaves sameWallets_chains (space_sameWallets _) (draw_sameWallets _) contract f)
    fun _ => .bind sameWallets_chains (.get sameWallets_chains) fun _ => .pure sameWallets_chains _

/-- A call that is made has the sender and the money that it began with. -/
theorem complete_ok {environment : Environment σ} {contract : String} {f : ContractFunction}
    {target : Address} {interface : Interface} {pledged : Address × Nat} {c : DrawnCall}
    {p p' : Session × σ}
    (run : complete environment contract f target interface pledged p = .ok c p') :
    (c.sender, c.value) = pledged := by
  obtain ⟨values, p₁, -, run⟩ := bind_eq_ok_iff.1 run
  cases run
  rfl

end Session

/-! ## The books of calls -/

/-- A session, and what has come of its calls so far, each list in order. -/
structure CallBooks where
  session : Session
  /-- The accounts that the mint gave money to, and how much. -/
  credits : List (Address × Nat)
  /-- The calls that were made. -/
  given : List DrawnCall
  /-- The sender and the money of each call that failed. -/
  failed : List (Address × Nat)

namespace CallBooks

/-- No calls yet. -/
def start (settings : Settings) (stream : Random.Stream) : CallBooks :=
  ⟨Session.start settings stream, [], [], []⟩

/-- What comes of an operation. To see what the mint of a call gives, the sender and the
money are drawn with a mint that keeps a record. -/
def next (b : CallBooks) : Session.Operation → CallBooks
  | .call environment mint state contract f target interface =>
    match Session.pledge Ledger.record f (b.session, b.credits) with
    | .ok pledged (_, credits) =>
      match Session.call environment mint contract f target interface (b.session, state) with
      | .ok c (session, _) => { b with session, credits, given := b.given ++ [c] }
      | .error _ (session, _) => { b with session, credits, failed := b.failed ++ [pledged] }
    | .error _ _ => b
  | op => { b with session := op.run b.session }

/-- What comes of operations in turn. -/
def after (b : CallBooks) (ops : List Session.Operation) : CallBooks := ops.foldl next b

/-- What the mint gave to an account. -/
def credited (b : CallBooks) (account : Address) : Nat := amountOf account b.credits

/-- What an account has sent with the calls that were made. -/
def spent (b : CallBooks) (account : Address) : Nat :=
  amountOf account (b.given.map fun c => (c.sender, c.value))

/-- What was taken off an account for calls that failed. -/
def forfeited (b : CallBooks) (account : Address) : Nat := amountOf account b.failed

variable {b : CallBooks}

theorem foldl_record (gave credits : List (Address × Nat)) :
    gave.foldl (fun state c => Ledger.record c.1 c.2 state) credits = credits ++ gave := by
  induction gave generalizing credits with
  | nil => rw [List.foldl_nil, List.append_nil]
  | cons c gave ih =>
    rw [List.foldl_cons, ih, Ledger.record, List.append_assoc]
    rfl

/-- A call is made or fails. Either way its sender and its money are drawn first, the mint
gives what the books say that it gives, and the other steps keep the wallets. -/
theorem next_call {σ : Type} (b : CallBooks) (environment : Environment σ) (mint : Mint σ)
    (state : σ) (contract : String) (f : ContractFunction) (target : Address)
    (interface : Interface) : ∃ (pledged : Address × Nat) (s : Session)
      (gave : List (Address × Nat)) (session : Session),
      Session.pledge mint f (b.session, state) =
        .ok pledged (s, gave.foldl (fun state c => mint c.1 c.2 state) state) ∧
      Session.pledge Ledger.record f (b.session, b.credits) = .ok pledged (s, b.credits ++ gave) ∧
      session = Session.Operation.run b.session
        (.call environment mint state contract f target interface) ∧
      session.wallets = s.wallets ∧
      ((∃ c : DrawnCall, (c.sender, c.value) = pledged ∧
          b.next (.call environment mint state contract f target interface) =
            ⟨session, b.credits ++ gave, b.given ++ [c], b.failed⟩) ∨
        b.next (.call environment mint state contract f target interface) =
          ⟨session, b.credits ++ gave, b.given, b.failed ++ [pledged]⟩) := by
  obtain ⟨pledged, wallets, stream, gave, pledge⟩ := Session.pledge_spec f b.session
  have recorded := pledge Ledger.record b.credits
  rw [foldl_record] at recorded
  have kept := Session.complete_sameWallets environment contract f target interface pledged
    ({ b.session with wallets, stream }, gave.foldl (fun state c => mint c.1 c.2 state) state)
  have whole : Session.call environment mint contract f target interface (b.session, state) =
      Session.complete environment contract f target interface pledged
        ({ b.session with wallets, stream },
          gave.foldl (fun state c => mint c.1 c.2 state) state) := by
    simp only [Session.call_eq, Bind.bind, EStateM.bind, pledge]
  refine ⟨pledged, _, gave, _, pledge mint state, recorded, rfl, ?_, ?_⟩
  · rwa [Session.Operation.run, whole]
  · simp only [next, Session.Operation.run, recorded, whole]
    cases run : Session.complete environment contract f target interface pledged
      ({ b.session with wallets, stream },
        gave.foldl (fun state c => mint c.1 c.2 state) state) with
    | ok c p => exact .inl ⟨c, Session.complete_ok run, rfl⟩
    | error e p => exact .inr rfl

/-- A call that fails is recorded with what it began with. -/
theorem next_call_of_failed {σ : Type} {environment : Environment σ} {mint : Mint σ} {state : σ}
    {contract : String} {f : ContractFunction} {target : Address} {interface : Interface}
    {pledged : Address × Nat} {s : Session} {credits : List (Address × Nat)} {e : SessionError}
    {p : Session × σ}
    (pledge : Session.pledge Ledger.record f (b.session, b.credits) = .ok pledged (s, credits))
    (fails : Session.call environment mint contract f target interface (b.session, state) =
      .error e p) :
    b.next (.call environment mint state contract f target interface) =
      ⟨p.1, credits, b.given, b.failed ++ [pledged]⟩ := by
  simp only [next, pledge, fails]

/-- The session of the books is the session of the run. -/
theorem session_next (b : CallBooks) (op : Session.Operation) :
    (b.next op).session = op.run b.session := by
  cases op with
  | call environment mint state contract f target interface =>
    obtain ⟨_, _, _, session, -, -, run, -, ⟨c, -, same⟩ | same⟩ :=
      b.next_call environment mint state contract f target interface
    · rw [same, run]
    · rw [same, run]
  | _ => rfl

theorem session_after (b : CallBooks) (ops : List Session.Operation) :
    (b.after ops).session = b.session.after ops := by
  induction ops generalizing b with
  | nil => rfl
  | cons op ops ih =>
    change ((b.next op).after ops).session = (op.run b.session).after ops
    rw [ih, session_next]

end CallBooks

/-! ## The books of calls and the books of the wallets -/

namespace Ledger

variable {maxBalance : Nat} {l : Ledger}

/-- The books are about the wallets, and nothing else of the session. -/
theorem Balanced.of_wallets (h : Balanced maxBalance l) {s : Session}
    (same : s.wallets = l.wallets) : Balanced maxBalance { l with session := s } := by
  obtain ⟨⟨settings, rules, guards, spaces, wallets, stream⟩, credits, payments, senders⟩ := l
  obtain rfl : s.wallets = wallets := same
  exact ⟨h.limit, h.nodup, h.nonzero, h.tracked, h.credited, h.modest, h.conserved, h.unknown,
    h.senders⟩

/-- What an account was given is what it still has and what it has paid. -/
theorem Balanced.amountOf_credits (h : Balanced maxBalance l) (account : Address) :
    amountOf account l.credits = l.wallets.balance account + l.paid account := by
  by_cases known : account ∈ l.wallets.accounts
  · have named := known
    rw [← h.credited] at named
    obtain ⟨⟨_, amount⟩, mem, rfl⟩ := List.mem_map.1 named
    rw [amountOf_of_mem (h.credited ▸ h.nodup) mem]
    exact h.conserved _ mem
  · rw [amountOf_of_not_mem (h.credited ▸ known), h.unknown account known, Wallets.balance,
      (get?_eq_none_iff h).2 known]
    rfl

/-- The first steps of a call are one request or two. -/
theorem Balanced.pledged (h : Balanced maxBalance l) {f : ContractFunction}
    {pledged : Address × Nat} {s : Session} {credits : List (Address × Nat)}
    (run : Session.pledge record f (l.session, l.credits) = .ok pledged (s, credits)) :
    ∃ l', Balanced maxBalance l' ∧ l'.session = s ∧ l'.credits = credits ∧
      ∀ a, l'.paid a = l.paid a + amountOf a [pledged] := by
  obtain ⟨account, ⟨s₁, credits₁⟩, sent, run⟩ := bind_eq_ok_iff.1 run
  have first : l.next .sender =
      { l with session := s₁, credits := credits₁, senders := l.senders ++ [account] } := by
    simp only [Ledger.next, sent]
  have opened := h.next .sender
  rw [first] at opened
  cases payable : f.isPayable with
  | false =>
    rw [payable] at run
    cases run
    refine ⟨_, opened, rfl, rfl, fun a => ?_⟩
    rw [amountOf_eq_zero_iff.2 (by simp)]
    rfl
  | true =>
    rw [payable] at run
    obtain ⟨value, ⟨s₂, credits₂⟩, spent, run⟩ := bind_eq_ok_iff.1 run
    cases run
    have paid := opened.next (.payment account)
    simp only [Ledger.next, spent] at paid
    exact ⟨_, paid, rfl, rfl, fun a => amountOf_append a l.payments [(account, value)]⟩

end Ledger

namespace CallBooks

/-- The books of calls go with books of the wallets that are balanced. What was paid was
sent with calls that were made or drawn for calls that failed. -/
def Accounted (maxBalance : Nat) (b : CallBooks) : Prop :=
  ∃ l : Ledger, Ledger.Balanced maxBalance l ∧ l.session = b.session ∧ l.credits = b.credits ∧
    ∀ a, l.paid a = b.spent a + b.forfeited a

variable {maxBalance : Nat} {b : CallBooks}

theorem accounted_start (settings : Settings) (stream : Random.Stream) :
    Accounted settings.maxBalance (start settings stream) :=
  ⟨Ledger.start (Session.start settings stream) settings.newAccountPercent settings.maxBalance,
    Ledger.balanced_start _ _ _, rfl, rfl, fun _ => rfl⟩

/-- Only what reaches the wallets counts. -/
theorem Accounted.of_wallets (h : Accounted maxBalance b) {s : Session}
    (same : s.wallets = b.session.wallets) : Accounted maxBalance { b with session := s } := by
  obtain ⟨l, balanced, session, credits, paid⟩ := h
  exact ⟨{ l with session := s }, balanced.of_wallets (same.trans (session ▸ rfl)), rfl, credits,
    paid⟩

/-- An operation leaves the books accounted for. -/
theorem Accounted.next (h : Accounted maxBalance b) (op : Session.Operation) :
    Accounted maxBalance (b.next op) := by
  cases op with
  | useRules rules => exact h.of_wallets rfl
  | addUnit unit => exact h.of_wallets rfl
  | forget => exact h.of_wallets rfl
  | argument view state contract function typeName name =>
    exact h.of_wallets (Session.argument_leaves Session.sameWallets_chains
      (Session.space_sameWallets view) (Session.draw_sameWallets view) contract function typeName
      name (b.session, state))
  | arguments view state contract f =>
    exact h.of_wallets (Session.arguments_leaves Session.sameWallets_chains
      (Session.space_sameWallets view) (Session.draw_sameWallets view) contract f
      (b.session, state))
  | callData view state contract f =>
    exact h.of_wallets (Session.callData_leaves Session.sameWallets_chains
      (Session.space_sameWallets view) (Session.draw_sameWallets view) contract f
      (b.session, state))
  | call environment mint state contract f target interface =>
    obtain ⟨l, balanced, session, credits, paid⟩ := h
    obtain ⟨pledged, s, gave, session', -, recorded, -, wallets, outcome⟩ :=
      b.next_call environment mint state contract f target interface
    rw [← session, ← credits] at recorded
    obtain ⟨l', balanced', rfl, credits', paid'⟩ := balanced.pledged recorded
    have all : ∀ a, l'.paid a = b.spent a + b.forfeited a + amountOf a [pledged] := fun a => by
      rw [paid', paid]
    obtain ⟨c, rfl, same⟩ | same := outcome
    · rw [same]
      refine ⟨{ l' with session := session' }, balanced'.of_wallets wallets, rfl,
        by rw [credits', credits], fun a => ?_⟩
      have made : amountOf a ((b.given ++ [c]).map fun c => (c.sender, c.value)) =
          b.spent a + amountOf a [(c.sender, c.value)] := by
        rw [List.map_append, amountOf_append]
        rfl
      rw [spent, made, Nat.add_right_comm]
      exact all a
    · rw [same]
      refine ⟨{ l' with session := session' }, balanced'.of_wallets wallets, rfl,
        by rw [credits', credits], fun a => ?_⟩
      rw [forfeited, amountOf_append, ← Nat.add_assoc]
      exact all a

/-- So do operations in turn. -/
theorem Accounted.after (h : Accounted maxBalance b) (ops : List Session.Operation) :
    Accounted maxBalance (b.after ops) := by
  induction ops generalizing b with
  | nil => exact h
  | cons op ops ih => exact ih (h.next op)

/-- What the mint gave an account is what it still has, what it has sent, and what it has
lost. -/
theorem credited_after (settings : Settings) (stream : Random.Stream) (ops : List Session.Operation)
    (a : Address) :
    let b := (start settings stream).after ops
    b.credited a = b.session.wallets.balance a + b.spent a + b.forfeited a := by
  intro b
  obtain ⟨l, balanced, session, credits, paid⟩ := (accounted_start settings stream).after ops
  have all := balanced.amountOf_credits a
  rw [credits, paid, Ledger.wallets, session, ← Nat.add_assoc] at all
  exact all

/-- **Failed calls cost their senders money.** Whatever a session is asked to do, the money
that the mint gave an account is what the account still has, what it has sent with calls that
were made, and what was drawn from it for calls that failed. So what it has not sent is still
there if and only if no call failed after some of it was drawn. -/
theorem failed_calls_forfeit (settings : Settings) (stream : Random.Stream)
    (ops : List Session.Operation) :
    let b := (start settings stream).after ops
    b.session = (Session.start settings stream).after ops ∧
    ∀ a, b.credited a = b.session.wallets.balance a + b.spent a + b.forfeited a ∧
      (b.session.wallets.balance a + b.spent a = b.credited a ↔
        ∀ pledged ∈ b.failed, pledged.1 = a → pledged.2 = 0) := by
  intro b
  refine ⟨session_after _ ops, fun a => ?_⟩
  have total := credited_after settings stream ops a
  refine ⟨total, ?_⟩
  rw [total, ← amountOf_eq_zero_iff]
  exact Nat.left_eq_add

/-! ## A call that fails -/

/-- A session that was shown that the byte of `f(x)` has to be above 255. -/
def cornered : Session :=
  (Session.start Settings.standard (.ofSeed 7)).addUnit (Session.unitRequiring ">" "255")

/-- A function `f(x)` of a byte that takes money. -/
def payableByte : ContractFunction := ⟨"f", [⟨"x", "uint8"⟩], [], .payable⟩

/-- No byte is above 255. -/
theorem argumentSpace_cornered {σ : Type} (view : StateView σ) (state : σ) :
    ∃ e, argumentSpace view cornered.rules cornered.guards Session.byteKey state =
      .error e state := by
  have guards : guardsOn cornered.guards Session.byteKey =
      [⟨.greater, .literal "255" none, .guard Source.Location.none ["x"]⟩] :=
    List.perm_singleton.1 (guardsOn_addUnits_perm GuardTable.empty
      [Session.unitRequiring ">" "255"] Session.byteKey)
  have rules : Assembly.narrowByRules view cornered.rules Session.byteKey
      (Space.ofType Session.byteKey.type) ⟨state, []⟩ =
        .ok (Space.ofType Session.byteKey.type) ⟨state, []⟩ := rfl
  unfold guardsOn at guards
  rw [argumentSpace_eq, stages]
  simp only [Bind.bind, EStateM.bind, rules, Assembly.narrowByGuards, guards]
  exact ⟨_, rfl⟩

/-- What a call of the function begins with. -/
theorem pledge_payableByte : ∃ p, Session.pledge Ledger.record payableByte (cornered, []) =
    .ok (0xbee986e8cd469905b6ade04fd2ab8aa0a7db6b2f, 1210644521) p := by
  obtain ⟨pledged, wallets, stream, gave, pledge⟩ := Session.pledge_spec payableByte cornered
  have drawn : (match Session.pledge Ledger.record payableByte (cornered, []) with
    | .ok pledged _ => pledged
    | .error _ _ => (0, 0)) = (0xbee986e8cd469905b6ade04fd2ab8aa0a7db6b2f, 1210644521) := by
    decide +kernel
  rw [pledge] at drawn ⊢
  rw [← drawn]
  exact ⟨_, rfl⟩

/-- And what it ends with. -/
theorem call_payableByte {σ : Type} (environment : Environment σ) (mint : Mint σ) (state : σ) :
    ∃ e p, Session.call environment mint "C" payableByte 0 [] (cornered, state) =
      .error e p := by
  obtain ⟨pledged, wallets, stream, gave, pledge⟩ := Session.pledge_spec payableByte cornered
  replace pledge := pledge mint state
  generalize gave.foldl (fun state c => mint c.1 c.2 state) state = state' at pledge
  let view : ContractView σ :=
    ⟨environment, 0, pledged.1, standardGasLimit, Interface.getters []⟩
  obtain ⟨e, failed⟩ := argumentSpace_cornered view.read state'
  have typed : AbiType.ofName "uint8" = .ok (.number (.uint 8)) := by decide
  have argument : Session.argument view.read "C" "f" "uint8" "x"
      ({ cornered with wallets, stream }, state') =
        .error e ({ cornered with wallets, stream }, state') := by
    simp only [Session.argument, typed]
    exact Session.value_of_failed rfl failed
  have arguments : Session.arguments view.read "C" payableByte
      ({ cornered with wallets, stream }, state') =
        .error e ({ cornered with wallets, stream }, state') := by
    have named : Session.parameterName 0 ⟨"x", "uint8"⟩ = "x" := rfl
    simp only [Session.arguments, payableByte, Session.argumentsFrom, named, Bind.bind,
      EStateM.bind, argument]
  exact ⟨e, _, Session.call_of_failed pledge arguments⟩

theorem after_payableByte : ∃ session credits, (start Settings.standard (.ofSeed 7)).after
    [.addUnit (Session.unitRequiring ">" "255"),
      .call Chain.environment Chain.mint Chain.empty "C" payableByte 0 []] =
    ⟨session, credits, [], [(0xbee986e8cd469905b6ade04fd2ab8aa0a7db6b2f, 1210644521)]⟩ := by
  obtain ⟨⟨s, credits⟩, pledged⟩ := pledge_payableByte
  obtain ⟨e, ⟨session, state⟩, fails⟩ :=
    call_payableByte Chain.environment Chain.mint Chain.empty
  have shown : (start Settings.standard (.ofSeed 7)).next
      (.addUnit (Session.unitRequiring ">" "255")) = ⟨cornered, [], [], []⟩ := rfl
  refine ⟨session, credits, ?_⟩
  rw [after, List.foldl_cons, List.foldl_cons, List.foldl_nil, shown]
  exact next_call_of_failed (b := ⟨cornered, [], [], []⟩) pledged fails

/-- The call fails, and what was drawn for it is gone. -/
theorem failed_call_loses_money :
    let ops : List Session.Operation := [.addUnit (Session.unitRequiring ">" "255"),
      .call Chain.environment Chain.mint Chain.empty "C" payableByte 0 []]
    let b := (start Settings.standard (.ofSeed 7)).after ops
    ∃ sender, b.given = [] ∧ b.failed = [(sender, 1210644521)] ∧
      b.session.wallets.balance sender + b.spent sender ≠ b.credited sender := by
  obtain ⟨session, credits, same⟩ := after_payableByte
  have total := credited_after Settings.standard (.ofSeed 7)
    [.addUnit (Session.unitRequiring ">" "255"),
      .call Chain.environment Chain.mint Chain.empty "C" payableByte 0 []]
  dsimp only at total ⊢
  rw [same] at total ⊢
  generalize (0xbee986e8cd469905b6ade04fd2ab8aa0a7db6b2f : Address) = sender at total ⊢
  have lost : forfeited ⟨session, credits, [], [(sender, 1210644521)]⟩ sender = 1210644521 :=
    amountOf_singleton sender 1210644521
  refine ⟨sender, rfl, rfl, ?_⟩
  rw [total, lost]
  omega

end CallBooks

end GuardedCalls
