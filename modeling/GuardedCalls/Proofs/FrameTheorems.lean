/-
GuardedCalls.Proofs.FrameTheorems — what a request for an argument leaves as it is.

A request can fail at many places: its type, a rule at any depth of it, a guard, a
getter. Up to the moment when a space is assembled nothing of this reaches the session.

* `Unprepared` — the request fails before there is a space for its key.
* `Serves` — all that a request may do: it uses random words, and adds the space of
  its own key. `argument_serves` says so of every outcome, failed draws included.
* `space?_after` — a space stays as long as spaces are not dropped.
* `FirstAssembled` — a key has the space of the first assembly that came to an end.
  `firstAssembled_after` finds that moment in a run.
* `failed_request_invisible` — all of it for the sessions that can be reached.
-/
import GuardedCalls.Proofs.SpendingTheorems

namespace GuardedCalls.Session

/-! ## One request -/

section Request

variable {σ : Type} {view : StateView σ} {s : Session} {key : ArgumentKey} {state : σ}
  {contract function typeName name : String} {type : AbiType}

/-- A request fails before there is a space for its key: its type does not read, or the
key has no space and its assembly fails. -/
inductive Unprepared (view : StateView σ) (s : Session) (state : σ)
    (contract function typeName name : String) : SessionError → σ → Prop
  | type {error : TypeError} (unread : AbiType.ofName typeName = .error error) :
      Unprepared view s state contract function typeName name (.notType error) state
  | assembly {type : AbiType} {error : SessionError} {state' : σ}
      (typed : AbiType.ofName typeName = .ok type)
      (unknown : s.space? ⟨contract, function, type, name⟩ = none)
      (failed : argumentSpace view s.rules s.guards ⟨contract, function, type, name⟩ state =
        .error error state') :
      Unprepared view s state contract function typeName name error state'

/-- What a request for a key does to a session, whether it succeeds or not. -/
structure Serves (key : ArgumentKey) (s s' : Session) : Prop where
  settings_eq : s'.settings = s.settings
  rules_eq : s'.rules = s.rules
  guards_eq : s'.guards = s.guards
  wallets_eq : s'.wallets = s.wallets
  /-- A space that is there is left as it is. -/
  kept : ∀ other space, s.space? other = some space → s'.space? other = some space
  /-- No other key is given a space. -/
  others : ∀ other, other ≠ key → s'.space? other = s.space? other

/-- A request that is not prepared fails, and leaves the session as it is. -/
theorem Unprepared.outcome {error : SessionError} {state' : σ}
    (h : Unprepared view s state contract function typeName name error state') :
    Session.argument view contract function typeName name (s, state) =
      .error error (s, state') := by
  cases h with
  | type unread =>
    simp only [Session.argument, unread]
    rfl
  | assembly typed unknown failed =>
    simp only [Session.argument, typed]
    exact value_of_failed unknown failed

/-- Only the random words differ. -/
def SameButStream (s s' : Session) : Prop := ∃ stream, s' = { s with stream }

theorem sameButStream_chains : Chains SameButStream where
  refl s := ⟨s.stream, rfl⟩
  trans := by
    rintro s _ _ ⟨stream, rfl⟩ ⟨stream', rfl⟩
    exact ⟨stream', rfl⟩

theorem draw_sameButStream (view : StateView σ) (key : ArgumentKey) (space : Space) :
    Leaves SameButStream (Session.draw view key space) := by
  rintro ⟨s, state⟩
  simp only [Session.draw]
  cases space.draw view s.sampling ⟨state, s.stream⟩ with
  | ok v w => exact ⟨w.stream, rfl⟩
  | error e w => exact ⟨w.stream, rfl⟩

/-- Once there is a space, a request uses random words and does nothing else. -/
theorem value_sameButStream {space : Space} {p p' : Session × σ}
    (found : Session.space view key p = .ok space p') :
    SameButStream p'.1 (remaining (value view key p)) := by
  simp only [value, Bind.bind, EStateM.bind, found]
  exact draw_check_leaves sameButStream_chains (draw_sameButStream view key space) p'

/-- All that the request for a value can come to: the space is there, or it is assembled
now, or it is neither. -/
theorem value_cases (view : StateView σ) (s : Session) (key : ArgumentKey) (state : σ) :
    (∃ space, s.space? key = some space ∧
      SameButStream s (remaining (value view key (s, state)))) ∨
    (∃ space state', s.space? key = none ∧
      argumentSpace view s.rules s.guards key state = .ok space state' ∧
      SameButStream { s with spaces := s.spaces.put key space }
        (remaining (value view key (s, state)))) ∨
    ∃ error state', s.space? key = none ∧
      argumentSpace view s.rules s.guards key state = .error error state' := by
  cases known : s.space? key with
  | some space => exact .inl ⟨space, rfl, value_sameButStream (space_of_cached known)⟩
  | none =>
    refine .inr ?_
    cases assembled : argumentSpace view s.rules s.guards key state with
    | ok space state' =>
      exact .inl ⟨space, state', rfl, rfl,
        value_sameButStream (space_of_assembled known assembled)⟩
    | error error state' => exact .inr ⟨error, state', rfl, rfl⟩

/-- Random words are all that may change. -/
theorem SameButStream.serves {s' : Session} (h : SameButStream s s') : Serves key s s' := by
  obtain ⟨stream, rfl⟩ := h
  exact ⟨rfl, rfl, rfl, rfl, fun _ _ cached => cached, fun _ _ => rfl⟩

/-- So is a space for a key that had none. -/
theorem serves_put (unknown : s.space? key = none) (space : Space) :
    Serves key s { s with spaces := s.spaces.put key space } := by
  have others : ∀ other, other ≠ key →
      ({ s with spaces := s.spaces.put key space } : Session).space? other = s.space? other :=
    fun other h => Table.get?_put_of_ne space s.spaces h
  refine ⟨rfl, rfl, rfl, rfl, fun other space' cached => ?_, others⟩
  have different : other ≠ key := by
    rintro rfl
    rw [unknown] at cached
    cases cached
  rw [others other different, cached]

theorem Serves.trans {s' s'' : Session} (h : Serves key s s') (h' : Serves key s' s'') :
    Serves key s s'' where
  settings_eq := h'.settings_eq.trans h.settings_eq
  rules_eq := h'.rules_eq.trans h.rules_eq
  guards_eq := h'.guards_eq.trans h.guards_eq
  wallets_eq := h'.wallets_eq.trans h.wallets_eq
  kept other space cached := h'.kept other space (h.kept other space cached)
  others other different := (h'.others other different).trans (h.others other different)

/-- A request does to the session what it may do. -/
theorem argument_serves (typed : AbiType.ofName typeName = .ok type) :
    Serves ⟨contract, function, type, name⟩ s
      (remaining (Session.argument view contract function typeName name (s, state))) := by
  simp only [Session.argument, typed]
  rcases value_cases view s ⟨contract, function, type, name⟩ state with
    ⟨space, -, same⟩ | ⟨space, state', unknown, -, same⟩ | ⟨error, state', unknown, failed⟩
  · exact same.serves
  · exact (serves_put unknown space).trans same.serves
  · rw [value_of_failed unknown failed]
    exact SameButStream.serves ⟨s.stream, rfl⟩

/-- A request that is prepared leaves a space for its key, also if nothing is drawn from
it. -/
theorem exists_space_of_prepared
    (prepared : ∀ error state',
      ¬ Unprepared view s state contract function typeName name error state') :
    ∃ type space, AbiType.ofName typeName = .ok type ∧
      (remaining (Session.argument view contract function typeName name (s, state))).space?
        ⟨contract, function, type, name⟩ = some space := by
  cases typed : AbiType.ofName typeName with
  | error error => exact absurd (.type typed) (prepared _ _)
  | ok type =>
    have serves : Serves ⟨contract, function, type, name⟩ s
        (remaining (Session.argument view contract function typeName name (s, state))) :=
      argument_serves typed
    simp only [Session.argument, typed] at serves ⊢
    refine ⟨type, ?_⟩
    rcases value_cases view s ⟨contract, function, type, name⟩ state with
      ⟨space, cached, -⟩ | ⟨space, state', unknown, assembled, -⟩ | ⟨error, state', unknown, failed⟩
    · exact ⟨space, rfl, serves.kept _ space cached⟩
    · exact ⟨space, rfl, cached_of_value unknown assembled⟩
    · exact absurd (.assembly typed unknown failed) (prepared _ _)

end Request

/-! ## Runs -/

section Runs

variable {s : Session} {ops : List Operation} {key : ArgumentKey} {space : Space}

/-- The operation drops all spaces. -/
def Operation.drops : Operation → Bool
  | .useRules _ => true
  | .forget => true
  | _ => false

/-- What an operation that drops no spaces does: the spaces stay, and a new one is
assembled from the rules and guards of the moment. -/
theorem run_of_not_drops {op : Operation} (keeps : op.drops = false) :
    (∀ key space, s.space? key = some space → (op.run s).space? key = some space) ∧
    ∀ key space, s.space? key = none → (op.run s).space? key = some space →
      ∃ (σ : Type) (view : StateView σ) (state state' : σ),
        argumentSpace view s.rules s.guards key state = .ok space state' := by
  rcases run_cases s op with ⟨rules, rfl⟩ | ⟨unit, rfl⟩ | rfl | ⟨-, requested⟩
  · cases keeps
  · refine ⟨fun key space cached => cached, fun key space unknown cached => ?_⟩
    rw [Operation.run, space?_addUnit, unknown] at cached
    cases cached
  · cases keeps
  · exact ⟨requested.kept, requested.assembled⟩

/-- A space stays as long as spaces are not dropped. -/
theorem space?_after (keeps : ∀ op ∈ ops, op.drops = false)
    (cached : s.space? key = some space) : (s.after ops).space? key = some space := by
  induction ops generalizing s with
  | nil => exact cached
  | cons op ops ih =>
    obtain ⟨first, rest⟩ := List.forall_mem_cons.1 keeps
    exact ih rest ((run_of_not_drops first).1 key space cached)

/-- In a run from a session, the key has no space up to an operation that assembles one
from the rules and guards of its moment, and from then on it has that one. -/
def FirstAssembled (s : Session) (ops : List Operation) (key : ArgumentKey) (space : Space) :
    Prop :=
  ∃ before op rest, ops = before ++ op :: rest ∧
    (∀ early, early <+: before → (s.after early).space? key = none) ∧
    (∃ (σ : Type) (view : StateView σ) (state state' : σ),
      argumentSpace view (s.after before).rules (s.after before).guards key state =
        .ok space state') ∧
    ∀ more, more <+: rest → (s.after (before ++ op :: more)).space? key = some space

/-- A key that comes to a space in a run that drops none has the first one that was
assembled. -/
theorem firstAssembled_after (keeps : ∀ op ∈ ops, op.drops = false)
    (unknown : s.space? key = none) (cached : (s.after ops).space? key = some space) :
    FirstAssembled s ops key space := by
  induction ops generalizing s with
  | nil =>
    rw [show (s.after []).space? key = none from unknown] at cached
    cases cached
  | cons op ops ih =>
    obtain ⟨first, rest⟩ := List.forall_mem_cons.1 keeps
    cases now : (op.run s).space? key with
    | some space' =>
      obtain rfl : space' = space :=
        Option.some.inj ((space?_after rest now).symm.trans cached)
      refine ⟨[], op, ops, rfl, fun early h => ?_,
        (run_of_not_drops first).2 key space' unknown now, fun more h => ?_⟩
      · rw [List.prefix_nil.1 h]
        exact unknown
      · exact space?_after (s := op.run s) (fun o ho => rest o (h.subset ho)) now
    | none =>
      obtain ⟨before, op', later, rfl, none, assembled, stays⟩ := ih rest now cached
      refine ⟨op :: before, op', later, rfl, fun early h => ?_, assembled, stays⟩
      rcases List.prefix_cons_iff.1 h with rfl | ⟨early', rfl, h'⟩
      · exact unknown
      · exact none early' h'

end Runs

/-- **Failed requests are invisible, and spaces never change.** A request that fails before
there is a space for its key leaves the session exactly as it was, so a run goes on as if it
had not been made; any other request leaves a space for its key. Every request, whatever comes
of it, leaves settings, rules, guards, wallets and all spaces as they are, and gives no other
key a space. So in a run that neither changes the rules nor drops all spaces a key keeps its
space, and it is the first one that was assembled for it. -/
theorem failed_request_invisible (settings : Settings) (stream : Random.Stream)
    (ops : List Operation) (contract function typeName name : String) {σ : Type}
    (view : StateView σ) (state : σ) :
    let s₀ := start settings stream
    let s := s₀.after ops
    let request : Operation := .argument view state contract function typeName name
    let outcome := Session.argument view contract function typeName name (s, state)
    (∀ error state', Unprepared view s state contract function typeName name error state' →
      outcome = .error error (s, state') ∧
        ∀ later, s₀.after (ops ++ request :: later) = s₀.after (ops ++ later)) ∧
    ((∀ error state', ¬ Unprepared view s state contract function typeName name error state') →
      ∃ type space, AbiType.ofName typeName = .ok type ∧
        (remaining outcome).space? ⟨contract, function, type, name⟩ = some space) ∧
    (∀ type, AbiType.ofName typeName = .ok type →
      Serves ⟨contract, function, type, name⟩ s (remaining outcome)) ∧
    ∀ later : List Operation, (∀ op ∈ later, op.drops = false) → ∀ key space,
      (s.space? key = some space → (s.after later).space? key = some space) ∧
      (s.space? key = none → (s.after later).space? key = some space →
        FirstAssembled s later key space) := by
  intro s₀ s request outcome
  refine ⟨fun error state' unprepared => ?_, exists_space_of_prepared, fun type typed =>
    argument_serves typed, fun later keeps key space => ?_⟩
  · have failed : outcome = .error error (s, state') := unprepared.outcome
    have unchanged : request.run s = s := congrArg remaining failed
    refine ⟨failed, fun later => ?_⟩
    rw [after_append, after_append]
    change (request.run s).after later = s.after later
    rw [unchanged]
  · exact ⟨space?_after keeps, firstAssembled_after keeps⟩

/-- A byte has to be above 255. The request for it fails, and a later one is as if it had
not been made. -/
theorem failed_request_invisible_cornered :
    let s₀ := start Settings.standard (.ofSeed 7)
    let shown : Operation := .addUnit (unitRequiring ">" "255")
    let failing : Operation := .argument detached () "C" "f" "uint8" "x"
    let other : Operation := .argument detached () "C" "f" "uint8" "y"
    (∃ error, Unprepared detached (s₀.after [shown]) () "C" "f" "uint8" "x" error ()) ∧
      s₀.after [shown, failing, other] = s₀.after [shown, other] := by
  intro s₀ shown failing other
  have typed : AbiType.ofName "uint8" = .ok (.number (.uint 8)) := by decide
  obtain ⟨error, failed⟩ := CallBooks.argumentSpace_cornered detached ()
  have unprepared : Unprepared detached (s₀.after [shown]) () "C" "f" "uint8" "x" error () :=
    .assembly typed rfl failed
  obtain ⟨invisible, -⟩ :=
    failed_request_invisible Settings.standard (.ofSeed 7) [shown] "C" "f" "uint8" "x" detached ()
  exact ⟨⟨error, unprepared⟩, (invisible error () unprepared).2 [other]⟩

end GuardedCalls.Session
