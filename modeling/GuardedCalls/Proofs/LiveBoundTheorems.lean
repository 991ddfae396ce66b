/-
GuardedCalls.Proofs.LiveBoundTheorems — a bound that is read from state, beside
the literal of the value that it reads.

The two take different ways. A literal is folded in once, when it is applied; a
bound that is read from state is tried against what is there, kept, and folded
in last, at every draw. The ways end at one domain, because a domain does not
depend on the order of its demands (`Records.unique`).

* `acceptAll` — constraints applied in turn, up to the first that is not
  accepted.
* `Constraint.demandAt?` — what a constraint demands while its getter has a
  value that stays.
* `constrain_literal_cases`, `constrain_getter_cases` — the step lemmas: a literal
  is folded in or leaves nothing, and so a getter at its reply.
* `acceptAll_cases` — the run lemma for constraints of both sorts: all are
  accepted, or nothing is left for all of them together.
* `refreshed_of_constant` — what is read at a draw is recorded beside the
  literals, and nothing is left exactly when no value meets all of it.
* `live_bound_as_literal` — the two versions of a sequence of constraints
  accept alike, draw alike, and fail alike.
-/
import GuardedCalls.Proofs.DrawTheorems

namespace GuardedCalls

/-! ## What constraints demand while nothing changes -/

/-- What a constraint demands of numbers with `decimals` digits after the point
if every getter has the given value. -/
def Constraint.demandAt? (value : String → Scalar) (decimals : Nat) (c : Constraint) :
    Option Demand :=
  match c.bound with
  | .literal _ _ => c.demand? decimals
  | .getter name => some ⟨c.comparison, value name⟩

/-- The literal version of a constraint: a literal bound stays as it is, and a
getter gives way to a literal that reads as its value. -/
structure Constraint.LiteralVersion (value : String → Scalar) (decimals : Nat)
    (c c' : Constraint) : Prop where
  comparison : c'.comparison = c.comparison
  literal : ∀ text unit, c.bound = .literal text unit → c'.bound = .literal text unit
  getter : ∀ name, c.bound = .getter name → ∃ text unit,
    c'.bound = .literal text unit ∧ Scalar.ofLiteral text unit decimals = .ok (value name)

namespace Constraint.LiteralVersion

variable {value : String → Scalar} {decimals : Nat} {c c' : Constraint}

theorem readsState_eq (h : LiteralVersion value decimals c c') : c'.bound.readsState = false := by
  cases bound : c.bound with
  | literal text unit =>
    rw [h.literal text unit bound]
    rfl
  | getter name =>
    obtain ⟨text, unit, bound', -⟩ := h.getter name bound
    rw [bound']
    rfl

/-- A literal version demands what the constraint demands. -/
theorem demandAt?_eq (h : LiteralVersion value decimals c c') :
    c'.demandAt? value decimals = c.demandAt? value decimals := by
  cases bound : c.bound with
  | literal text unit => simp only [demandAt?, demand?, bound, h.literal _ _ bound, h.comparison]
  | getter name =>
    obtain ⟨text, unit, bound', read⟩ := h.getter name bound
    simp only [demandAt?, demand?, bound, bound', read, h.comparison, Except.toOption,
      Option.map_some]

theorem exists_of_mem {cs cs' : List Constraint}
    (versions : List.Forall₂ (LiteralVersion value decimals) cs cs') (hc' : c' ∈ cs') :
    ∃ c ∈ cs, LiteralVersion value decimals c c' := by
  induction versions with
  | nil => cases hc'
  | cons first _ ih =>
    rcases List.mem_cons.1 hc' with rfl | later
    · exact ⟨_, List.mem_cons_self, first⟩
    · obtain ⟨c, hc, version⟩ := ih later
      exact ⟨c, List.mem_cons_of_mem _ hc, version⟩

/-- So do the literal versions of a sequence. -/
theorem filterMap_demandAt?_eq {cs cs' : List Constraint}
    (versions : List.Forall₂ (LiteralVersion value decimals) cs cs') :
    cs'.filterMap (·.demandAt? value decimals) = cs.filterMap (·.demandAt? value decimals) := by
  induction versions with
  | nil => rfl
  | cons first _ ih => rw [List.filterMap_cons, List.filterMap_cons, first.demandAt?_eq, ih]

end Constraint.LiteralVersion

namespace Domain

section Live

variable {σ : Type} {view : StateView σ} {type : NumberType} {value : String → Scalar}
  {ps qs : List Demand} {p : Demand} {c : Constraint} {cs : List Constraint} {d d' : Domain}

/-! ## Constraints in turn -/

/-- Applies a constraint, and fails if it is not accepted. -/
def accept (view : StateView σ) (d : Domain) (c : Constraint) :
    EStateM ConstrainError σ Domain := fun s =>
  match d.constrain view c s with
  | ((d', none), s) => .ok d' s
  | ((_, some e), s) => .error e s

/-- Applies constraints in turn, up to the first that is not accepted. -/
def acceptAll (view : StateView σ) (cs : List Constraint) (d : Domain) :
    EStateM ConstrainError σ Domain :=
  cs.foldlM (accept view) d

/-- Every getter of the constraint answers with its value, whatever the state. -/
def ReadsAs (view : StateView σ) (value : String → Scalar) (c : Constraint) : Prop :=
  ∀ name, c.bound = .getter name → ∀ s, ∃ s', view name s = .ok (value name) s'

/-- Constraints that are all accepted lead to a domain. -/
theorem reached_acceptAll {cs₀ : List Constraint} {s s' : σ} (before : Reached type cs₀ d)
    (run : acceptAll view cs d s = .ok d' s') : Reached type (cs₀ ++ cs) d' := by
  induction cs generalizing cs₀ d s with
  | nil =>
    cases run
    simpa using before
  | cons c cs ih =>
    unfold acceptAll at run
    simp only [List.foldlM_cons, bind, EStateM.bind] at run
    cases step : accept view d c s with
    | error e s₁ =>
      simp only [step] at run
      cases run
    | ok d₁ s₁ =>
      simp only [step] at run
      have accepted : d.constrain view c s = ((d₁, none), s₁) := by
        unfold accept at step
        split at step
        · next outcome =>
          cases step
          exact outcome
        · cases step
      simpa using ih (before.step view c accepted) run

/-- A literal is folded in, or nothing is left. -/
theorem constrain_literal_cases (view : StateView σ) (h : Records type ps d)
    (literal : c.demand? type.decimals = some p) (s : σ) :
    (∃ d', d.constrain view c s = ((d', none), s) ∧ Records type (ps ++ [p]) d' ∧
      d'.live = d.live ∧ ∃ x, d'.allows x = true) ∨
    ((∃ d' reason, d.constrain view c s = ((d', some (.empty reason)), s)) ∧
      ∀ x, d.allows x = true → ¬ p.Met x) := by
  rw [← h.decimals_eq] at literal
  rw [constrain_literal literal]
  cases folded : d.fold? p with
  | none =>
    obtain ⟨reason, refused⟩ := restrict_of_refused folded
    refine .inr ⟨⟨d, reason, ?_⟩, fun x allowed => ?_⟩
    · simp only [refused, Option.map_some]
    · exact h.not_met_of_refused folded ((h.allows_iff x).1 allowed).2
  | some d₁ =>
    have now := h.fold folded
    rw [restrict_of_fold? folded]
    cases empty : d₁.whyEmpty? with
    | none =>
      exact .inl ⟨d₁, rfl, now, live_of_fold? folded, now.whyEmpty?_eq_none_iff.1 empty⟩
    | some reason =>
      refine .inr ⟨⟨d₁, reason, rfl⟩, fun x allowed met => ?_⟩
      have left : d₁.allows x = true := (h.allows_append_iff now x).2 ⟨allowed, met⟩
      rw [now.whyEmpty?_eq_none_iff.2 ⟨x, left⟩] at empty
      cases empty

/-- A bound that is read from state is kept if something is left at its value,
and changes nothing otherwise. -/
theorem constrain_getter_cases (h : Records type ps d) {name : String}
    (bound : c.bound = .getter name) {v : Scalar} {s s' : σ} (answer : view name s = .ok v s') :
    (d.constrain view c s = (({ d with live := d.live ++ [c] }, none), s') ∧
      ∃ x, d.allows x = true ∧ Demand.Met ⟨c.comparison, v⟩ x) ∨
    ((∃ reason, d.constrain view c s = ((d, some (.empty reason)), s')) ∧
      ∀ x, d.allows x = true → ¬ Demand.Met ⟨c.comparison, v⟩ x) := by
  have value : c.boundValue view d.decimals s = .ok v s' := by
    simp only [Constraint.boundValue, bound, answer]
  have reads : c.bound.readsState = true := by rw [bound]; rfl
  cases folded : d.fold? ⟨c.comparison, v⟩ with
  | none =>
    obtain ⟨reason, refused⟩ := restrict_of_refused folded
    refine .inr ⟨⟨reason, ?_⟩, fun x allowed => ?_⟩
    · simp only [constrain, value, reads, if_true, refused]
    · exact h.not_met_of_refused folded ((h.allows_iff x).1 allowed).2
  | some d₁ =>
    have now := h.fold folded
    have taken := restrict_of_fold? folded
    cases empty : d₁.whyEmpty? with
    | none =>
      refine .inl ⟨?_, ?_⟩
      · simp only [constrain, value, reads, if_true, taken, empty]
      · obtain ⟨x, left⟩ := now.whyEmpty?_eq_none_iff.1 empty
        exact ⟨x, (h.allows_append_iff now x).1 left⟩
    | some reason =>
      refine .inr ⟨⟨reason, ?_⟩, fun x allowed met => ?_⟩
      · simp only [constrain, value, reads, if_true, taken, empty]
      · have left : d₁.allows x = true := (h.allows_append_iff now x).2 ⟨allowed, met⟩
        rw [now.whyEmpty?_eq_none_iff.2 ⟨x, left⟩] at empty
        cases empty

theorem accept_eq {d₁ : Domain} {error? : Option ConstrainError} {s s' : σ}
    (run : d.constrain view c s = ((d₁, error?), s')) :
    accept view d c s = match error? with
      | none => .ok d₁ s'
      | some e => .error e s' := by
  simp only [accept, run]
  cases error? <;> rfl

/-- A run of constraints whose getters keep their values ends in one of two
ways. Either all are accepted: the literals are recorded then and the others
are kept in order. Or one finds nothing left, and no value meets all of them. -/
theorem acceptAll_cases (h : Records type ps d) (left : ∃ x, d.allows x = true)
    (constant : ∀ c ∈ cs, ReadsAs view value c)
    (numbers : ∀ c ∈ cs, ∃ q, c.demandAt? value type.decimals = some q) (s : σ) :
    (∃ d' s', acceptAll view cs d s = .ok d' s' ∧
      Records type (ps ++ cs.filterMap (·.demand? type.decimals)) d' ∧
      d'.live = d.live ++ cs.filter (·.bound.readsState)) ∨
    ((∃ reason s', acceptAll view cs d s = .error (.empty reason) s') ∧
      ∀ x, d.allows x = true →
        ¬ ∀ q ∈ cs.filterMap (·.demandAt? value type.decimals), q.Met x) := by
  induction cs generalizing ps d s with
  | nil => exact .inl ⟨d, s, rfl, by simpa using h, by simp⟩
  | cons c cs ih =>
    obtain ⟨⟨q, number⟩, numbers⟩ := List.forall_mem_cons.1 numbers
    obtain ⟨first, others⟩ := List.forall_mem_cons.1 constant
    rw [List.filterMap_cons_some number]
    -- What is left after the first step decides about the rest.
    have failed : ∀ {reason s'}, accept view d c s = .error (.empty reason) s' →
        (∀ x, d.allows x = true → ¬ q.Met x) →
        (∃ reason s', acceptAll view (c :: cs) d s = .error (.empty reason) s') ∧
          ∀ x, d.allows x = true →
            ¬ ∀ q' ∈ q :: cs.filterMap (·.demandAt? value type.decimals), q'.Met x := by
      intro reason s' step gone
      refine ⟨⟨reason, s', ?_⟩, fun x allowed met => ?_⟩
      · simp only [acceptAll, List.foldlM_cons, bind, EStateM.bind, step]
      · exact gone x allowed (met q List.mem_cons_self)
    have onward : ∀ {d₁ s₁}, accept view d c s = .ok d₁ s₁ →
        acceptAll view (c :: cs) d s = acceptAll view cs d₁ s₁ := by
      intro d₁ s₁ step
      simp only [acceptAll, List.foldlM_cons, bind, EStateM.bind, step]
    cases bound : c.bound with
    | literal text unit =>
      have literal : c.demand? type.decimals = some q := by
        rwa [Constraint.demandAt?, bound] at number
      have notLive : c.bound.readsState = false := by rw [bound]; rfl
      simp only [List.filterMap_cons, literal, List.filter_cons, notLive, Bool.false_eq_true,
        if_false]
      rcases constrain_literal_cases view h literal s with
        ⟨d₁, step, now, same, left₁⟩ | ⟨⟨d₁, reason, step⟩, gone⟩
      · rw [onward (accept_eq step)]
        rcases ih now left₁ others numbers s with ⟨d', s', run, recorded, live⟩ | ⟨run, gone⟩
        · exact .inl ⟨d', s', run, by simpa using recorded, by rw [live, same]⟩
        · refine .inr ⟨run, fun x allowed met => ?_⟩
          obtain ⟨met₁, met⟩ := List.forall_mem_cons.1 met
          exact gone x ((h.allows_append_iff now x).2 ⟨allowed, met₁⟩) met
      · exact .inr (failed (accept_eq step) gone)
    | getter name =>
      obtain rfl : ⟨c.comparison, value name⟩ = q := by
        simpa [Constraint.demandAt?, bound] using number
      have noDemand : c.demand? type.decimals = none := by rw [Constraint.demand?, bound]
      have isLive : c.bound.readsState = true := by rw [bound]; rfl
      simp only [List.filterMap_cons, noDemand, List.filter_cons, isLive, if_true]
      obtain ⟨s₁, answer⟩ := first name bound s
      rcases constrain_getter_cases h bound answer with ⟨step, -⟩ | ⟨⟨reason, step⟩, gone⟩
      · rw [onward (accept_eq step)]
        rcases ih (h.withLive (d.live ++ [c])) left others numbers s₁ with
          ⟨d', s', run, recorded, live⟩ | ⟨run, gone⟩
        · exact .inl ⟨d', s', run, recorded, by rw [live, List.append_assoc]; rfl⟩
        · refine .inr ⟨run, fun x allowed met => ?_⟩
          exact gone x allowed (List.forall_mem_cons.1 met).2
      · exact .inr (failed (accept_eq step) gone)

/-! ## Draws -/

/-- Getters that keep their values answer with them. -/
theorem answers_of_constant (type : NumberType) (constant : ∀ c ∈ cs, ReadsAs view value c)
    (live : ∀ c ∈ cs, c.bound.readsState = true) (s : σ) :
    ∃ answered s', answered.map (·.1) = cs ∧ Answers view answered s s' ∧
      answered.map demandOf = cs.filterMap (·.demandAt? value type.decimals) := by
  induction cs generalizing s with
  | nil => exact ⟨[], s, rfl, .nil, rfl⟩
  | cons c cs ih =>
    obtain ⟨first, others⟩ := List.forall_mem_cons.1 constant
    obtain ⟨name, bound⟩ := exists_getter (live c List.mem_cons_self)
    obtain ⟨s₁, answer⟩ := first name bound s
    obtain ⟨answered, s', rfl, answers, demands⟩ :=
      ih others (fun c hc => live c (List.mem_cons_of_mem _ hc)) s₁
    refine ⟨(c, value name) :: answered, s', rfl, .cons bound answer answers, ?_⟩
    have number : c.demandAt? value type.decimals = some ⟨c.comparison, value name⟩ := by
      rw [Constraint.demandAt?, bound]
    rw [List.map_cons, List.filterMap_cons_some number, demands]
    rfl

/-- The demands of a sequence of constraints are those of its literals and
those of its getters. -/
theorem mem_demandsAt_iff :
    p ∈ cs.filterMap (·.demandAt? value type.decimals) ↔
      p ∈ cs.filterMap (·.demand? type.decimals) ∨
      p ∈ (cs.filter (·.bound.readsState)).filterMap (·.demandAt? value type.decimals) := by
  have split : ∀ c : Constraint, c.demandAt? value type.decimals = some p ↔
      c.demand? type.decimals = some p ∨
        c.bound.readsState = true ∧ c.demandAt? value type.decimals = some p := by
    intro c
    cases bound : c.bound <;> simp [Constraint.demandAt?, Constraint.demand?, bound,
      Bound.readsState]
  simp only [List.mem_filterMap, List.mem_filter]
  constructor
  · rintro ⟨c, hc, demand⟩
    rcases (split c).1 demand with literal | ⟨reads, demand⟩
    · exact .inl ⟨c, hc, literal⟩
    · exact .inr ⟨c, ⟨hc, reads⟩, demand⟩
  · rintro (⟨c, hc, demand⟩ | ⟨c, ⟨hc, -⟩, demand⟩)
    · exact ⟨c, hc, (split c).2 (.inl demand)⟩
    · exact ⟨c, hc, demand⟩

/-- A draw from a domain that keeps no live bound reads nothing. -/
theorem refreshed_of_noLive (none : d.live = []) (s : σ) : d.refreshed view s = .ok d s := by
  cases d
  cases none
  rfl

/-- A draw reads the bounds that an accepted sequence has kept. If a value meets
all demands, they are recorded beside the literals; otherwise nothing is
left. -/
theorem refreshed_of_constant (reached : Reached type cs d)
    (constant : ∀ c ∈ cs, ReadsAs view value c) (s : σ) :
    let demands := cs.filterMap (·.demandAt? value type.decimals)
    ((∃ x, d.allows x = true ∧ ∀ q ∈ demands, q.Met x) →
      ∃ d' s' ps', d.refreshed view s = .ok d' s' ∧ Records type ps' d' ∧
        (∀ p, p ∈ ps' ↔ p ∈ demands) ∧ d'.live = []) ∧
    ((¬ ∃ x, d.allows x = true ∧ ∀ q ∈ demands, q.Met x) →
      ∃ reason s', d.refreshed view s = .error (.empty reason) s') := by
  intro demands
  have kept : ∀ c ∈ cs.filter (·.bound.readsState), ReadsAs view value c :=
    fun c hc => constant c (List.mem_filter.1 hc).1
  have live : ∀ c ∈ cs.filter (·.bound.readsState), c.bound.readsState = true :=
    fun c hc => (List.mem_filter.1 hc).2
  obtain ⟨answered, s', all, answers, replies⟩ := answers_of_constant type kept live s
  have members : ∀ p, p ∈ cs.filterMap (·.demand? type.decimals) ++ answered.map demandOf ↔
      p ∈ demands := by
    intro p
    rw [replies, List.mem_append]
    exact mem_demandsAt_iff.symm
  constructor
  · rintro ⟨x, allowed, met⟩
    have inType := ((reached.records.allows_iff x).1 allowed).1
    have metAll : ∀ p ∈ cs.filterMap (·.demand? type.decimals) ++ answered.map demandOf,
        p.Met x := fun p hp => met p ((members p).1 hp)
    obtain ⟨d', now, live⟩ := (reached.records.withLive []).exists_of_met metAll
    refine ⟨d', s', _, ?_, now, members, live⟩
    exact reached.refreshed_ok_iff.2
      ⟨answered, all, answers, now, live, x, (now.allows_iff x).2 ⟨inType, metAll⟩⟩
  · intro gone
    refine reached.refreshed_empty_iff.2 ⟨answered, s', all ▸ List.prefix_rfl, answers, ?_⟩
    rintro ⟨x, allowed, met⟩
    refine gone ⟨x, allowed, fun q hq => ?_⟩
    rcases List.mem_append.1 ((members q).2 hq) with literal | read
    · exact ((reached.records.allows_iff x).1 allowed).2 q literal
    · obtain ⟨r, hr, rfl⟩ := List.mem_map.1 read
      exact met r hr

/-- What a draw gives, and where it leaves the stream, is settled by the domain
that reading comes to. -/
theorem draw_eq_of_refreshed {attempts : Nat} {w : World σ} {s : σ} {x : Scalar}
    {stream : Random.Stream} (read : d.refreshed view w.state = .ok d' s)
    (picked : d'.pick attempts w.stream = (.ok x, stream)) :
    d.draw view attempts w = .ok x ⟨s, stream⟩ := by
  simp only [draw, bind, EStateM.bind, World.read, World.draw, read, picked]
  rfl

/-- **A live bound behaves like the literal of the value that it reads.** Let
every getter answer with one value, whatever the state, and let all literals be
numbers of the type. Replace every getter by a literal that reads as its value.
If the literals are all accepted by the range of the type, so are the live
bounds, and from one stream and one number of attempts every draw gives the same
value and leaves the same stream. If the literals leave nothing, then so do the
live bounds, when they are applied or at every draw. -/
theorem live_bound_as_literal {σ' : Type} {cs' : List Constraint}
    (constant : ∀ name s, ∃ s', view name s = .ok (value name) s')
    (numbers : ∀ c ∈ cs, ∀ text unit, c.bound = .literal text unit →
      ∃ v, Scalar.ofLiteral text unit type.decimals = .ok v)
    (versions : List.Forall₂ (Constraint.LiteralVersion value type.decimals) cs cs')
    (view' : StateView σ') (s : σ) (s' : σ') :
    (∀ d' t', acceptAll view' cs' (ofType type) s' = .ok d' t' →
      ∃ d t, acceptAll view cs (ofType type) s = .ok d t ∧
        ∀ attempts (w : World σ) (w' : World σ'), w.stream = w'.stream →
          ∃ x t t' stream, d.draw view attempts w = .ok x ⟨t, stream⟩ ∧
            d'.draw view' attempts w' = .ok x ⟨t', stream⟩) ∧
    (∀ reason t', acceptAll view' cs' (ofType type) s' = .error (.empty reason) t' →
      (∃ reason t, acceptAll view cs (ofType type) s = .error (.empty reason) t) ∨
      ∃ d t, acceptAll view cs (ofType type) s = .ok d t ∧
        ∀ attempts (w : World σ), ∃ reason w', d.draw view attempts w =
          .error (.empty reason) w') := by
  have reads : ∀ c ∈ cs, ReadsAs view value c := fun _ _ name _ => constant name
  have hasDemand : ∀ c ∈ cs, ∃ q, c.demandAt? value type.decimals = some q := by
    intro c hc
    cases bound : c.bound with
    | literal text unit =>
      obtain ⟨v, read⟩ := numbers c hc text unit bound
      exact ⟨⟨c.comparison, v⟩, by simp [Constraint.demandAt?, Constraint.demand?, bound, read,
        Except.toOption]⟩
    | getter name => exact ⟨_, by rw [Constraint.demandAt?, bound]⟩
  have left : ∃ x, (ofType type).allows x = true := Reached.whole.exists_allows
  have liveRun := acceptAll_cases (records_ofType type) left reads hasDemand s
  -- The literal version makes the same demands.
  have literal : ∀ c' ∈ cs', c'.bound.readsState = false := by
    intro c' hc'
    obtain ⟨c, -, version⟩ := Constraint.LiteralVersion.exists_of_mem versions hc'
    exact version.readsState_eq
  have reads' : ∀ c' ∈ cs', ReadsAs view' value c' := by
    intro c' hc' name bound
    have := literal c' hc'
    rw [bound] at this
    cases this
  have hasDemand' : ∀ c' ∈ cs', ∃ q, c'.demandAt? value type.decimals = some q := by
    intro c' hc'
    obtain ⟨c, hc, version⟩ := Constraint.LiteralVersion.exists_of_mem versions hc'
    rw [version.demandAt?_eq]
    exact hasDemand c hc
  have same := Constraint.LiteralVersion.filterMap_demandAt?_eq versions
  have literalRun := acceptAll_cases (records_ofType type) left reads' hasDemand' s'
  rw [same] at literalRun
  rcases literalRun with ⟨d₁, t₁, run₁, recorded₁, live₁⟩ | ⟨⟨reason₁, t₁, run₁⟩, gone⟩
  · refine ⟨fun d' t' run => ?_, fun reason t' run => (by rw [run₁] at run; cases run)⟩
    rw [run₁] at run
    cases run
    have reached₁ : Reached type cs' d₁ := by simpa using reached_acceptAll .whole run₁
    have members : ∀ p, p ∈ cs'.filterMap (·.demand? type.decimals) ↔
        p ∈ cs.filterMap (·.demandAt? value type.decimals) := by
      intro p
      rw [← same, mem_demandsAt_iff, List.filter_eq_nil_iff.2 fun c hc => by simp [literal c hc]]
      simp
    obtain ⟨x, allowed₁⟩ := reached₁.exists_allows
    obtain ⟨inType, met⟩ := (reached₁.records.allows_iff x).1 allowed₁
    have metAll := fun q hq => met q ((members q).2 hq)
    rcases liveRun with ⟨d, t, run, recorded, -⟩ | ⟨-, gone⟩
    · have reached : Reached type cs d := by simpa using reached_acceptAll .whole run
      have allowed : d.allows x = true := (reached.records.allows_iff x).2
        ⟨inType, fun p hp => metAll p (mem_demandsAt_iff.2 (.inl hp))⟩
      refine ⟨d, t, run, fun attempts w w' stream => ?_⟩
      obtain ⟨d₂, u, ps', read, now, members', live₂⟩ :=
        (refreshed_of_constant reached reads w.state).1 ⟨x, allowed, metAll⟩
      -- The same demands lead to the same domain, whatever their order.
      have noLive : d₁.live = [] := by
        rw [reached₁.live_eq]
        exact List.filter_eq_nil_iff.2 fun c hc => by simp [literal c hc]
      obtain rfl : d₂ = d₁ := now.unique reached₁.records
        (fun p => (members' p).trans (members p).symm) (live₂.trans noLive.symm)
      have read' : d₂.refreshed view' w'.state = .ok d₂ w'.state :=
        refreshed_of_noLive live₂ w'.state
      obtain ⟨y, after, picked, -⟩ := pick_allows reached₁.exists_allows attempts w.stream
      exact ⟨y, u, w'.state, after, draw_eq_of_refreshed read picked,
        draw_eq_of_refreshed read' (stream ▸ picked)⟩
    · exact absurd metAll (gone x ((Reached.whole.records.allows_iff x).2
        ⟨inType, List.forall_mem_nil _⟩))
  · refine ⟨fun d' t' run => (by rw [run₁] at run; cases run), fun reason t' run => ?_⟩
    rcases liveRun with ⟨d, t, run, -⟩ | ⟨failed, -⟩
    · refine .inr ⟨d, t, run, fun attempts w => ?_⟩
      have reached : Reached type cs d := by simpa using reached_acceptAll .whole run
      obtain ⟨reason, u, read⟩ := (refreshed_of_constant reached reads w.state).2 fun left => by
        obtain ⟨x, allowed, met⟩ := left
        have inType := ((reached.records.allows_iff x).1 allowed).1
        exact gone x ((Reached.whole.records.allows_iff x).2
          ⟨inType, List.forall_mem_nil _⟩) met
      exact ⟨reason, _, draw_of_refreshed_error read⟩
    · exact .inl failed

/-- A byte that is not zero and less than a cap that reads two: its literal
version is accepted, so the cap is, and both draw the same. -/
theorem live_bound_as_literal_cap :
    let cs : List Constraint :=
      [literalConstraint .notEqual "0", ⟨.less, .getter "cap", .rule "limits"⟩]
    let cs' : List Constraint := [literalConstraint .notEqual "0", literalConstraint .less "2"]
    let view : StateView Unit := answering ⟨2, by decide⟩
    ∃ d d', acceptAll view cs (ofType (.uint 8)) () = .ok d () ∧
      acceptAll detached cs' (ofType (.uint 8)) () = .ok d' () ∧
      ∃ x w w', d.draw view 0 ⟨(), Random.Stream.ofSeed 7⟩ = .ok x w ∧
        d'.draw detached 0 ⟨(), Random.Stream.ofSeed 7⟩ = .ok x w' := by
  intro cs cs' view
  obtain ⟨d', literal⟩ : ∃ d', acceptAll detached cs' (ofType (.uint 8)) () = .ok d' () :=
    ⟨_, rfl⟩
  have numbers : ∀ c ∈ cs, ∀ text unit, c.bound = .literal text unit →
      ∃ v, Scalar.ofLiteral text unit (NumberType.uint 8).decimals = .ok v := by
    rintro c hc text unit bound
    simp only [cs, List.mem_cons, List.not_mem_nil, or_false] at hc
    rcases hc with rfl | rfl
    · cases bound
      exact ⟨Scalar.zero, by decide⟩
    · cases bound
  have versions : List.Forall₂ (Constraint.LiteralVersion (fun _ => ⟨2, by decide⟩) 0) cs cs' :=
    .cons ⟨rfl, fun _ _ bound => bound, nofun⟩
      (.cons ⟨rfl, nofun, fun _ _ => ⟨"2", none, rfl, by decide⟩⟩ .nil)
  have constant : ∀ (name : String) (s : Unit), ∃ s', view name s = .ok ⟨2, by decide⟩ s' :=
    fun _ s => ⟨s, rfl⟩
  obtain ⟨d, t, live, draws⟩ :=
    (live_bound_as_literal constant numbers versions detached () ()).1 d' () literal
  obtain ⟨x, t, t', stream, first, second⟩ :=
    draws 0 ⟨(), Random.Stream.ofSeed 7⟩ ⟨(), Random.Stream.ofSeed 7⟩ rfl
  exact ⟨d, d', live, literal, x, _, _, first, second⟩

end Live

end Domain

end GuardedCalls
