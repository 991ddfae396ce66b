/-
GuardedCalls.Proofs.RejectionTheorems — what a constraint leaves that is
rejected.

A constraint that values of the sort do not honour, a bound that is no number, and
a bound read from state that leaves nothing change nothing. A literal is folded
in before the question whether something is left, and it stays folded in: where
nothing is left, the space is marked as empty by that. Only a literal that
cannot be folded in at all leaves no trace, which is an equality beside another
one, or a strict bound beyond the last scalar.

* `Emptied` — a literal was folded in and leaves nothing; `constrain_rejected`
  — without that a rejection changes nothing, whatever the space.
* `Tried` — the spaces that constraints lead to, rejected ones among them, with
  those that were accepted.
* `Outcome` — where that can be. `Outcome.accepted` and `Outcome.rejected` are the
  step lemmas and `Tried.outcome` the run lemma.
* `rejected_constraint` — as long as a value is left, a space is what the accepted
  constraints alone lead to; without one it accepts nothing any more.
-/
import GuardedCalls.Proofs.SpaceTheorems

namespace GuardedCalls

/-! ## One constraint -/

namespace Domain

variable {σ : Type} {view : StateView σ} {type : NumberType} {ps : List Demand} {c : Constraint}
  {d d' : Domain} {e : ConstrainError} {s s' : σ}

/-- A literal was folded in, and the domain is found to be empty for it. -/
inductive Emptied (c : Constraint) (d d' : Domain) : ConstrainError → Prop
  | literal {p : Demand} {reason : EmptyReason} (demand : c.demand? d.decimals = some p)
      (folded : d.fold? p = some d') (why : d'.whyEmpty? = some reason) :
      Emptied c d d' (.empty reason)

/-- A rejected constraint changes nothing, unless it is a literal that was
folded in. -/
theorem constrain_rejected (run : d.constrain view c s = ((d', some e), s')) :
    d' = d ∨ Emptied c d d' e := by
  obtain ⟨comparison, bound, origin⟩ := c
  cases bound with
  | getter name =>
    refine .inl ?_
    simp only [constrain, Constraint.boundValue, Bound.readsState, if_true] at run
    cases read : view name s with
    | error e₁ s₁ =>
      simp only [read] at run
      exact (Prod.mk.inj (Prod.mk.inj run).1).1.symm
    | ok v s₁ =>
      simp only [read] at run
      split at run
      · exact (Prod.mk.inj (Prod.mk.inj run).1).1.symm
      · cases (Prod.mk.inj (Prod.mk.inj run).1).2
  | literal text unit =>
    cases read : Scalar.ofLiteral text unit d.decimals with
    | error bad =>
      simp only [constrain, Constraint.boundValue, read] at run
      exact .inl (Prod.mk.inj (Prod.mk.inj run).1).1.symm
    | ok v =>
      have demand : Constraint.demand? ⟨comparison, .literal text unit, origin⟩ d.decimals =
          some ⟨comparison, v⟩ := by
        simp [Constraint.demand?, read, Except.toOption]
      rw [constrain_literal demand] at run
      obtain ⟨outcome, -⟩ := Prod.mk.inj run
      obtain ⟨same, why⟩ := Prod.mk.inj outcome
      cases folded : d.fold? ⟨comparison, v⟩ with
      | none =>
        obtain ⟨reason, refused⟩ := restrict_of_refused folded
        simp only [refused] at same
        exact .inl same.symm
      | some d₁ =>
        have taken := restrict_of_fold? folded
        simp only [taken] at same why
        subst same
        obtain ⟨reason, found, rfl⟩ := Option.map_eq_some_iff.1 why
        exact .inr (.literal demand folded found)

/-- What is emptied has no value. -/
theorem Emptied.records (h : Records type ps d) (emptied : Emptied c d d' e) :
    ∃ p, Records type (ps ++ [p]) d' ∧ ∀ x, d'.allows x = false := by
  obtain ⟨demand, folded, why⟩ := emptied
  have now := h.fold folded
  refine ⟨_, now, fun x => Bool.eq_false_iff.2 fun allowed => ?_⟩
  rw [now.whyEmpty?_eq_none_iff.2 ⟨x, allowed⟩] at why
  cases why

/-- A domain that accepts a constraint has a value. -/
theorem Records.exists_allows_of_accepted (h : Records type ps d)
    (accepted : d.constrain view c s = ((d', none), s')) : ∃ x, d.allows x = true := by
  cases bound : c.bound with
  | literal text unit =>
    rcases constrain_accepted accepted with ⟨p, -, folded, notEmpty, -⟩ | ⟨reads, -⟩
    · have now := h.fold folded
      obtain ⟨x, left⟩ := now.whyEmpty?_eq_none_iff.1 notEmpty
      exact ⟨x, ((h.allows_append_iff now x).1 left).1⟩
    · rw [bound] at reads
      cases reads
  | getter name =>
    cases answer : view name s with
    | error e₁ s₁ =>
      simp only [constrain, Constraint.boundValue, bound, answer] at accepted
      cases (Prod.mk.inj (Prod.mk.inj accepted).1).2
    | ok v s₁ =>
      rcases constrain_getter_cases h bound answer with ⟨-, x, left, -⟩ | ⟨⟨reason, rejected⟩, -⟩
      · exact ⟨x, left⟩
      · rw [rejected] at accepted
        cases (Prod.mk.inj (Prod.mk.inj accepted).1).2

end Domain

namespace Space

variable {σ : Type} {view : StateView σ} {type : AbiType} {number : NumberType} {c : Constraint}
  {cs : List Constraint} {d : Domain} {space space' : Space} {e : ConstrainError}
  {error? : Option ConstrainError} {s s' : σ}

/-- A literal was folded into the domain of a number space, and the domain is
found to be empty for it. -/
inductive Emptied (c : Constraint) : Space → Space → ConstrainError → Prop
  | number {number : NumberType} {d d' : Domain} {e : ConstrainError}
      (domain : Domain.Emptied c d d' e) : Emptied c (.number number d) (.number number d') e

/-- A rejected constraint changes nothing, unless it is a literal that was
folded in. -/
theorem constrain_rejected (run : space.constrain view c s = ((space', some e), s')) :
    space' = space ∨ Emptied c space space' e := by
  cases space with
  | number number d =>
    rcases constrain_number_cases run with ⟨rfl, -⟩ | ⟨d', rfl, step⟩
    · exact .inl rfl
    · rcases Domain.constrain_rejected step with rfl | emptied
      · exact .inl rfl
      · exact .inr (.number emptied)
  | _ => exact .inl (constrain_of_not_number (fun _ same => by cases same) run).1

/-! ## Constraints in turn -/

/-- The spaces that constraints lead to from the whole range of a type, and the
constraints among them that were accepted, in order. A rejected one counts for
nothing, but what it leaves is gone on with. -/
inductive Tried (type : AbiType) : List Constraint → Space → Prop
  | fresh : Tried type [] (ofType type)
  | accepted {cs : List Constraint} {space space' : Space} {σ : Type} (view : StateView σ)
      (c : Constraint) {s s' : σ} (before : Tried type cs space)
      (run : space.constrain view c s = ((space', none), s')) : Tried type (cs ++ [c]) space'
  | rejected {cs : List Constraint} {space space' : Space} {σ : Type} (view : StateView σ)
      (c : Constraint) {s s' : σ} {e : ConstrainError} (before : Tried type cs space)
      (run : space.constrain view c s = ((space', some e), s')) : Tried type cs space'

/-- A number space whose domain has no value. -/
inductive Exhausted : Space → Prop
  | number {number : NumberType} {d : Domain} (none : ∀ x, d.allows x = false) :
      Exhausted (.number number d)

theorem not_exhausted_of_allows {x : Scalar} (left : space.domain?.any (·.allows x) = true) :
    ¬ Exhausted space := by
  rintro ⟨none⟩
  rw [domain?, Option.any_some, none x] at left
  cases left

/-- Where constraints can lead: to the domain that the accepted ones alone lead
to, to one without a value, or nowhere, if the type is no number type. -/
inductive Outcome : AbiType → List Constraint → Space → Prop
  | left {number : NumberType} {cs : List Constraint} {d : Domain}
      (reached : Domain.Reached number cs d) : Outcome (.number number) cs (.number number d)
  | gone {number : NumberType} {cs : List Constraint} {ps : List Demand} {d : Domain}
      (records : Domain.Records number ps d) (none : ∀ x, d.allows x = false) :
      Outcome (.number number) cs (.number number d)
  | untouched {type : AbiType} {space : Space} (other : ∀ number, type ≠ .number number)
      (whole : space = ofType type) : Outcome type [] space

/-- Something is recorded by a number space, whether a value is left or not. -/
theorem Outcome.records (outcome : Outcome type cs (.number number d)) :
    type = .number number ∧ ∃ ps, Domain.Records number ps d := by
  cases outcome with
  | left reached => exact ⟨rfl, _, reached.records⟩
  | gone records none => exact ⟨rfl, _, records⟩
  | untouched other whole =>
    have own : type = .number number := by rw [← type_ofType type, ← whole, Space.type]
    exact absurd own (other number)

/-- What accepts a constraint has a value. -/
theorem Outcome.not_exhausted_of_accepted (before : Outcome type cs space)
    (run : space.constrain view c s = ((space', none), s')) : ¬ Exhausted space := by
  rintro ⟨nothing⟩
  obtain ⟨-, ps, records⟩ := before.records
  rcases constrain_number_cases run with ⟨-, passed⟩ | ⟨d', rfl, step⟩
  · cases passed
  · obtain ⟨x, left⟩ := records.exists_allows_of_accepted step
    rw [nothing x] at left
    cases left

/-- One more constraint that is accepted. -/
theorem Outcome.accepted (before : Outcome type cs space)
    (run : space.constrain view c s = ((space', none), s')) :
    Outcome type (cs ++ [c]) space' := by
  have hasValue := before.not_exhausted_of_accepted run
  cases before with
  | left reached =>
    rcases constrain_number_cases run with ⟨-, passed⟩ | ⟨d', rfl, step⟩
    · cases passed
    · exact .left (reached.step view c step)
  | gone records none => exact absurd (.number none) hasValue
  | untouched other whole =>
    obtain ⟨-, passed⟩ := constrain_of_not_number (by rwa [whole, type_ofType]) run
    cases passed

/-- One more constraint that is rejected. -/
theorem Outcome.rejected (before : Outcome type cs space)
    (run : space.constrain view c s = ((space', some e), s')) :
    Outcome type cs space' ∧ (Emptied c space space' e → Exhausted space') := by
  have emptied : ∀ {number d d'}, Outcome type cs (.number number d) →
      Domain.Emptied c d d' e → Outcome type cs (.number number d') ∧
        Exhausted (.number number d') := by
    intro number d d' before emptied
    obtain ⟨rfl, ps, records⟩ := before.records
    obtain ⟨p, now, none⟩ := emptied.records records
    exact ⟨.gone now none, ⟨none⟩⟩
  constructor
  · rcases constrain_rejected run with rfl | ⟨⟨folded⟩⟩
    · exact before
    · exact (emptied before folded).1
  · rintro ⟨folded⟩
    exact (emptied before folded).2

/-- Where nothing is left nothing is accepted, and nothing is left afterwards. -/
theorem Outcome.exhausted (outcome : Outcome type cs space) (none : Exhausted space)
    (view : StateView σ) (c : Constraint) (s : σ) :
    ∃ space' e s', space.constrain view c s = ((space', some e), s') ∧ Exhausted space' := by
  generalize run : space.constrain view c s = result
  obtain ⟨⟨space', error?⟩, s'⟩ := result
  cases error? with
  | none => exact absurd none (outcome.not_exhausted_of_accepted run)
  | some e =>
    refine ⟨space', e, s', rfl, ?_⟩
    rcases constrain_rejected run with rfl | emptied
    · exact none
    · exact (outcome.rejected run).2 emptied

/-- The run lemma for constraints of which some are rejected. -/
theorem Tried.outcome (tried : Tried type cs space) : Outcome type cs space := by
  induction tried with
  | fresh =>
    cases type with
    | number number => exact .left .whole
    | _ => exact .untouched (fun _ same => by cases same) rfl
  | accepted view c before run ih => exact ih.accepted run
  | rejected view c before run ih => exact (ih.rejected run).1

/-! ## What a rejection leaves -/

/-- What is drawn from a number space that accepted constraints have led to is a
number that meets them. -/
theorem of_draw_reached (reached : Domain.Reached number cs d) {how : Sampling} {w w' : World σ}
    {v : AbiValue} (drawn : (Space.number number d).draw view how w = .ok v w') :
    ∃ x, v.scalar? = some x ∧ Domain.MeetsLiterals number cs x ∧
      ∃ answered, answered.map (·.1) = cs.filter (·.bound.readsState) ∧
        Domain.Answers view answered w.state w'.state ∧ Domain.MeetsAnswers answered x := by
  obtain ⟨x, given, made⟩ := of_draw_number drawn
  obtain ⟨-, met⟩ := reached.of_draw given
  exact ⟨x, NumberType.scalar?_of_value? made, met⟩

/-- **A rejected constraint.** It leaves the space as it was, unless it is a literal
that was folded in and the domain is found to be empty for it. A constraint that
values do not honour, a bound without a number and a bound read from state are
never of that sort. Whatever has been tried on the range of a type before, what is
emptied has no value left, and a space without a value accepts nothing any more and
stays without one. As long as a value is left, a number space is the one that the
accepted constraints alone lead to, and what is drawn meets them all. A space of
another sort has accepted nothing and is still whole. -/
theorem rejected_constraint (rejected : space.constrain view c s = ((space', some e), s')) :
    (space' = space ∨ Emptied c space space' e) ∧
    ((∀ reason, e ≠ .empty reason) ∨ c.bound.readsState = true → space' = space) ∧
    ∀ type cs, Tried type cs space →
      (Emptied c space space' e → Exhausted space') ∧
      (Exhausted space' → ∀ (σ' : Type) (view' : StateView σ') (c' : Constraint) (s₁ : σ'),
        ∃ space'' e' s₂, space'.constrain view' c' s₁ = ((space'', some e'), s₂) ∧
          Exhausted space'') ∧
      (¬ Exhausted space' → ∀ number, type = .number number →
        ∃ d, space' = .number number d ∧ Domain.Reached number cs d ∧
          ∀ (σ' : Type) (view' : StateView σ') (how : Sampling) (w w' : World σ') (v : AbiValue),
            space'.draw view' how w = .ok v w' → ∃ x, v.scalar? = some x ∧
              Domain.MeetsLiterals number cs x ∧
              ∃ answered, answered.map (·.1) = cs.filter (·.bound.readsState) ∧
                Domain.Answers view' answered w.state w'.state ∧
                Domain.MeetsAnswers answered x) ∧
      ((∀ number, type ≠ .number number) → cs = [] ∧ space' = ofType type) := by
  have changed := constrain_rejected rejected
  refine ⟨changed, ?_, fun type cs tried => ?_⟩
  · rcases changed with same | ⟨⟨demand, folded, why⟩⟩
    · exact fun _ => same
    · rintro (other | reads)
      · exact absurd rfl (other _)
      · obtain ⟨text, unit, v, bound, -⟩ := Constraint.demand?_eq_some_iff.1 demand
        rw [bound] at reads
        cases reads
  obtain ⟨outcome, exhausted⟩ := tried.outcome.rejected rejected
  refine ⟨exhausted, fun none σ' view' c' s₁ => outcome.exhausted none view' c' s₁, ?_, ?_⟩
  · rintro left number rfl
    cases outcome with
    | left reached =>
      exact ⟨_, rfl, reached, fun _ _ _ _ _ _ drawn => of_draw_reached reached drawn⟩
    | gone records none => exact absurd (.number none) left
    | untouched other whole => exact absurd rfl (other number)
  · intro other
    cases outcome with
    | left reached => exact absurd rfl (other _)
    | gone records none => exact absurd rfl (other _)
    | untouched _ whole => exact ⟨rfl, whole⟩

/-- A byte below ten refuses to be at least a cap that reads twenty. It is what
it was, and what is drawn from it is below ten. -/
theorem rejected_constraint_cap :
    let below := Domain.literalConstraint .less "10"
    let cap : Constraint := ⟨.greaterOrEqual, .getter "cap", .rule "limits"⟩
    let view : StateView Unit := Domain.answering ⟨20, by decide⟩
    ∃ space e, Tried (.number (.uint 8)) [below] space ∧ ¬ Exhausted space ∧
      space.constrain view cap () = ((space, some e), ()) ∧
      ∀ (how : Sampling) (w w' : World Unit) (v : AbiValue),
        space.draw view how w = .ok v w' → ∃ x, v.scalar? = some x ∧
          Domain.MeetsLiterals (.uint 8) [below] x := by
  intro below cap view
  let space := ((ofType (.number (.uint 8))).constrain detached below ()).1.1
  have tried : Tried (.number (.uint 8)) [below] space :=
    .accepted detached below .fresh (constrain_of_error? (s := ()) (by decide))
  have left : ¬ Exhausted space := not_exhausted_of_allows (x := Scalar.one) (by decide)
  obtain ⟨e, refused⟩ : ∃ e, (space.constrain view cap ()).1.2 = some e :=
    Option.isSome_iff_exists.1 (by decide)
  have rejected := constrain_of_error? refused
  obtain ⟨-, same, accepted⟩ := rejected_constraint rejected
  obtain ⟨-, -, drawn, -⟩ := accepted _ _ tried
  rw [same (.inr rfl)] at rejected drawn
  refine ⟨space, e, tried, left, rejected, fun how w w' v run => ?_⟩
  obtain ⟨d, -, -, drawn⟩ := drawn left _ rfl
  obtain ⟨x, number, literals, -⟩ := drawn Unit view how w w' v run
  exact ⟨x, number, literals⟩

/-- **A rejected literal changes a domain.** Of the numbers below ten none is above
twenty; the lower end is lifted all the same. -/
theorem rejected_literal_changes_domain :
    let below := Domain.literalConstraint .less "10"
    let above := Domain.literalConstraint .greater "20"
    ∃ space space' e, Tried (.number (.uint 256)) [below] space ∧
      space.constrain detached above () = ((space', some e), ()) ∧
      space'.domain? ≠ space.domain? := by
  intro below above
  let space := ((ofType (.number (.uint 256))).constrain detached below ()).1.1
  have tried : Tried (.number (.uint 256)) [below] space :=
    .accepted detached below .fresh (constrain_of_error? (s := ()) (by decide))
  obtain ⟨e, refused⟩ : ∃ e, (space.constrain detached above ()).1.2 = some e :=
    Option.isSome_iff_exists.1 (by decide)
  exact ⟨space, _, e, tried, constrain_of_error? refused, by decide⟩

end Space

end GuardedCalls
