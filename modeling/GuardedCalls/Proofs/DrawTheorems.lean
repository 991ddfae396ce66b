/-
GuardedCalls.Proofs.DrawTheorems — what a draw from a domain gives.

A draw reads the bounds that depend on state, folds them in, and picks a value
of what is left.

* `Random.untilAccepted_spec` — whatever stream is drawn from, and however many
  refusals it has patience for, a rejection loop gives what is accepted or what
  the last resort makes, so a number up to a span and a scalar of an interval
  (`Scalar.between_eq`) lie where they should.
* `pick_allows` — a domain that has a value gives one, and an allowed
  one, on each of the three ways out: pinned, accepted, or found by a climb.
* `Answers` — the bounds that were read in a draw, in order, with their
  replies. `foldlM_narrowLive_ok_iff` and `foldlM_narrowLive_empty_iff` say
  which replies lead to a domain and which to nothing.
* `draw_sound_complete` — the two halves together, for a domain that accepted
  constraints have led to.
-/
import GuardedCalls.Proofs.ArithmeticTheorems
import GuardedCalls.Proofs.ClimbTheorems

namespace GuardedCalls

/-! ## Numbers and scalars at random -/

namespace Random

/-- One draw after another. -/
theorem bind_apply {α β : Type} (draw : Draw α) (next : α → Draw β) (s : Stream) :
    (draw >>= next) s = next (draw s).1 (draw s).2 := rfl

theorem map_apply {α β : Type} (f : α → β) (draw : Draw α) (s : Stream) :
    (f <$> draw) s = (f (draw s).1, (draw s).2) := rfl

section Loops

variable {α β : Type} {draw : Draw α} {accept? : α → Option β} {lastResort : α → β}

theorem acceptedWithin_zero (s : Stream) :
    acceptedWithin draw accept? lastResort 0 s = (lastResort (draw s).1, (draw s).2) := rfl

theorem acceptedWithin_of_some {fuel : Nat} {s : Stream} {b : β}
    (accepted : accept? (draw s).1 = some b) :
    acceptedWithin draw accept? lastResort (fuel + 1) s = (b, (draw s).2) := by
  rw [acceptedWithin, bind_apply, accepted]
  rfl

theorem acceptedWithin_of_none {fuel : Nat} {s : Stream}
    (refused : accept? (draw s).1 = none) :
    acceptedWithin draw accept? lastResort (fuel + 1) s =
      acceptedWithin draw accept? lastResort fuel (draw s).2 := by
  rw [acceptedWithin, bind_apply, refused]

theorem untilAccepted_apply (s : Stream) : untilAccepted draw accept? lastResort s =
    acceptedWithin draw accept? lastResort (s.patience + 1) s := rfl

theorem acceptedWithin_spec (P : β → Prop) (accepted : ∀ a b, accept? a = some b → P b)
    (last : ∀ a, P (lastResort a)) :
    ∀ fuel s, P (acceptedWithin draw accept? lastResort fuel s).1 := by
  intro fuel
  induction fuel with
  | zero => exact fun s => last _
  | succ fuel ih =>
    intro s
    cases h : accept? (draw s).1 with
    | some b =>
      rw [acceptedWithin_of_some h]
      exact accepted _ b h
    | none =>
      rw [acceptedWithin_of_none h]
      exact ih _

/-- A rejection loop gives what was accepted, or what the last resort makes. -/
theorem untilAccepted_spec (P : β → Prop) (accepted : ∀ a b, accept? a = some b → P b)
    (last : ∀ a, P (lastResort a)) (s : Stream) :
    P (untilAccepted draw accept? lastResort s).1 :=
  acceptedWithin_spec P accepted last (s.patience + 1) s

end Loops

/-- A number up to a span does not exceed it. -/
theorem upTo_le (span : Nat) (s : Stream) : (upTo span s).1 ≤ span := by
  refine untilAccepted_spec (· ≤ span) (fun w n h => ?_) (fun w => ?_) s
  · simp only [upTo?] at h
    split at h
    · next small => exact Option.some.inj h ▸ small
    · cases h
  · exact Nat.le_of_lt_succ (Nat.mod_lt _ (Nat.succ_pos span))

end Random

namespace Scalar

variable {low high : Scalar} {span : Nat}

/-- A scalar of an interval is as far above its lower end as a number up to its
length says. -/
theorem between_eq (apart : high.val = low.val + span) (fits : span < 2 ^ 256) :
    between low high = (fun n => (low.add? n).getD low) <$> Random.upTo span := by
  have ordered : low ≤ high := by
    rw [le_iff]
    omega
  have distance : distance? low high = some span :=
    distance?_eq_some_iff.2 ⟨ordered, by omega, by omega⟩
  simp only [between, distance, bind_pure_comp]

theorem val_getD_add? {n : Nat} (apart : high.val = low.val + span) (fits : span < 2 ^ 256)
    (small : n ≤ span) : ((low.add? n).getD low).val = low.val + n := by
  obtain ⟨x, sum⟩ :=
    exists_val_eq (show low.val ≤ low.val + n by omega) (show low.val + n ≤ high.val by omega)
  rw [add?_eq low (by omega), ofInt?_eq_some_iff.2 sum]
  exact sum

/-- A scalar of an interval lies in it. -/
theorem between_mem (ordered : low ≤ high) (s : Random.Stream) :
    low ≤ (between low high s).1 ∧ (between low high s).1 ≤ high := by
  cases distance : distance? low high with
  | none =>
    have lowest : between low high s = (low, s) := by
      simp only [between, distance]
      rfl
    rw [lowest]
    exact ⟨Int.le_refl _, ordered⟩
  | some span =>
    obtain ⟨-, length, fits⟩ := distance?_eq_some_iff.1 distance
    have apart : high.val = low.val + span := by omega
    have small := Random.upTo_le span s
    have value := val_getD_add? apart (by omega) small
    rw [between_eq apart (by omega), Random.map_apply, le_iff, le_iff, value]
    omega

end Scalar

namespace Domain

/-- A candidate lies in the interval, however often it is drawn again. -/
theorem candidate_mem {d : Domain} (ordered : d.low ≤ d.high) :
    ∀ attempts s, d.low ≤ (d.candidate attempts s).1 ∧ (d.candidate attempts s).1 ≤ d.high := by
  intro attempts
  induction attempts with
  | zero => exact Scalar.between_mem ordered
  | succ attempts ih =>
    intro s
    rw [candidate, Random.bind_apply]
    by_cases again : (Scalar.between d.low d.high s).1 ∈ d.excluded
    · rw [if_pos again]
      exact ih _
    · rw [if_neg again]
      exact Scalar.between_mem ordered s

/-! ## Picking a value -/

/-- A domain that has a value gives one that it allows, whether it is pinned,
whether a draw is accepted, or whether the climb has to find one. -/
theorem pick_allows {d : Domain} (left : ∃ x, d.allows x = true) (attempts : Nat)
    (s : Random.Stream) :
    ∃ v s', d.pick attempts s = (.ok v, s') ∧ d.allows v = true := by
  obtain ⟨x, allowed⟩ := left
  obtain ⟨⟨low, high⟩, kept, pin⟩ := allows_eq_true.1 allowed
  unfold pick
  cases pinned : d.pinned with
  | some only =>
    rw [pinned] at pin
    obtain rfl : only = x := Option.some.inj (pin.resolve_left nofun)
    exact ⟨only, s, rfl, allowed⟩
  | none =>
    have inside := candidate_mem (Int.le_trans low high) attempts s
    have first := climb_firstFrom inside.1 inside.2
    simp only [Random.bind_apply]
    generalize (d.candidate attempts s).1 = start at inside first
    cases climbed : d.climb start with
    | none =>
      rw [climbed] at first
      cases first with
      | none all => exact absurd (all x low high) kept
    | some v =>
      rw [climbed] at first
      refine ⟨v, _, rfl, allows_eq_true.2 ?_⟩
      cases first with
      | above from_start to_high kept passed =>
        exact ⟨⟨Int.le_trans inside.1 from_start, to_high⟩, kept, .inl pinned⟩
      | below from_low to_start kept passedAbove passed =>
        exact ⟨⟨from_low, Int.le_of_lt (Int.lt_of_lt_of_le to_start inside.2)⟩, kept, .inl pinned⟩

/-! ## Reading bounds -/

section Reading

variable {σ : Type} {view : StateView σ} {type : NumberType} {ps : List Demand} {d d' : Domain}

/-- Getters have answered in turn: constraints whose bounds they are, each with
its reply, between the state before the first and the state after the last. -/
inductive Answers (view : StateView σ) : List (Constraint × Scalar) → σ → σ → Prop
  | nil {s : σ} : Answers view [] s s
  | cons {c : Constraint} {name : String} {v : Scalar} {rest : List (Constraint × Scalar)}
      {s s₁ s' : σ} (bound : c.bound = .getter name) (answer : view name s = .ok v s₁)
      (later : Answers view rest s₁ s') : Answers view ((c, v) :: rest) s s'

/-- What a constraint demands once its bound has been read. -/
def demandOf (q : Constraint × Scalar) : Demand := ⟨q.1.comparison, q.2⟩

/-- A reply is folded in, or nothing is left. -/
theorem narrowLive_answered (h : Records type ps d) {c : Constraint} {name : String} {v : Scalar}
    {s s₁ : σ} (bound : c.bound = .getter name) (answer : view name s = .ok v s₁)
    (decimals : Nat) :
    (∃ d', narrowLive view decimals d c s = .ok d' s₁ ∧
      Records type (ps ++ [demandOf (c, v)]) d' ∧ d'.live = d.live ∧ ∃ x, d'.allows x = true) ∨
    ((∃ reason, narrowLive view decimals d c s = .error (.empty reason) s₁) ∧
      ∀ x, d.allows x = true → ¬ (demandOf (c, v)).Met x) := by
  have value : c.boundValue view decimals s = .ok v s₁ := by
    simp only [Constraint.boundValue, bound, answer]
  have taken : ∀ d', d.restrict c.comparison v = (d', none) →
      narrowLive view decimals d c s = .ok d' s₁ := by
    intro d' restricted
    simp only [narrowLive, bind, EStateM.bind, EStateM.adaptExcept, value, restricted]
    rfl
  have refused : ∀ d' reason, d.restrict c.comparison v = (d', some reason) →
      narrowLive view decimals d c s = .error (.empty (.afterReading reason c.bound)) s₁ := by
    intro d' reason restricted
    simp only [narrowLive, bind, EStateM.bind, EStateM.adaptExcept, value, restricted]
    rfl
  cases folded : d.fold? (demandOf (c, v)) with
  | none =>
    obtain ⟨reason, restricted⟩ := restrict_of_refused folded
    refine .inr ⟨⟨_, refused _ _ restricted⟩, fun x allowed => ?_⟩
    exact h.not_met_of_refused folded ((h.allows_iff x).1 allowed).2
  | some d₁ =>
    have restricted : d.restrict c.comparison v = (d₁, d₁.whyEmpty?) := restrict_of_fold? folded
    have now := h.fold folded
    cases empty : d₁.whyEmpty? with
    | none =>
      rw [empty] at restricted
      exact .inl ⟨d₁, taken _ restricted, now, live_of_fold? folded,
        now.whyEmpty?_eq_none_iff.1 empty⟩
    | some reason =>
      rw [empty] at restricted
      refine .inr ⟨⟨_, refused _ _ restricted⟩, fun x allowed met => ?_⟩
      have left : d₁.allows x = true := (h.allows_append_iff now x).2 ⟨allowed, met⟩
      rw [now.whyEmpty?_eq_none_iff.2 ⟨x, left⟩] at empty
      cases empty

/-- A getter without an answer ends the reading. -/
theorem narrowLive_unanswered {c : Constraint} {name : String} {e : ViewError} {s s₁ : σ}
    (bound : c.bound = .getter name) (answer : view name s = .error e s₁) (decimals : Nat) :
    narrowLive view decimals d c s = .error (.bound (.read e)) s₁ := by
  have value : c.boundValue view decimals s = .error (.read e) s₁ := by
    simp only [Constraint.boundValue, bound, answer]
  simp only [narrowLive, bind, EStateM.bind, EStateM.adaptExcept, value]

theorem exists_getter {b : Bound} (reads : b.readsState = true) : ∃ name, b = .getter name := by
  cases b with
  | literal text unit => cases reads
  | getter name => exact ⟨name, rfl⟩

/-- A getter that gives a value gives no other. -/
theorem answers_cons_iff {c : Constraint} {name : String} (bound : c.bound = .getter name)
    {v w : Scalar} {s s₁ s' : σ} (answer : view name s = .ok v s₁)
    {rest : List (Constraint × Scalar)} :
    Answers view ((c, w) :: rest) s s' ↔ w = v ∧ Answers view rest s₁ s' := by
  constructor
  · intro h
    cases h with
    | cons bound' answer' later =>
      obtain rfl := Bound.getter.inj (bound'.symm.trans bound)
      rw [answer] at answer'
      cases answer'
      exact ⟨rfl, later⟩
  · rintro ⟨rfl, later⟩
    exact .cons bound answer later

/-- A getter that fails gives no value. -/
theorem not_answers_cons {c : Constraint} {name : String} (bound : c.bound = .getter name)
    {w : Scalar} {s s₁ s' : σ} {e : ViewError} (answer : view name s = .error e s₁)
    {rest : List (Constraint × Scalar)} : ¬ Answers view ((c, w) :: rest) s s' := by
  intro h
  cases h with
  | cons bound' answer' later =>
    obtain rfl := Bound.getter.inj (bound'.symm.trans bound)
    rw [answer] at answer'
    cases answer'

/-- What is read after a bound that was folded in. -/
theorem foldlM_narrowLive_cons {c : Constraint} {cs : List Constraint} {decimals : Nat}
    {d₁ : Domain} {s s₁ : σ} (run : narrowLive view decimals d c s = .ok d₁ s₁) :
    (c :: cs).foldlM (narrowLive view decimals) d s =
      cs.foldlM (narrowLive view decimals) d₁ s₁ := by
  simp only [List.foldlM_cons, bind, EStateM.bind, run]

/-- Nothing is read after a bound that was not. -/
theorem foldlM_narrowLive_cons_error {c : Constraint} {cs : List Constraint} {decimals : Nat}
    {e : ConstrainError} {s s₁ : σ} (run : narrowLive view decimals d c s = .error e s₁) :
    (c :: cs).foldlM (narrowLive view decimals) d s = .error e s₁ := by
  simp only [List.foldlM_cons, bind, EStateM.bind, run]

/-- Reading succeeds exactly when every getter answers and the replies leave
something; they are recorded then. -/
theorem foldlM_narrowLive_ok_iff {cs : List Constraint} (decimals : Nat)
    (live : ∀ c ∈ cs, c.bound.readsState = true) {s s' : σ} (h : Records type ps d)
    (left : ∃ x, d.allows x = true) :
    cs.foldlM (narrowLive view decimals) d s = .ok d' s' ↔
      ∃ answered, answered.map (·.1) = cs ∧ Answers view answered s s' ∧
        Records type (ps ++ answered.map demandOf) d' ∧ d'.live = d.live ∧
        ∃ x, d'.allows x = true := by
  induction cs generalizing ps d s with
  | nil =>
    constructor
    · intro run
      cases run
      exact ⟨[], rfl, .nil, by simpa using h, rfl, left⟩
    · rintro ⟨answered, none, answers, now, same, -⟩
      obtain rfl := List.map_eq_nil_iff.1 none
      cases answers
      simp only [List.map_nil, List.append_nil] at now
      rw [h.unique now (fun _ => Iff.rfl) same.symm]
      rfl
  | cons c cs ih =>
    obtain ⟨name, bound⟩ := exists_getter (live c List.mem_cons_self)
    have others := fun c' hc' => live c' (List.mem_cons_of_mem c hc')
    cases answer : view name s with
    | error e s₁ =>
      rw [foldlM_narrowLive_cons_error (narrowLive_unanswered bound answer decimals)]
      constructor
      · exact nofun
      · rintro ⟨answered, all, answers, -⟩
        obtain ⟨⟨_, w⟩, rest, rfl, rfl, rfl⟩ := List.map_eq_cons_iff.1 all
        exact absurd answers (not_answers_cons bound answer)
    | ok v s₁ =>
      rcases narrowLive_answered h bound answer decimals with
        ⟨d₁, run, now, same, left₁⟩ | ⟨⟨reason, run⟩, gone⟩
      · rw [foldlM_narrowLive_cons run, ih others now left₁]
        constructor
        · rintro ⟨answered, rfl, answers, recorded, live', left'⟩
          refine ⟨(c, v) :: answered, rfl, .cons bound answer answers, ?_, live'.trans same, left'⟩
          simpa using recorded
        · rintro ⟨answered, all, answers, recorded, live', left'⟩
          obtain ⟨⟨_, w⟩, rest, rfl, rfl, rfl⟩ := List.map_eq_cons_iff.1 all
          obtain ⟨rfl, answers⟩ := (answers_cons_iff bound answer).1 answers
          exact ⟨rest, rfl, answers, by simpa using recorded, live'.trans same.symm, left'⟩
      · rw [foldlM_narrowLive_cons_error run]
        constructor
        · exact nofun
        · rintro ⟨answered, all, answers, recorded, -, x, allowed⟩
          obtain ⟨⟨_, w⟩, rest, rfl, rfl, rfl⟩ := List.map_eq_cons_iff.1 all
          obtain ⟨rfl, -⟩ := (answers_cons_iff bound answer).1 answers
          obtain ⟨inType, met⟩ := (recorded.allows_iff x).1 allowed
          obtain ⟨before, after⟩ := List.forall_mem_append.1 met
          exact absurd (after _ List.mem_cons_self) (gone x ((h.allows_iff x).2 ⟨inType, before⟩))

/-- Reading finds nothing left exactly when some getters in a row answer, and
no value that the domain allows meets their replies. -/
theorem foldlM_narrowLive_empty_iff {cs : List Constraint} (decimals : Nat)
    (live : ∀ c ∈ cs, c.bound.readsState = true) {s : σ} (h : Records type ps d)
    (left : ∃ x, d.allows x = true) :
    (∃ reason s', cs.foldlM (narrowLive view decimals) d s = .error (.empty reason) s') ↔
      ∃ answered s', answered.map (·.1) <+: cs ∧ Answers view answered s s' ∧
        ¬ ∃ x, d.allows x = true ∧ ∀ q ∈ answered, (demandOf q).Met x := by
  induction cs generalizing ps d s with
  | nil =>
    constructor
    · rintro ⟨reason, s', run⟩
      cases run
    · rintro ⟨answered, s', none, answers, gone⟩
      obtain rfl := List.map_eq_nil_iff.1 (List.prefix_nil.1 none)
      exact absurd (left.imp fun x allowed => ⟨allowed, List.forall_mem_nil _⟩) gone
  | cons c cs ih =>
    obtain ⟨name, bound⟩ := exists_getter (live c List.mem_cons_self)
    have others := fun c' hc' => live c' (List.mem_cons_of_mem c hc')
    cases answer : view name s with
    | error e s₁ =>
      rw [foldlM_narrowLive_cons_error (narrowLive_unanswered bound answer decimals)]
      constructor
      · rintro ⟨reason, s', run⟩
        cases run
      · rintro ⟨_ | ⟨⟨c', w⟩, rest⟩, s', first, answers, gone⟩
        · exact absurd (left.imp fun x allowed => ⟨allowed, List.forall_mem_nil _⟩) gone
        · obtain rfl : c' = c := (List.cons_prefix_cons.1 first).1
          exact absurd answers (not_answers_cons bound answer)
    | ok v s₁ =>
      rcases narrowLive_answered h bound answer decimals with
        ⟨d₁, run, now, -, left₁⟩ | ⟨⟨reason, run⟩, gone⟩
      · have step := h.allows_append_iff now
        rw [foldlM_narrowLive_cons run, ih others now left₁]
        constructor
        · rintro ⟨answered, s', first, answers, gone⟩
          refine ⟨(c, v) :: answered, s', List.cons_prefix_cons.2 ⟨rfl, first⟩,
            .cons bound answer answers, ?_⟩
          rintro ⟨x, allowed, met⟩
          obtain ⟨met₁, met⟩ := List.forall_mem_cons.1 met
          exact gone ⟨x, (step x).2 ⟨allowed, met₁⟩, met⟩
        · rintro ⟨_ | ⟨⟨c', w⟩, rest⟩, s', first, answers, gone⟩
          · exact absurd (left.imp fun x allowed => ⟨allowed, List.forall_mem_nil _⟩) gone
          · obtain ⟨same, after⟩ := List.cons_prefix_cons.1 first
            obtain rfl : c' = c := same
            obtain ⟨rfl, later⟩ := (answers_cons_iff bound answer).1 answers
            refine ⟨rest, s', after, later, ?_⟩
            rintro ⟨x, allowed, met⟩
            obtain ⟨allowed, met₁⟩ := (step x).1 allowed
            exact gone ⟨x, allowed, List.forall_mem_cons.2 ⟨met₁, met⟩⟩
      · rw [foldlM_narrowLive_cons_error run]
        refine ⟨fun _ => ?_, fun _ => ⟨reason, s₁, rfl⟩⟩
        refine ⟨[(c, v)], s₁, List.cons_prefix_cons.2 ⟨rfl, List.nil_prefix⟩,
          .cons bound answer .nil, ?_⟩
        rintro ⟨x, allowed, met⟩
        exact gone x allowed (met _ List.mem_cons_self)

/-! ## Draws -/

/-- A value meets all constraints with literal bounds. -/
def MeetsLiterals (type : NumberType) (cs : List Constraint) (x : Scalar) : Prop :=
  ∀ c ∈ cs, ∀ text unit, c.bound = .literal text unit →
    ∃ v, Scalar.ofLiteral text unit type.decimals = .ok v ∧ c.comparison.holds x v = true

/-- A value meets all constraints whose bounds have been read. -/
def MeetsAnswers (answered : List (Constraint × Scalar)) (x : Scalar) : Prop :=
  ∀ q ∈ answered, q.1.comparison.holds x q.2 = true

/-- Accepted literals are all recorded. -/
theorem Reached.meetsLiterals_iff {cs : List Constraint} (h : Reached type cs d) (x : Scalar) :
    MeetsLiterals type cs x ↔ ∀ p ∈ cs.filterMap (·.demand? type.decimals), p.Met x := by
  constructor
  · intro meets p hp
    obtain ⟨c, hc, demand⟩ := List.mem_filterMap.1 hp
    obtain ⟨text, unit, v, bound, read, rfl⟩ := Constraint.demand?_eq_some_iff.1 demand
    obtain ⟨w, again, holds⟩ := meets c hc text unit bound
    rw [read] at again
    cases again
    exact holds
  · intro met c hc text unit bound
    obtain ⟨p, demand, recorded⟩ := h.exists_demand hc (by rw [bound]; rfl)
    obtain ⟨text', unit', v, bound', read, rfl⟩ := Constraint.demand?_eq_some_iff.1 demand
    rw [bound] at bound'
    cases bound'
    exact ⟨v, read, met _ recorded⟩

/-- The values that a domain allows before anything is read. -/
theorem Reached.allows_iff {cs : List Constraint} (h : Reached type cs d) (wf : type.WellFormed)
    (x : Scalar) : d.allows x = true ↔ type.Legal x ∧ MeetsLiterals type cs x := by
  rw [h.records.allows_iff, type.legal_iff wf, h.meetsLiterals_iff]

/-- The values that a domain allows after some replies. -/
theorem Reached.allows_answered_iff {cs : List Constraint} (h : Reached type cs d)
    (wf : type.WellFormed) {answered : List (Constraint × Scalar)}
    (now : Records type (cs.filterMap (·.demand? type.decimals) ++ answered.map demandOf) d')
    (x : Scalar) :
    d'.allows x = true ↔ type.Legal x ∧ MeetsLiterals type cs x ∧ MeetsAnswers answered x := by
  rw [now.allows_iff, type.legal_iff wf, h.meetsLiterals_iff, List.forall_mem_append,
    List.forall_mem_map]
  rfl

theorem Reached.refreshed_ok_iff {cs : List Constraint} (h : Reached type cs d) {s s' : σ} :
    d.refreshed view s = .ok d' s' ↔
      ∃ answered, answered.map (·.1) = cs.filter (·.bound.readsState) ∧
        Answers view answered s s' ∧
        Records type (cs.filterMap (·.demand? type.decimals) ++ answered.map demandOf) d' ∧
        d'.live = [] ∧ ∃ x, d'.allows x = true := by
  rw [refreshed, h.live_eq]
  exact foldlM_narrowLive_ok_iff _ (fun c hc => (List.mem_filter.1 hc).2) (h.records.withLive [])
    h.exists_allows

theorem Reached.refreshed_empty_iff {cs : List Constraint} (h : Reached type cs d) {s : σ} :
    (∃ reason s', d.refreshed view s = .error (.empty reason) s') ↔
      ∃ answered s', answered.map (·.1) <+: cs.filter (·.bound.readsState) ∧
        Answers view answered s s' ∧
        ¬ ∃ x, d.allows x = true ∧ ∀ q ∈ answered, (demandOf q).Met x := by
  rw [refreshed, h.live_eq]
  exact foldlM_narrowLive_empty_iff _ (fun c hc => (List.mem_filter.1 hc).2)
    (h.records.withLive []) h.exists_allows

/-- A draw reads, and then picks a value of what is left. -/
theorem draw_of_refreshed {attempts : Nat} {w : World σ} {s : σ}
    (read : d.refreshed view w.state = .ok d' s) (left : ∃ x, d'.allows x = true) :
    ∃ x w', d.draw view attempts w = .ok x w' ∧ w'.state = s ∧ d'.allows x = true := by
  obtain ⟨x, stream, picked, allowed⟩ := pick_allows left attempts w.stream
  refine ⟨x, ⟨s, stream⟩, ?_, rfl, allowed⟩
  simp only [draw, bind, EStateM.bind, World.read, World.draw, read, picked]
  rfl

/-- A draw fails where reading fails. -/
theorem draw_of_refreshed_error {attempts : Nat} {w : World σ} {s : σ} {e : ConstrainError}
    (read : d.refreshed view w.state = .error e s) :
    d.draw view attempts w = .error e { w with state := s } := by
  simp only [draw, bind, EStateM.bind, World.read, read]

/-- What is drawn meets every literal, and every bound at the reply to it. -/
theorem Reached.of_draw {cs : List Constraint} (h : Reached type cs d) {attempts : Nat}
    {w w' : World σ} {x : Scalar} (drawn : d.draw view attempts w = .ok x w') :
    (leastOf type ≤ x ∧ x ≤ greatestOf type) ∧ MeetsLiterals type cs x ∧
      ∃ answered, answered.map (·.1) = cs.filter (·.bound.readsState) ∧
        Answers view answered w.state w'.state ∧ MeetsAnswers answered x := by
  cases read : d.refreshed view w.state with
  | error e s =>
    rw [draw_of_refreshed_error read] at drawn
    cases drawn
  | ok d' s =>
    obtain ⟨answered, all, answers, now, -, left⟩ := h.refreshed_ok_iff.1 read
    obtain ⟨_, _, again, rfl, allowed⟩ := draw_of_refreshed read left
    rw [drawn] at again
    cases again
    obtain ⟨inType, met⟩ := (now.allows_iff x).1 allowed
    obtain ⟨literals, replies⟩ := List.forall_mem_append.1 met
    exact ⟨inType, (h.meetsLiterals_iff x).2 literals, answered, all, answers,
      List.forall_mem_map.1 replies⟩

/-- **Draws are sound and complete.** Let some constraints have been accepted
by the range of a type. Whatever the state, the stream and the number of
attempts are, a value that is drawn is one of the type, and it meets every
literal and every bound at the value that was read for it in this draw. A draw
finds nothing left exactly when no value meets the literals and the replies to
some bounds in a row. If all getters answer and a value is left, one is
drawn. -/
theorem draw_sound_complete {cs : List Constraint} (wf : type.WellFormed)
    (reached : Reached type cs d) (view : StateView σ) (attempts : Nat) (w : World σ) :
    let live := cs.filter (·.bound.readsState)
    (∀ x w', d.draw view attempts w = .ok x w' →
      type.Legal x ∧ MeetsLiterals type cs x ∧
        ∃ answered, answered.map (·.1) = live ∧ Answers view answered w.state w'.state ∧
          MeetsAnswers answered x) ∧
    ((∃ reason w', d.draw view attempts w = .error (.empty reason) w') ↔
      ∃ answered s', answered.map (·.1) <+: live ∧ Answers view answered w.state s' ∧
        ¬ ∃ x, type.Legal x ∧ MeetsLiterals type cs x ∧ MeetsAnswers answered x) ∧
    (∀ answered s', answered.map (·.1) = live → Answers view answered w.state s' →
      (∃ x, type.Legal x ∧ MeetsLiterals type cs x ∧ MeetsAnswers answered x) →
      ∃ x w', d.draw view attempts w = .ok x w') := by
  intro live
  refine ⟨fun x w' drawn => ?_, ⟨?_, ?_⟩, fun answered s' all answers left => ?_⟩
  · obtain ⟨inType, literals, answers⟩ := reached.of_draw drawn
    exact ⟨(type.legal_iff wf x).2 inType, literals, answers⟩
  · rintro ⟨reason, w', failed⟩
    cases read : d.refreshed view w.state with
    | ok d' s =>
      obtain ⟨-, -, -, -, -, left⟩ := reached.refreshed_ok_iff.1 read
      obtain ⟨_, _, drawn, -⟩ := draw_of_refreshed read left
      rw [drawn] at failed
      cases failed
    | error e s =>
      rw [draw_of_refreshed_error read] at failed
      cases failed
      obtain ⟨answered, s', first, answers, gone⟩ := reached.refreshed_empty_iff.1 ⟨_, _, read⟩
      refine ⟨answered, s', first, answers, ?_⟩
      rintro ⟨x, legal, literals, met⟩
      exact gone ⟨x, (reached.allows_iff wf x).2 ⟨legal, literals⟩, met⟩
  · rintro ⟨answered, s', first, answers, gone⟩
    have nothing : ¬ ∃ x, d.allows x = true ∧ ∀ q ∈ answered, (demandOf q).Met x := by
      rintro ⟨x, allowed, met⟩
      obtain ⟨legal, literals⟩ := (reached.allows_iff wf x).1 allowed
      exact gone ⟨x, legal, literals, met⟩
    obtain ⟨reason, s, read⟩ :=
      reached.refreshed_empty_iff.2 ⟨answered, s', first, answers, nothing⟩
    exact ⟨reason, _, draw_of_refreshed_error read⟩
  · obtain ⟨x, legal, literals, met⟩ := left
    have replies : ∀ p ∈ answered.map demandOf, p.Met x := List.forall_mem_map.2 met
    obtain ⟨d', now, same⟩ := (reached.records.withLive []).exists_of_met
      (List.forall_mem_append.2 ⟨(reached.meetsLiterals_iff x).1 literals, replies⟩)
    have allowed := (reached.allows_answered_iff wf now x).2 ⟨legal, literals, met⟩
    have read := reached.refreshed_ok_iff.2 ⟨answered, all, answers, now, same, x, allowed⟩
    obtain ⟨y, w', drawn, -⟩ := draw_of_refreshed read ⟨x, allowed⟩
    exact ⟨y, w', drawn⟩

/-- The view that gives every getter the same answer. -/
def answering (v : Scalar) : StateView σ := fun _ s => .ok v s

/-- A byte that is not zero and less than a cap that reads two: something is
drawn, also without a second attempt. -/
theorem draw_sound_complete_cap :
    let cs := [literalConstraint .notEqual "0", ⟨.less, .getter "cap", .rule "limits"⟩]
    ∃ d, NumberType.WellFormed (.uint 8) ∧ Reached (.uint 8) cs d ∧
      ∃ x w', d.draw (answering ⟨2, by decide⟩) 0 ⟨(), Random.Stream.ofSeed 7⟩ = .ok x w' := by
  intro cs
  have wf : NumberType.WellFormed (.uint 8) := ⟨by decide, by decide, by decide⟩
  have first : Reached (.uint 8) [literalConstraint .notEqual "0"] _ :=
    .step detached (s := ()) _ .whole rfl
  have second : Reached (.uint 8) cs _ :=
    first.step (answering ⟨2, by decide⟩) (s := ()) _ rfl
  have drawn := draw_sound_complete wf second (answering ⟨2, by decide⟩) 0
    ⟨(), Random.Stream.ofSeed 7⟩
  refine ⟨_, wf, second, drawn.2.2 [(⟨.less, .getter "cap", .rule "limits"⟩, ⟨2, by decide⟩)] ()
    rfl (.cons rfl rfl .nil) ⟨Scalar.one, ?_, ?_, ?_⟩⟩
  · exact ⟨by decide, by simp [Scalar.one]⟩
  · intro c hc text unit bound
    simp only [cs, List.mem_cons, List.not_mem_nil, or_false] at hc
    rcases hc with rfl | rfl
    · cases bound
      exact ⟨Scalar.zero, by decide, by decide⟩
    · cases bound
  · intro q hq
    obtain rfl := List.mem_singleton.1 hq
    decide

end Reading

end Domain

end GuardedCalls
