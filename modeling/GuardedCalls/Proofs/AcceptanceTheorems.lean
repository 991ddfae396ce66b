/-
GuardedCalls.Proofs.AcceptanceTheorems — literal constraints in any order, and
any number of times.

Whether something is left is asked after each constraint, and a domain has an
interval, a pin and excluded values to answer it with. Still the order of
literals makes no difference, neither to the domain nor to whether one of them
fails on the way: a sequence passes exactly when one value meets all of it
(`acceptAll_literals_iff`), and the constraints that have passed determine the
domain (`Reached.unique`). Both speak of the members of the sequence only.
-/
import GuardedCalls.Proofs.LiveBoundTheorems

namespace GuardedCalls.Domain

variable {σ σ' : Type} {view : StateView σ} {type : NumberType} {cs cs' : List Constraint}
  {d : Domain}

/-- Each literal is a number, and one value in the range of the type meets all
of them. -/
structure Satisfiable (type : NumberType) (cs : List Constraint) : Prop where
  numbers : ∀ c ∈ cs, ∃ p, c.demand? type.decimals = some p
  value : ∃ x, (leastOf type ≤ x ∧ x ≤ greatestOf type) ∧
    ∀ p ∈ cs.filterMap (·.demand? type.decimals), p.Met x

theorem Satisfiable.congr (same : ∀ c, c ∈ cs ↔ c ∈ cs') (h : Satisfiable type cs) :
    Satisfiable type cs' where
  numbers c hc := h.numbers c ((same c).2 hc)
  value := by
    obtain ⟨x, inType, met⟩ := h.value
    refine ⟨x, inType, fun p hp => met p ?_⟩
    obtain ⟨c, hc, demand⟩ := List.mem_filterMap.1 hp
    exact List.mem_filterMap.2 ⟨c, (same c).2 hc, demand⟩

/-- What accepted literals have led to is satisfied by a value that is left. -/
theorem Reached.satisfiable (h : Reached type cs d)
    (literal : ∀ c ∈ cs, c.bound.readsState = false) : Satisfiable type cs where
  numbers c hc := by
    obtain ⟨p, demand, -⟩ := h.exists_demand hc (literal c hc)
    exact ⟨p, demand⟩
  value := by
    obtain ⟨x, allowed⟩ := h.exists_allows
    exact ⟨x, (h.records.allows_iff x).1 allowed⟩

/-- A literal demands the same, whatever getters would answer. -/
theorem demandAt?_of_literal {c : Constraint} (literal : c.bound.readsState = false)
    (value : String → Scalar) (decimals : Nat) :
    c.demandAt? value decimals = c.demand? decimals := by
  cases bound : c.bound with
  | literal text unit => rw [Constraint.demandAt?, bound]
  | getter name =>
    rw [bound] at literal
    cases literal

/-- Literals in turn are all accepted exactly when each is a number and one
value meets them all. -/
theorem acceptAll_literals_iff (literal : ∀ c ∈ cs, c.bound.readsState = false)
    (view : StateView σ) (s : σ) :
    (∃ d t, acceptAll view cs (ofType type) s = .ok d t) ↔ Satisfiable type cs := by
  constructor
  · rintro ⟨d, t, run⟩
    have reached : Reached type cs d := by simpa using reached_acceptAll .whole run
    exact reached.satisfiable literal
  · rintro ⟨numbers, x, inType, met⟩
    -- No getter is asked, so any value will do for them.
    let value : String → Scalar := fun _ => .zero
    have constant : ∀ c ∈ cs, ReadsAs view value c := by
      intro c hc name bound
      have reads := literal c hc
      rw [bound] at reads
      cases reads
    have demands : cs.filterMap (·.demandAt? value type.decimals) =
        cs.filterMap (·.demand? type.decimals) :=
      List.filterMap_congr fun c hc => demandAt?_of_literal (literal c hc) value type.decimals
    have fresh := records_ofType type
    have allowed : (ofType type).allows x = true :=
      (fresh.allows_iff x).2 ⟨inType, List.forall_mem_nil _⟩
    rcases acceptAll_cases fresh ⟨x, allowed⟩ constant (fun c hc => by
      rw [demandAt?_of_literal (literal c hc)]
      exact numbers c hc) s with ⟨d, t, run, -⟩ | ⟨-, gone⟩
    · exact ⟨d, t, run⟩
    · rw [demands] at gone
      exact absurd met (gone x allowed)

/-- A domain that literals lead to is the one that the same literals lead to in
another order. -/
theorem exists_acceptAll_of_same (literal : ∀ c ∈ cs, c.bound.readsState = false)
    (same : ∀ c, c ∈ cs ↔ c ∈ cs') {s t : σ}
    (run : acceptAll view cs (ofType type) s = .ok d t) (view' : StateView σ') (s' : σ') :
    ∃ t', acceptAll view' cs' (ofType type) s' = .ok d t' := by
  have literal' : ∀ c ∈ cs', c.bound.readsState = false := fun c hc => literal c ((same c).2 hc)
  have reached : Reached type cs d := by simpa using reached_acceptAll .whole run
  obtain ⟨d', t', run'⟩ := (acceptAll_literals_iff literal' view' s').2
    ((reached.satisfiable literal).congr same)
  have reached' : Reached type cs' d' := by simpa using reached_acceptAll .whole run'
  exact ⟨t', reached.unique reached' literal same ▸ run'⟩

/-- **Literal constraints commute and repeat harmlessly.** Let two sequences of
literal constraints have the same members. Applied in turn to the whole range of
a number type, both lead to one domain, with which every draw is the same, or
both fail. They lead to a domain exactly when each literal is a number and one
value of the type meets all of them. -/
theorem literals_commute (literal : ∀ c ∈ cs, c.bound.readsState = false)
    (same : ∀ c, c ∈ cs ↔ c ∈ cs') (view : StateView σ) (view' : StateView σ') (s : σ) (s' : σ') :
    (∀ d, (∃ t, acceptAll view cs (ofType type) s = .ok d t) ↔
      ∃ t', acceptAll view' cs' (ofType type) s' = .ok d t') ∧
    ((∃ d t, acceptAll view cs (ofType type) s = .ok d t) ↔ Satisfiable type cs) := by
  have literal' : ∀ c ∈ cs', c.bound.readsState = false := fun c hc => literal c ((same c).2 hc)
  refine ⟨fun d => ⟨?_, ?_⟩, acceptAll_literals_iff literal view s⟩
  · rintro ⟨t, run⟩
    exact exists_acceptAll_of_same literal same run view' s'
  · rintro ⟨t', run⟩
    exact exists_acceptAll_of_same literal' (fun c => (same c).symm) run view s

/-- Three literals on bytes, and the same in another order with one of them
twice. Both lead to the domain of the bytes from two to nine without the
three. -/
theorem literals_commute_byte :
    let least := literalConstraint .greaterOrEqual "2"
    let most := literalConstraint .less "0xa"
    let other := literalConstraint .notEqual "3"
    let cs := [least, most, other]
    let cs' := [other, most, least, other]
    (∀ c ∈ cs, c.bound.readsState = false) ∧ (∀ c, c ∈ cs ↔ c ∈ cs') ∧
      ∃ d, acceptAll detached cs (ofType (.uint 8)) () = .ok d () ∧
        d.text = "[2, 9] except \x7b3\x7d" ∧
        ∃ t', acceptAll detached cs' (ofType (.uint 8)) () = .ok d t' := by
  intro least most other cs cs'
  have literal : ∀ c ∈ cs, c.bound.readsState = false := by decide
  have same : ∀ c, c ∈ cs ↔ c ∈ cs' := by
    intro c
    simp only [cs, cs', List.mem_cons, List.not_mem_nil, or_false]
    tauto
  have run : acceptAll detached cs (ofType (.uint 8)) () = .ok _ () := rfl
  refine ⟨literal, same, _, run, by decide, ?_⟩
  exact ((literals_commute literal same detached detached () ()).1 _).1 ⟨(), run⟩

end GuardedCalls.Domain
