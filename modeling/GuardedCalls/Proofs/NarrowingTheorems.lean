/-
GuardedCalls.Proofs.NarrowingTheorems — a domain is exactly the values that
meet what was folded into it.

A constraint whose bound is known is a `Demand`: a comparison with a number.
`Records type ps d` is the invariant that everything else rests on: it says
what each field of the domain `d` is after the demands `ps` have been folded
into the range of `type`. It holds whether or not a value is left, it does not
depend on the order of the demands, and it determines the domain
(`Records.unique`).

* `fold?` — one step without the question whether something is left;
  `restrict_of_fold?` and `restrict_of_refused` take the two apart.
* `Records.fold` and `Records.not_met_of_refused` — the step lemma: a demand is
  recorded, or it is refused and no value meets it beside the others.
* `Records.allows_iff` — the values that the domain allows.
* `Records.whyEmpty?_eq_none_iff` — the emptiness check, which counts, finds
  a value exactly when there is one.
* `narrowing_exact` — the run of a sequence of literal constraints.

A refused demand leaves no trace in the domain. There are two sorts: an
equality with another number than the one the domain is pinned to, and a
strict bound beyond the last scalar. Every other demand leaves its trace even
where nothing is left afterwards.
-/
import Mathlib.Data.List.Sort
import Mathlib.Tactic.Push
import GuardedCalls.Proofs.NumberTypeTheorems

namespace GuardedCalls

/-! ## Demands -/

/-- A comparison with a number. -/
structure Demand where
  /-- How values are compared. -/
  comparison : Comparison
  /-- What they are compared with. -/
  number : Scalar
  deriving DecidableEq

/-- A value stands in the comparison to the number. -/
def Demand.Met (p : Demand) (x : Scalar) : Prop := p.comparison.holds x p.number = true

instance (p : Demand) (x : Scalar) : Decidable (p.Met x) := inferInstanceAs (Decidable (_ = true))

/-- What a constraint with a literal bound demands of numbers with `decimals`
digits after the point; nothing if the literal is none or the bound is read
from state. -/
def Constraint.demand? (c : Constraint) (decimals : Nat) : Option Demand :=
  match c.bound with
  | .literal text unit => (Scalar.ofLiteral text unit decimals).toOption.map (⟨c.comparison, ·⟩)
  | .getter _ => none

theorem Constraint.demand?_eq_some_iff {c : Constraint} {decimals : Nat} {p : Demand} :
    c.demand? decimals = some p ↔ ∃ text unit v, c.bound = .literal text unit ∧
      Scalar.ofLiteral text unit decimals = .ok v ∧ p = ⟨c.comparison, v⟩ := by
  unfold demand?
  cases bound : c.bound with
  | getter name => simp
  | literal text unit =>
    cases parsed : Scalar.ofLiteral text unit decimals with
    | error e => simp [parsed, Except.toOption]
    | ok v => simp [parsed, Except.toOption, eq_comm]

/-- The comparison keeps values from being too small. -/
def Comparison.boundsBelow : Comparison → Bool
  | .greater => true
  | .greaterOrEqual => true
  | _ => false

/-- The comparison keeps values from being too large. -/
def Comparison.boundsAbove : Comparison → Bool
  | .less => true
  | .lessOrEqual => true
  | _ => false

namespace Demand

variable {p : Demand} {x : Scalar}

theorem met_equal {v : Scalar} : Met ⟨.equal, v⟩ x ↔ x = v := by
  simp [Met, Comparison.holds]

theorem met_notEqual {v : Scalar} : Met ⟨.notEqual, v⟩ x ↔ x ≠ v := by
  simp [Met, Comparison.holds]

theorem met_greater {v : Scalar} : Met ⟨.greater, v⟩ x ↔ v < x := by
  simp [Met, Comparison.holds]

theorem met_greaterOrEqual {v : Scalar} : Met ⟨.greaterOrEqual, v⟩ x ↔ v ≤ x := by
  simp [Met, Comparison.holds]

theorem met_less {v : Scalar} : Met ⟨.less, v⟩ x ↔ x < v := by
  simp [Met, Comparison.holds]

theorem met_lessOrEqual {v : Scalar} : Met ⟨.lessOrEqual, v⟩ x ↔ x ≤ v := by
  simp [Met, Comparison.holds]

/-- A domain that has recorded some demands refuses this one: it is an equality
with another number than one before it, or a strict bound that no scalar
meets. -/
def refusedAfter (recorded : List Demand) (p : Demand) : Bool :=
  match p.comparison with
  | .equal => recorded.any fun q => q.comparison = .equal ∧ q.number ≠ p.number
  | .greater => p.number.succ? = none
  | .less => p.number.pred? = none
  | _ => false

/-- The demands that are recorded of a sequence, if some have been before. -/
def recordedFrom (recorded : List Demand) : List Demand → List Demand
  | [] => recorded
  | p :: ps =>
    if p.refusedAfter recorded then recordedFrom recorded ps
    else recordedFrom (recorded ++ [p]) ps

/-- The demands of a sequence that are recorded. -/
def recorded (ps : List Demand) : List Demand := recordedFrom [] ps

/-- No value meets a refused demand and the ones before it. -/
theorem not_met_of_refusedAfter {recorded : List Demand} (refused : p.refusedAfter recorded = true)
    (before : ∀ q ∈ recorded, q.Met x) : ¬ p.Met x := by
  obtain ⟨comparison, v⟩ := p
  cases comparison with
  | equal =>
    simp only [refusedAfter, List.any_eq_true, decide_eq_true_eq] at refused
    obtain ⟨⟨_, w⟩, hq, rfl, other⟩ := refused
    have pinned : x = w := met_equal.1 (before _ hq)
    rw [met_equal]
    rintro rfl
    exact other pinned.symm
  | greater =>
    simp only [refusedAfter, decide_eq_true_eq, Scalar.succ?_eq_none_iff] at refused
    have := x.val_lt
    rw [met_greater, Scalar.lt_iff]
    omega
  | less =>
    simp only [refusedAfter, decide_eq_true_eq, Scalar.pred?_eq_none_iff] at refused
    have := x.neg_lt_val
    rw [met_less, Scalar.lt_iff]
    omega
  | notEqual => cases refused
  | greaterOrEqual => cases refused
  | lessOrEqual => cases refused

end Demand

/-! ## One step -/

namespace Domain

/-- The domain with a demand folded in, unless it is refused. -/
def fold? (d : Domain) (p : Demand) : Option Domain :=
  match p.comparison with
  | .equal =>
    match d.pinned with
    | some pin => if pin = p.number then some d else none
    | none => some { d with pinned := some p.number }
  | .notEqual => some { d with excluded := exclude p.number d.excluded }
  | .greater => p.number.succ?.map d.raiseLow
  | .greaterOrEqual => some (d.raiseLow p.number)
  | .less => p.number.pred?.map d.dropHigh
  | .lessOrEqual => some (d.dropHigh p.number)

theorem restrict_of_fold? {d d' : Domain} {p : Demand} (h : d.fold? p = some d') :
    d.restrict p.comparison p.number = (d', d'.whyEmpty?) := by
  obtain ⟨comparison, v⟩ := p
  cases comparison with
  | equal =>
    cases pinned : d.pinned with
    | none =>
      simp only [fold?, pinned, Option.some.injEq] at h
      simp only [restrict, pinned, ← h, checked]
    | some pin =>
      simp only [fold?, pinned] at h
      split at h
      · next same =>
        cases h
        simp only [restrict, pinned, if_pos same, checked]
      · cases h
  | greater =>
    obtain ⟨next, hnext, rfl⟩ := Option.map_eq_some_iff.1 h
    simp only [restrict, hnext, checked]
  | less =>
    obtain ⟨before, hbefore, rfl⟩ := Option.map_eq_some_iff.1 h
    simp only [restrict, hbefore, checked]
  | notEqual => cases h; rfl
  | greaterOrEqual => cases h; rfl
  | lessOrEqual => cases h; rfl

/-- A refused demand changes nothing, and a reason is given. -/
theorem restrict_of_refused {d : Domain} {p : Demand} (h : d.fold? p = none) :
    ∃ reason, d.restrict p.comparison p.number = (d, some reason) := by
  obtain ⟨comparison, v⟩ := p
  cases comparison with
  | equal =>
    cases pinned : d.pinned with
    | none => simp [fold?, pinned] at h
    | some pin =>
      have other : ¬ pin = v := by
        intro same
        simp [fold?, pinned, same] at h
      exact ⟨.conflictingPins pin v, by simp only [restrict, pinned, if_neg other]⟩
  | greater =>
    have none : v.succ? = none := Option.map_eq_none_iff.1 h
    exact ⟨.nothingGreater v, by simp only [restrict, none]⟩
  | less =>
    have none : v.pred? = none := Option.map_eq_none_iff.1 h
    exact ⟨.nothingLess v, by simp only [restrict, none]⟩
  | notEqual => cases h
  | greaterOrEqual => cases h
  | lessOrEqual => cases h

/-- Folding a demand in leaves alone what is read from state. -/
theorem live_of_fold? {d d' : Domain} {p : Demand} (h : d.fold? p = some d') :
    d'.live = d.live := by
  have raise : ∀ v, (d.raiseLow v).live = d.live := by
    intro v
    unfold raiseLow
    split <;> rfl
  have drop : ∀ v, (d.dropHigh v).live = d.live := by
    intro v
    unfold dropHigh
    split <;> rfl
  obtain ⟨comparison, v⟩ := p
  cases comparison with
  | equal =>
    simp only [fold?] at h
    split at h
    · split at h
      · cases h; rfl
      · cases h
    · cases h; rfl
  | notEqual => cases h; rfl
  | greater =>
    obtain ⟨next, -, rfl⟩ := Option.map_eq_some_iff.1 h
    exact raise next
  | greaterOrEqual => cases h; exact raise v
  | less =>
    obtain ⟨before, -, rfl⟩ := Option.map_eq_some_iff.1 h
    exact drop before
  | lessOrEqual => cases h; exact drop v

/-! ## What a domain records -/

theorem mem_exclude {v w : Scalar} {ws : List Scalar} : w ∈ exclude v ws ↔ w = v ∨ w ∈ ws := by
  induction ws with
  | nil => simp [exclude]
  | cons u us ih =>
    unfold exclude
    split
    · simp
    · split
      · next same => simp [same]
      · simp only [List.mem_cons, ih]
        exact or_left_comm

/-- Values are put where they belong. -/
theorem pairwise_exclude {v : Scalar} {ws : List Scalar} (sorted : ws.Pairwise (· < ·)) :
    (exclude v ws).Pairwise (· < ·) := by
  induction ws with
  | nil => simp [exclude]
  | cons u us ih =>
    obtain ⟨first, rest⟩ := List.pairwise_cons.1 sorted
    unfold exclude
    split
    · next before =>
      refine List.pairwise_cons.2 ⟨fun w hw => ?_, sorted⟩
      rcases List.mem_cons.1 hw with rfl | hw
      · exact before
      · exact Int.lt_trans before (first w hw)
    · next notBefore =>
      split
      · exact sorted
      · next other =>
        refine List.pairwise_cons.2 ⟨fun w hw => ?_, ih rest⟩
        rcases mem_exclude.1 hw with rfl | hw
        · simp only [Scalar.lt_iff, Scalar.eq_iff] at notBefore other ⊢
          omega
        · exact first w hw

theorem allows_eq_true {d : Domain} {x : Scalar} :
    d.allows x = true ↔
      (d.low ≤ x ∧ x ≤ d.high) ∧ x ∉ d.excluded ∧ (d.pinned = none ∨ d.pinned = some x) := by
  simp [allows]

theorem blocked_eq (d : Domain) :
    d.blocked = Scalar.countIn d.excluded d.low.val d.high.val :=
  List.countP_congr fun v _ => by simp only [decide_eq_true_eq, Scalar.le_iff]

/-- The fields of a domain after some demands have been folded into the range
of a type. The bounds that are read from state play no part. -/
structure Records (type : NumberType) (ps : List Demand) (d : Domain) : Prop where
  floor_eq : d.floor = leastOf type
  ceiling_eq : d.ceiling = greatestOf type
  decimals_eq : d.decimals = type.decimals
  low_le : ∀ x, d.low ≤ x ↔ leastOf type ≤ x ∧ ∀ p ∈ ps, p.comparison.boundsBelow → p.Met x
  le_high : ∀ x, x ≤ d.high ↔ x ≤ greatestOf type ∧ ∀ p ∈ ps, p.comparison.boundsAbove → p.Met x
  mem_excluded : ∀ v, v ∈ d.excluded ↔ ⟨.notEqual, v⟩ ∈ ps
  sorted : d.excluded.Pairwise (· < ·)
  pinned_eq : ∀ v, d.pinned = some v ↔ ⟨.equal, v⟩ ∈ ps

theorem records_ofType (type : NumberType) : Records type [] (ofType type) where
  floor_eq := rfl
  ceiling_eq := rfl
  decimals_eq := rfl
  low_le x := by simp [ofType, ofInterval]
  le_high x := by simp [ofType, ofInterval]
  mem_excluded v := by simp [ofType, ofInterval]
  sorted := List.Pairwise.nil
  pinned_eq v := by simp [ofType, ofInterval]

theorem raiseLow_low_le {d : Domain} {v x : Scalar} :
    (d.raiseLow v).low ≤ x ↔ d.low ≤ x ∧ v ≤ x := by
  unfold raiseLow
  split
  · next above =>
    simp only [Scalar.le_iff, Scalar.lt_iff] at above ⊢
    omega
  · next below =>
    simp only [Scalar.le_iff, Scalar.lt_iff] at below ⊢
    omega

theorem le_dropHigh_high {d : Domain} {v x : Scalar} :
    x ≤ (d.dropHigh v).high ↔ x ≤ d.high ∧ x ≤ v := by
  unfold dropHigh
  split
  · next below =>
    simp only [Scalar.le_iff, Scalar.lt_iff] at below ⊢
    omega
  · next above =>
    simp only [Scalar.le_iff, Scalar.lt_iff] at above ⊢
    omega

namespace Records

variable {type : NumberType} {ps : List Demand} {d d' : Domain} {p : Demand}

/-- One more demand is recorded if each field takes in what concerns it. -/
theorem append (h : Records type ps d)
    (same : d'.floor = d.floor ∧ d'.ceiling = d.ceiling ∧ d'.decimals = d.decimals)
    (low : ∀ x, d'.low ≤ x ↔ d.low ≤ x ∧ (p.comparison.boundsBelow → p.Met x))
    (high : ∀ x, x ≤ d'.high ↔ x ≤ d.high ∧ (p.comparison.boundsAbove → p.Met x))
    (excluded : ∀ v, v ∈ d'.excluded ↔ v ∈ d.excluded ∨ ⟨.notEqual, v⟩ = p)
    (sorted : d'.excluded.Pairwise (· < ·))
    (pinned : ∀ v, d'.pinned = some v ↔ d.pinned = some v ∨ ⟨.equal, v⟩ = p) :
    Records type (ps ++ [p]) d' where
  floor_eq := same.1.trans h.floor_eq
  ceiling_eq := same.2.1.trans h.ceiling_eq
  decimals_eq := same.2.2.trans h.decimals_eq
  low_le x := by
    rw [low, h.low_le, List.forall_mem_append, List.forall_mem_singleton, and_assoc]
  le_high x := by
    rw [high, h.le_high, List.forall_mem_append, List.forall_mem_singleton, and_assoc]
  mem_excluded v := by rw [excluded, h.mem_excluded, List.mem_append, List.mem_singleton]
  sorted := sorted
  pinned_eq v := by rw [pinned, h.pinned_eq, List.mem_append, List.mem_singleton]

/-- Lifting the lower end to a value records the comparison that says so. -/
theorem raiseLow (h : Records type ps d) {comparison : Comparison} {number v : Scalar}
    (below : comparison.boundsBelow = true)
    (met : ∀ x, v ≤ x ↔ Demand.Met ⟨comparison, number⟩ x) :
    Records type (ps ++ [⟨comparison, number⟩]) (d.raiseLow v) := by
  have others : (d.raiseLow v).high = d.high ∧ (d.raiseLow v).excluded = d.excluded ∧
      (d.raiseLow v).pinned = d.pinned ∧ (d.raiseLow v).floor = d.floor ∧
      (d.raiseLow v).ceiling = d.ceiling ∧ (d.raiseLow v).decimals = d.decimals := by
    unfold Domain.raiseLow
    split <;> simp
  obtain ⟨high, excluded, pinned, floor, ceiling, decimals⟩ := others
  refine h.append ⟨floor, ceiling, decimals⟩ (fun x => ?_) (fun x => ?_) (fun w => ?_) ?_
    (fun w => ?_)
  · rw [raiseLow_low_le, met]
    simp [below]
  · cases comparison <;> simp [high, Comparison.boundsAbove, Comparison.boundsBelow] at below ⊢
  · cases comparison <;> simp [excluded, Comparison.boundsBelow] at below ⊢
  · rw [excluded]
    exact h.sorted
  · cases comparison <;> simp [pinned, Comparison.boundsBelow] at below ⊢

/-- Dropping the upper end to a value records the comparison that says so. -/
theorem dropHigh (h : Records type ps d) {comparison : Comparison} {number v : Scalar}
    (above : comparison.boundsAbove = true)
    (met : ∀ x, x ≤ v ↔ Demand.Met ⟨comparison, number⟩ x) :
    Records type (ps ++ [⟨comparison, number⟩]) (d.dropHigh v) := by
  have others : (d.dropHigh v).low = d.low ∧ (d.dropHigh v).excluded = d.excluded ∧
      (d.dropHigh v).pinned = d.pinned ∧ (d.dropHigh v).floor = d.floor ∧
      (d.dropHigh v).ceiling = d.ceiling ∧ (d.dropHigh v).decimals = d.decimals := by
    unfold Domain.dropHigh
    split <;> simp
  obtain ⟨low, excluded, pinned, floor, ceiling, decimals⟩ := others
  refine h.append ⟨floor, ceiling, decimals⟩ (fun x => ?_) (fun x => ?_) (fun w => ?_) ?_
    (fun w => ?_)
  · cases comparison <;> simp [low, Comparison.boundsAbove, Comparison.boundsBelow] at above ⊢
  · rw [le_dropHigh_high, met]
    simp [above]
  · cases comparison <;> simp [excluded, Comparison.boundsAbove] at above ⊢
  · rw [excluded]
    exact h.sorted
  · cases comparison <;> simp [pinned, Comparison.boundsAbove] at above ⊢

/-- Bounds that are read from state play no part. -/
theorem withLive (h : Records type ps d) (live : List Constraint) :
    Records type ps { d with live } :=
  ⟨h.floor_eq, h.ceiling_eq, h.decimals_eq, h.low_le, h.le_high, h.mem_excluded, h.sorted,
    h.pinned_eq⟩

/-- A demand that is folded in is recorded. -/
theorem fold (h : Records type ps d) (folded : d.fold? p = some d') :
    Records type (ps ++ [p]) d' := by
  obtain ⟨comparison, v⟩ := p
  cases comparison with
  | equal =>
    cases pinned : d.pinned with
    | none =>
      simp only [fold?, pinned, Option.some.injEq] at folded
      subst folded
      refine h.append ⟨rfl, rfl, rfl⟩ (fun x => ?_) (fun x => ?_) (fun w => ?_) h.sorted
        (fun w => ?_)
      · simp [Comparison.boundsBelow]
      · simp [Comparison.boundsAbove]
      · simp
      · simp [pinned, eq_comm]
    | some pin =>
      simp only [fold?, pinned] at folded
      split at folded
      · next same =>
        cases folded
        refine h.append ⟨rfl, rfl, rfl⟩ (fun x => ?_) (fun x => ?_) (fun w => ?_) h.sorted
          (fun w => ?_)
        · simp [Comparison.boundsBelow]
        · simp [Comparison.boundsAbove]
        · simp
        · simp [pinned, same, eq_comm]
      · cases folded
  | notEqual =>
    cases folded
    refine h.append ⟨rfl, rfl, rfl⟩ (fun x => ?_) (fun x => ?_) (fun w => ?_)
      (pairwise_exclude h.sorted) (fun w => ?_)
    · simp [Comparison.boundsBelow]
    · simp [Comparison.boundsAbove]
    · simp [mem_exclude, or_comm]
    · simp
  | greater =>
    obtain ⟨next, hnext, rfl⟩ := Option.map_eq_some_iff.1 folded
    have after : next.val = v.val + 1 := Scalar.succ?_eq_some_iff.1 hnext
    refine h.raiseLow rfl fun x => ?_
    rw [Demand.met_greater, Scalar.le_iff, Scalar.lt_iff]
    omega
  | greaterOrEqual =>
    cases folded
    exact h.raiseLow rfl fun x => Demand.met_greaterOrEqual.symm
  | less =>
    obtain ⟨before, hbefore, rfl⟩ := Option.map_eq_some_iff.1 folded
    have step : before.val = v.val - 1 := Scalar.pred?_eq_some_iff.1 hbefore
    refine h.dropHigh rfl fun x => ?_
    rw [Demand.met_less, Scalar.le_iff, Scalar.lt_iff]
    omega
  | lessOrEqual =>
    cases folded
    exact h.dropHigh rfl fun x => Demand.met_lessOrEqual.symm

/-- What a domain refuses depends on what it has recorded only. -/
theorem fold?_eq_none_iff (h : Records type ps d) :
    d.fold? p = none ↔ p.refusedAfter ps = true := by
  obtain ⟨comparison, v⟩ := p
  cases comparison with
  | equal =>
    simp only [fold?, Demand.refusedAfter, List.any_eq_true, decide_eq_true_eq]
    cases pinned : d.pinned with
    | none =>
      simp only [reduceCtorEq, false_iff]
      rintro ⟨⟨_, w⟩, hq, rfl, -⟩
      have := (h.pinned_eq w).2 hq
      simp [pinned] at this
    | some pin =>
      have mem := (h.pinned_eq pin).1 pinned
      simp only [ite_eq_right_iff, reduceCtorEq, imp_false]
      constructor
      · intro other
        exact ⟨_, mem, rfl, other⟩
      · rintro ⟨⟨_, w⟩, hq, rfl, other⟩ rfl
        have := (h.pinned_eq w).2 hq
        rw [pinned] at this
        exact other (Option.some.inj this).symm
  | greater => simp [fold?, Demand.refusedAfter]
  | less => simp [fold?, Demand.refusedAfter]
  | notEqual => simp [fold?, Demand.refusedAfter]
  | greaterOrEqual => simp [fold?, Demand.refusedAfter]
  | lessOrEqual => simp [fold?, Demand.refusedAfter]

/-! ## The values that are left -/

/-- A domain allows the values of its type that meet every recorded demand. -/
theorem allows_iff (h : Records type ps d) (x : Scalar) :
    d.allows x = true ↔ (leastOf type ≤ x ∧ x ≤ greatestOf type) ∧ ∀ p ∈ ps, p.Met x := by
  rw [allows_eq_true]
  constructor
  · rintro ⟨⟨low, high⟩, kept, pinned⟩
    obtain ⟨least, below⟩ := (h.low_le x).1 low
    obtain ⟨greatest, above⟩ := (h.le_high x).1 high
    refine ⟨⟨least, greatest⟩, fun p hp => ?_⟩
    obtain ⟨comparison, v⟩ := p
    cases comparison with
    | equal =>
      have pin := (h.pinned_eq v).2 hp
      rw [pin] at pinned
      exact Demand.met_equal.2 (Option.some.inj (pinned.resolve_left nofun)).symm
    | notEqual =>
      rw [Demand.met_notEqual]
      rintro rfl
      exact kept ((h.mem_excluded x).2 hp)
    | greater => exact below _ hp rfl
    | greaterOrEqual => exact below _ hp rfl
    | less => exact above _ hp rfl
    | lessOrEqual => exact above _ hp rfl
  · rintro ⟨⟨least, greatest⟩, met⟩
    refine ⟨⟨(h.low_le x).2 ⟨least, fun p hp _ => met p hp⟩,
      (h.le_high x).2 ⟨greatest, fun p hp _ => met p hp⟩⟩, fun hx => ?_, ?_⟩
    · exact Demand.met_notEqual.1 (met _ ((h.mem_excluded x).1 hx)) rfl
    · cases pinned : d.pinned with
      | none => exact .inl rfl
      | some pin =>
        have : x = pin := Demand.met_equal.1 (met _ ((h.pinned_eq pin).1 pinned))
        exact .inr (by rw [this])

/-- One demand more leaves the values that meet it. -/
theorem allows_append_iff (h : Records type ps d) (h' : Records type (ps ++ [p]) d')
    (x : Scalar) : d'.allows x = true ↔ d.allows x = true ∧ p.Met x := by
  rw [h'.allows_iff, h.allows_iff, List.forall_mem_append, List.forall_mem_singleton]
  exact and_assoc.symm

/-- No value meets a refused demand beside the recorded ones. -/
theorem not_met_of_refused (h : Records type ps d) (refused : d.fold? p = none) {x : Scalar}
    (met : ∀ q ∈ ps, q.Met x) : ¬ p.Met x :=
  Demand.not_met_of_refusedAfter (h.fold?_eq_none_iff.1 refused) met

/-- Demands that one value meets can all be folded in. -/
theorem exists_of_met {qs : List Demand} {x : Scalar} (h : Records type ps d)
    (met : ∀ q ∈ ps ++ qs, q.Met x) : ∃ d', Records type (ps ++ qs) d' ∧ d'.live = d.live := by
  induction qs generalizing ps d with
  | nil => exact ⟨d, by simpa using h, rfl⟩
  | cons q qs ih =>
    obtain ⟨before, now⟩ := List.forall_mem_append.1 met
    cases folded : d.fold? q with
    | none => exact absurd (now q List.mem_cons_self) (h.not_met_of_refused folded before)
    | some d₁ =>
      obtain ⟨d', recorded, same⟩ := ih (h.fold folded) (by simpa using met)
      exact ⟨d', by simpa using recorded, same.trans (live_of_fold? folded)⟩

/-- The demands determine the domain, whatever their order. -/
theorem unique {qs : List Demand} (h : Records type ps d) (h' : Records type qs d')
    (same : ∀ p, p ∈ ps ↔ p ∈ qs) (live : d.live = d'.live) : d = d' := by
  have floor := h.floor_eq.trans h'.floor_eq.symm
  have ceiling := h.ceiling_eq.trans h'.ceiling_eq.symm
  have decimals := h.decimals_eq.trans h'.decimals_eq.symm
  have lows : ∀ x, d.low ≤ x ↔ d'.low ≤ x := fun x => by simp only [h.low_le, h'.low_le, same]
  have low : d.low = d'.low :=
    Scalar.ext (Int.le_antisymm ((lows _).2 (Int.le_refl _)) ((lows _).1 (Int.le_refl _)))
  have highs : ∀ x, x ≤ d.high ↔ x ≤ d'.high := fun x => by
    simp only [h.le_high, h'.le_high, same]
  have high : d.high = d'.high :=
    Scalar.ext (Int.le_antisymm ((highs _).1 (Int.le_refl _)) ((highs _).2 (Int.le_refl _)))
  have excluded : d.excluded = d'.excluded :=
    h.sorted.eq_of_mem_iff h'.sorted fun {v} => by rw [h.mem_excluded, h'.mem_excluded, same]
  have pinned : d.pinned = d'.pinned :=
    Option.ext fun v => by rw [h.pinned_eq, h'.pinned_eq, same]
  cases d
  cases d'
  simp_all

/-- What is recorded already changes nothing when it is folded in again. -/
theorem fold?_recorded (h : Records type ps d) (left : ∃ x, d.allows x = true) (hp : p ∈ ps) :
    d.fold? p = some d := by
  cases folded : d.fold? p with
  | none =>
    obtain ⟨x, allowed⟩ := left
    have met := ((h.allows_iff x).1 allowed).2
    exact absurd (met p hp) (h.not_met_of_refused folded met)
  | some d₁ =>
    have members : ∀ q, q ∈ ps ↔ q ∈ ps ++ [p] := by
      intro q
      rw [List.mem_append, List.mem_singleton]
      exact ⟨.inl, fun h => h.elim id fun same => same ▸ hp⟩
    rw [h.unique (h.fold folded) members (live_of_fold? folded).symm]

/-! ## The emptiness check -/

theorem nodup_excluded (h : Records type ps d) : d.excluded.Nodup :=
  h.sorted.imp fun {v w} before same => by
    rw [same] at before
    exact Int.lt_irrefl _ before

/-- The ends of the interval stay in the type. -/
theorem leastOf_le_low (h : Records type ps d) : leastOf type ≤ d.low :=
  ((h.low_le _).1 (Int.le_refl _)).1

theorem high_le_greatestOf (h : Records type ps d) : d.high ≤ greatestOf type :=
  ((h.le_high _).1 (Int.le_refl _)).1

/-- The ends of an interval of a type are near enough to be counted. -/
theorem distance?_eq (h : Records type ps d) (ordered : d.low ≤ d.high) :
    Scalar.distance? d.low d.high = some (d.high.val - d.low.val).toNat := by
  apply Scalar.distance?_eq_some ordered
  have := type.span_lt
  have low := h.leastOf_le_low
  have high := h.high_le_greatestOf
  rw [Scalar.le_iff] at low high
  omega

/-- The excluded values of the interval are more than its length exactly when
they are all there is. -/
theorem lt_blocked_iff (h : Records type ps d) (ordered : d.low ≤ d.high) :
    (d.high.val - d.low.val).toNat < d.blocked ↔
      ∀ x, d.low ≤ x → x ≤ d.high → x ∈ d.excluded := by
  have most := Scalar.countIn_le h.nodup_excluded d.low.val d.high.val
  have full := Scalar.countIn_eq_iff h.nodup_excluded d.low.val d.high.val
  rw [Scalar.le_iff] at ordered
  have : (d.high.val - d.low.val).toNat < d.blocked ↔
      d.blocked = (d.high.val + 1 - d.low.val).toNat := by
    rw [blocked_eq]
    omega
  rw [this, blocked_eq, full]
  constructor
  · intro all x low high
    obtain ⟨v, hv, same⟩ := all x.val low high
    rwa [Scalar.ext same] at hv
  · intro all n low high
    obtain ⟨x, rfl⟩ := Scalar.exists_val_eq low high
    exact ⟨x, all x low high, rfl⟩

/-- The emptiness check finds nothing exactly when a value is left. -/
theorem whyEmpty?_eq_none_iff (h : Records type ps d) :
    d.whyEmpty? = none ↔ ∃ x, d.allows x = true := by
  simp only [allows_eq_true]
  unfold whyEmpty?
  split
  · next crossed =>
    simp only [reduceCtorEq, false_iff, not_exists]
    rintro x ⟨⟨low, high⟩, -⟩
    simp only [Scalar.le_iff, Scalar.lt_iff] at crossed low high
    omega
  · next ordered =>
    rw [Scalar.not_lt_iff] at ordered
    cases pinned : d.pinned with
    | some pin =>
      have only : (∃ x, (d.low ≤ x ∧ x ≤ d.high) ∧ x ∉ d.excluded ∧
          (some pin = none ∨ some pin = some x)) ↔
            (d.low ≤ pin ∧ pin ≤ d.high) ∧ pin ∉ d.excluded := by
        simp only [reduceCtorEq, false_or, Option.some.injEq, ← and_assoc, exists_eq_right']
      rw [only]
      simp only
      split
      · next outside =>
        simp only [reduceCtorEq, false_iff]
        rintro ⟨⟨low, high⟩, -⟩
        simp only [Scalar.le_iff, Scalar.lt_iff] at outside low high
        omega
      · next inside =>
        rw [not_or, Scalar.not_lt_iff, Scalar.not_lt_iff] at inside
        split <;> simp [*]
    | none =>
      rw [h.distance?_eq ordered]
      simp only [true_or, and_true]
      split
      · next many =>
        have all := (h.lt_blocked_iff ordered).1 many
        simp only [reduceCtorEq, false_iff, not_exists]
        rintro x ⟨⟨low, high⟩, kept⟩
        exact kept (all x low high)
      · next few =>
        rw [h.lt_blocked_iff ordered] at few
        push Not at few
        obtain ⟨x, low, high, kept⟩ := few
        simp only [true_iff]
        exact ⟨x, ⟨low, high⟩, kept⟩

end Records

/-! ## One constraint -/

section Constraints

variable {σ : Type} {view : StateView σ} {type : NumberType} {ps : List Demand} {d d' : Domain}
  {c : Constraint} {p : Demand}

/-- A literal bound is folded in, and the state is not read. -/
theorem constrain_literal (h : c.demand? d.decimals = some p) (s : σ) :
    d.constrain view c s =
      (((d.restrict p.comparison p.number).1,
        (d.restrict p.comparison p.number).2.map .empty), s) := by
  obtain ⟨text, unit, v, bound, read, rfl⟩ := Constraint.demand?_eq_some_iff.1 h
  simp only [constrain, Constraint.boundValue, bound, read, Bound.readsState]
  rfl

/-- A literal bound is accepted exactly when it is recorded and something is
left. -/
theorem constrain_literal_eq_none_iff (h : Records type ps d)
    (literal : c.demand? type.decimals = some p) (s : σ) :
    (d.constrain view c s).1.2 = none ↔
      d.fold? p = some (d.constrain view c s).1.1 ∧
        ∃ x, (d.constrain view c s).1.1.allows x = true := by
  rw [← h.decimals_eq] at literal
  rw [constrain_literal literal]
  simp only [Option.map_eq_none_iff]
  cases folded : d.fold? p with
  | none =>
    obtain ⟨reason, refused⟩ := restrict_of_refused folded
    simp [refused]
  | some d' => simp [restrict_of_fold? folded, (h.fold folded).whyEmpty?_eq_none_iff]

/-- A literal bound that leaves something is accepted. -/
theorem Records.constrain_of_left (h : Records type ps d)
    (literal : c.demand? type.decimals = some p) {x : Scalar} (allowed : d.allows x = true)
    (met : p.Met x) (view : StateView σ) (s : σ) :
    ∃ d', d.fold? p = some d' ∧ d.constrain view c s = ((d', none), s) ∧ d'.allows x = true := by
  cases folded : d.fold? p with
  | none => exact absurd met (h.not_met_of_refused folded ((h.allows_iff x).1 allowed).2)
  | some d' =>
    have now := h.fold folded
    have allowed' : d'.allows x = true := (h.allows_append_iff now x).2 ⟨allowed, met⟩
    rw [← h.decimals_eq] at literal
    refine ⟨d', rfl, ?_, allowed'⟩
    rw [constrain_literal literal, restrict_of_fold? folded,
      now.whyEmpty?_eq_none_iff.2 ⟨x, allowed'⟩]
    rfl

/-- Applies constraints in turn, whatever becomes of each. -/
def applyAll (view : StateView σ) : List Constraint → Domain → σ → Domain × σ
  | [], d, s => (d, s)
  | c :: cs, d, s =>
    let ((d, _), s) := d.constrain view c s
    applyAll view cs d s

/-- Literal bounds leave the demands in a domain that it did not refuse. -/
theorem records_applyAll {cs : List Constraint} {qs : List Demand} (s : σ)
    (literals : cs.map (·.demand? type.decimals) = qs.map some) :
    ∀ {ps d}, Records type ps d →
      Records type (Demand.recordedFrom ps qs) (applyAll view cs d s).1 := by
  induction cs generalizing qs with
  | nil =>
    obtain rfl : qs = [] := by simpa using literals.symm
    exact fun h => h
  | cons c cs ih =>
    cases qs with
    | nil => simp at literals
    | cons q qs =>
      simp only [List.map_cons, List.cons.injEq] at literals
      intro ps d h
      have literal := literals.1
      rw [← h.decimals_eq] at literal
      simp only [applyAll, constrain_literal literal, Demand.recordedFrom]
      cases folded : d.fold? q with
      | none =>
        obtain ⟨reason, refused⟩ := restrict_of_refused folded
        rw [refused, if_pos (h.fold?_eq_none_iff.1 folded)]
        exact ih literals.2 h
      | some d' =>
        have kept : ¬ q.refusedAfter ps = true := by
          rw [← h.fold?_eq_none_iff, folded]
          exact nofun
        rw [restrict_of_fold? folded, if_neg kept]
        exact ih literals.2 (h.fold folded)

/-! ## Runs of accepted constraints -/

/-- The domain that is left when some constraints have been applied to the
range of a type and each of them was accepted. Each may have had its own state
to read from. -/
inductive Reached (type : NumberType) : List Constraint → Domain → Prop
  | whole : Reached type [] (ofType type)
  | step {σ : Type} {cs : List Constraint} {d d' : Domain} {s s' : σ} (view : StateView σ)
      (c : Constraint) (before : Reached type cs d)
      (accepted : d.constrain view c s = ((d', none), s')) : Reached type (cs ++ [c]) d'

/-- What an accepted constraint does: a literal is folded in and leaves
something, a bound that is read from state is kept. -/
theorem constrain_accepted {s s' : σ} (h : d.constrain view c s = ((d', none), s')) :
    (∃ p, c.demand? d.decimals = some p ∧ d.fold? p = some d' ∧ d'.whyEmpty? = none ∧ s' = s) ∨
      (c.bound.readsState = true ∧ d' = { d with live := d.live ++ [c] }) := by
  obtain ⟨comparison, bound, origin⟩ := c
  cases bound with
  | literal text unit =>
    refine .inl ?_
    cases read : Scalar.ofLiteral text unit d.decimals with
    | error e =>
      simp only [constrain, Constraint.boundValue, read] at h
      exact nomatch (Prod.mk.inj (Prod.mk.inj h).1).2
    | ok v =>
      have literal : Constraint.demand? ⟨comparison, .literal text unit, origin⟩ d.decimals =
          some ⟨comparison, v⟩ := by
        simp [Constraint.demand?, read, Except.toOption]
      rw [constrain_literal literal] at h
      obtain ⟨outcome, state⟩ := Prod.mk.inj h
      obtain ⟨same, left⟩ := Prod.mk.inj outcome
      rw [Option.map_eq_none_iff] at left
      cases folded : d.fold? ⟨comparison, v⟩ with
      | none =>
        obtain ⟨reason, refused⟩ := restrict_of_refused folded
        simp only [refused, reduceCtorEq] at left
      | some d₁ =>
        have taken := restrict_of_fold? folded
        simp only [taken] at same left
        subst same
        exact ⟨_, literal, folded, left, state.symm⟩
  | getter name =>
    refine .inr ⟨rfl, ?_⟩
    cases read : view name s with
    | error e s₁ =>
      simp only [constrain, Constraint.boundValue, read] at h
      exact nomatch (Prod.mk.inj (Prod.mk.inj h).1).2
    | ok v s₁ =>
      simp only [constrain, Constraint.boundValue, read, Bound.readsState, if_true] at h
      split at h
      · exact nomatch (Prod.mk.inj (Prod.mk.inj h).1).2
      · exact (Prod.mk.inj (Prod.mk.inj h).1).1.symm

namespace Reached

variable {cs : List Constraint}

/-- The invariant of a run: literals are recorded, the other bounds are kept in
order, and something is left. -/
theorem invariant (h : Reached type cs d) :
    Records type (cs.filterMap (·.demand? type.decimals)) d ∧
      d.live = cs.filter (·.bound.readsState) ∧
      (∃ x, d.allows x = true) ∧
      ∀ c ∈ cs, c.bound.readsState = true ∨ (c.demand? type.decimals).isSome := by
  induction h with
  | whole =>
    have records := records_ofType type
    refine ⟨records, rfl, ⟨leastOf type, ?_⟩, List.forall_mem_nil _⟩
    exact (records.allows_iff _).2
      ⟨⟨Int.le_refl _, type.leastOf_le_greatestOf⟩, List.forall_mem_nil _⟩
  | @step σ cs d d' s s' view c before accepted ih =>
    obtain ⟨records, live, left, literals⟩ := ih
    rw [List.filterMap_append, List.filter_append, List.forall_mem_append,
      List.forall_mem_singleton]
    rcases constrain_accepted accepted with ⟨p, literal, folded, notEmpty, -⟩ | ⟨reads, rfl⟩
    · rw [records.decimals_eq] at literal
      have now := records.fold folded
      have notLive : c.bound.readsState = false := by
        obtain ⟨comparison, bound, origin⟩ := c
        cases bound with
        | literal text unit => rfl
        | getter name => cases literal
      refine ⟨by simpa [literal] using now, ?_, now.whyEmpty?_eq_none_iff.1 notEmpty, literals,
        .inr (by simp [literal])⟩
      simp [notLive, live_of_fold? folded, live]
    · have noDemand : c.demand? type.decimals = none := by
        obtain ⟨comparison, bound, origin⟩ := c
        cases bound with
        | literal text unit => cases reads
        | getter name => rfl
      refine ⟨?_, by simp [reads, live], left, literals, .inl reads⟩
      simpa [noDemand] using records.withLive _

theorem records (h : Reached type cs d) : Records type (cs.filterMap (·.demand? type.decimals)) d :=
  h.invariant.1

theorem live_eq (h : Reached type cs d) : d.live = cs.filter (·.bound.readsState) :=
  h.invariant.2.1

theorem exists_allows (h : Reached type cs d) : ∃ x, d.allows x = true := h.invariant.2.2.1

/-- The literals of accepted constraints are numbers. -/
theorem exists_demand (h : Reached type cs d) (hc : c ∈ cs) (literal : c.bound.readsState = false) :
    ∃ p, c.demand? type.decimals = some p ∧ p ∈ cs.filterMap (·.demand? type.decimals) := by
  rcases h.invariant.2.2.2 c hc with reads | isSome
  · rw [literal] at reads
    cases reads
  · obtain ⟨p, demand⟩ := Option.isSome_iff_exists.1 isSome
    exact ⟨p, demand, List.mem_filterMap.2 ⟨c, hc, demand⟩⟩

/-- An accepted literal changes nothing when it is applied again. -/
theorem constrain_again (h : Reached type cs d) (hc : c ∈ cs)
    (literal : c.bound.readsState = false) (view : StateView σ) (s : σ) :
    d.constrain view c s = ((d, none), s) := by
  obtain ⟨p, demand, recorded⟩ := h.exists_demand hc literal
  obtain ⟨x, allowed⟩ := h.exists_allows
  have met := ((h.records.allows_iff x).1 allowed).2 p recorded
  obtain ⟨d', folded, run, -⟩ := h.records.constrain_of_left demand allowed met view s
  rw [h.records.fold?_recorded h.exists_allows recorded] at folded
  cases folded
  exact run

/-- Constraints that change nothing may be applied as well. -/
theorem append_unchanged {added : List Constraint} {s : σ} (h : Reached type cs d)
    (unchanged : ∀ c ∈ added, d.constrain view c s = ((d, none), s)) :
    Reached type (cs ++ added) d := by
  induction added generalizing cs with
  | nil => simpa using h
  | cons c added ih =>
    obtain ⟨first, rest⟩ := List.forall_mem_cons.1 unchanged
    simpa using ih (h.step view c first) rest

/-- Literal constraints lead to one domain, in whatever order they are applied
and however often. -/
theorem unique {cs' : List Constraint} (h : Reached type cs d) (h' : Reached type cs' d')
    (literal : ∀ c ∈ cs, c.bound.readsState = false) (same : ∀ c, c ∈ cs ↔ c ∈ cs') : d = d' := by
  have noLive : ∀ {cs : List Constraint}, (∀ c ∈ cs, c.bound.readsState = false) →
      cs.filter (·.bound.readsState) = [] :=
    fun literal => List.filter_eq_nil_iff.2 fun c hc => by simp [literal c hc]
  refine h.records.unique h'.records (fun p => by simp only [List.mem_filterMap, same]) ?_
  rw [h.live_eq, h'.live_eq, noLive literal, noLive fun c hc => literal c ((same c).2 hc)]

end Reached

/-! ## Sequences of literal constraints -/

/-- Nothing is refused as long as one value meets all demands. -/
theorem recordedFrom_eq {ps qs : List Demand} {x : Scalar} (met : ∀ q ∈ ps ++ qs, q.Met x) :
    Demand.recordedFrom ps qs = ps ++ qs := by
  induction qs generalizing ps with
  | nil => simp [Demand.recordedFrom]
  | cons q qs ih =>
    have kept : ¬ q.refusedAfter ps = true := fun refused =>
      Demand.not_met_of_refusedAfter refused (fun r hr => met r (by simp [hr]))
        (met q (by simp))
    rw [Demand.recordedFrom, if_neg kept, ih (by simpa using met), List.append_assoc]
    rfl

/-- **Narrowing by literals is exact.** Let literal constraints be applied in
turn to the whole range of a type, whatever becomes of each. The next one is
accepted exactly when some value of the type meets it and all recorded demands
before it. If it is, the domain allows exactly those values, its interval is in
order and inside the type, and a value that it is pinned to is one of them. As
long as every constraint has been accepted, every demand is recorded. -/
theorem narrowing_exact (view : StateView σ) (s : σ) (wf : type.WellFormed)
    {cs : List Constraint} (literals : cs.map (·.demand? type.decimals) = ps.map some)
    (literal : c.demand? type.decimals = some p) :
    let d := (applyAll view cs (ofType type) s).1
    let outcome := (d.constrain view c s).1
    let Left (x : Scalar) : Prop := type.Legal x ∧ (∀ q ∈ Demand.recorded ps, q.Met x) ∧ p.Met x
    (outcome.2 = none ↔ ∃ x, Left x) ∧
      (outcome.2 = none →
        (∀ x, outcome.1.allows x = true ↔ Left x) ∧
        outcome.1.floor ≤ outcome.1.low ∧ outcome.1.low ≤ outcome.1.high ∧
        outcome.1.high ≤ outcome.1.ceiling ∧
        ∀ pin, outcome.1.pinned = some pin → outcome.1.allows pin = true) ∧
      (Reached type cs d → Demand.recorded ps = ps) := by
  intro d outcome Left
  have before : Records type (Demand.recorded ps) d :=
    records_applyAll s literals (records_ofType type)
  have accepted_iff : outcome.2 = none ↔
      d.fold? p = some outcome.1 ∧ ∃ x, outcome.1.allows x = true :=
    constrain_literal_eq_none_iff before literal s
  have left_iff : ∀ {d'}, d.fold? p = some d' → ∀ x, d'.allows x = true ↔ Left x := by
    intro d' folded x
    rw [(before.fold folded).allows_iff, ← type.legal_iff wf, List.forall_mem_append,
      List.forall_mem_singleton]
  refine ⟨⟨fun accepted => ?_, ?_⟩, fun accepted => ?_, fun reached => ?_⟩
  · obtain ⟨folded, x, allowed⟩ := accepted_iff.1 accepted
    exact ⟨x, (left_iff folded x).1 allowed⟩
  · rintro ⟨x, left⟩
    have allowed : d.allows x = true := by
      rw [before.allows_iff, ← type.legal_iff wf]
      exact ⟨left.1, left.2.1⟩
    obtain ⟨d', -, run, -⟩ := before.constrain_of_left literal allowed left.2.2 view s
    simp only [outcome, run]
  · obtain ⟨folded, x, allowed⟩ := accepted_iff.1 accepted
    have now := before.fold folded
    refine ⟨left_iff folded, ?_, ?_, ?_, fun pin pinned => ?_⟩
    · rw [now.floor_eq]
      exact now.leastOf_le_low
    · obtain ⟨⟨low, high⟩, -⟩ := allows_eq_true.1 allowed
      exact Int.le_trans low high
    · rw [now.ceiling_eq]
      exact now.high_le_greatestOf
    · have only := (allows_eq_true.1 allowed).2.2
      rw [pinned] at only
      obtain rfl : pin = x := Option.some.inj (only.resolve_left nofun)
      exact allowed
  · obtain ⟨x, allowed⟩ := reached.exists_allows
    have demands : cs.filterMap (·.demand? type.decimals) = ps := by
      calc cs.filterMap (·.demand? type.decimals)
          = (cs.map (·.demand? type.decimals)).filterMap id := by rw [List.filterMap_map]; rfl
        _ = ps := by rw [literals, List.filterMap_map]; simp
    have met := ((reached.records.allows_iff x).1 allowed).2
    rw [demands] at met
    exact recordedFrom_eq met

/-- A constraint on numbers without digits after the point. -/
def literalConstraint (comparison : Comparison) (text : String) : Constraint :=
  ⟨comparison, .literal text none, .rule "limits"⟩

/-- Two literals on signed bytes that leave all but `-128`, and one that leaves
only `-127` of them. -/
theorem narrowing_exact_signed_byte :
    let cs := [literalConstraint .notEqual "-128", literalConstraint .less "0x1F4"]
    let c := literalConstraint .lessOrEqual "-127"
    NumberType.WellFormed (.int 8) ∧ (∀ c' ∈ cs ++ [c], (c'.demand? 0).isSome) ∧
      ((applyAll detached cs (ofType (.int 8)) ()).1.constrain detached c ()).1.2 = none := by
  intro cs c
  have wf : NumberType.WellFormed (.int 8) := ⟨by decide, by decide, by decide⟩
  have literals : cs.map (·.demand? 0) =
      [⟨.notEqual, ⟨-128, by decide⟩⟩, ⟨.less, ⟨500, by decide⟩⟩].map some := by decide
  have literal : c.demand? 0 = some ⟨.lessOrEqual, ⟨-127, by decide⟩⟩ := by decide
  have legal : NumberType.Legal (.int 8) ⟨-127, by decide⟩ := ⟨by simp, by simp⟩
  have met : Demand.Met ⟨.lessOrEqual, ⟨-127, by decide⟩⟩ ⟨-127, by decide⟩ := by decide
  have narrowed := narrowing_exact detached () wf literals literal
  exact ⟨wf, by decide, narrowed.1.2 ⟨_, legal, by decide, met⟩⟩

/-- An equality that is refused leaves no trace: after `== 3` and `== 4` the
constraint `>= 0` is accepted, although no value meets all three. -/
theorem narrowing_after_refusal :
    let cs := [literalConstraint .equal "3", literalConstraint .equal "4"]
    let c := literalConstraint .greaterOrEqual "0"
    ((applyAll detached cs (ofType (.uint 8)) ()).1.constrain detached c ()).1.2 = none ∧
      ¬ ∃ x, NumberType.Legal (.uint 8) x ∧
        ∀ c' ∈ cs ++ [c], ∃ q, c'.demand? 0 = some q ∧ q.Met x := by
  refine ⟨by decide, ?_⟩
  rintro ⟨x, -, met⟩
  obtain ⟨_, demand, three⟩ := met (literalConstraint .equal "3") (by simp)
  have demand₃ : (literalConstraint .equal "3").demand? 0 = some ⟨.equal, ⟨3, by decide⟩⟩ := by
    decide
  obtain rfl := Option.some.inj (demand₃.symm.trans demand)
  obtain ⟨_, demand, four⟩ := met (literalConstraint .equal "4") (by simp)
  have demand₄ : (literalConstraint .equal "4").demand? 0 = some ⟨.equal, ⟨4, by decide⟩⟩ := by
    decide
  obtain rfl := Option.some.inj (demand₄.symm.trans demand)
  rw [Demand.met_equal] at three four
  rw [three] at four
  exact absurd four (by decide)

end Constraints

end Domain

end GuardedCalls
