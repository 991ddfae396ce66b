/-
GuardedCalls.Proofs.UnsatisfiableTheorems — when an argument has no value, and
what the error says then.

The first request for an argument applies its constraints one after the other:
the rules for its type, those for the types in it, and its guards. `placed`
lists them in this order, each with the part of the type whose values it is for.

* `Placed.Empties` — after those before it, the constraint leaves no legal value
  at its part.
* `Clear` — each constraint of a list is read and leaves something.
* `Outcome` — a step of the assembly takes all its constraints, or stops at the
  first one that leaves nothing or is no number. `Outcome.bind` puts steps
  together, `ofType_outcome` follows the rules through the type.
* `unsatisfiable_exact` — an error says that nothing is left exactly when
  something does leave nothing, and it names the first constraint that does;
  otherwise there is a value.
-/
import GuardedCalls.Proofs.RuleTheorems

namespace GuardedCalls

/-- The numbers of a type; only number types have some. -/
def AbiType.Legal : AbiType → Scalar → Prop
  | .number type, x => type.Legal x
  | _, _ => False

/-! ## Constraints in order -/

/-- A constraint with the part that it is applied to. -/
structure Placed where
  /-- Which of the parts of the argument's type it is, the outer ones
  first. -/
  part : Nat
  /-- The type of the part. -/
  type : AbiType
  /-- The constraint. -/
  constraint : Constraint

namespace Placed

/-- The bound is a literal, and a number of the type. -/
def Reads (q : Placed) : Prop := ∃ p, q.constraint.demand? q.type.decimals = some p

/-- The number meets the constraint. -/
def Met (q : Placed) (x : Scalar) : Prop :=
  ∃ p, q.constraint.demand? q.type.decimals = some p ∧ p.Met x

/-- The constraint is read, and no legal value meets it together with those
before it that are for the same part. -/
def Empties (before : List Placed) (q : Placed) : Prop :=
  q.Reads ∧ ¬ ∃ x, q.type.Legal x ∧ ∀ r ∈ before ++ [q], r.part = q.part → r.Met x

/-- Each constraint is read, and leaves something after those before it. -/
def Clear : List Placed → List Placed → Prop
  | _, [] => True
  | before, q :: steps => (q.Reads ∧ ¬ q.Empties before) ∧ Clear (before ++ [q]) steps

section Clear

variable {before steps steps' : List Placed} {q : Placed}

theorem clear_append :
    Clear before (steps ++ steps') ↔ Clear before steps ∧ Clear (before ++ steps) steps' := by
  induction steps generalizing before with
  | nil => simp [Clear]
  | cons q steps ih =>
    simp only [List.cons_append, Clear, ih, List.append_assoc, List.nil_append, and_assoc]

theorem clear_singleton : Clear before [q] ↔ q.Reads ∧ ¬ q.Empties before := by
  simp [Clear]

theorem Clear.reads (clear : Clear before steps) : ∀ r ∈ steps, r.Reads := by
  induction steps generalizing before with
  | nil => exact List.forall_mem_nil _
  | cons q steps ih => exact List.forall_mem_cons.2 ⟨clear.1.1, ih clear.2⟩

theorem Clear.not_empties {later : List Placed} (clear : Clear before (steps ++ q :: later)) :
    ¬ q.Empties (before ++ steps) := (clear_append.1 clear).2.1.2

/-- Of two failures in one list, the first is no number and the other leaves
nothing: then the other is not reached. -/
theorem not_reached {earlier later earlier' later' : List Placed} {r : Placed}
    (same : earlier ++ q :: later = earlier' ++ r :: later') (clear : Clear [] earlier)
    (bad : ¬ q.Reads) (reads : ∀ r ∈ earlier', r.Reads) : ¬ r.Empties earlier' := by
  intro empties
  rcases List.append_eq_append_iff.1 same with ⟨between, rfl, tail⟩ | ⟨between, rfl, tail⟩
  · cases between with
    | nil =>
      obtain ⟨rfl, -⟩ := List.cons.inj tail
      exact bad empties.1
    | cons q' between =>
      obtain ⟨rfl, -⟩ := List.cons.inj tail
      exact bad (reads q (by simp))
  · cases between with
    | nil =>
      obtain ⟨rfl, -⟩ := List.cons.inj tail
      exact bad empties.1
    | cons r' between =>
      obtain ⟨rfl, -⟩ := List.cons.inj tail
      exact clear.not_empties empties

end Clear

end Placed

/-- The rules for the parts from a number on. -/
def rulesFrom (rules : RuleBook) (key : ArgumentKey) : Nat → List AbiType → List Placed
  | _, [] => []
  | i, t :: ts => (ruleConstraints rules key t).map (⟨i, t, ·⟩) ++ rulesFrom rules key (i + 1) ts

/-- The constraints of an argument in the order in which they are applied: the
rules for its type and for the types in it, and the guards that values of the
type honour. -/
def placed (rules : RuleBook) (guards : GuardTable) (key : ArgumentKey) : List Placed :=
  rulesFrom rules key 0 key.type.parts ++
    ((guardsOn guards key).filter (·.appliesTo key.type)).map (⟨0, key.type, ·⟩)

section Order

variable {rules : RuleBook} {key : ArgumentKey}

theorem rulesFrom_append (i : Nat) (ts ts' : List AbiType) :
    rulesFrom rules key i (ts ++ ts') =
      rulesFrom rules key i ts ++ rulesFrom rules key (i + ts.length) ts' := by
  induction ts generalizing i with
  | nil => rfl
  | cons t ts ih =>
    simp only [List.cons_append, rulesFrom, ih, List.append_assoc, List.length_cons]
    rw [Nat.add_right_comm, Nat.add_assoc]

theorem part_lt_of_mem_rulesFrom {i : Nat} {ts : List AbiType} {q : Placed}
    (h : q ∈ rulesFrom rules key i ts) : q.part < i + ts.length := by
  induction ts generalizing i with
  | nil => cases h
  | cons t ts ih =>
    rw [List.length_cons]
    rcases List.mem_append.1 h with own | later
    · obtain ⟨c, -, rfl⟩ := List.mem_map.1 own
      exact Nat.lt_add_of_pos_right (Nat.succ_pos _)
    · have := ih later
      omega

end Order

namespace Assembly

/-! ## Steps of an assembly -/

section Outcome

variable {σ α β : Type} {key : ArgumentKey} {before steps steps' : List Placed}
  {applied : List Constraint}

open Placed

/-- What comes of a step that has constraints to apply: it takes all of them, or
it stops at the first one that leaves nothing or is no number. -/
def Outcome (key : ArgumentKey) (before steps : List Placed) (applied : List Constraint) :
    EStateM.Result SessionError (Assembly σ) α → Prop
  | .ok _ a => Clear before steps ∧ a.applied = applied ++ steps.map (·.constraint)
  | .error e _ => ∃ earlier q later, steps = earlier ++ q :: later ∧ Clear before earlier ∧
      ((q.Empties (before ++ earlier) ∧ ∃ reason, e = .unsatisfiable
          ⟨key, .constraint q.constraint reason, applied ++ earlier.map (·.constraint)⟩) ∨
        (¬ q.Reads ∧ ∃ bad, e = .bound bad))

theorem Outcome.pure (x : α) (a : Assembly σ) :
    Outcome key before [] a.applied ((pure x : Step σ α) a) := ⟨trivial, by simp⟩

/-- A step and then another one. -/
theorem Outcome.bind {m : Step σ α} {f : α → Step σ β} {a : Assembly σ}
    (first : Outcome key before steps a.applied (m a))
    (next : ∀ x a₁, m a = .ok x a₁ →
      Outcome key (before ++ steps) steps' a₁.applied (f x a₁)) :
    Outcome key before (steps ++ steps') a.applied ((m >>= f) a) := by
  simp only [Bind.bind, EStateM.bind]
  cases run : m a with
  | error e a₁ =>
    rw [run] at first
    obtain ⟨earlier, q, later, rfl, clear, failed⟩ := first
    exact ⟨earlier, q, later ++ steps', by simp, clear, failed⟩
  | ok x a₁ =>
    rw [run] at first
    obtain ⟨clear, applied₁⟩ := first
    have second := next x a₁ run
    change Outcome key before (steps ++ steps') a.applied (f x a₁)
    cases run' : f x a₁ with
    | error e a₂ =>
      rw [run'] at second
      obtain ⟨earlier, q, later, rfl, clear', failed⟩ := second
      refine ⟨steps ++ earlier, q, later, by simp, clear_append.2 ⟨clear, clear'⟩, ?_⟩
      simpa only [applied₁, List.append_assoc, List.map_append] using failed
    | ok y a₂ =>
      rw [run'] at second
      obtain ⟨clear', applied₂⟩ := second
      exact ⟨clear_append.2 ⟨clear, clear'⟩, by rw [applied₂, applied₁]; simp⟩

/-- What is made of a result does not matter. -/
theorem Outcome.map {m : Step σ α} {f : α → β} {a : Assembly σ}
    (h : Outcome key before steps a.applied (m a)) :
    Outcome key before steps a.applied ((m >>= fun x => Pure.pure (f x)) a) := by
  have := h.bind (f := fun x => Pure.pure (f x)) fun x a₁ _ => Outcome.pure (f x) a₁
  rwa [List.append_nil] at this

end Outcome

/-! ## Constraints on a number -/

section Numbers

variable {σ : Type} {view : StateView σ} {key : ArgumentKey} {type : NumberType} {d : Domain}
  {cs₀ cs : List Constraint} {c : Constraint} {before : List Placed} {i : Nat}

/-- The constraints that have been applied to a part. -/
def AppliedTo (before : List Placed) (i : Nat) (type : NumberType) (cs : List Constraint) : Prop :=
  before.filter (·.part = i) = cs.map (⟨i, .number type, ·⟩)

/-- A domain that literals have led to allows the legal values that meet
them. -/
theorem allows_iff_met (wf : type.WellFormed) (reached : Domain.Reached type cs₀ d)
    (literal : ∀ c ∈ cs₀, c.bound.readsState = false) (applied : AppliedTo before i type cs₀)
    (x : Scalar) :
    d.allows x = true ↔ type.Legal x ∧ ∀ r ∈ before, r.part = i → r.Met x := by
  rw [reached.records.allows_iff, type.legal_iff wf]
  have members : (∀ r ∈ before, r.part = i → r.Met x) ↔
      ∀ c ∈ cs₀, ∃ p, c.demand? type.decimals = some p ∧ p.Met x := by
    have same : (∀ r ∈ before, r.part = i → r.Met x) ↔
        ∀ r ∈ before.filter (·.part = i), r.Met x := by simp
    rw [same, applied, List.forall_mem_map]
    rfl
  rw [members]
  refine and_congr_right fun _ => ⟨fun met c hc => ?_, fun met p hp => ?_⟩
  · obtain ⟨p, demand, recorded⟩ := reached.exists_demand hc (literal c hc)
    exact ⟨p, demand, met p recorded⟩
  · obtain ⟨c, hc, demand⟩ := List.mem_filterMap.1 hp
    obtain ⟨p', demand', met⟩ := met c hc
    rw [demand] at demand'
    cases demand'
    exact met

/-- A literal that is no number is not taken. -/
theorem constrain_of_no_demand (view : StateView σ) (decimals : d.decimals = type.decimals)
    (literal : c.bound.readsState = false) (none : c.demand? type.decimals = none) (s : σ) :
    ∃ d' bad, d.constrain view c s = ((d', some (.bound bad)), s) := by
  cases bound : c.bound with
  | getter name =>
    rw [bound] at literal
    cases literal
  | literal text unit =>
    cases read : Scalar.ofLiteral text unit type.decimals with
    | ok v =>
      rw [Constraint.demand?, bound] at none
      simp only [read, Except.toOption, Option.map_some] at none
      cases none
    | error e =>
      refine ⟨d, .literal e c.location, ?_⟩
      simp only [Domain.constrain, Constraint.boundValue, bound, decimals, read]

/-- One constraint: it is taken, leaves nothing, or is no number. -/
theorem narrowBy_outcome (wf : type.WellFormed) (reached : Domain.Reached type cs₀ d)
    (literals : ∀ c ∈ cs₀, c.bound.readsState = false) (applied : AppliedTo before i type cs₀)
    (honoured : c.appliesTo (.number type) = true) (literal : c.bound.readsState = false)
    (mismatch : AbiKind → Step σ Space) (a : Assembly σ) :
    Outcome key before [⟨i, .number type, c⟩] a.applied
      (narrowBy view key c (.number type d) mismatch a) := by
  have onPart := allows_iff_met wf reached literals applied
  simp only [narrowBy, Space.constrain_number honoured]
  cases demand : c.demand? type.decimals with
  | none =>
    -- The literal is no number, so the domain does not take it.
    obtain ⟨d', bad, run⟩ := constrain_of_no_demand view
      reached.records.decimals_eq literal demand a.state
    simp only [run]
    refine ⟨[], _, [], rfl, trivial, .inr ⟨?_, bad, rfl⟩⟩
    rintro ⟨p, reads⟩
    cases demand.symm.trans reads
  | some p =>
    have empties_iff : Placed.Empties before ⟨i, .number type, c⟩ ↔
        ∀ x, d.allows x = true → ¬ p.Met x := by
      have met : ∀ x, Placed.Met ⟨i, .number type, c⟩ x ↔ p.Met x := by
        intro x
        constructor
        · rintro ⟨p', same, met⟩
          obtain rfl := Option.some.inj (demand.symm.trans same)
          exact met
        · exact fun met => ⟨p, demand, met⟩
      have reads : Placed.Reads ⟨i, .number type, c⟩ := ⟨p, demand⟩
      simp only [Placed.Empties, reads, true_and, onPart, AbiType.Legal, List.forall_mem_append,
        List.forall_mem_singleton, met, not_exists, not_and, true_imp_iff, and_imp]
    rcases Domain.constrain_literal_cases view reached.records demand a.state with
      ⟨d', run, now, -, x, left⟩ | ⟨⟨d', reason, run⟩, gone⟩
    · simp only [run]
      refine ⟨Placed.clear_singleton.2 ⟨⟨p, demand⟩, fun empties => ?_⟩, rfl⟩
      obtain ⟨allowed, met⟩ := (reached.records.allows_append_iff now x).1 left
      exact empties_iff.1 empties x allowed met
    · simp only [run]
      refine ⟨[], _, [], rfl, trivial, .inl ⟨?_, reason, by simp⟩⟩
      rw [List.append_nil]
      exact empties_iff.2 gone

/-- Constraints in turn, those left out that values of the type do not
honour. -/
theorem foldlM_outcome (view : StateView σ) (key : ArgumentKey)
    (mismatch : Space → Constraint → AbiKind → Step σ Space) (wf : type.WellFormed)
    (reached : Domain.Reached type cs₀ d) (literals : ∀ c ∈ cs₀, c.bound.readsState = false)
    (applied : AppliedTo before i type cs₀) (literal : ∀ c ∈ cs, c.bound.readsState = false)
    (passed : ∀ c ∈ cs, c.appliesTo (.number type) = false →
      ∀ space kind a, mismatch space c kind a = .ok space a) (a : Assembly σ) :
    Outcome key before ((cs.filter (·.appliesTo (.number type))).map (⟨i, .number type, ·⟩))
      a.applied (cs.foldlM (fun space c => narrowBy view key c space (mismatch space c))
        (.number type d) a) := by
  induction cs generalizing cs₀ d before a with
  | nil => exact Outcome.pure _ a
  | cons c cs ih =>
    obtain ⟨first, literal⟩ := List.forall_mem_cons.1 literal
    obtain ⟨passes, passed⟩ := List.forall_mem_cons.1 passed
    rw [List.foldlM_cons]
    cases honoured : c.appliesTo (.number type) with
    | false =>
      rw [List.filter_cons_of_neg (by simp [honoured])]
      have unchanged : narrowBy view key c (.number type d) (mismatch (.number type d) c) a =
          .ok (.number type d) a := by
        rw [narrowBy_of_not_appliesTo (.number type d) honoured]
        exact passes honoured _ _ _
      have rest := ih reached literals applied literal passed a
      simp only [Bind.bind, EStateM.bind, unchanged]
      exact rest
    | true =>
      rw [List.filter_cons_of_pos (by simp [honoured]), List.map_cons, ← List.singleton_append]
      refine (narrowBy_outcome wf reached literals applied honoured first _ a).bind
        fun space a₁ run => ?_
      rcases narrowBy_number_ok run with ⟨-, d', rfl, accepted⟩ | ⟨other, -⟩
      · refine ih (reached.step view c accepted) ?_ ?_ literal passed a₁
        · exact List.forall_mem_append.2 ⟨literals, List.forall_mem_singleton.2 first⟩
        · rw [AppliedTo, List.filter_append, applied, List.map_append]
          simp
      · rw [honoured] at other
        cases other

end Numbers

/-! ## The rules of an argument -/

section Rules

variable {σ : Type} {view : StateView σ} {key : ArgumentKey} {rules : RuleBook}

/-- The rules for a number. -/
theorem ofNumber_outcome (checked : rules.Checked) {type : NumberType} (wf : type.WellFormed)
    {before : List Placed} {i : Nat} (fresh : ∀ q ∈ before, q.part < i) (a : Assembly σ) :
    Outcome key before ((ruleConstraints rules key (.number type)).map (⟨i, .number type, ·⟩))
      a.applied (narrowByOwn view rules key (.number type (Domain.ofType type)) a) := by
  have own : (Space.number type (Domain.ofType type)).type = .number type := rfl
  have honoured : ∀ c ∈ ruleConstraints rules key (.number type),
      c.appliesTo (.number type) = true := fun c hc =>
    (checked_of_mem checked (t := .number type) wf hc).honoured
  have literal : ∀ c ∈ ruleConstraints rules key (.number type), c.bound.readsState = false :=
    fun c hc => literal_of_mem checked hc
  have none : AppliedTo before i type [] :=
    List.filter_eq_nil_iff.2 fun q hq => by simp [Nat.ne_of_lt (fresh q hq)]
  unfold ruleConstraints at honoured literal ⊢
  rw [narrowByOwn, own]
  cases found : rules.lookup? key.contract key.function (.number type) with
  | none => exact Outcome.pure _ a
  | some entry =>
    simp only [found, Option.map_some, Option.getD_some] at honoured literal ⊢
    have run := foldlM_outcome view key
      (fun space c kind => throw (.invalidRule
        ⟨key.contract ++ "." ++ key.function ++ "." ++ entry.type.name, .notForKind c kind⟩))
      wf .whole (List.forall_mem_nil _) none literal
      (fun c hc other => by rw [honoured c hc] at other; cases other) a
    rwa [List.filter_eq_self.2 honoured] at run

/-- There are none for a type of another sort. -/
theorem narrowByOwn_of_not_number (view : StateView σ) (key : ArgumentKey)
    (checked : rules.Checked) {space : Space} {t : AbiType} (wf : t.WellFormed)
    (type : space.type = t) (other : ∀ number, t ≠ .number number) (a : Assembly σ) :
    narrowByOwn view rules key space a = .ok space a := by
  have nothing := ruleConstraints_eq_nil key checked wf other
  unfold ruleConstraints at nothing
  rw [narrowByOwn, type]
  cases found : rules.lookup? key.contract key.function t with
  | none => rfl
  | some entry =>
    rw [found] at nothing
    have empty : entry.constraints = [] := nothing
    simp only [narrowByEntry, empty]
    rfl

theorem rulesFrom_bare (checked : rules.Checked) {t : AbiType} (wf : t.WellFormed)
    (other : ∀ number, t ≠ .number number) (i : Nat) (ts : List AbiType) :
    rulesFrom rules key i (t :: ts) = rulesFrom rules key (i + 1) ts := by
  rw [rulesFrom, ruleConstraints_eq_nil key checked wf other]
  rfl

theorem bare_outcome (checked : rules.Checked) {space : Space} {t : AbiType}
    (wf : t.WellFormed) (type : space.type = t) (other : ∀ number, t ≠ .number number)
    {before : List Placed} {i : Nat} (a : Assembly σ) :
    Outcome key before (rulesFrom rules key i [t]) a.applied
      (narrowByOwn view rules key space a) := by
  rw [rulesFrom_bare checked wf other, narrowByOwn_of_not_number view key checked wf type other]
  exact Outcome.pure space a

theorem bind_eq_of_ok {α β : Type} {m : Step σ α} {f : α → Step σ β} {x : α} {a a₁ : Assembly σ}
    (run : m a = .ok x a₁) : (m >>= f) a = f x a₁ := by
  simp only [Bind.bind, EStateM.bind, run]

mutual

/-- The rules for a type and for the types in it. -/
theorem ofType_outcome (checked : rules.Checked) : (t : AbiType) → t.WellFormed →
    ∀ (i : Nat) (before : List Placed) (a : Assembly σ), (∀ q ∈ before, q.part < i) →
      Outcome key before (rulesFrom rules key i t.parts) a.applied
        (narrowByRules view rules key (Space.ofType t) a)
  | .number type, wf => by
    intro i before a fresh
    rw [AbiType.parts_number, rulesFrom, rulesFrom, List.append_nil, Space.ofType,
      narrowByRules_number]
    exact ofNumber_outcome checked wf fresh a
  | .fixedBytes size, wf => by
    intro i before a fresh
    rw [AbiType.parts, Space.ofType, narrowByRules]
    · exact bare_outcome checked wf rfl nofun a
    all_goals exact nofun
  | .function, wf => by
    intro i before a fresh
    rw [AbiType.parts, Space.ofType, narrowByRules]
    · exact bare_outcome checked wf rfl nofun a
    all_goals exact nofun
  | .bytes, wf => by
    intro i before a fresh
    rw [AbiType.parts, Space.ofType, narrowByRules]
    · exact bare_outcome checked wf rfl nofun a
    all_goals exact nofun
  | .string, wf => by
    intro i before a fresh
    rw [AbiType.parts, Space.ofType, narrowByRules]
    · exact bare_outcome checked wf rfl nofun a
    all_goals exact nofun
  | .fixedArray element length, wf => by
    intro i before a fresh
    have own := narrowByOwn_of_not_number view key checked
      (t := .fixedArray element length) wf (Space.type_ofType _) nofun a
    rw [Space.ofType] at own ⊢
    rw [AbiType.parts, rulesFrom_bare checked wf nofun, narrowByRules, bind_eq_of_ok own]
    exact (ofType_outcome checked element wf.1 (i + 1) before a
      fun q hq => Nat.lt_succ_of_lt (fresh q hq)).map
  | .array element, wf => by
    intro i before a fresh
    have own := narrowByOwn_of_not_number view key checked
      (t := .array element) wf (Space.type_ofType _) nofun a
    rw [Space.ofType] at own ⊢
    rw [AbiType.parts, rulesFrom_bare checked wf nofun, narrowByRules, bind_eq_of_ok own]
    exact (ofType_outcome checked element wf (i + 1) before a
      fun q hq => Nat.lt_succ_of_lt (fresh q hq)).map
  | .tuple items, wf => by
    intro i before a fresh
    have own := narrowByOwn_of_not_number view key checked
      (t := .tuple items) wf (Space.type_ofType _) nofun a
    rw [Space.ofType] at own ⊢
    rw [AbiType.parts, rulesFrom_bare checked wf nofun, narrowByRules, bind_eq_of_ok own]
    exact (ofTypes_outcome checked items wf (i + 1) before a
      fun q hq => Nat.lt_succ_of_lt (fresh q hq)).map

/-- The rules for the types of a tuple. -/
theorem ofTypes_outcome (checked : rules.Checked) : (ts : List AbiType) →
    AbiType.AllWellFormed ts → ∀ (i : Nat) (before : List Placed) (a : Assembly σ),
      (∀ q ∈ before, q.part < i) →
        Outcome key before (rulesFrom rules key i (AbiType.partsOfAll ts)) a.applied
          (narrowByRulesAll view rules key (Space.ofTypes ts) a)
  | [], _ => by
    intro i before a fresh
    rw [AbiType.partsOfAll, rulesFrom, Space.ofTypes, narrowByRulesAll]
    exact Outcome.pure _ a
  | t :: ts, wf => by
    intro i before a fresh
    rw [AbiType.partsOfAll, rulesFrom_append, Space.ofTypes, narrowByRulesAll]
    refine (ofType_outcome checked t wf.1 i before a fresh).bind fun space a₁ _ => ?_
    refine (ofTypes_outcome checked ts wf.2 _ _ a₁ ?_).map
    refine List.forall_mem_append.2 ⟨fun q hq => ?_, fun q hq => part_lt_of_mem_rulesFrom hq⟩
    exact Nat.lt_of_lt_of_le (fresh q hq) (Nat.le_add_right _ _)

end

/-- The rules of an argument and then its guards. -/
theorem stages_outcome (view : StateView σ) (checked : rules.Checked) {guards : GuardTable}
    (wf : key.type.WellFormed) (literal : ∀ c ∈ guardsOn guards key, c.bound.readsState = false)
    (a : Assembly σ) :
    Outcome key [] (placed rules guards key) a.applied (stages view rules guards key a) := by
  refine (ofType_outcome checked key.type wf 0 [] a (List.forall_mem_nil _)).bind
    fun space a₁ run => ?_
  rw [List.nil_append]
  by_cases isNumber : ∃ type, key.type = .number type
  · obtain ⟨type, number⟩ := isNumber
    rw [number] at wf run ⊢
    obtain ⟨d, rfl, reached⟩ := narrowByRules_number_ok run
    have honoured : ∀ c ∈ ruleConstraints rules key (.number type),
        c.appliesTo (.number type) = true := fun c hc =>
      (checked_of_mem checked (t := .number type) wf hc).honoured
    rw [List.filter_eq_self.2 honoured] at reached
    have applied : AppliedTo (rulesFrom rules key 0 [.number type]) 0 type
        (ruleConstraints rules key (.number type)) := by
      rw [rulesFrom, rulesFrom, List.append_nil]
      exact List.filter_eq_self.2 (List.forall_mem_map.2 fun c _ => by simp)
    rw [AbiType.parts_number]
    exact foldlM_outcome view key (fun space _ _ => pure space) wf reached
      (fun c hc => literal_of_mem checked hc) applied literal (fun _ _ _ _ _ _ => rfl) a₁
  · have other : ∀ number, key.type ≠ .number number := fun number same => isNumber ⟨number, same⟩
    have passed : ∀ c : Constraint, c.appliesTo key.type = false :=
      fun c => Constraint.appliesTo_eq_false other
    have type : space.type = key.type := by
      rw [narrowByRules_type _ run, Space.type_ofType]
    rw [List.filter_eq_nil_iff.2 fun c _ => by simp [passed c],
      narrowByGuards_passed (by rwa [type])]
    exact Outcome.pure space a₁

end Rules

end Assembly

/-! ## Requests -/

section Ready

variable {σ : Type} {view : StateView σ} {rules : RuleBook} {guards : GuardTable}
  {key : ArgumentKey} {space : Space} {s s' : σ}

/-- Without a number, nothing in a space is read from state. -/
theorem ready_of_other (checked : rules.Checked) (other : ∀ number, key.type ≠ .number number)
    (assembled : argumentSpace view rules guards key s = .ok space s') :
    space.Every Space.Ready :=
  Space.Every.mono
    (fun _ _ reached => ⟨_, reached, fun _ hc => literal_of_mem checked (List.mem_filter.1 hc).1⟩)
    space (argumentSpace_every_ofRules other assembled)

/-- An assembly without bounds that are read leads to a space that gives
values. -/
theorem ready_of_assembled (checked : rules.Checked)
    (literal : ∀ c ∈ guardsOn guards key, c.bound.readsState = false)
    (assembled : argumentSpace view rules guards key s = .ok space s') :
    space.Every Space.Ready := by
  by_cases isNumber : ∃ type, key.type = .number type
  · obtain ⟨type, number⟩ := isNumber
    obtain ⟨d, rfl, reached⟩ := argumentSpace_reached number assembled
    refine ⟨_, reached, fun c hc => ?_⟩
    rcases List.mem_append.1 (List.mem_filter.1 hc).1 with ofRules | ofGuards
    · exact literal_of_mem checked ofRules
    · exact literal c ofGuards
  · exact ready_of_other checked (fun number same => isNumber ⟨number, same⟩) assembled

end Ready

namespace Session

section Requests

variable {σ : Type} {view : StateView σ} {s : Session} {key : ArgumentKey} {state : σ}

/-- What an assembly fails with, the first request fails with. -/
theorem value_of_failed (unknown : s.space? key = none) {e : SessionError} {state' : σ}
    (failed : argumentSpace view s.rules s.guards key state = .error e state') :
    value view key (s, state) = .error e (s, state') := by
  have run : Session.space view key (s, state) = .error e (s, state') := by
    simp only [Session.space, unknown, failed]
  simp only [value, Bind.bind, EStateM.bind, run]

/-- What a space gives, its argument is given. -/
theorem value_of_draws {p : Session × σ} {space : Space} {s₁ : Session} {state₁ : σ} {v : AbiValue}
    {stream : Random.Stream} (found : Session.space view key p = .ok space (s₁, state₁))
    (drawn : Space.Draws s₁.sampling space s₁.stream v stream) (fits : space.check v = .ok ()) :
    value view key p = .ok v ({ s₁ with stream }, state₁) := by
  have given : Session.draw view key space (s₁, state₁) = .ok v ({ s₁ with stream }, state₁) := by
    simp only [Session.draw, drawn σ view state₁]
  exact value_ok_iff.2 ⟨space, _, found, given, fits⟩

/-- A space whose domains are ready gives a value. -/
theorem value_of_ready (wf : key.type.WellFormed) (unknown : s.space? key = none)
    {space : Space} {state' : σ}
    (assembled : argumentSpace view s.rules s.guards key state = .ok space state')
    (ready : space.Every Space.Ready) : ∃ v p', value view key (s, state) = .ok v p' := by
  have found := space_of_assembled unknown assembled
  rw [← argumentSpace_type assembled] at wf
  obtain ⟨v, stream, fits, drawn⟩ :=
    Space.draw_of_ready s.sampling space wf ready s.stream
  exact ⟨v, _, value_of_draws found drawn fits⟩

/-- The first request for an argument gives a value, or it stops at the first
constraint that leaves nothing or is no number. -/
theorem value_outcome (checked : s.rules.Checked) (wf : key.type.WellFormed)
    (unknown : s.space? key = none)
    (literal : ∀ c ∈ guardsOn s.guards key, c.bound.readsState = false) (view : StateView σ)
    (state : σ) :
    (Placed.Clear [] (placed s.rules s.guards key) ∧
      ∃ v p', value view key (s, state) = .ok v p') ∨
    ∃ e p', value view key (s, state) = .error e p' ∧
      ∃ earlier q later, placed s.rules s.guards key = earlier ++ q :: later ∧
        Placed.Clear [] earlier ∧
        ((q.Empties earlier ∧ ∃ reason, e = .unsatisfiable
            ⟨key, .constraint q.constraint reason, earlier.map (·.constraint)⟩) ∨
          (¬ q.Reads ∧ ∃ bad, e = .bound bad)) := by
  have outcome := Assembly.stages_outcome view checked wf literal ⟨state, []⟩
  have assembly : argumentSpace view s.rules s.guards key state = _ := argumentSpace_eq
  cases run : stages view s.rules s.guards key ⟨state, []⟩ with
  | ok space a =>
    rw [run] at outcome assembly
    exact .inl ⟨outcome.1, value_of_ready wf unknown assembly
      (ready_of_assembled checked literal assembly)⟩
  | error e a =>
    rw [run] at outcome assembly
    obtain ⟨earlier, q, later, split, clear, failed⟩ := outcome
    simp only [List.nil_append] at failed
    exact .inr ⟨e, _, value_of_failed unknown assembly, earlier, q, later, split, clear, failed⟩

/-- **Nothing left is reported exactly.** Let the rules of a session come from a
document, let an argument have no space yet, and let its guards have literal
bounds. Its first request says that nothing is left exactly when, in the order
of the rules and guards, a constraint comes that leaves no legal value at its
part of the type, and none before it that is no number. The error names the
first such constraint, and those before it. If all constraints are numbers and
each leaves something, there is a value. -/
theorem unsatisfiable_exact {document : Json} (loaded : RuleBook.ofDocument document = .ok s.rules)
    {contract function typeName name : String} {type : AbiType}
    (typed : AbiType.ofName typeName = .ok type)
    (unknown : s.space? ⟨contract, function, type, name⟩ = none)
    (literal : ∀ c ∈ guardsOn s.guards ⟨contract, function, type, name⟩,
      c.bound.readsState = false) (view : StateView σ) (state : σ) :
    let request := Session.argument view contract function typeName name (s, state)
    let key : ArgumentKey := ⟨contract, function, type, name⟩
    let constraints := placed s.rules s.guards key
    ((∃ error p', request = .error (.unsatisfiable error) p') ↔
      ∃ earlier q later, constraints = earlier ++ q :: later ∧ (∀ r ∈ earlier, r.Reads) ∧
        q.Empties earlier) ∧
    (∀ error p', request = .error (.unsatisfiable error) p' →
      ∃ earlier q later reason, constraints = earlier ++ q :: later ∧
        Placed.Clear [] earlier ∧ q.Empties earlier ∧
        error = ⟨key, .constraint q.constraint reason, earlier.map (·.constraint)⟩) ∧
    ((∀ q ∈ constraints, q.Reads) →
      (∀ earlier q later, constraints = earlier ++ q :: later → ¬ q.Empties earlier) →
      ∃ v p', request = .ok v p') := by
  intro request key constraints
  have isValue : request = value view key (s, state) := by
    simp only [request, Session.argument, typed, key]
  rw [isValue]
  have outcome := value_outcome (RuleBook.checked_of_ofDocument loaded)
    (AbiType.wellFormed_of_ofName typed) unknown literal view state
  rcases outcome with ⟨clear, v, p', given⟩ |
    ⟨e, p', failed, earlier, q, later, split, clear, ⟨empties, reason, rfl⟩ | ⟨bad, b, rfl⟩⟩
  · rw [given]
    refine ⟨⟨?_, ?_⟩, ?_, fun _ _ => ⟨v, p', rfl⟩⟩
    · rintro ⟨error, p'', failed⟩
      cases failed
    · rintro ⟨earlier, q, later, split, -, empties⟩
      replace clear : Placed.Clear [] constraints := clear
      rw [split] at clear
      exact absurd empties clear.not_empties
    · intro error p'' failed
      cases failed
  · rw [failed]
    refine ⟨⟨fun _ => ⟨earlier, q, later, split, clear.reads, empties⟩, fun _ => ⟨_, p', rfl⟩⟩,
      ?_, fun _ leave => absurd empties (leave earlier q later split)⟩
    intro error p'' same
    cases same
    exact ⟨earlier, q, later, reason, split, clear, empties, rfl⟩
  · rw [failed]
    refine ⟨⟨?_, ?_⟩, ?_, fun reads _ => absurd (reads q ?_) bad⟩
    · rintro ⟨error, p'', same⟩
      cases same
    · rintro ⟨earlier', r, later', split', reads, empties⟩
      exact absurd empties (Placed.not_reached (split.symm.trans split') clear bad reads)
    · intro error p'' same
      cases same
    · replace split : constraints = earlier ++ q :: later := split
      rw [split]
      exact List.mem_append_right _ List.mem_cons_self

/-- A rule wants a byte to be seven and a guard wants it to be eight. The error
says that the rule was applied before. -/
theorem unsatisfiable_exact_seven_eight :
    let s := (start Settings.standard (.ofSeed 7)).after
      [.useRules sevenRules, .addUnit (unitRequiring "==" "8")]
    RuleBook.ofDocument sevenDocument = .ok s.rules ∧
      AbiType.ofName "uint8" = .ok (.number (.uint 8)) ∧ s.space? byteKey = none ∧
      (∀ c ∈ guardsOn s.guards byteKey, c.bound.readsState = false) ∧
      ∃ error p', Session.argument detached "C" "f" "uint8" "x" (s, ()) =
          .error (.unsatisfiable error) p' ∧
        error.applied = [⟨.equal, .literal "7" none, .rule "constant"⟩] := by
  intro s
  have loaded : RuleBook.ofDocument sevenDocument = .ok s.rules := rfl
  have typed : AbiType.ofName "uint8" = .ok (.number (.uint 8)) := by decide
  have unknown : s.space? byteKey = none := rfl
  have guards : guardsOn s.guards byteKey =
      [⟨.equal, .literal "8" none, .guard Source.Location.none ["x"]⟩] :=
    List.perm_singleton.1 (guardsOn_addUnits_perm GuardTable.empty
      [unitRequiring "==" "8"] byteKey)
  have literal : ∀ c ∈ guardsOn s.guards byteKey, c.bound.readsState = false := by
    rw [guards]
    decide
  let seven : Placed := ⟨0, .number (.uint 8), ⟨.equal, .literal "7" none, .rule "constant"⟩⟩
  let eight : Placed :=
    ⟨0, .number (.uint 8), ⟨.equal, .literal "8" none, .guard Source.Location.none ["x"]⟩⟩
  have constraints : placed s.rules s.guards byteKey = [seven, eight] := by
    rw [placed, guards]
    rfl
  have met_iff : ∀ {q : Placed} {v : Scalar},
      q.constraint.demand? q.type.decimals = some ⟨.equal, v⟩ → ∀ x, q.Met x ↔ x = v := by
    intro q v demand x
    constructor
    · rintro ⟨p, same, met⟩
      obtain rfl := Option.some.inj (demand.symm.trans same)
      exact Demand.met_equal.1 met
    · exact fun same => ⟨_, demand, Demand.met_equal.2 same⟩
  have demand_seven : seven.constraint.demand? seven.type.decimals =
      some ⟨.equal, ⟨7, by decide⟩⟩ := by decide
  have demand_eight : eight.constraint.demand? eight.type.decimals =
      some ⟨.equal, ⟨8, by decide⟩⟩ := by decide
  have met_seven := met_iff demand_seven
  have met_eight := met_iff demand_eight
  have empties : eight.Empties [seven] := by
    refine ⟨⟨_, demand_eight⟩, ?_⟩
    rintro ⟨x, -, met⟩
    have isSeven := (met_seven x).1 (met seven (by simp) rfl)
    have isEight := (met_eight x).1 (met eight (by simp) rfl)
    rw [isSeven] at isEight
    exact absurd isEight (by decide)
  have leaves : ¬ seven.Empties [] := by
    rintro ⟨-, none⟩
    refine none ⟨⟨7, by decide⟩, ⟨by decide, by decide⟩, ?_⟩
    intro r hr _
    obtain rfl := List.mem_singleton.1 hr
    exact (met_seven _).2 rfl
  obtain ⟨exactly, first, -⟩ := unsatisfiable_exact loaded typed unknown literal detached ()
  obtain ⟨error, p', failed⟩ := exactly.2 ⟨[seven], eight, [], constraints,
    List.forall_mem_singleton.2 ⟨_, demand_seven⟩, empties⟩
  refine ⟨loaded, typed, unknown, literal, error, p', failed, ?_⟩
  obtain ⟨earlier, q, later, reason, split, -, emptied, rfl⟩ := first error p' failed
  replace split : [seven, eight] = earlier ++ q :: later := constraints.symm.trans split
  match earlier, split with
  | [], split =>
    obtain ⟨rfl, -⟩ := List.cons.inj split
    exact absurd emptied leaves
  | [r], split =>
    obtain ⟨rfl, -⟩ := List.cons.inj split
    rfl
  | r :: r' :: more, split => simp at split

end Requests

end Session

end GuardedCalls
