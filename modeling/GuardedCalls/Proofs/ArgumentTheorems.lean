/-
GuardedCalls.Proofs.ArgumentTheorems — which guards the values of an argument
meet, and when its space is out of date.

* `GuardOf` — a guard on an argument, said by the source units alone: where it
  stands, what it compiles to, and that values of the type honour it.
* `argument_meets_guards` — every value of an argument makes the guards true
  that were known when its space came into the session. It takes the whole way
  from the tree of the source unit to the draw.
* `cached_fresh_iff` — a cached space is the one that would be assembled now
  exactly when no guard that has been shown since then changes it. Source units
  do not drop spaces, so a guard that comes later does not reach them.
-/
import GuardedCalls.Proofs.CompilationTheorems
import GuardedCalls.Proofs.DrawTheorems
import GuardedCalls.Proofs.SessionTheorems
import GuardedCalls.Proofs.SpaceTheorems

namespace GuardedCalls

open Source

/-! ## Guards of an argument -/

/-- The condition of a `require` statement, at any depth of a definition of the
function in one of the source units, is a constraint on the argument which
values of its type honour. -/
structure GuardOf (units : List Node) (key : ArgumentKey) (f : FunctionDefinition)
    (condition : Node) (c : Constraint) : Prop where
  defined : ∃ unit ∈ units, (key.contract, f) ∈ GuardTable.definitions unit
  named : f.head.name = key.function
  stands : ∃ body, f.body = some body ∧ body.Requires condition
  compiled : Guard.compile f.namedParameters condition = .ok (some c)
  about : key.name ∈ c.arguments
  honoured : c.appliesTo key.type = true

/-- The guards of some source units that speak about an argument. -/
def guardsAdded (units : List Node) (key : ArgumentKey) : List Constraint :=
  (units.flatMap (GuardTable.guardsFor · ⟨key.contract, key.function⟩)).filter
    fun c => key.name ∈ c.arguments

theorem guardsOn_addUnits_perm (table : GuardTable) (units : List Node) (key : ArgumentKey) :
    (guardsOn (table.addUnits units) key).Perm (guardsOn table key ++ guardsAdded units key) := by
  have all := GuardTable.constraints_addUnits_perm units table ⟨key.contract, key.function⟩
  have onKey := all.filter fun c => decide (key.name ∈ c.arguments)
  rwa [List.filter_append] at onKey

theorem mem_guardsAdded_iff {units : List Node} {key : ArgumentKey} {c : Constraint} :
    (c ∈ guardsAdded units key ∧ c.appliesTo key.type = true) ↔
      ∃ f condition, GuardOf units key f condition c := by
  simp only [guardsAdded, GuardTable.guardsFor, List.mem_filter, List.mem_flatMap,
    decide_eq_true_eq]
  constructor
  · rintro ⟨⟨⟨unit, hunit, ⟨contract, f⟩, ⟨hf, rfl, named⟩, hc⟩, about⟩, honoured⟩
    obtain ⟨condition, stands, compiled⟩ := FunctionDefinition.mem_guards_iff.1 hc
    exact ⟨f, condition, ⟨unit, hunit, hf⟩, named,
      FunctionDefinition.mem_conditions_iff.1 stands, compiled, about, honoured⟩
  · rintro ⟨f, condition, ⟨⟨unit, hunit, hf⟩, named, stands, compiled, about, honoured⟩⟩
    have hc : c ∈ f.guards := FunctionDefinition.mem_guards_iff.2
      ⟨condition, FunctionDefinition.mem_conditions_iff.2 stands, compiled⟩
    exact ⟨⟨⟨unit, hunit, ⟨key.contract, f⟩, ⟨hf, rfl, named⟩, hc⟩, about⟩, honoured⟩

/-- A guard that a table holds is among the constraints of a number argument. -/
theorem GuardOf.mem_constraints {units : List Node} {key : ArgumentKey} {f : FunctionDefinition}
    {condition : Node} {c : Constraint} (guard : GuardOf units key f condition c)
    {type : NumberType} (number : key.type = .number type) (rules : RuleBook)
    {guards : GuardTable} (known : c ∈ guardsOn guards key) :
    c ∈ (ruleConstraints rules key (.number type) ++ guardsOn guards key).filter
      (·.appliesTo (.number type)) :=
  List.mem_filter.2 ⟨List.mem_append_right _ known, number ▸ guard.honoured⟩

/-- A value that meets a constraint makes the condition true that it was made
of. -/
theorem Guard.holds_of_meets {type : NumberType} {cs : List Constraint} {x : Scalar}
    {answered : List (Constraint × Scalar)} (literals : Domain.MeetsLiterals type cs x)
    (answers : Domain.MeetsAnswers answered x) {parameters : List String} {condition : Node}
    {c : Constraint} (hc : c ∈ cs)
    (compiled : Guard.compile parameters condition = .ok (some c)) {name : String}
    (about : name ∈ c.arguments) {ρ : Valuation} (argument : ρ.argument name = x)
    (replied : ∀ getter, c.bound = .getter getter → (c, ρ.getter getter) ∈ answered) :
    ρ.holds? parameters type.decimals condition = some true := by
  obtain ⟨only, -, arguments, meaning⟩ := Guard.holds?_of_compile compiled
  rw [arguments, List.mem_singleton] at about
  subst about
  rw [meaning]
  cases bound : c.bound with
  | literal text unit =>
    obtain ⟨v, read, holds⟩ := literals c hc text unit bound
    have number : ρ.bound? type.decimals (.literal text unit) = some v := by
      rw [Valuation.bound?, read]
      rfl
    rw [number, Option.map_some, argument, holds]
  | getter getter =>
    have number : ρ.bound? type.decimals (.getter getter) = some (ρ.getter getter) := rfl
    have holds := answers _ (replied getter bound)
    rw [number, Option.map_some, argument, holds]

namespace Session

/-! ## Values -/

section Values

variable {σ : Type} {view : StateView σ} {key : ArgumentKey} {type : NumberType} {d : Domain}
  {space : Space} {v : AbiValue} {p p' : Session × σ}

theorem value_ok_iff : value view key p = .ok v p' ↔
    ∃ space p₁, Session.space view key p = .ok space p₁ ∧
      Session.draw view key space p₁ = .ok v p' ∧ space.check v = .ok () := by
  rw [value, bind_eq_ok_iff]
  refine exists_congr fun space => exists_congr fun p₁ => and_congr_right fun _ => ?_
  rw [bind_eq_ok_iff]
  constructor
  · rintro ⟨v', p₂, drawn, checked⟩
    cases check : space.check v' with
    | error misfit =>
      rw [check] at checked
      cases checked
    | ok =>
      rw [check] at checked
      cases checked
      exact ⟨drawn, check⟩
  · rintro ⟨drawn, checked⟩
    refine ⟨v, p', drawn, ?_⟩
    rw [checked]
    rfl

/-- A session gives what its space gives, and keeps the stream the draw leaves. -/
theorem draw_ok_iff {s : Session} {state : σ} :
    Session.draw view key space (s, state) = .ok v p' ↔
      ∃ w, space.draw view s.sampling ⟨state, s.stream⟩ = .ok v w ∧
        p' = ({ s with stream := w.stream }, w.state) := by
  cases run : space.draw view s.sampling ⟨state, s.stream⟩ with
  | error e w => simp [Session.draw, run]
  | ok v' w =>
    simp only [Session.draw, run]
    constructor
    · intro drawn
      cases drawn
      exact ⟨w, rfl, rfl⟩
    · rintro ⟨w', given, rfl⟩
      cases given
      rfl

/-- The value of a number space is the number that its domain gave. -/
theorem draw_number_ok {s s' : Session} {state state' : σ}
    (drawn : Session.draw view key (.number type d) (s, state) = .ok v (s', state')) :
    ∃ x w', d.draw view s.settings.attempts ⟨state, s.stream⟩ = .ok x w' ∧
      w'.state = state' ∧ v.scalar? = some x := by
  obtain ⟨w, run, left⟩ := draw_ok_iff.1 drawn
  cases left
  obtain ⟨x, number, made⟩ := Space.of_draw_number run
  exact ⟨x, w, number, rfl, NumberType.scalar?_of_value? made⟩

end Values

/-! ## Where a space comes from -/

/-- Whatever space is drawn from, it was assembled in the run, after the key
was last unknown. -/
theorem assembled_of_space {σ : Type} {view : StateView σ} {s₀ : Session} {ops : List Operation}
    {key : ArgumentKey} {space : Space} {state : σ} {p : Session × σ}
    (unknown : s₀.space? key = none)
    (run : Session.space view key (s₀.after ops, state) = .ok space p) :
    ∃ before later, ops = before ++ later ∧
      ∃ (σ' : Type) (view' : StateView σ') (state₁ state₂ : σ'),
        argumentSpace view' (s₀.after before).rules (s₀.after before).guards key state₁ =
          .ok space state₂ := by
  simp only [Session.space] at run
  cases cached : (s₀.after ops).space? key with
  | some known =>
    rw [cached] at run
    cases run
    obtain ⟨before, later, split, -, -, assembled⟩ := assembled_of_cached unknown cached
    exact ⟨before, later, split, assembled⟩
  | none =>
    rw [cached] at run
    cases assembled : argumentSpace view (s₀.after ops).rules (s₀.after ops).guards key state with
    | error e state' =>
      simp only [assembled] at run
      cases run
    | ok space' state' =>
      simp only [assembled] at run
      cases run
      exact ⟨ops, [], (List.append_nil ops).symm, σ, view, state, state', assembled⟩

/-- The guards on an argument after a run: those from before, and those of the
source units of the run. -/
theorem guardsOn_after_perm (s : Session) (ops : List Operation) (key : ArgumentKey) :
    (guardsOn (s.after ops).guards key).Perm
      (guardsOn s.guards key ++ guardsAdded (unitsOf ops) key) := by
  rw [guards_after]
  exact guardsOn_addUnits_perm s.guards (unitsOf ops) key

theorem mem_guardsOn_after_of_mem {s : Session} {ops : List Operation} {key : ArgumentKey}
    {c : Constraint} (h : c ∈ guardsOn s.guards key) : c ∈ guardsOn (s.after ops).guards key :=
  (guardsOn_after_perm s ops key).mem_iff.2 (List.mem_append_left _ h)

theorem mem_guardsOn_after {s : Session} {ops : List Operation} {key : ArgumentKey}
    {f : FunctionDefinition} {condition : Node} {c : Constraint}
    (guard : GuardOf (unitsOf ops) key f condition c) : c ∈ guardsOn (s.after ops).guards key :=
  (guardsOn_after_perm s ops key).mem_iff.2
    (List.mem_append_right _ (mem_guardsAdded_iff.2 ⟨f, condition, guard⟩).1)

/-! ## Guards and values -/

/-- **Values meet the guards that they were made for.** Let a key have no space
after the first part of a run. Whatever happens then, a value that is drawn for
it makes every guard true that the source units of that part put on it: with
the value as the argument, and, where the other side is a getter, with a reply
that was read for this guard in this draw. -/
theorem argument_meets_guards (settings : Settings) (stream : Random.Stream)
    (earlier later : List Operation) {contract function typeName name : String}
    {type : NumberType} (typed : AbiType.ofName typeName = .ok (.number type))
    (unknown : ((start settings stream).after earlier).space?
      ⟨contract, function, .number type, name⟩ = none)
    {σ : Type} {view : StateView σ} {state state' : σ} {s' : Session} {v : AbiValue}
    (drawn : Session.argument view contract function typeName name
      ((start settings stream).after (earlier ++ later), state) = .ok v (s', state')) :
    ∃ x domain p answered, v.scalar? = some x ∧
      Session.space view ⟨contract, function, .number type, name⟩
        ((start settings stream).after (earlier ++ later), state) =
          .ok (.number type domain) p ∧
      answered.map (·.1) = domain.live ∧ Domain.Answers view answered p.2 state' ∧
      ∀ f condition c,
        GuardOf (unitsOf earlier) ⟨contract, function, .number type, name⟩ f condition c →
        (∀ getter, c.bound = .getter getter → c ∈ domain.live) ∧
        ∀ ρ : Valuation, ρ.argument name = x →
          (∀ getter, c.bound = .getter getter → (c, ρ.getter getter) ∈ answered) →
          ρ.holds? f.namedParameters type.decimals condition = some true := by
  set s₀ := (start settings stream).after earlier with hs₀
  set key : ArgumentKey := ⟨contract, function, .number type, name⟩ with hkey
  rw [after_append, ← hs₀] at drawn ⊢
  simp only [Session.argument, typed] at drawn
  obtain ⟨space, ⟨s₁, state₁⟩, found, given, -⟩ := value_ok_iff.1 drawn
  obtain ⟨before, rest, -, σ', view', state₂, state₃, assembled⟩ := assembled_of_space unknown found
  obtain ⟨domain, rfl, reached⟩ := argumentSpace_reached rfl assembled
  obtain ⟨x, w', number, rfl, isNumber⟩ := draw_number_ok given
  obtain ⟨-, literals, answered, all, answers, met⟩ := reached.of_draw number
  refine ⟨x, domain, (s₁, state₁), answered, isNumber, found, all.trans reached.live_eq.symm,
    answers, fun f condition c guard => ?_⟩
  -- A guard of an early source unit is one of the constraints of the domain.
  have known : c ∈ guardsOn (s₀.after before).guards key :=
    mem_guardsOn_after_of_mem (mem_guardsOn_after guard)
  have constrains := guard.mem_constraints rfl (s₀.after before).rules known
  refine ⟨fun getter bound => ?_, fun ρ argument replied => ?_⟩
  · rw [reached.live_eq]
    exact List.mem_filter.2 ⟨constrains, by rw [bound]; rfl⟩
  · exact Guard.holds_of_meets literals met constrains guard.compiled guard.about argument replied

/-- A contract `C` with a function `f(x)` that requires, inside a loop, that `x`
stands in a comparison with a number. -/
def unitRequiring (operator bound : String) : Node :=
  .sourceUnit [.contract "C" [.function ⟨"f", none, [⟨"x", none⟩], Location.none⟩
    (some (.block [.whileStatement (.block [.expressionStatement
      (.call (.identifier "require" Location.none)
        [.binary operator (.identifier "x" Location.none)
          (.literal (some bound) none "number" none Location.none) Location.none]
        Location.none)])]))]]

/-- The argument `x` of that function, as a byte. -/
def byteKey : ArgumentKey := ⟨"C", "f", .number (.uint 8), "x"⟩

/-- The byte is pinned to what it has to be. -/
theorem argumentSpace_requiring_seven :
    argumentSpace detached RuleBook.empty (GuardTable.empty.addUnits [unitRequiring "==" "7"])
      byteKey () = .ok (.number (.uint 8)
        { Domain.ofType (.uint 8) with pinned := some ⟨7, by decide⟩ }) () := by
  have guards : guardsOn (GuardTable.empty.addUnits [unitRequiring "==" "7"]) byteKey =
      [⟨.equal, .literal "7" none, .guard Location.none ["x"]⟩] :=
    List.perm_singleton.1 (guardsOn_addUnits_perm GuardTable.empty _ byteKey)
  refine argumentSpace_ok_iff.2 ⟨Space.ofType byteKey.type, ⟨(), []⟩,
    ⟨(), [⟨.equal, .literal "7" none, .guard Location.none ["x"]⟩]⟩, rfl, ?_, rfl⟩
  unfold guardsOn at guards
  rw [Assembly.narrowByGuards, guards]
  rfl

/-- A byte that has to be seven is drawn, and it is seven. -/
theorem argument_meets_guards_seven :
    let s := (start Settings.standard (.ofSeed 7)).after [.addUnit (unitRequiring "==" "7")]
    AbiType.ofName "uint8" = .ok (.number (.uint 8)) ∧ s.space? byteKey = none ∧
      ∃ p', Session.argument detached "C" "f" "uint8" "x" (s, ()) = .ok (.uint 7 8) p' ∧
        ∀ f condition c, GuardOf [unitRequiring "==" "7"] byteKey f condition c →
          ∀ ρ : Valuation, ρ.argument "x" = ⟨7, by decide⟩ → c.bound.readsState = false →
            ρ.holds? f.namedParameters 0 condition = some true := by
  intro s
  have typed : AbiType.ofName "uint8" = .ok (.number (.uint 8)) := by decide
  have unknown : s.space? byteKey = none := rfl
  let space : Space :=
    .number (.uint 8) { Domain.ofType (.uint 8) with pinned := some ⟨7, by decide⟩ }
  let s₁ : Session := { s with spaces := [(byteKey, space)] }
  have assembled : argumentSpace detached s.rules s.guards byteKey () = .ok space () :=
    argumentSpace_requiring_seven
  have found : Session.space detached byteKey (s, ()) = .ok space (s₁, ()) := by
    simp only [Session.space, unknown, assembled]
    rfl
  have given : Session.draw detached byteKey space (s₁, ()) = .ok (.uint 7 8) (s₁, ()) := rfl
  have drawn : Session.argument detached "C" "f" "uint8" "x" (s, ()) =
      .ok (.uint 7 8) (s₁, ()) := by
    simp only [Session.argument, typed]
    exact value_ok_iff.2 ⟨space, (s₁, ()), found, given, rfl⟩
  refine ⟨typed, unknown, _, drawn, ?_⟩
  obtain ⟨x, domain, p, answered, isNumber, -, -, -, guards⟩ := argument_meets_guards
    Settings.standard (.ofSeed 7) [.addUnit (unitRequiring "==" "7")] [] typed unknown drawn
  intro f condition c guard ρ argument literal
  have seven : x = ⟨7, by decide⟩ := Option.some.inj (isNumber.symm.trans rfl)
  refine (guards f condition c guard).2 ρ (argument.trans seven.symm) fun getter bound => ?_
  rw [bound] at literal
  cases literal

/-! ## Spaces that are out of date -/

/-- The session would assemble the space for the key now, whatever there is to
read from. -/
def Assembles (s : Session) (key : ArgumentKey) (space : Space) : Prop :=
  ∀ (σ : Type) (view : StateView σ) (state : σ),
    argumentSpace view s.rules s.guards key state = .ok space state

/-- Where no bound is read from state, one assembly stands for all. -/
theorem assembles_of_argumentSpace {s : Session} {key : ArgumentKey} {space : Space}
    (literal : ∀ c ∈ constraintsOf s.rules s.guards key, c.bound.readsState = false)
    {σ : Type} {view : StateView σ} {state state' : σ}
    (assembled : argumentSpace view s.rules s.guards key state = .ok space state') :
    s.Assembles key space := by
  intro σ' view' state₁
  rw [argumentSpace_literal literal] at assembled ⊢
  cases run : argumentSpace detached s.rules s.guards key () with
  | ok space' nothing =>
    rw [run] at assembled
    cases assembled
    rfl
  | error e nothing =>
    rw [run] at assembled
    cases assembled

/-- Values from a space that is up to date make the guards true that the
session knows. -/
theorem value_meets_guards {s : Session} {key : ArgumentKey} {space : Space} {units : List Node}
    (cached : s.space? key = some space)
    (literal : ∀ c ∈ constraintsOf s.rules s.guards key, c.bound.readsState = false)
    (fresh : s.Assembles key space) {type : NumberType} (number : key.type = .number type)
    (known : ∀ f condition c, GuardOf units key f condition c → c ∈ guardsOn s.guards key)
    {σ : Type} {view : StateView σ} {state : σ} {v : AbiValue} {p' : Session × σ}
    (drawn : value view key (s, state) = .ok v p') :
    ∃ x, v.scalar? = some x ∧ ∀ f condition c, GuardOf units key f condition c →
      ∀ ρ : Valuation, ρ.argument key.name = x →
        ρ.holds? f.namedParameters type.decimals condition = some true := by
  obtain ⟨space', ⟨s₁, state₁⟩, found, given, -⟩ := value_ok_iff.1 drawn
  simp only [Session.space, cached] at found
  cases found
  obtain ⟨domain, rfl, reached⟩ := argumentSpace_reached number (fresh σ view state)
  obtain ⟨x, w', drawn', -, isNumber⟩ := draw_number_ok given
  obtain ⟨-, literals, answered, -, -, met⟩ := reached.of_draw drawn'
  refine ⟨x, isNumber, fun f condition c guard ρ argument => ?_⟩
  have onKey := known f condition c guard
  have constrains := guard.mem_constraints number s.rules onKey
  refine Guard.holds_of_meets literals met constrains guard.compiled guard.about argument
    fun getter bound => ?_
  have noGetter := (List.forall_mem_append.1 literal).2 c onKey
  rw [bound] at noGetter
  cases noGetter

/-- **When a cached space is up to date.** Let a session have a space for a key
whose constraints have literal bounds. It was assembled at a moment of the run
when there was none, from the rules that the session still has. It is the space
that would be assembled now exactly when no guard of the source units after
that moment changes it; and then every value of the argument makes all guards
true that the session was shown. -/
theorem cached_fresh_iff (settings : Settings) (stream : Random.Stream) (ops : List Operation)
    {key : ArgumentKey} {space : Space}
    (cached : ((start settings stream).after ops).space? key = some space)
    (literal : ∀ c ∈ constraintsOf ((start settings stream).after ops).rules
      ((start settings stream).after ops).guards key, c.bound.readsState = false) :
    let now := (start settings stream).after ops
    ∃ before later, ops = before ++ later ∧
      (let moment := (start settings stream).after before
       moment.space? key = none ∧ moment.rules = now.rules ∧ moment.Assembles key space) ∧
      (now.Assembles key space ↔ ∀ f condition c, GuardOf (unitsOf later) key f condition c →
        (space.constrain detached c ()).1 = (space, none)) ∧
      (now.Assembles key space → ∀ type, key.type = .number type →
        ∀ (σ : Type) (view : StateView σ) (state : σ) v p',
          value view key (now, state) = .ok v p' →
          ∃ x, v.scalar? = some x ∧ ∀ f condition c, GuardOf (unitsOf ops) key f condition c →
            ∀ ρ : Valuation, ρ.argument key.name = x →
              ρ.holds? f.namedParameters type.decimals condition = some true) := by
  intro now
  obtain ⟨before, later, split, none, rules, σ', view', state₁, state₂, assembled⟩ :=
    assembled_of_cached rfl cached
  set moment := (start settings stream).after before with hmoment
  have run : now = moment.after later := by rw [← after_append, ← split]
  have extended : (guardsOn now.guards key).Perm
      (guardsOn moment.guards key ++ guardsAdded (unitsOf later) key) :=
    run ▸ guardsOn_after_perm moment later key
  obtain ⟨ofRules, ofGuards⟩ := List.forall_mem_append.1 literal
  have literal₀ : ∀ c ∈ constraintsOf moment.rules moment.guards key,
      c.bound.readsState = false := by
    refine List.forall_mem_append.2 ⟨by rwa [rules], fun c hc => ?_⟩
    exact ofGuards c (extended.mem_iff.2 (List.mem_append_left _ hc))
  have first : moment.Assembles key space := assembles_of_argumentSpace literal₀ assembled
  refine ⟨before, later, split, ⟨none, rules, first⟩, ?_, ?_⟩
  · have again : now.Assembles key space ↔
        argumentSpace detached now.rules now.guards key () = .ok space () :=
      ⟨fun h => h Unit detached (), assembles_of_argumentSpace literal⟩
    have changes := argumentSpace_extended_iff literal extended (rules ▸ first Unit detached ())
    rw [again, changes]
    constructor
    · intro unchanged f condition c guard
      obtain ⟨added, honoured⟩ := mem_guardsAdded_iff.2 ⟨f, condition, guard⟩
      exact unchanged c added honoured
    · intro unchanged c added honoured
      obtain ⟨f, condition, guard⟩ := mem_guardsAdded_iff.1 ⟨added, honoured⟩
      exact unchanged f condition c guard
  · intro fresh type number σ view state v p' drawn
    exact value_meets_guards cached literal fresh number
      (fun f condition c guard => mem_guardsOn_after guard) drawn

/-- A byte is asked for, and then a source unit is shown that wants it to
be seven. Its space is the whole range, and all its bounds are literal. -/
theorem cached_before_unit :
    let ops : List Operation :=
      [.argument detached () "C" "f" "uint8" "x", .addUnit (unitRequiring "==" "7")]
    let s := (start Settings.standard (.ofSeed 7)).after ops
    s.space? byteKey = some (Space.ofType byteKey.type) ∧ s.rules = RuleBook.empty ∧
      ∀ c ∈ constraintsOf s.rules s.guards byteKey, c.bound.readsState = false := by
  intro ops s
  have typed : AbiType.ofName "uint8" = .ok (.number (.uint 8)) := by decide
  let s₀ := start Settings.standard (.ofSeed 7)
  let asked := Session.argument detached "C" "f" "uint8" "x" (s₀, ())
  have run : s = (remaining asked).addUnit (unitRequiring "==" "7") := by
    simp only [s, ops, asked, s₀, after, List.foldl_cons, List.foldl_nil, Operation.run]
  have kept : (remaining (value detached byteKey (s₀, ()))).space? byteKey =
      some (Space.ofType byteKey.type) := cached_of_value rfl rfl
  have cached : (remaining asked).space? byteKey = some (Space.ofType byteKey.type) := by
    simp only [asked, Session.argument, typed]
    exact kept
  have requested : Requested s₀ (remaining asked) :=
    argument_isRequest detached "C" "f" "uint8" "x" (s₀, ())
  have rules : s.rules = RuleBook.empty := by
    rw [run, rules_addUnit, requested.rules_eq]
    rfl
  have added : ∀ c ∈ guardsAdded (unitsOf ops) byteKey, c.bound.readsState = false := by decide
  refine ⟨by rw [run, space?_addUnit, cached], rules, ?_⟩
  rw [rules]
  refine List.forall_mem_append.2 ⟨by decide, fun c hc => ?_⟩
  rcases List.mem_append.1 ((guardsOn_after_perm _ ops byteKey).mem_iff.1 hc) with old | new
  · cases old
  · exact added c new

theorem cached_fresh_iff_before_unit :
    let ops : List Operation :=
      [.argument detached () "C" "f" "uint8" "x", .addUnit (unitRequiring "==" "7")]
    let s := (start Settings.standard (.ofSeed 7)).after ops
    s.space? byteKey = some (Space.ofType byteKey.type) ∧
      (∀ c ∈ constraintsOf s.rules s.guards byteKey, c.bound.readsState = false) ∧
      ∃ before later, ops = before ++ later ∧ (s.Assembles byteKey (Space.ofType byteKey.type) ↔
        ∀ f condition c, GuardOf (unitsOf later) byteKey f condition c →
          ((Space.ofType byteKey.type).constrain detached c ()).1 =
            (Space.ofType byteKey.type, none)) := by
  intro ops s
  obtain ⟨cached, -, literal⟩ := cached_before_unit
  obtain ⟨before, later, split, -, fresh, -⟩ :=
    cached_fresh_iff Settings.standard (.ofSeed 7) ops cached literal
  exact ⟨cached, literal, before, later, split, fresh⟩

/-- The source unit comes too late: what would be assembled now is another
space. -/
theorem not_fresh_before_unit :
    let ops : List Operation :=
      [.argument detached () "C" "f" "uint8" "x", .addUnit (unitRequiring "==" "7")]
    let s := (start Settings.standard (.ofSeed 7)).after ops
    s.space? byteKey = some (Space.ofType byteKey.type) ∧
      (∀ c ∈ constraintsOf s.rules s.guards byteKey, c.bound.readsState = false) ∧
      ¬ s.Assembles byteKey (Space.ofType byteKey.type) := by
  intro ops s
  obtain ⟨cached, rules, literal⟩ := cached_before_unit
  refine ⟨cached, literal, fun fresh => ?_⟩
  have first : argumentSpace detached s.rules GuardTable.empty byteKey () =
      .ok (Space.ofType byteKey.type) () := by
    rw [rules]
    rfl
  have unchanged := (argumentSpace_extended_iff literal
    (guardsOn_after_perm (start Settings.standard (.ofSeed 7)) ops byteKey) first).1
      (fresh Unit detached ())
  have same := unchanged ⟨.equal, .literal "7" none, .guard Location.none ["x"]⟩
    (by decide) (by decide)
  have pinned := congrArg (fun outcome => outcome.1.domain?.map (·.pinned)) same
  exact absurd pinned (by decide)

end Session

end GuardedCalls
