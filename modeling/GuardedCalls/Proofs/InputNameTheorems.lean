/-
GuardedCalls.Proofs.InputNameTheorems — which guards reach which input of a function.

Guards find an input by its name, and an input without a name is given one that is made of
its place. A made name is a name like any other: a parameter may be declared by it, and then
guards on that parameter reach the unnamed input, and both inputs may be one argument to the
session.

* `parameterName_eq_iff`, `inputKey_eq_iff` — when two inputs go by one name, and when they are
  one argument.
* `MadeFrom` — a space is made from rules and guards; `argumentSpace_congr` — of the guards
  only those count that name the argument.
* `Uses` — an input is drawn from a space, after the inputs before it; `exists_uses` — every
  value of a run of `arguments` is drawn in this way.
* `madeFrom_of_uses` — the space is made from the rules and guards of a moment before.
* `guards_reach_names` — all of it; `unnamed_input_reached` — a guard that reaches an input
  which it does not name.
-/
import GuardedCalls.Proofs.ArgumentTheorems
import GuardedCalls.Proofs.CompilationTheorems

namespace GuardedCalls

open Source

/-- The name that is made for an input without one. -/
def madeName (place : Nat) : String := "_" ++ Nat.repr place

/-- No two inputs have one name. Inputs without a name do not count. -/
def ContractFunction.NamedApart (f : ContractFunction) : Prop :=
  f.inputs.Pairwise fun p q => p.name ≠ "" → p.name ≠ q.name

instance (f : ContractFunction) : Decidable f.NamedApart :=
  inferInstanceAs (Decidable (f.inputs.Pairwise _))

namespace Session

/-- The key of an input. -/
def inputKey (contract : String) (f : ContractFunction) (place : Nat) (p : ContractParameter)
    (type : AbiType) : ArgumentKey :=
  ⟨contract, f.name, type, parameterName place p⟩

/-! ## Names -/

section Names

variable {f : ContractFunction} {p q : ContractParameter} {place i j : Nat} {contract : String}
  {type type' : AbiType}

theorem parameterName_of_named (named : p.name ≠ "") : parameterName place p = p.name := by
  rw [parameterName, if_neg named]

theorem parameterName_of_unnamed (unnamed : p.name = "") :
    parameterName place p = madeName place := by
  rw [parameterName, if_pos unnamed, madeName]

/-- Different places make different names. -/
theorem madeName_inj : madeName i = madeName j ↔ i = j := by
  refine ⟨fun same => ?_, fun same => same ▸ rfl⟩
  have digits : Nat.toDigits 10 i = Nat.toDigits 10 j := by
    rw [← Nat.toList_repr, ← Nat.toList_repr, (String.append_right_inj "_").1 same]
  have number := congrArg (Nat.ofDigitChars 10 · 0) digits
  simpa only [Nat.ofDigitChars_ten_toDigits] using number

theorem madeName_ne_empty : madeName place ≠ "" := by simp [madeName]

/-- Two inputs of one name stand in one place. -/
theorem eq_of_named (apart : f.NamedApart) (hp : f.inputs[i]? = some p)
    (hq : f.inputs[j]? = some q) (named : p.name ≠ "") (same : p.name = q.name) : i = j := by
  obtain ⟨hi, rfl⟩ := List.getElem?_eq_some_iff.1 hp
  obtain ⟨hj, rfl⟩ := List.getElem?_eq_some_iff.1 hq
  have before := List.pairwise_iff_getElem.1 apart
  rcases Nat.lt_trichotomy i j with less | equal | greater
  · exact absurd same (before i j hi hj less named)
  · exact equal
  · exact absurd same.symm (before j i hj hi greater (same ▸ named))

/-- Two inputs go by one name exactly when one of them has none and the other is declared by
the name that is made for it. -/
theorem parameterName_eq_iff (apart : f.NamedApart) (hp : f.inputs[i]? = some p)
    (hq : f.inputs[j]? = some q) (places : i ≠ j) :
    parameterName i p = parameterName j q ↔
      p.name = "" ∧ q.name = madeName i ∨ q.name = "" ∧ p.name = madeName j := by
  by_cases unnamed : p.name = "" <;> by_cases unnamed' : q.name = ""
  · simp only [parameterName_of_unnamed unnamed, parameterName_of_unnamed unnamed', madeName_inj,
      unnamed, unnamed', places, madeName_ne_empty.symm, and_false, or_self]
  · rw [parameterName_of_unnamed unnamed, parameterName_of_named unnamed', eq_comm]
    simp [unnamed, unnamed']
  · rw [parameterName_of_named unnamed, parameterName_of_unnamed unnamed']
    simp [unnamed, unnamed']
  · rw [parameterName_of_named unnamed, parameterName_of_named unnamed']
    simp only [unnamed, unnamed', false_and, or_self, iff_false]
    exact fun same => places (eq_of_named apart hp hq unnamed same)

/-- Two inputs are one argument exactly when they go by one name and have one type. -/
theorem inputKey_eq_iff (apart : f.NamedApart) (hp : f.inputs[i]? = some p)
    (hq : f.inputs[j]? = some q) (places : i ≠ j) :
    inputKey contract f i p type = inputKey contract f j q type' ↔ type = type' ∧
      (p.name = "" ∧ q.name = madeName i ∨ q.name = "" ∧ p.name = madeName j) := by
  simp only [inputKey, ArgumentKey.mk.injEq, true_and, parameterName_eq_iff apart hp hq places]

end Names

/-! ## Guards -/

/-- A space is made from rules and guards: it is what some view of the state leads to. -/
def MadeFrom (rules : RuleBook) (guards : GuardTable) (key : ArgumentKey) (space : Space) : Prop :=
  ∃ (σ : Type) (view : StateView σ) (state state' : σ),
    argumentSpace view rules guards key state = .ok space state'

section Guards

variable {σ : Type} {rules : RuleBook} {guards guards' : GuardTable} {key : ArgumentKey}
  {space : Space}

/-- Of the guards only those count that name the argument. -/
theorem argumentSpace_congr (view : StateView σ) (rules : RuleBook)
    (same : guardsOn guards key = guardsOn guards' key) :
    argumentSpace view rules guards key = argumentSpace view rules guards' key := by
  unfold guardsOn at same
  funext state
  simp only [argumentSpace, Assembly.narrowByGuards, same]

theorem MadeFrom.congr (same : guardsOn guards key = guardsOn guards' key)
    (made : MadeFrom rules guards key space) : MadeFrom rules guards' key space := by
  obtain ⟨σ, view, state, state', assembled⟩ := made
  exact ⟨σ, view, state, state', argumentSpace_congr view rules same ▸ assembled⟩

/-- A space that is drawn from was there, or is made now. -/
theorem cached_or_madeFrom_of_space {view : StateView σ} {s : Session} {state : σ}
    {after : Session × σ} (found : Session.space view key (s, state) = .ok space after) :
    s.space? key = some space ∨ MadeFrom s.rules s.guards key space := by
  simp only [Session.space] at found
  cases cached : s.space? key with
  | some known =>
    rw [cached] at found
    cases found
    exact .inl rfl
  | none =>
    rw [cached] at found
    cases assembled : argumentSpace view s.rules s.guards key state with
    | error e state' => simp only [assembled, reduceCtorEq] at found
    | ok made state' =>
      simp only [assembled] at found
      cases found
      exact .inr ⟨σ, view, state, state', assembled⟩

/-- A space that is there after a request was there before, or is made by it. -/
theorem cached_or_madeFrom_of_requested {s s' : Session} (requested : Requested s s')
    (cached : s'.space? key = some space) :
    s.space? key = some space ∨ MadeFrom s.rules s.guards key space := by
  cases before : s.space? key with
  | none => exact .inr (requested.assembled key space before cached)
  | some old => exact .inl ((requested.kept key old before).symm.trans cached)

end Guards

/-! ## Inputs -/

section Inputs

variable {σ : Type} {view : StateView σ} {contract : String} {f : ContractFunction}
  {start after : Session × σ} {place : Nat} {p : ContractParameter} {type : AbiType}
  {space : Space}

/-- When the inputs of a function are drawn from a state on, an input is drawn from a space:
the one that its key has once all inputs before it are drawn. -/
structure Uses (view : StateView σ) (contract : String) (f : ContractFunction)
    (start : Session × σ) (place : Nat) (p : ContractParameter) (type : AbiType)
    (space : Space) : Prop where
  input : f.inputs[place]? = some p
  typed : AbiType.ofName p.type = .ok type
  reached : ∃ earlier before after,
    argumentsFrom view contract f.name 0 (f.inputs.take place) start = .ok earlier before ∧
    Session.space view (inputKey contract f place p type) before = .ok space after

/-- A value is the next one of its parameter, after the parameters before it. The induction is
on the parameters. -/
theorem exists_argument_of_argumentsFrom {function : String} (ps : List ContractParameter)
    {first k : Nat} {start after : Session × σ} {vs : List AbiValue} {v : AbiValue}
    (drawn : argumentsFrom view contract function first ps start = .ok vs after)
    (value : vs[k]? = some v) :
    ∃ p earlier before next, ps[k]? = some p ∧
      argumentsFrom view contract function first (ps.take k) start = .ok earlier before ∧
      Session.argument view contract function p.type (parameterName (first + k) p) before =
        .ok v next := by
  induction ps generalizing first k start vs with
  | nil =>
    cases drawn
    cases value
  | cons q ps ih =>
    obtain ⟨w, middle, own, drawn⟩ := bind_eq_ok_iff.1 drawn
    obtain ⟨ws, last, others, drawn⟩ := bind_eq_ok_iff.1 drawn
    cases drawn
    cases k with
    | zero =>
      cases value
      exact ⟨q, [], start, middle, rfl, rfl, own⟩
    | succ k =>
      obtain ⟨p, earlier, before, next, here, reached, given⟩ := ih others value
      rw [Nat.add_right_comm] at given
      exact ⟨p, w :: earlier, before, next, here,
        bind_eq_ok_iff.2 ⟨w, middle, own, bind_eq_ok_iff.2 ⟨earlier, before, reached, rfl⟩⟩, given⟩

/-- Every value of a function is drawn from the space that its input uses. -/
theorem exists_uses {vs : List AbiValue} {v : AbiValue}
    (drawn : arguments view contract f start = .ok vs after) (value : vs[place]? = some v) :
    ∃ p type space, Uses view contract f start place p type space ∧
      ∃ before next, Session.draw view (inputKey contract f place p type) space before =
        .ok v next := by
  obtain ⟨p, earlier, before, next, input, reached, given⟩ :=
    exists_argument_of_argumentsFrom f.inputs drawn value
  rw [Nat.zero_add] at given
  unfold Session.argument at given
  cases typed : AbiType.ofName p.type with
  | error e =>
    rw [typed] at given
    cases given
  | ok type =>
    rw [typed] at given
    obtain ⟨space, middle, found, fromSpace, -⟩ := value_ok_iff.1 given
    exact ⟨p, type, space, ⟨input, typed, earlier, before, middle, reached, found⟩,
      middle, next, fromSpace⟩

/-- The space that an input uses is made from the rules of the session and the guards of a
moment of the run: the last one, or an earlier one if the space was there before. -/
theorem madeFrom_of_uses {s₀ : Session} {ops : List Operation} {state : σ}
    (unknown : ∀ key, s₀.space? key = none)
    (uses : Uses view contract f (s₀.after ops, state) place p type space) :
    ∃ before later, ops = before ++ later ∧
      MadeFrom (s₀.after ops).rules (s₀.after before).guards
        (inputKey contract f place p type) space := by
  obtain ⟨earlier, ⟨s, state₁⟩, last, drawn, found⟩ := uses.reached
  have requested : Requested (s₀.after ops) s := by
    have request := arguments_isRequest view contract { f with inputs := f.inputs.take place }
      (s₀.after ops, state)
    simp only [arguments, drawn] at request
    exact request
  have known : (s₀.after ops).space? (inputKey contract f place p type) = some space ∨
      MadeFrom (s₀.after ops).rules (s₀.after ops).guards (inputKey contract f place p type)
        space := by
    rcases cached_or_madeFrom_of_space found with cached | made
    · exact cached_or_madeFrom_of_requested requested cached
    · rw [requested.rules_eq, requested.guards_eq] at made
      exact .inr made
  rcases known with cached | made
  · obtain ⟨before, later, split, -, rules, made⟩ := assembled_of_cached (unknown _) cached
    exact ⟨before, later, split, rules ▸ made⟩
  · exact ⟨ops, [], (List.append_nil ops).symm, made⟩

end Inputs

/-- A guard names a parameter that is declared by a definition of the function. -/
theorem exists_declared_of_mem_guardsOn {settings : Settings} {stream : Random.Stream}
    {ops : List Operation} {key : ArgumentKey} {c : Constraint}
    (known : c ∈ guardsOn ((start settings stream).after ops).guards key) :
    ∃ unit ∈ unitsOf ops, ∃ g, (key.contract, g) ∈ GuardTable.definitions unit ∧
      g.head.name = key.function ∧ key.name ∈ g.namedParameters := by
  rcases List.mem_append.1 ((guardsOn_after_perm _ ops key).mem_iff.1 known) with old | added
  · cases old
  · simp only [guardsAdded, GuardTable.guardsFor, List.mem_filter, List.mem_flatMap,
      decide_eq_true_eq] at added
    obtain ⟨⟨unit, shown, ⟨contract, g⟩, ⟨defined, rfl, named⟩, hc⟩, about⟩ := added
    obtain ⟨condition, -, compiled⟩ := Source.FunctionDefinition.mem_guards_iff.1 hc
    obtain ⟨name, declared, arguments, -⟩ := Guard.holds?_of_compile compiled
    rw [arguments, List.mem_singleton] at about
    exact ⟨unit, shown, g, defined, named, about ▸ declared⟩

/-- A guard that is known at a moment is known from then on. -/
theorem guardsOn_eq_nil_of_append {s₀ : Session} {before later : List Operation}
    {key : ArgumentKey} (none : guardsOn (s₀.after (before ++ later)).guards key = []) :
    guardsOn (s₀.after before).guards key = [] := by
  refine List.eq_nil_iff_forall_not_mem.2 fun c early => ?_
  have late : c ∈ guardsOn ((s₀.after before).after later).guards key :=
    mem_guardsOn_after_of_mem early
  rw [← after_append, none] at late
  cases late

/-- **Guards reach inputs by name, and made names are names.** Take a function whose named
inputs have different names, in any session, with any rules and guards. Two of its inputs are
one argument exactly when they have one type, one of them has no name, and the other is
declared by the name that is made for it. Every value is drawn from the space of its input.
That space is made from the rules of the session and those guards of a moment of the run that
name the input, by its own name or by the one made for it; other guards do not count, and where
there are no such guards it is made from the rules alone. A guard names a parameter only that
a definition of the function declares, so an input without a name is out of reach as long as
none is declared by the made name. -/
theorem guards_reach_names (settings : Settings) (stream : Random.Stream) (ops : List Operation)
    (contract : String) {f : ContractFunction} (apart : f.NamedApart) {σ : Type}
    (view : StateView σ) (state : σ) :
    let s₀ := start settings stream
    let s := s₀.after ops
    let guardsOf (guards : GuardTable) := guards.constraintsOn ⟨contract, f.name⟩
    (∀ i j p q type type', i ≠ j → f.inputs[i]? = some p → f.inputs[j]? = some q →
      (inputKey contract f i p type = inputKey contract f j q type' ↔ type = type' ∧
        (p.name = "" ∧ q.name = madeName i ∨ q.name = "" ∧ p.name = madeName j))) ∧
    (∀ vs after, arguments view contract f (s, state) = .ok vs after →
      ∀ i v, vs[i]? = some v → ∃ p type space, Uses view contract f (s, state) i p type space ∧
        ∃ before next, Session.draw view (inputKey contract f i p type) space before =
          .ok v next) ∧
    (∀ i p type space, Uses view contract f (s, state) i p type space →
      ∀ name, (p.name ≠ "" → name = p.name) → (p.name = "" → name = madeName i) →
        (∃ before later, ops = before ++ later ∧
          ∀ guards, guardsOf guards name = guardsOf (s₀.after before).guards name →
            MadeFrom s.rules guards (inputKey contract f i p type) space) ∧
        (guardsOf s.guards name = [] →
          MadeFrom s.rules GuardTable.empty (inputKey contract f i p type) space)) ∧
    ∀ name, (∀ unit ∈ unitsOf ops, ∀ g, (contract, g) ∈ GuardTable.definitions unit →
      g.head.name = f.name → name ∉ g.namedParameters) → guardsOf s.guards name = [] := by
  intro s₀ s guardsOf
  refine ⟨fun i j p q type type' places hp hq => inputKey_eq_iff apart hp hq places,
    fun vs after drawn i v value => exists_uses drawn value, ?_, fun name undeclared => ?_⟩
  · intro i p type space uses name named unnamed
    have called : name = parameterName i p := by
      by_cases empty : p.name = ""
      · rw [parameterName_of_unnamed empty, unnamed empty]
      · rw [parameterName_of_named empty, named empty]
    subst called
    obtain ⟨before, later, rfl, made⟩ := madeFrom_of_uses (fun key => rfl) uses
    refine ⟨⟨before, later, rfl, fun guards same => made.congr same.symm⟩, fun none => ?_⟩
    exact made.congr (guardsOn_eq_nil_of_append none)
  · refine List.eq_nil_iff_forall_not_mem.2 fun c guard => ?_
    -- Guards do not look at the type of the argument, so any will do.
    let key : ArgumentKey := ⟨contract, f.name, .bytes, name⟩
    have known : c ∈ guardsOn s.guards key := guard
    obtain ⟨unit, shown, g, defined, named, declared⟩ := exists_declared_of_mem_guardsOn known
    exact undeclared unit shown g defined named declared

/-! ## A made name that is declared -/

/-- A contract `C` with a function `f` of two bytes that requires the second of them, which has
a name, to be seven. -/
def unitPinning (name : String) : Node :=
  .sourceUnit [.contract "C" [.function ⟨"f", none, [⟨"", none⟩, ⟨name, none⟩], Location.none⟩
    (some (.block [.expressionStatement (.call (.identifier "require" Location.none)
      [.binary "==" (.identifier name Location.none)
        (.literal (some "7") none "number" none Location.none) Location.none]
      Location.none)]))]]

/-- That function. -/
def twoBytes (name : String) : ContractFunction :=
  ⟨"f", [⟨"", "uint8"⟩, ⟨name, "uint8"⟩], [], .nonpayable⟩

/-- The session that was shown that contract. -/
def pinning (name : String) : Session :=
  (start Settings.standard (.ofSeed 7)).after [.addUnit (unitPinning name)]

/-- The first byte, under the key that it has for any name of the second one. -/
def firstByteKey : ArgumentKey := ⟨"C", "f", .number (.uint 8), "_0"⟩

/-- With `b` as the name of the second byte, the first one is free, and they are two
arguments. -/
theorem guards_reach_names_apart :
    let byte : AbiType := .number (.uint 8)
    (twoBytes "b").NamedApart ∧
      inputKey "C" (twoBytes "b") 0 ⟨"", "uint8"⟩ byte ≠
        inputKey "C" (twoBytes "b") 1 ⟨"b", "uint8"⟩ byte ∧
      ∃ space, Uses detached "C" (twoBytes "b") (pinning "b", ()) 0 ⟨"", "uint8"⟩ byte space ∧
        MadeFrom RuleBook.empty GuardTable.empty firstByteKey space := by
  intro byte
  have apart : (twoBytes "b").NamedApart := by decide
  obtain ⟨keys, -, spaces, declared⟩ := guards_reach_names Settings.standard (.ofSeed 7)
    [.addUnit (unitPinning "b")] "C" apart detached ()
  have none : guardsOn (pinning "b").guards firstByteKey = [] :=
    List.perm_nil.1 (guardsOn_after_perm _ [.addUnit (unitPinning "b")] firstByteKey)
  have assembled : argumentSpace detached (pinning "b").rules (pinning "b").guards firstByteKey () =
      .ok (Space.ofType byte) () := by
    have nothing : guardsOn GuardTable.empty firstByteKey = [] := rfl
    rw [argumentSpace_congr detached _ (none.trans nothing.symm)]
    rfl
  have found : Session.space detached firstByteKey (pinning "b", ()) = .ok (Space.ofType byte) _ :=
    space_of_assembled rfl assembled
  have uses : Uses detached "C" (twoBytes "b") (pinning "b", ()) 0 ⟨"", "uint8"⟩ byte
      (Space.ofType byte) :=
    ⟨rfl, by decide, [], (pinning "b", ()), _, rfl, found⟩
  refine ⟨apart, fun same => ?_, _, uses, ?_⟩
  · obtain ⟨-, ⟨-, named⟩ | ⟨named, -⟩⟩ := (keys 0 1 _ _ byte byte (by decide) rfl rfl).1 same
    · exact absurd named (by decide)
    · exact absurd named (by decide)
  · refine (spaces 0 _ byte _ uses "_0" (fun named => absurd rfl named) (fun _ => by decide)).2
      (declared "_0" fun unit shown g defined _ => ?_)
    obtain rfl := List.mem_singleton.1 shown
    obtain ⟨-, rfl⟩ := Prod.mk.inj (List.mem_singleton.1 defined)
    decide

/-- With `_0` as the name of the second byte, the two bytes are one argument. The guard on the
second one reaches the first one, which has no name: its space is none that the rules alone
make, and both values are seven. -/
theorem unnamed_input_reached :
    let byte : AbiType := .number (.uint 8)
    (twoBytes "_0").NamedApart ∧
      inputKey "C" (twoBytes "_0") 0 ⟨"", "uint8"⟩ byte =
        inputKey "C" (twoBytes "_0") 1 ⟨"_0", "uint8"⟩ byte ∧
      (∃ space, Uses detached "C" (twoBytes "_0") (pinning "_0", ()) 0 ⟨"", "uint8"⟩ byte space ∧
        ¬ MadeFrom (pinning "_0").rules GuardTable.empty firstByteKey space) ∧
      ∃ after, arguments detached "C" (twoBytes "_0") (pinning "_0", ()) =
        .ok [.uint 7 8, .uint 7 8] after ∧ after.1.spaces.keys = [firstByteKey] := by
  intro byte
  let space : Space :=
    .number (.uint 8) { Domain.ofType (.uint 8) with pinned := some ⟨7, by decide⟩ }
  have guards : guardsOn (pinning "_0").guards firstByteKey =
      [⟨.equal, .literal "7" none, .guard Location.none ["_0"]⟩] :=
    List.perm_singleton.1 (guardsOn_after_perm _ [.addUnit (unitPinning "_0")] firstByteKey)
  have assembled : argumentSpace detached (pinning "_0").rules (pinning "_0").guards firstByteKey
      () = .ok space () := by
    refine argumentSpace_ok_iff.2 ⟨Space.ofType byte, ⟨(), []⟩,
      ⟨(), [⟨.equal, .literal "7" none, .guard Location.none ["_0"]⟩]⟩, rfl, ?_, rfl⟩
    unfold guardsOn at guards
    rw [Assembly.narrowByGuards, guards]
    rfl
  let s : Session := { pinning "_0" with spaces := [(firstByteKey, space)] }
  have typed : AbiType.ofName "uint8" = .ok byte := by decide
  have found : Session.space detached firstByteKey (pinning "_0", ()) = .ok space (s, ()) :=
    space_of_assembled rfl assembled
  -- The first byte brings the space into the session, and the second one finds it there.
  have first : Session.argument detached "C" "f" "uint8" "_0" (pinning "_0", ()) =
      .ok (.uint 7 8) (s, ()) := by
    simp only [Session.argument, typed]
    exact value_ok_iff.2 ⟨space, (s, ()), found, rfl, rfl⟩
  have second : Session.argument detached "C" "f" "uint8" "_0" (s, ()) =
      .ok (.uint 7 8) (s, ()) := by
    simp only [Session.argument, typed]
    exact value_ok_iff.2 ⟨space, (s, ()), space_of_cached rfl, rfl, rfl⟩
  have drawn : arguments detached "C" (twoBytes "_0") (pinning "_0", ()) =
      .ok [.uint 7 8, .uint 7 8] (s, ()) :=
    bind_eq_ok_iff.2 ⟨_, _, first, bind_eq_ok_iff.2 ⟨_, _,
      bind_eq_ok_iff.2 ⟨_, _, second, bind_eq_ok_iff.2 ⟨[], _, rfl, rfl⟩⟩, rfl⟩⟩
  refine ⟨by decide, rfl, ⟨space, ⟨rfl, typed, [], (pinning "_0", ()), (s, ()), rfl, found⟩, ?_⟩,
    (s, ()), drawn, rfl⟩
  rintro ⟨σ, view, state, state', made⟩
  have free : argumentSpace view (pinning "_0").rules GuardTable.empty firstByteKey state =
      .ok (Space.ofType byte) state := rfl
  rw [free] at made
  injection made with same
  have pins := congrArg (fun space => space.domain?.map (·.pinned)) same
  cases pins

end Session

end GuardedCalls
