/-
GuardedCalls.Proofs.RuleBoundTheorems — which number a rule compares with.

A parameter of a rule may be a text or a number, and of a number its text is
taken. A number of a document has room for 64 bits: an integer beyond is held as
a double. So the bound is the integer that was written if it stands in quotes,
or if it is one that a double is printed as.

* `exists_alter_parameter_iff` — with another value of a parameter, a rule is read if
  that value is one, and its other bounds are as they were.
* `compares_iff_printed` — a text of a number compares with the integer it denotes.
* `integer_parameter_exact_iff` — the integers that bound exactly what they are;
  `wide_token_rounded` — one that does not.
-/
import GuardedCalls.Proofs.JsonNumberTheorems
import GuardedCalls.Proofs.NumberValueTheorems
import GuardedCalls.Proofs.RuleReadingTheorems

namespace GuardedCalls

/-- The bound is a number, whatever may be read from state. -/
def Constraint.Resolves (c : Constraint) (decimals : ℕ) (n : ℤ) : Prop :=
  ∀ (σ : Type) (view : StateView σ) (s : σ),
    ∃ v, c.boundValue view decimals s = .ok v s ∧ v.val = n

/-- A type of integers. -/
def NumberType.IsInteger : NumberType → Prop
  | .uint _ => True
  | .int _ => True
  | _ => False

namespace Json

/-! ## A parameter of a rule -/

/-- The document with a change of the entry at a place. -/
def alterEntry (place : RulePlace) (f : Json → Json) (j : Json) : Json :=
  j.alter place.contract (alter place.function (alter place.typeName f))

/-- The entry with another value of a parameter in one of its rules. -/
def alterParameter (i : ℕ) (parameter : String) (v : Json) (entry : Json) : Json :=
  entry.alter "rules" (alterItem i (alter parameter fun _ => v))

/-- The document with another value of a parameter in a rule of the entry at a place. -/
def withParameter (j : Json) (place : RulePlace) (i : ℕ) (parameter : String) (v : Json) : Json :=
  j.alterEntry place (alterParameter i parameter v)

/-- A rule of the entry at a place takes a parameter as the bound of one of its
comparisons. -/
def Takes (j : Json) (place : RulePlace) (i k : ℕ) (comparison : Comparison)
    (parameter : String) : Prop :=
  ∃ value items item rule comparisons, j.entryAt? place = some value ∧
    value.last? "rules" = some (.array items) ∧ items[i]? = some item ∧
    item.last? "rule-type" = some (.string rule) ∧
    RuleBook.comparisonsOf? rule = some comparisons ∧
    comparisons[k]? = some (comparison, parameter)

/-- The document is read, and a rule of the entry at a place compares with a number. -/
def Compares (j : Json) (place : RulePlace) (i k : ℕ) (comparison : Comparison) (n : ℤ) : Prop :=
  ∃ r entry rule c, RuleBook.ofDocument j = .ok r ∧ r.entries.get? place = some entry ∧
    entry.rules[i]? = some rule ∧ rule.constraints[k]? = some c ∧
    c.comparison = comparison ∧ c.Resolves entry.type.decimals n

/-- An integer as the value of a parameter: its digits in quotes, or what is read of them
without quotes. -/
inductive Gives (n : ℤ) : Json → Prop
  | quoted : Gives n (.string (Number.integer n).text)
  | token {num : Number} : Number.ofInteger? n = some num → Gives n (.number num)

end Json

namespace RuleBook

open Json (alter alterItem alterEntry alterParameter)

/-! ## Reading after a change -/

section Change

variable {j value item v : Json} {r : RuleBook} {place : RulePlace} {entry : RuleEntry}
  {items : List Json} {i k : ℕ} {type : AbiType} {path rule parameter : String}
  {comparison : Comparison} {comparisons : List (Comparison × String)} {f : Json → Json}

/-- With a change of one entry a document is read if that entry is. -/
theorem exists_alterEntry_iff (loaded : ofDocument j = .ok r)
    (declared : j.entryAt? place = some value) :
    (∃ r', ofDocument (j.alterEntry place f) = .ok r' ∧ r'.entries.get? place = some entry) ↔
      Reads (place, f value) entry := by
  obtain ⟨functions, inContract, rest⟩ := Option.bind_eq_some_iff.1 declared
  obtain ⟨types, inFunction, inType⟩ := Option.bind_eq_some_iff.1 rest
  have each := exists_ofDocument_iff.1 ⟨r, loaded⟩
  have each' := each.2 _ _ inContract
  have each'' := each'.2 _ _ inFunction
  have changed : (j.alterEntry place f).entryAt? place = some (f value) := by
    simp [Json.entryAt?, alterEntry, Json.last?_alter_self, inContract, inFunction, inType]
  have readable : (∃ r', ofDocument (j.alterEntry place f) = .ok r') ↔
      ∃ entry, Reads (place, f value) entry := by
    unfold alterEntry
    rw [exists_ofDocument_iff, Json.each_alter_iff each inContract,
      Json.each_alter_iff each' inFunction, Json.each_alter_iff each'' inType]
  constructor
  · rintro ⟨r', loaded', held⟩
    obtain ⟨entry', held', reads⟩ := get?_entries_of_entryAt? loaded' changed
    obtain rfl := Option.some.inj (held'.symm.trans held)
    exact reads
  · intro reads
    obtain ⟨r', loaded'⟩ := readable.2 ⟨entry, reads⟩
    obtain ⟨entry', held, reads'⟩ := get?_entries_of_entryAt? loaded' changed
    obtain rfl := Except.ok.inj (reads'.symm.trans reads)
    exact ⟨r', loaded', held⟩

/-- With a change of one rule an entry is read if that rule is. -/
theorem exists_alterItem_iff {new : Rule} (reads : Reads (place, value) entry)
    (array : value.last? "rules" = some (.array items)) (here : items[i]? = some item) :
    (∃ entry', Reads (place, value.alter "rules" (alterItem i f)) entry' ∧
      entry'.type = entry.type ∧ entry'.rules[i]? = some new) ↔
      readRule entry.type (ruleAt place.path i) (f item).canonical = .ok new := by
  obtain ⟨named, selector, items', array', each⟩ := reads_iff.1 reads
  rw [array, Option.some.injEq, Json.array.injEq] at array'
  subst array'
  have changed : (value.alter "rules" (alterItem i f)).last? "rules" =
      some (.array (items.modify i f)) := by
    rw [Json.last?_alter_self, array, Option.map_some, alterItem]
  have kept : (value.alter "rules" (alterItem i f)).last? "selector" = value.last? "selector" :=
    Json.last?_alter_of_ne (by decide)
  have there : (items.modify i f)[i]? = some (f item) := by
    rw [List.getElem?_modify_eq, here]
    rfl
  simp only [reads_iff, changed, kept, Option.some.injEq, Json.array.injEq, exists_eq_left']
  constructor
  · rintro ⟨entry', ⟨-, -, each'⟩, same, found⟩
    obtain ⟨rule, found', read⟩ := each'.get there
    obtain rfl := Option.some.inj (found'.symm.trans found)
    rwa [same] at read
  · intro read
    obtain ⟨old, held, -⟩ := each.get here
    obtain ⟨inside, -⟩ := List.getElem?_eq_some_iff.1 held
    exact ⟨{ entry with rules := entry.rules.set i new }, ⟨named, selector, each.change here read⟩,
      rfl, List.getElem?_set_self inside⟩

/-- The parameters of a rule are different, and none of them says which rule it is. -/
theorem ne_of_comparisonsOf? (known : comparisonsOf? rule = some comparisons)
    (takes : comparisons[k]? = some (comparison, parameter)) :
    parameter ≠ "rule-type" ∧
      ∀ n, n ≠ k → ∀ part, comparisons[n]? = some part → part.2 ≠ parameter := by
  have distinct : (comparisons.map (·.2)).Nodup ∧ "rule-type" ∉ comparisons.map (·.2) := by
    unfold comparisonsOf? at known
    split at known <;> cases known <;> decide
  have named {n : ℕ} {part : Comparison × String} (here : comparisons[n]? = some part) :
      (comparisons.map (·.2))[n]? = some part.2 := by rw [List.getElem?_map, here]; rfl
  refine ⟨?_, fun n other part here same => other ?_⟩
  · rintro rfl
    exact distinct.2 (List.mem_of_getElem? (named takes))
  · obtain ⟨inside, -⟩ := List.getElem?_eq_some_iff.1 (named here)
    exact (List.getElem?_inj inside distinct.1).1 (by rw [named here, named takes, same])

/-- With a change of one parameter a rule is read if that parameter is. -/
theorem exists_alter_parameter_iff {old : Rule} {c : Constraint}
    (read : readRule type path item.canonical = .ok old)
    (kind : item.last? "rule-type" = some (.string rule))
    (known : comparisonsOf? rule = some comparisons)
    (takes : comparisons[k]? = some (comparison, parameter)) :
    (∃ new, readRule type path (item.alter parameter fun _ => v).canonical = .ok new ∧
      new.constraints[k]? = some c) ↔
      ∃ text, scalarText? v = some text ∧
        checkedConstraint path rule type comparison text = .ok c := by
  obtain ⟨other, others⟩ := ne_of_comparisonsOf? known takes
  obtain ⟨comparisons', kind', known', related⟩ := readRule_eq_ok_iff.1 read
  obtain rfl : rule = old.name := by
    rw [kind] at kind'
    exact Json.string.inj (Option.some.inj kind')
  obtain rfl := Option.some.inj (known.symm.trans known')
  obtain ⟨c₀, held, text₀, ⟨v₀, given₀, -⟩, -⟩ := related.get takes
  have given : (item.alter parameter fun _ => v).last? parameter = some v := by
    rw [Json.last?_alter_self, given₀, Option.map_some]
  have kept : (item.alter parameter fun _ => v).last? "rule-type" = some (.string old.name) := by
    rw [Json.last?_alter_of_ne other.symm, kind]
  constructor
  · rintro ⟨new, read', found⟩
    obtain ⟨comparisons', kind', known', related'⟩ := readRule_eq_ok_iff.1 read'
    have name : old.name = new.name := by
      rw [kept] at kind'
      exact Json.string.inj (Option.some.inj kind')
    rw [← name] at known' related'
    obtain rfl := Option.some.inj (known.symm.trans known')
    obtain ⟨c', found', text, ⟨v', given', shown⟩, checked⟩ := related'.get takes
    obtain rfl := Option.some.inj (found'.symm.trans found)
    obtain rfl := Option.some.inj (given.symm.trans given')
    exact ⟨text, shown, checked⟩
  · rintro ⟨text, shown, checked⟩
    obtain ⟨inside, -⟩ := List.getElem?_eq_some_iff.1 held
    refine ⟨⟨old.name, old.constraints.set k c⟩,
      readRule_eq_ok_iff.2 ⟨comparisons, kept, known, fun n => ?_⟩, List.getElem?_set_self inside⟩
    by_cases here : n = k
    · subst here
      rw [takes, List.getElem?_set_self inside]
      exact .some ⟨text, ⟨v, given, shown⟩, checked⟩
    · -- Another comparison of the rule has its bound under another key.
      rw [List.getElem?_set_ne (Ne.symm here)]
      refine rel_imp (related n) ?_
      rintro part there c' ⟨text', ⟨v', given', shown'⟩, checked'⟩
      have elsewhere := others n here part there
      exact ⟨text', ⟨v', (Json.last?_alter_of_ne elsewhere).trans given', shown'⟩, checked'⟩

end Change

/-! ## Integers as bounds -/

section Bounds

variable {j v : Json} {r : RuleBook} {place : RulePlace} {i k : ℕ} {type : NumberType}
  {rule path parameter : String} {comparison : Comparison} {n : Scalar} {num : Json.Number}

/-- With another parameter, a document compares as that parameter says. -/
theorem exists_compares_iff {n : ℤ} (loaded : ofDocument j = .ok r)
    (takes : j.Takes place i k comparison parameter)
    (named : AbiType.ofName place.typeName = .ok (.number type)) :
    ∃ rule, (j.withParameter place i parameter v).Compares place i k comparison n ↔
      ∃ c, (∃ text, scalarText? v = some text ∧
          checkedConstraint (ruleAt place.path i) rule (.number type) comparison text = .ok c) ∧
        c.comparison = comparison ∧ c.Resolves type.decimals n := by
  obtain ⟨value, items, item, rule, comparisons, declared, array, here, kind, known, takes⟩ := takes
  obtain ⟨entry, held, reads⟩ := get?_entries_of_entryAt? loaded declared
  obtain ⟨named', -, items', array', each⟩ := reads_iff.1 reads
  rw [array, Option.some.injEq, Json.array.injEq] at array'
  subst array'
  have integer : entry.type = .number type := Except.ok.inj (named'.symm.trans named)
  obtain ⟨old, -, read⟩ := each.get here
  rw [integer] at read
  have document (entry' : RuleEntry) :
      (∃ r', ofDocument (j.withParameter place i parameter v) = .ok r' ∧
        r'.entries.get? place = some entry') ↔
        Reads (place, alterParameter i parameter v value) entry' :=
    exists_alterEntry_iff loaded declared
  have rules (new : Rule) :
      (∃ entry', Reads (place, alterParameter i parameter v value) entry' ∧
        entry'.type = entry.type ∧ entry'.rules[i]? = some new) ↔
        readRule entry.type (ruleAt place.path i) (item.alter parameter fun _ => v).canonical =
          .ok new :=
    exists_alterItem_iff reads array here
  rw [integer] at rules
  refine ⟨rule, ?_⟩
  constructor
  · rintro ⟨r', entry', new, c, loaded', held', newRule, newConstraint, compares, resolves⟩
    have reads' := (document entry').1 ⟨r', loaded', held'⟩
    have same : entry'.type = .number type :=
      Except.ok.inj ((reads_iff.1 reads').1.symm.trans named)
    have read' := (rules new).1 ⟨entry', reads', same, newRule⟩
    rw [same] at resolves
    have given := (exists_alter_parameter_iff read kind known takes).1 ⟨new, read', newConstraint⟩
    exact ⟨c, given, compares, resolves⟩
  · rintro ⟨c, given, compares, resolves⟩
    obtain ⟨new, read', newConstraint⟩ :=
      (exists_alter_parameter_iff read kind known takes).2 given
    obtain ⟨entry', reads', same, newRule⟩ := (rules new).2 read'
    obtain ⟨r', loaded', held'⟩ := (document entry').2 reads'
    refine ⟨r', entry', new, c, loaded', held', newRule, newConstraint, compares, ?_⟩
    rwa [same]

/-- A literal resolves to the number that it is read as. -/
theorem resolves_literal_iff {text : String} {origin : Origin} {decimals : ℕ} {n : ℤ} :
    Constraint.Resolves ⟨comparison, .literal text none, origin⟩ decimals n ↔
      ∃ v, Scalar.ofLiteral text none decimals = .ok v ∧ v.val = n := by
  have value (σ : Type) (view : StateView σ) (s : σ) (v : Scalar) :
      Constraint.boundValue view ⟨comparison, .literal text none, origin⟩ decimals s = .ok v s ↔
        Scalar.ofLiteral text none decimals = .ok v := by
    simp only [Constraint.boundValue]
    cases Scalar.ofLiteral text none decimals <;> simp
  simp only [Constraint.Resolves, value]
  exact ⟨fun all => all Unit detached (), fun known _ _ _ => known⟩

/-- The text of a number bounds values of an integer type by an integer of the type exactly
if it denotes that integer. -/
theorem exists_checkedConstraint_iff (wf : type.WellFormed) (integer : type.IsInteger)
    (legal : type.Legal n) :
    (∃ c, checkedConstraint path rule (.number type) comparison num.text = .ok c ∧
      c.comparison = comparison ∧ c.Resolves type.decimals n.val) ↔ num.printed = n.val := by
  have plain : (AbiType.number type).decimals = 0 := by
    cases type with
    | uint bits => rfl
    | int bits => rfl
    | _ => cases integer
  have honours : (AbiType.number type).kind.honours comparison = true := by
    cases type with
    | uint bits => rfl
    | int bits => rfl
    | _ => cases integer
  constructor
  · rintro ⟨c, checked, -, resolves⟩
    unfold checkedConstraint at checked
    rw [if_pos honours] at checked
    split at checked
    · cases checked
    split at checked
    · cases checked
      obtain ⟨v, number, same⟩ := resolves_literal_iff.1 resolves
      rw [show type.decimals = 0 from plain, Json.Number.ofLiteral_text_iff] at number
      rw [← number, same]
    · cases checked
  · intro same
    have number : Scalar.ofLiteral num.text none (AbiType.number type).decimals = .ok n := by
      rw [plain, Json.Number.ofLiteral_text_iff, same]
    have inside : inRange (.number type) n = true :=
      (NumberType.isInType_ofType_iff wf).2 legal
    refine ⟨⟨comparison, .literal num.text none, .rule rule⟩, ?_, rfl,
      resolves_literal_iff.2 ⟨n, number, rfl⟩⟩
    unfold checkedConstraint
    rw [if_pos honours, number]
    exact if_pos inside

/-- With the text of a number as that parameter, it compares with an integer of the type
exactly if the text denotes that integer. -/
theorem compares_iff_printed (loaded : ofDocument j = .ok r)
    (takes : j.Takes place i k comparison parameter)
    (named : AbiType.ofName place.typeName = .ok (.number type)) (integer : type.IsInteger)
    (legal : type.Legal n) (shown : scalarText? v = some num.text) :
    (j.withParameter place i parameter v).Compares place i k comparison n.val ↔
      num.printed = n.val := by
  obtain ⟨rule, compares⟩ := exists_compares_iff (v := v) (n := n.val) loaded takes named
  rw [compares]
  simp only [shown, Option.some.injEq, exists_eq_left',
    exists_checkedConstraint_iff (AbiType.wellFormed_of_ofName named) integer legal]

/-- **Which integers bound exactly what they are.** Let a document be read, and let a rule of
it take a parameter for a type of integers. With any integer of the type as that parameter in
quotes, the document is read too, and the rule compares with that integer. Its digits alone
are a number of a document, and with them this is so exactly if that number is printed as the
same integer. It always is within 64 bits; beyond, only where the integer is a multiple of a
hundred. -/
theorem integer_parameter_exact_iff (loaded : ofDocument j = .ok r)
    (takes : j.Takes place i k comparison parameter)
    (named : AbiType.ofName place.typeName = .ok (.number type)) (integer : type.IsInteger)
    (legal : type.Legal n) (given : v.Gives n.val) :
    (∃ num, Json.Number.ofInteger? n.val = some num) ∧
    ((j.withParameter place i parameter v).Compares place i k comparison n.val ↔
      ∀ num, v = .number num → num.printed = n.val) ∧
    (-(2 ^ 63) ≤ n.val → n.val < 2 ^ 64 →
      (j.withParameter place i parameter v).Compares place i k comparison n.val) ∧
    (n.val < -(2 ^ 63) ∨ 2 ^ 64 ≤ n.val → ∀ num, v = .number num →
      (j.withParameter place i parameter v).Compares place i k comparison n.val →
      100 ∣ n.val) := by
  have exact_iff : (j.withParameter place i parameter v).Compares place i k comparison n.val ↔
      ∀ num, v = .number num → num.printed = n.val := by
    cases given with
    | quoted =>
      rw [compares_iff_printed loaded takes named integer legal rfl]
      exact ⟨fun _ num other => (nomatch other), fun _ => rfl⟩
    | token =>
      rw [compares_iff_printed loaded takes named integer legal rfl]
      simp only [Json.number.injEq, forall_eq']
  refine ⟨Json.Number.exists_ofInteger? n, exact_iff, fun least most => exact_iff.2 ?_, ?_⟩
  · rintro num rfl
    cases given with
    | token held =>
      rw [Json.Number.ofInteger?_of_word least most] at held
      obtain rfl := Option.some.inj held
      rfl
  · rintro beyond num rfl compares
    cases given with
    | token held =>
      exact Json.Number.hundred_dvd_of_printed held beyond (exact_iff.1 compares num rfl)

/-- A document with one rule for the integers of 256 bits. -/
def wide : Json := .object [("C", .object [("f", .object [("uint256", onlyThree)])])]

theorem takes_wide : wide.Takes ⟨"C", "f", "uint256"⟩ 0 0 .equal "value" :=
  ⟨_, _, _, _, _, rfl, rfl, rfl, rfl, rfl, rfl⟩

theorem integer_parameter_exact_iff_quoted :
    (wide.withParameter ⟨"C", "f", "uint256"⟩ 0 "value" (.string "18446744073709551617")).Compares
      ⟨"C", "f", "uint256"⟩ 0 0 .equal 18446744073709551617 := by
  have loaded : ∃ r, ofDocument wide = .ok r := ⟨_, rfl⟩
  obtain ⟨r, loaded⟩ := loaded
  have named : AbiType.ofName "uint256" = .ok (.number (.uint 256)) := rfl
  have legal : NumberType.Legal (.uint 256) ⟨18446744073709551617, by decide⟩ := by
    constructor <;> decide
  have given : (Json.string "18446744073709551617").Gives 18446744073709551617 := .quoted
  exact (integer_parameter_exact_iff loaded takes_wide named trivial legal given).2.1.2 nofun

/-- The digits of an integer just beyond 64 bits are read as the double 2^64, and what is
printed of that is another integer. -/
theorem wide_token_rounded :
    ∃ num, Json.Number.ofInteger? 18446744073709551617 = some num ∧
      (wide.withParameter ⟨"C", "f", "uint256"⟩ 0 "value" (.number num)).Compares
        ⟨"C", "f", "uint256"⟩ 0 0 .equal 18446744073709552000 ∧
      ¬ (wide.withParameter ⟨"C", "f", "uint256"⟩ 0 "value" (.number num)).Compares
        ⟨"C", "f", "uint256"⟩ 0 0 .equal 18446744073709551617 := by
  have held : Json.Number.ofInteger? 18446744073709551617 =
      some (.real ⟨false, 2 ^ 52, 12⟩) := by decide +kernel
  have shortest : Binary64.shortest ⟨false, 2 ^ 52, 12⟩ = ⟨18446744073709552, 3⟩ := by
    decide +kernel
  have printed : (Json.Number.real ⟨false, 2 ^ 52, 12⟩).printed = 18446744073709552000 := by
    norm_num [Json.Number.printed, shortest, Binary64.Decimal.value]
  have loaded : ∃ r, ofDocument wide = .ok r := ⟨_, rfl⟩
  obtain ⟨r, loaded⟩ := loaded
  have named : AbiType.ofName "uint256" = .ok (.number (.uint 256)) := rfl
  have compares {n : Scalar} (legal : NumberType.Legal (.uint 256) n) :
      (wide.withParameter ⟨"C", "f", "uint256"⟩ 0 "value"
          (.number (.real ⟨false, 2 ^ 52, 12⟩))).Compares
        ⟨"C", "f", "uint256"⟩ 0 0 .equal n.val ↔ (18446744073709552000 : ℚ) = n.val := by
    rw [compares_iff_printed loaded takes_wide named trivial legal rfl, printed]
  refine ⟨_, held, ?_, ?_⟩
  · refine (compares (n := ⟨18446744073709552000, by decide⟩) (by constructor <;> decide)).2 ?_
    norm_num
  · intro same
    have equal :=
      (compares (n := ⟨18446744073709551617, by decide⟩) (by constructor <;> decide)).1 same
    norm_num at equal

end Bounds

end RuleBook

end GuardedCalls
