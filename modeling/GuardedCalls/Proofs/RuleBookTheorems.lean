/-
GuardedCalls.Proofs.RuleBookTheorems — what a rule book holds that was read from
a document.

Each constraint is checked against its type when the document is read, so
nothing is left to go wrong when the rules are applied but that they leave no
value.

* `Constraint.Checked` — values of the type honour the constraint, and its bound
  is a literal that is a number of the type.
* `RuleBook.Checked` — each entry stands under a name of its type, and its
  constraints are checked against that type. `checked_of_ofDocument` says that
  it holds of every book that a document gives; the lemmas before it follow the
  reader from a constraint up to the whole document.
* `Checked.lookup?` — the entry that is found for a type is one of that type.
-/
import GuardedCalls.Proofs.TableTheorems
import GuardedCalls.Proofs.TypeNameTheorems
import GuardedCalls.Rules.Reader

namespace GuardedCalls

/-- What has passed the checks of a rule file for a type. -/
structure Constraint.Checked (type : AbiType) (c : Constraint) : Prop where
  honoured : c.appliesTo type = true
  literal : ∃ text v, c.bound = .literal text none ∧
    Scalar.ofLiteral text none type.decimals = .ok v ∧ RuleBook.inRange type v = true

/-- A checked constraint reads nothing from state. -/
theorem Constraint.Checked.readsState_eq {type : AbiType} {c : Constraint}
    (h : c.Checked type) : c.bound.readsState = false := by
  obtain ⟨text, v, bound, -⟩ := h.literal
  rw [bound]
  rfl

/-- Two steps succeed when the first does and then the second. -/
theorem exists_of_bind_eq_ok {ε α β : Type} {m : Except ε α} {f : α → Except ε β} {b : β}
    (h : (m >>= f) = .ok b) : ∃ a, m = .ok a ∧ f a = .ok b := by
  cases m with
  | error e => cases h
  | ok a => exact ⟨a, rfl, h⟩

/-- What a step gives for each item, it gives for one of them. -/
theorem exists_of_mem_mapM {ε α β : Type} {f : α → Except ε β} {l : List α} {l' : List β}
    (h : l.mapM f = .ok l') {b : β} (hb : b ∈ l') : ∃ a ∈ l, f a = .ok b := by
  induction l generalizing l' with
  | nil =>
    cases h
    cases hb
  | cons a l ih =>
    rw [List.mapM_cons] at h
    obtain ⟨first, run, h⟩ := exists_of_bind_eq_ok h
    obtain ⟨others, runs, h⟩ := exists_of_bind_eq_ok h
    cases h
    rcases List.mem_cons.1 hb with rfl | later
    · exact ⟨a, List.mem_cons_self, run⟩
    · obtain ⟨a', ha', run'⟩ := ih runs later
      exact ⟨a', List.mem_cons_of_mem a ha', run'⟩

/-- A step that succeeds for all items gives one result for each. -/
theorem exists_of_mapM {ε α β : Type} {f : α → Except ε β} {l : List α} {l' : List β}
    (h : l.mapM f = .ok l') {a : α} (ha : a ∈ l) : ∃ b ∈ l', f a = .ok b := by
  induction l generalizing l' with
  | nil => cases ha
  | cons first l ih =>
    rw [List.mapM_cons] at h
    obtain ⟨b, run, h⟩ := exists_of_bind_eq_ok h
    obtain ⟨others, runs, h⟩ := exists_of_bind_eq_ok h
    cases h
    rcases List.mem_cons.1 ha with rfl | later
    · exact ⟨b, List.mem_cons_self, run⟩
    · obtain ⟨b', hb', run'⟩ := ih runs later
      exact ⟨b', List.mem_cons_of_mem b hb', run'⟩

namespace RuleBook

/-- Each entry stands under a name of its type, and its constraints are checked
against that type. -/
def EntryChecked (place : RulePlace) (entry : RuleEntry) : Prop :=
  AbiType.ofName place.typeName = .ok entry.type ∧
    ∀ rule ∈ entry.rules, ∀ c ∈ rule.constraints, c.Checked entry.type

/-- All entries are checked. -/
def Checked (r : RuleBook) : Prop := ∀ e ∈ r.entries, EntryChecked e.1 e.2

/-! ## The reader -/

section Reader

variable {path rule text : String} {type : AbiType} {j : Json}

theorem checked_of_checkedConstraint {comparison : Comparison} {c : Constraint}
    (read : checkedConstraint path rule type comparison text = .ok c) : c.Checked type := by
  unfold checkedConstraint at read
  split at read
  · next honoured =>
    split at read
    · cases read
    · next v number =>
      split at read
      · next inside =>
        cases read
        exact ⟨honoured, text, v, rfl, number, inside⟩
      · cases read
  · cases read

theorem checked_of_readRule {r : Rule} (read : readRule type path j = .ok r) :
    ∀ c ∈ r.constraints, c.Checked type := by
  unfold readRule at read
  obtain ⟨members, -, read⟩ := exists_of_bind_eq_ok read
  split at read
  · cases read
  · split at read
    · cases read
    · obtain ⟨parts, -, read⟩ := exists_of_bind_eq_ok read
      obtain ⟨constraints, checks, read⟩ := exists_of_bind_eq_ok read
      cases read
      intro c hc
      obtain ⟨⟨comparison, text⟩, -, checked⟩ := exists_of_mem_mapM checks hc
      exact checked_of_checkedConstraint checked

theorem checked_of_readRules {js : List Json} {i : Nat} {rules : List Rule}
    (read : readRules type path i js = .ok rules) :
    ∀ rule ∈ rules, ∀ c ∈ rule.constraints, c.Checked type := by
  induction js generalizing i rules with
  | nil =>
    cases read
    exact List.forall_mem_nil _
  | cons j js ih =>
    unfold readRules at read
    obtain ⟨first, run, read⟩ := exists_of_bind_eq_ok read
    obtain ⟨others, runs, read⟩ := exists_of_bind_eq_ok read
    cases read
    exact List.forall_mem_cons.2 ⟨checked_of_readRule run, ih runs⟩

theorem checked_of_readEntry (place : RulePlace) {entry : RuleEntry}
    (read : readEntry path place.typeName j = .ok entry) : EntryChecked place entry := by
  unfold readEntry at read
  split at read
  · cases read
  · next type named =>
    obtain ⟨members, -, read⟩ := exists_of_bind_eq_ok read
    split at read
    · cases read
    · obtain ⟨selection, -, read⟩ := exists_of_bind_eq_ok read
      obtain ⟨rules, checks, read⟩ := exists_of_bind_eq_ok read
      cases read
      exact ⟨named, checked_of_readRules checks⟩
    · cases read

theorem checked_of_readTypes {contract function : String}
    {entries : List (RulePlace × RuleEntry)}
    (read : readTypes contract function j = .ok entries) :
    ∀ e ∈ entries, EntryChecked e.1 e.2 := by
  obtain ⟨members, -, read⟩ := exists_of_bind_eq_ok read
  intro e he
  obtain ⟨⟨typeName, json⟩, -, read⟩ := exists_of_mem_mapM read he
  obtain ⟨entry, inner, same⟩ := exists_of_bind_eq_ok read
  cases same
  exact checked_of_readEntry ⟨contract, function, typeName⟩ inner

theorem checked_of_readFunctions {contract : String} {entries : List (RulePlace × RuleEntry)}
    (read : readFunctions contract j = .ok entries) : ∀ e ∈ entries, EntryChecked e.1 e.2 := by
  obtain ⟨members, -, read⟩ := exists_of_bind_eq_ok read
  obtain ⟨parts, reads, read⟩ := exists_of_bind_eq_ok read
  cases read
  intro e he
  obtain ⟨part, hpart, he⟩ := List.mem_flatten.1 he
  obtain ⟨⟨function, json⟩, -, read⟩ := exists_of_mem_mapM reads hpart
  exact checked_of_readTypes read e he

/-- A rule book that a document gives is checked. -/
theorem checked_of_ofDocument {document : Json} {rules : RuleBook}
    (loaded : ofDocument document = .ok rules) : rules.Checked := by
  obtain ⟨members, -, read⟩ := exists_of_bind_eq_ok loaded
  obtain ⟨parts, reads, read⟩ := exists_of_bind_eq_ok read
  cases read
  intro e he
  obtain ⟨part, hpart, he⟩ := List.mem_flatten.1 he
  obtain ⟨⟨contract, json⟩, -, read⟩ := exists_of_mem_mapM reads hpart
  exact checked_of_readFunctions read e he

end Reader

/-! ## Lookups -/

section Lookups

variable {r : RuleBook} {contract function : String} {type : AbiType} {entry : RuleEntry}

/-- What is found stands under one of the names. -/
theorem mem_of_entryFor? {names : List String}
    (found : r.entryFor? contract function names = some entry) :
    ∃ place, (place, entry) ∈ r.entries ∧ place.typeName ∈ names := by
  obtain ⟨contract', -, found⟩ := Option.bind_eq_some_iff.1 found
  obtain ⟨function', -, found⟩ := Option.bind_eq_some_iff.1 found
  obtain ⟨name, known, found⟩ := List.exists_of_findSome?_eq_some found
  exact ⟨⟨contract', function', name⟩, Table.mem_of_get? found, known⟩

theorem mem_of_lookup? (found : r.lookup? contract function type = some entry) :
    ∃ place, (place, entry) ∈ r.entries ∧ place.typeName ∈ type.lookupNames := by
  unfold lookup? at found
  cases own : r.entryFor? contract function type.lookupNames with
  | some entry' =>
    rw [own] at found
    cases found
    exact mem_of_entryFor? own
  | none =>
    rw [own] at found
    exact mem_of_entryFor? found

/-- The rules that apply are rules of the entry. -/
theorem checked_of_mem_constraints {place : RulePlace} (h : EntryChecked place entry)
    {c : Constraint} (hc : c ∈ entry.constraints) : c.Checked entry.type := by
  obtain ⟨rule, chosen, hc⟩ := List.mem_flatMap.1 hc
  refine h.2 rule ?_ c hc
  unfold RuleEntry.chosen at chosen
  split at chosen
  · exact chosen
  · exact List.mem_of_mem_take chosen

/-- What is found for a type is of the type. -/
theorem Checked.lookup? (h : r.Checked) (wf : type.WellFormed)
    (found : r.lookup? contract function type = some entry) :
    entry.type = type ∧ ∀ c ∈ entry.constraints, c.Checked type := by
  obtain ⟨place, known, name⟩ := mem_of_lookup? found
  have checked := h _ known
  obtain rfl : entry.type = type :=
    Except.ok.inj (checked.1.symm.trans (AbiType.ofName_of_mem_lookupNames wf name))
  exact ⟨rfl, fun c hc => checked_of_mem_constraints checked hc⟩

/-- What is found reads nothing from state. -/
theorem Checked.literal_of_lookup? (h : r.Checked)
    (found : r.lookup? contract function type = some entry) :
    ∀ c ∈ entry.constraints, c.bound.readsState = false := by
  obtain ⟨place, known, -⟩ := mem_of_lookup? found
  exact fun c hc => (checked_of_mem_constraints (h _ known) hc).readsState_eq

end Lookups

end RuleBook

end GuardedCalls
