/-
GuardedCalls.Proofs.RuleReadingTheorems — when a rule file is read, level by
level.

A document is an object of contracts, these are objects of functions, and so on
down to the parameters of a rule. At each level it is read if all that it
contains is read, which has nothing to do with the place where it stands but for
the errors. So a change at one place matters for what is read there only.

* `Json.each_alter_iff` — after a change under one key, a condition on all members is one
  on the changed member.
* `exists_ofDocument_iff` — a document is read if each of its entries is.
* `Pointwise` — lists that are related item by item; what `mapM` does is one of these
  relations (`mapM_eq_ok_iff`), and so are a list of rules and the bounds of a rule.
* `readRule_eq_ok_iff`, `reads_iff` — what a rule and an entry are read as.
-/
import GuardedCalls.Proofs.RuleReachTheorems

namespace GuardedCalls

namespace Json

/-! ## Levels of a document -/

section Levels

variable {j value : Json} {key other : String} {f : Json → Json}

theorem lookup?_eq_get? (key : String) (members : List (String × Json)) :
    lookup? key members = Table.get? key members := by
  induction members with
  | nil => rfl
  | cons m rest ih =>
    rw [Table.get?, ← ih, lookup?, lookup?]
    by_cases here : m.1 = key <;> simp [here]

/-- What is looked up in a document as it is read is what the document has last. -/
theorem lookup?_of_members? {members : List (String × Json)}
    (known : j.canonical.members? = some members) (key : String) :
    lookup? key members = (j.last? key).map canonical := by
  cases j with
  | object given =>
    simp only [canonical, members?, Option.some.injEq] at known
    rw [← known, lookup?_eq_get?, get?_canonicalMembers]
    rfl
  | _ => cases known

theorem canonicalItems_eq (items : List Json) : canonicalItems items = items.map canonical := by
  induction items with
  | nil => rfl
  | cons j items ih => rw [canonicalItems, ih, List.map_cons]

/-- The document is an object. -/
def isObject : Json → Bool
  | .object _ => true
  | _ => false

/-- The document is an object, and each of its members is as said. -/
def Each (P : String → Json → Prop) (j : Json) : Prop :=
  j.isObject = true ∧ ∀ key value, j.last? key = some value → P key value

theorem isObject_iff : j.isObject = true ↔ ∃ members, j.canonical.members? = some members := by
  cases j <;> simp [isObject, canonical, members?]

theorem isObject_of_last? (found : j.last? key = some value) : j.isObject = true := by
  cases j with
  | object members => rfl
  | _ => cases found

/-! ## Changes of a document -/

/-- The document with a change of what stands under a key. -/
def alter (key : String) (f : Json → Json) : Json → Json
  | .object members => .object (members.map fun m => if m.1 = key then (m.1, f m.2) else m)
  | j => j

/-- The document with a change of one item of an array. -/
def alterItem (i : ℕ) (f : Json → Json) : Json → Json
  | .array items => .array (items.modify i f)
  | j => j

@[simp] theorem isObject_alter : (j.alter key f).isObject = j.isObject := by
  cases j <;> rfl

theorem last?_alter :
    (j.alter key f).last? other = if other = key then (j.last? other).map f else j.last? other := by
  cases j with
  | object members =>
    simp only [alter, last?, ← List.map_reverse]
    generalize members.reverse = members
    induction members with
    | nil => simp [lookup?]
    | cons m rest ih =>
      simp only [lookup?_eq_get?, List.map_cons, Table.get?] at ih ⊢
      by_cases same : other = key
      · by_cases here : m.1 = key <;> simp_all
      · by_cases here : m.1 = key
        · simp_all [Ne.symm same]
        · by_cases there : m.1 = other <;> simp_all
  | _ => simp [alter, last?]

theorem last?_alter_self : (j.alter key f).last? key = (j.last? key).map f := by
  rw [last?_alter, if_pos rfl]

theorem last?_alter_of_ne (h : other ≠ key) : (j.alter key f).last? other = j.last? other := by
  rw [last?_alter, if_neg h]

/-- After a change at a key, each member is as said if this one is. -/
theorem each_alter_iff {P : String → Json → Prop} (each : j.Each P)
    (found : j.last? key = some value) : (j.alter key f).Each P ↔ P key (f value) := by
  constructor
  · intro changed
    exact changed.2 key _ (by rw [last?_alter_self, found, Option.map_some])
  · intro holds
    refine ⟨by rw [isObject_alter, each.1], fun other value' found' => ?_⟩
    by_cases here : other = key
    · subst here
      rw [last?_alter_self, found, Option.map_some, Option.some.injEq] at found'
      exact found' ▸ holds
    · rw [last?_alter_of_ne here] at found'
      exact each.2 other value' found'

end Levels

end Json

namespace RuleBook

open Json (Each)

/-! ## What is read -/

section Reading

variable {j : Json} {path : String}

/-- All items are read if each of them is. -/
theorem exists_mapM_iff {ε α β : Type} {f : α → Except ε β} {l : List α} :
    (∃ l', l.mapM f = .ok l') ↔ ∀ a ∈ l, ∃ b, f a = .ok b := by
  constructor
  · rintro ⟨l', run⟩ a ha
    obtain ⟨b, -, read⟩ := exists_of_mapM run ha
    exact ⟨b, read⟩
  · intro each
    induction l with
    | nil => exact ⟨[], rfl⟩
    | cons a l ih =>
      obtain ⟨b, read⟩ := each a List.mem_cons_self
      obtain ⟨l', run⟩ := ih fun a' ha' => each a' (List.mem_cons_of_mem a ha')
      exact ⟨b :: l', by rw [List.mapM_cons, read, run]; rfl⟩

theorem bind_eq_ok_iff {ε α β : Type} {m : Except ε α} {f : α → Except ε β} {b : β} :
    m >>= f = .ok b ↔ ∃ a, m = .ok a ∧ f a = .ok b := by
  refine ⟨exists_of_bind_eq_ok, ?_⟩
  rintro ⟨a, rfl, rest⟩
  exact rest

theorem exists_bind_iff {ε α β : Type} {m : Except ε α} {f : α → Except ε β} :
    (∃ b, m >>= f = .ok b) ↔ ∃ a, m = .ok a ∧ ∃ b, f a = .ok b := by
  simp only [bind_eq_ok_iff]
  exact ⟨fun ⟨b, a, first, rest⟩ => ⟨a, first, b, rest⟩,
    fun ⟨a, first, b, rest⟩ => ⟨b, a, first, rest⟩⟩

theorem membersAt_eq_ok_iff {members : List (String × Json)} :
    membersAt path j = .ok members ↔ j.members? = some members := by
  unfold membersAt
  split <;> simp_all

/-- A level is read if it is an object and each of its members is read. -/
theorem exists_level_iff {β : Type} {read : String × Json → Except InvalidRule β} :
    (∃ results, membersAt path j.canonical >>= (·.mapM read) = .ok results) ↔
      j.Each fun key value => ∃ b, read (key, value.canonical) = .ok b := by
  simp only [exists_bind_iff, membersAt_eq_ok_iff, exists_mapM_iff, Each, Json.isObject_iff]
  constructor
  · rintro ⟨members, known, all⟩
    exact ⟨⟨members, known⟩, fun key value found =>
      all _ ((Json.mem_members_iff known).2 ⟨value, found, rfl⟩)⟩
  · rintro ⟨⟨members, known⟩, each⟩
    refine ⟨members, known, fun m hm => ?_⟩
    obtain ⟨raw, found, same⟩ := (Json.mem_members_iff known).1 (show (m.1, m.2) ∈ members from hm)
    obtain ⟨b, read⟩ := each m.1 raw found
    exact ⟨b, by rw [← read, ← same]⟩

theorem exists_pure_bind_iff {ε α β : Type} {m : Except ε α} {g : α → β} :
    (∃ b, (m >>= fun a => pure (g a)) = .ok b) ↔ ∃ a, m = .ok a := by
  rw [exists_bind_iff]
  exact exists_congr fun a => and_iff_left ⟨g a, rfl⟩

/-- So is a level whose results are put together. -/
theorem exists_parts_iff {β γ : Type} {read : String × Json → Except InvalidRule β}
    {g : List β → γ} :
    (∃ c, (do return g (← (← membersAt path j.canonical).mapM read)) = Except.ok c) ↔
      j.Each fun key value => ∃ b, read (key, value.canonical) = .ok b := by
  have together : (do return g (← (← membersAt path j.canonical).mapM read)) =
      (membersAt path j.canonical >>= (·.mapM read)) >>= fun results => pure (g results) :=
    (bind_assoc _ _ _).symm
  rw [together, exists_pure_bind_iff, exists_level_iff]

/-- A document is read if it is an object of objects of objects, and each entry is read. -/
theorem exists_ofDocument_iff :
    (∃ r, ofDocument j = .ok r) ↔
      j.Each fun contract functions => functions.Each fun function types =>
        types.Each fun typeName value =>
          ∃ entry, Reads (⟨contract, function, typeName⟩, value) entry := by
  unfold ofDocument
  rw [exists_parts_iff]
  unfold readFunctions
  simp only [exists_parts_iff]
  unfold readTypes
  simp only [exists_level_iff, exists_pure_bind_iff]
  rfl

end Reading

/-! ## Lists that are read item by item -/

section Pointwise

variable {α β ε : Type} {R : ℕ → α → β → Prop} {l : List α} {l' : List β} {a : α} {b : β} {i : ℕ}

theorem rel_imp {R S : α → β → Prop} {a : Option α} {b : Option β} (h : Option.Rel R a b)
    (imp : ∀ x ∈ a, ∀ y, R x y → S x y) : Option.Rel S a b := by
  cases h with
  | none => exact .none
  | some related => exact .some (imp _ rfl _ related)

/-- Two lists are as long as each other, and related at each place. -/
def Pointwise (R : ℕ → α → β → Prop) (l : List α) (l' : List β) : Prop :=
  ∀ i, Option.Rel (R i) l[i]? l'[i]?

theorem pointwise_nil_iff : Pointwise R [] l' ↔ l' = [] := by
  constructor
  · intro related
    cases l' with
    | nil => rfl
    | cons b l' => cases related 0
  · rintro rfl i
    exact .none

theorem pointwise_cons_iff :
    Pointwise R (a :: l) l' ↔
      ∃ b rest, R 0 a b ∧ Pointwise (fun i => R (i + 1)) l rest ∧ l' = b :: rest := by
  constructor
  · intro related
    cases l' with
    | nil => cases related 0
    | cons b rest =>
      have first : R 0 a b := by
        cases related 0 with
        | some first => exact first
      exact ⟨b, rest, first, fun i => related (i + 1), rfl⟩
  · rintro ⟨b, rest, first, related, rfl⟩ i
    cases i with
    | zero => exact .some first
    | succ i => exact related i

/-- What is related to an item stands where the item stands. -/
theorem Pointwise.get (h : Pointwise R l l') (here : l[i]? = some a) :
    ∃ b, l'[i]? = some b ∧ R i a b := by
  have related := h i
  rw [here] at related
  generalize l'[i]? = found at related ⊢
  cases related with
  | some related => exact ⟨_, rfl, related⟩

/-- Where one item is changed and still related to something, the lists can be. -/
theorem Pointwise.change (h : Pointwise R l l') {f : α → α} (here : l[i]? = some a)
    (changed : R i (f a) b) : Pointwise R (l.modify i f) (l'.set i b) := by
  intro n
  by_cases same : n = i
  · subst same
    obtain ⟨old, held, -⟩ := h.get here
    obtain ⟨inside, -⟩ := List.getElem?_eq_some_iff.1 held
    rw [List.getElem?_modify_eq, here, List.getElem?_set_self inside]
    exact .some changed
  · rw [List.getElem?_modify_ne _ _ (Ne.symm same), List.getElem?_set_ne (Ne.symm same)]
    exact h n

theorem pointwise_map_iff {γ : Type} {g : γ → α} {l : List γ} :
    Pointwise R (l.map g) l' ↔ Pointwise (fun i c b => R i (g c) b) l l' := by
  refine forall_congr' fun i => ?_
  rw [List.getElem?_map]
  generalize l[i]? = a, l'[i]? = b
  constructor
  · intro related
    cases a with
    | none =>
      cases related
      exact .none
    | some a =>
      cases related with
      | some related => exact .some related
  · intro related
    cases related with
    | none => exact .none
    | some related => exact .some related

/-- What is related over a list in between is related. -/
theorem pointwise_comp {γ : Type} {A : ℕ → α → γ → Prop} {B : ℕ → γ → β → Prop} :
    (∃ m, Pointwise A l m ∧ Pointwise B m l') ↔
      Pointwise (fun i a b => ∃ c, A i a c ∧ B i c b) l l' := by
  induction l generalizing l' A B with
  | nil => simp only [pointwise_nil_iff, exists_eq_left]
  | cons a l ih =>
    simp only [pointwise_cons_iff, ← ih]
    constructor
    · rintro ⟨m, ⟨c, cs, first, rest, rfl⟩, related⟩
      obtain ⟨b, bs, second, others, rfl⟩ := pointwise_cons_iff.1 related
      exact ⟨b, bs, ⟨c, first, second⟩, ⟨cs, rest, others⟩, rfl⟩
    · rintro ⟨b, bs, ⟨c, first, second⟩, ⟨cs, rest, others⟩, rfl⟩
      exact ⟨c :: cs, ⟨c, cs, first, rest, rfl⟩, pointwise_cons_iff.2 ⟨b, bs, second, others, rfl⟩⟩

theorem mapM_eq_ok_iff {f : α → Except ε β} :
    l.mapM f = .ok l' ↔ Pointwise (fun _ a b => f a = .ok b) l l' := by
  induction l generalizing l' with
  | nil =>
    rw [pointwise_nil_iff, List.mapM_nil, eq_comm]
    exact ⟨fun same => Except.ok.inj same.symm ▸ rfl, fun same => same ▸ rfl⟩
  | cons a l ih =>
    simp only [pointwise_cons_iff, ← ih, List.mapM_cons]
    constructor
    · intro run
      obtain ⟨b, first, run⟩ := exists_of_bind_eq_ok run
      obtain ⟨rest, others, same⟩ := exists_of_bind_eq_ok run
      exact ⟨b, rest, first, others, (Except.ok.inj same).symm⟩
    · rintro ⟨b, rest, first, others, rfl⟩
      rw [first, others]
      rfl

end Pointwise

/-! ## Rules and entries -/

section Rules

variable {type : AbiType} {path : String} {js : List Json} {rules : List Rule} {k : ℕ}

/-- The place of a rule, as errors name it. -/
def ruleAt (path : String) (i : ℕ) : String := path ++ ".rules[" ++ Nat.repr i ++ "]"

theorem readRules_eq_ok_iff :
    readRules type path k js = .ok rules ↔
      Pointwise (fun i j rule => readRule type (ruleAt path (k + i)) j = .ok rule) js rules := by
  induction js generalizing k rules with
  | nil =>
    rw [pointwise_nil_iff, readRules, eq_comm]
    exact ⟨fun same => Except.ok.inj same.symm ▸ rfl, fun same => same ▸ rfl⟩
  | cons j js ih =>
    simp only [pointwise_cons_iff, Nat.add_zero, readRules]
    have next (rest : List Rule) := @ih rest (k + 1)
    simp only [Nat.add_assoc, Nat.add_comm 1] at next
    simp only [← next]
    constructor
    · intro run
      obtain ⟨rule, first, run⟩ := exists_of_bind_eq_ok run
      obtain ⟨rest, others, same⟩ := exists_of_bind_eq_ok run
      exact ⟨rule, rest, first, others, (Except.ok.inj same).symm⟩
    · rintro ⟨rule, rest, first, others, rfl⟩
      have first : readRule type (path ++ ".rules[" ++ Nat.repr k ++ "]") j = .ok rule := first
      rw [first, others]
      rfl

end Rules

/-- The text of a parameter, if it is one that has a text. -/
def scalarText? : Json → Option String
  | .number n => some n.text
  | .string s => some s
  | .bool b => some (if b then "true" else "false")
  | _ => none

section Entries

variable {type : AbiType} {path rule parameter text : String} {j value : Json}
  {members : List (String × Json)} {r : Rule} {place : RulePlace} {entry : RuleEntry}

theorem parameterText_eq_ok_iff (known : j.canonical.members? = some members) :
    parameterText path rule members parameter = .ok text ↔
      ∃ v, j.last? parameter = some v ∧ scalarText? v = some text := by
  unfold parameterText
  rw [Json.lookup?_of_members? known]
  cases j.last? parameter with
  | none => simp
  | some v => cases v <;> simp [Json.canonical, scalarText?]

/-- A constraint is what a part of a rule comes to. -/
def Bounds (type : AbiType) (path rule : String) (j : Json) (part : Comparison × String)
    (c : Constraint) : Prop :=
  ∃ text, (∃ v, j.last? part.2 = some v ∧ scalarText? v = some text) ∧
    checkedConstraint path rule type part.1 text = .ok c

theorem textOf?_eq_some_iff (known : j.canonical.members? = some members) {key : String} :
    textOf? key members = some text ↔ j.last? key = some (.string text) := by
  unfold textOf?
  rw [Json.lookup?_of_members? known]
  cases j.last? key with
  | none => simp
  | some v => cases v <;> simp [Json.canonical]

/-- The parts of a rule are read one after another, and then each is checked. -/
theorem parts_iff_pointwise (known : j.canonical.members? = some members)
    {comparisons : List (Comparison × String)} {constraints : List Constraint} :
    (∃ parts, (comparisons.mapM fun (part : Comparison × String) => do
          return (part.1, ← parameterText path rule members part.2)) = Except.ok parts ∧
        (parts.mapM fun (part : Comparison × String) =>
          checkedConstraint path rule type part.1 part.2) = .ok constraints) ↔
      Pointwise (fun _ => Bounds type path rule j) comparisons constraints := by
  have each (part : Comparison × String) (c : Constraint) :
      (∃ found : Comparison × String, (do
          return (part.1, ← parameterText path rule members part.2)) = Except.ok found ∧
        checkedConstraint path rule type found.1 found.2 = .ok c) ↔
      Bounds type path rule j part c := by
    simp only [bind_eq_ok_iff, parameterText_eq_ok_iff known, Bounds]
    constructor
    · rintro ⟨found, ⟨text, given, same⟩, checked⟩
      obtain rfl := Except.ok.inj same
      exact ⟨text, given, checked⟩
    · rintro ⟨text, given, checked⟩
      exact ⟨_, ⟨text, given, rfl⟩, checked⟩
  simp only [mapM_eq_ok_iff, pointwise_comp, each]

/-- A rule is read if its kind is known and each part of it comes to a constraint. -/
theorem readRule_eq_ok_iff :
    readRule type path j.canonical = .ok r ↔
      ∃ comparisons, j.last? "rule-type" = some (.string r.name) ∧
        comparisonsOf? r.name = some comparisons ∧
        Pointwise (fun _ => Bounds type path r.name j) comparisons r.constraints := by
  constructor
  · intro read
    obtain ⟨members, level, read⟩ := exists_of_bind_eq_ok read
    have known := membersAt_eq_ok_iff.1 level
    split at read
    · cases read
    next rule kind =>
    split at read
    · cases read
    next comparisons known' =>
    obtain ⟨parts, texts, read⟩ := exists_of_bind_eq_ok read
    obtain ⟨constraints, checks, read⟩ := exists_of_bind_eq_ok read
    cases read
    exact ⟨comparisons, (textOf?_eq_some_iff known).1 kind, known',
      (parts_iff_pointwise known).1 ⟨parts, texts, checks⟩⟩
  · rintro ⟨comparisons, kind, known', related⟩
    obtain ⟨members, known⟩ := Json.isObject_iff.1 (Json.isObject_of_last? kind)
    obtain ⟨parts, texts, checks⟩ := (parts_iff_pointwise known).2 related
    refine bind_eq_ok_iff.2 ⟨members, membersAt_eq_ok_iff.2 known, ?_⟩
    simp only [(textOf?_eq_some_iff known).2 kind, known']
    exact bind_eq_ok_iff.2 ⟨parts, texts, bind_eq_ok_iff.2 ⟨r.constraints, checks, rfl⟩⟩

/-- An entry is read if its type is known, its rules are read and so is its selector. -/
theorem reads_iff :
    Reads (place, value) entry ↔
      AbiType.ofName place.typeName = .ok entry.type ∧
      readSelection (place.path ++ ".selector") ((value.last? "selector").map Json.canonical) =
        .ok entry.selection ∧
      ∃ items, value.last? "rules" = some (.array items) ∧
        Pointwise (fun i item rule =>
          readRule entry.type (ruleAt place.path i) item.canonical = .ok rule)
          items entry.rules := by
  have all (items : List Json) (type : AbiType) (rules : List Rule) :
      readRules type place.path 0 (items.map Json.canonical) = .ok rules ↔
        Pointwise (fun i item rule =>
          readRule type (ruleAt place.path i) item.canonical = .ok rule) items rules := by
    simp only [readRules_eq_ok_iff, pointwise_map_iff, Nat.zero_add]
  simp only [← all]
  unfold Reads
  constructor
  · intro read
    unfold readEntry at read
    split at read
    · cases read
    next type named =>
    obtain ⟨members, level, read⟩ := exists_of_bind_eq_ok read
    have known := membersAt_eq_ok_iff.1 level
    rw [Json.lookup?_of_members? known, Json.lookup?_of_members? known] at read
    split at read
    · cases read
    · next items array =>
      obtain ⟨selection, selector, read⟩ := exists_of_bind_eq_ok read
      obtain ⟨rules, each, read⟩ := exists_of_bind_eq_ok read
      cases read
      obtain ⟨raw, found, same⟩ := Option.map_eq_some_iff.1 array
      cases raw with
      | array items' =>
        rw [Json.canonical, Json.canonicalItems_eq] at same
        cases same
        exact ⟨named, selector, items', found, each⟩
      | _ => cases same
    · cases read
  · rintro ⟨named, selector, items, found, each⟩
    obtain ⟨members, known⟩ := Json.isObject_iff.1 (Json.isObject_of_last? found)
    unfold readEntry
    simp only [named]
    refine bind_eq_ok_iff.2 ⟨members, membersAt_eq_ok_iff.2 known, ?_⟩
    simp only [Json.lookup?_of_members? known, found, Option.map_some, Json.canonical,
      Json.canonicalItems_eq]
    exact bind_eq_ok_iff.2 ⟨entry.selection, selector, bind_eq_ok_iff.2 ⟨entry.rules, each, rfl⟩⟩

end Entries

end RuleBook

end GuardedCalls
