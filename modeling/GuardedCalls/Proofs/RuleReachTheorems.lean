/-
GuardedCalls.Proofs.RuleReachTheorems — which entries of a rule file a lookup
can end at.

An entry stands in a book under the text that the file gives for its type, and
is looked for under the names of the type: the canonical one, then the short one
of a default width. The reader of types takes more texts than these, such as a
width with leading zeros. An entry under one of those is checked and kept like
any other, and hides the wildcards like any other.

* `AlikeOff` — books that hold the same rules but at one place, which both have.
  `AlikeOff.lookup?_eq`: a lookup under other names cannot tell them apart.
* `lookup?_of_hasFunction` — where a function has entries, a lookup comes to its
  entries under the names of the type, then to the wildcard contract.
* `entry_reached_under_lookup_names` — an entry under a name of its type is found, or
  the canonical one beside it is; what any other entry says makes no difference.
-/
import GuardedCalls.Proofs.RuleLookupTheorems

namespace GuardedCalls

namespace RuleBook

/-! ## Books that differ at one place -/

section Alike

variable {r r' : RuleBook} {place : RulePlace} {contract function : String}

/-- Two books have entries at the same places, and but for one place the same ones. -/
structure AlikeOff (place : RulePlace) (r r' : RuleBook) : Prop where
  places : ∀ other, other ∈ r.entries.keys ↔ other ∈ r'.entries.keys
  rules : ∀ other, other ≠ place → r.entries.get? other = r'.entries.get? other

theorem hasContract_iff :
    r.hasContract contract = true ↔ ∃ p ∈ r.entries.keys, p.contract = contract := by
  simp only [hasContract, List.any_eq_true, decide_eq_true_eq, Table.keys, List.mem_map,
    exists_exists_and_eq_and]

theorem hasFunction_iff_keys :
    r.hasFunction contract function = true ↔
      ∃ p ∈ r.entries.keys, p.contract = contract ∧ p.function = function := by
  simp only [hasFunction, List.any_eq_true, decide_eq_true_eq, Table.keys, List.mem_map,
    exists_exists_and_eq_and]

theorem AlikeOff.hasContract_eq (h : AlikeOff place r r') : r.hasContract = r'.hasContract := by
  funext contract
  rw [Bool.eq_iff_iff, hasContract_iff, hasContract_iff]
  simp only [h.places]

theorem AlikeOff.hasFunction_eq (h : AlikeOff place r r') : r.hasFunction = r'.hasFunction := by
  funext contract function
  rw [Bool.eq_iff_iff, hasFunction_iff_keys, hasFunction_iff_keys]
  simp only [h.places]

theorem findSome?_congr {α β : Type} {f g : α → Option β} {l : List α}
    (same : ∀ a ∈ l, f a = g a) : l.findSome? f = l.findSome? g := by
  induction l with
  | nil => rfl
  | cons a l ih =>
    rw [List.findSome?_cons, List.findSome?_cons, same a List.mem_cons_self,
      ih fun b hb => same b (List.mem_cons_of_mem a hb)]

/-- The levels above are alike, and no name leads to the place where the books differ. -/
theorem AlikeOff.entryFor?_eq (h : AlikeOff place r r') {names : List String}
    (other : place.typeName ∉ names) (contract function : String) :
    r.entryFor? contract function names = r'.entryFor? contract function names := by
  rw [RuleBook.entryFor?_eq, RuleBook.entryFor?_eq, h.hasContract_eq]
  refine Option.bind_congr fun contract _ => ?_
  unfold entryIn?
  rw [h.hasFunction_eq]
  refine Option.bind_congr fun function _ => findSome?_congr fun name hname => h.rules _ ?_
  rintro rfl
  exact other hname

theorem AlikeOff.lookup?_eq (h : AlikeOff place r r') {type : AbiType}
    (other : place.typeName ∉ type.lookupNames) (contract function : String) :
    r.lookup? contract function type = r'.lookup? contract function type := by
  unfold lookup?
  rw [h.entryFor?_eq other, h.entryFor?_eq other]

end Alike

/-! ## From the document to its entries -/

section Document

variable {j j' : Json} {r r' : RuleBook} {place : RulePlace} {value : Json}

/-- What a document says at a place is held there. -/
theorem get?_entries_of_entryAt? (loaded : ofDocument j = .ok r)
    (declared : j.entryAt? place = some value) :
    ∃ entry, r.entries.get? place = some entry ∧ Reads (place, value) entry := by
  have related := get?_entries loaded place
  rw [declared, Option.map_some] at related
  generalize r.entries.get? place = held at related ⊢
  cases related with
  | some reads => exact ⟨_, rfl, reads⟩

/-- A book has an entry at each place where its document has one. -/
theorem mem_keys_entries_iff (loaded : ofDocument j = .ok r) :
    place ∈ r.entries.keys ↔ (j.entryAt? place).isSome := by
  rw [Table.mem_keys_iff, Option.isSome_iff_exists, Option.isSome_iff_exists]
  constructor
  · rintro ⟨entry, held⟩
    obtain ⟨value, found, -⟩ := (mem_entries_iff loaded).1 (Table.mem_of_get? held)
    exact ⟨value, found⟩
  · rintro ⟨value, found⟩
    obtain ⟨entry, held, -⟩ := get?_entries_of_entryAt? loaded found
    exact ⟨entry, held⟩

/-- A part of a document says one thing at most. -/
theorem eq_of_rel_reads {part : Option (RulePlace × Json)} {a b : Option RuleEntry}
    (first : Option.Rel Reads part a) (second : Option.Rel Reads part b) : a = b := by
  cases first with
  | none =>
    cases second
    rfl
  | some reads =>
    cases second with
    | some reads' => exact congrArg some (Except.ok.inj (reads.symm.trans reads'))

/-- Documents that say the same but at one place give books that do. -/
theorem alikeOff_of_documents (loaded : ofDocument j = .ok r) (loaded' : ofDocument j' = .ok r')
    (declared : (j.entryAt? place).isSome) (declared' : (j'.entryAt? place).isSome)
    (same : ∀ other, other ≠ place → j.entryAt? other = j'.entryAt? other) :
    AlikeOff place r r' where
  places other := by
    rw [mem_keys_entries_iff loaded, mem_keys_entries_iff loaded']
    by_cases here : other = place
    · rw [here, declared, declared']
    · rw [same other here]
  rules other off := by
    have first := get?_entries loaded other
    rw [same other off] at first
    exact eq_of_rel_reads first (get?_entries loaded' other)

/-- Where a function has entries, no wildcard function and no wildcard contract stands in
for it: its entries are searched by name, and the wildcard contract after them. -/
theorem lookup?_of_hasFunction (type : AbiType)
    (known : r.hasFunction place.contract place.function = true) :
    r.lookup? place.contract place.function type =
      (type.lookupNames.findSome? fun name =>
          r.entries.get? { place with typeName := name }).or
        (r.lookup? wildcard place.function type) := by
  rw [lookup?_eq, lookup?_eq, Option.or_self]
  simp [entryIn?, orWildcard?, known]

theorem hasFunction_of_entryAt? (loaded : ofDocument j = .ok r)
    (declared : j.entryAt? place = some value) :
    r.hasFunction place.contract place.function = true := by
  refine hasFunction_iff_keys.2 ⟨place, (mem_keys_entries_iff loaded).2 ?_, rfl, rfl⟩
  rw [declared, Option.isSome_some]

/-- An entry under a name of its type is found for the type, unless it stands under the
short name and the canonical one beside it has an entry too: then that one is. -/
theorem lookup?_of_mem_lookupNames (loaded : ofDocument j = .ok r)
    (declared : j.entryAt? place = some value) {type : AbiType}
    (named : place.typeName ∈ type.lookupNames) :
    ∃ name value' found,
      (name = type.name ∨
        name = place.typeName ∧ j.entryAt? { place with typeName := type.name } = none) ∧
      j.entryAt? { place with typeName := name } = some value' ∧
      Reads ({ place with typeName := name }, value') found ∧
      r.lookup? place.contract place.function type = some found := by
  have known := hasFunction_of_entryAt? loaded declared
  rw [lookup?_of_hasFunction type known, AbiType.lookupNames, List.findSome?_cons]
  cases canonical : j.entryAt? { place with typeName := type.name } with
  | some value' =>
    obtain ⟨found, held, reads⟩ := get?_entries_of_entryAt? loaded canonical
    exact ⟨type.name, value', found, .inl rfl, canonical, reads, by rw [held]; rfl⟩
  | none =>
    have absent : r.entries.get? { place with typeName := type.name } = none := by
      rw [Table.get?_eq_none_iff, mem_keys_entries_iff loaded, canonical]
      simp
    obtain ⟨found, held, reads⟩ := get?_entries_of_entryAt? loaded declared
    refine ⟨place.typeName, value, found, .inr ⟨rfl, rfl⟩, declared, reads, ?_⟩
    rcases List.mem_cons.1 named with here | short
    · simp [← here, declared] at canonical
    · rw [absent, Option.mem_toList.1 short]
      simp [held]

/-- An entry under any other text makes no difference to a lookup by what it says. -/
theorem lookup?_eq_of_not_mem_lookupNames (loaded : ofDocument j = .ok r)
    (loaded' : ofDocument j' = .ok r') (declared : (j.entryAt? place).isSome)
    (declared' : (j'.entryAt? place).isSome)
    (same : ∀ other, other ≠ place → j.entryAt? other = j'.entryAt? other)
    {entryType : AbiType} (typed : AbiType.ofName place.typeName = .ok entryType)
    (unnamed : place.typeName ∉ entryType.lookupNames) (contract function : String)
    {type : AbiType} (wf : type.WellFormed) :
    r.lookup? contract function type = r'.lookup? contract function type := by
  refine (alikeOff_of_documents loaded loaded' declared declared' same).lookup?_eq
    (fun named => unnamed ?_) contract function
  obtain rfl := Except.ok.inj (typed.symm.trans (AbiType.ofName_of_mem_lookupNames wf named))
  exact named

/-- **An entry is reached under the names of its type.** Each entry of a document that is
read stands for a type. If it stands under a name of the type, a lookup of its contract,
its function and its type finds an entry of the type: the one under the canonical name if
there is one, and else this one. If it stands under another text of the type, the lookup
finds what is declared beside it under a name of the type, and else what the wildcard
contract leads to; and whatever else the document says in its place, all lookups find the
same. -/
theorem entry_reached_under_lookup_names (loaded : ofDocument j = .ok r)
    (declared : j.entryAt? place = some value) :
    ∃ entry, Reads (place, value) entry ∧ AbiType.ofName place.typeName = .ok entry.type ∧
      (place.typeName ∈ entry.type.lookupNames →
        ∃ name value' found,
          (name = entry.type.name ∨
            name = place.typeName ∧
              j.entryAt? { place with typeName := entry.type.name } = none) ∧
          j.entryAt? { place with typeName := name } = some value' ∧
          Reads ({ place with typeName := name }, value') found ∧
          found.type = entry.type ∧
          r.lookup? place.contract place.function entry.type = some found) ∧
      (place.typeName ∉ entry.type.lookupNames →
        (∃ beside,
          Option.Rel Reads
            (entry.type.lookupNames.findSome? fun name =>
              (j.entryAt? { place with typeName := name }).map
                ({ place with typeName := name }, ·)) beside ∧
          r.lookup? place.contract place.function entry.type =
            beside.or (r.lookup? wildcard place.function entry.type)) ∧
        ∀ j' r', ofDocument j' = .ok r' → (j'.entryAt? place).isSome →
          (∀ other, other ≠ place → j'.entryAt? other = j.entryAt? other) →
          ∀ contract function type, type.WellFormed →
            r'.lookup? contract function type = r.lookup? contract function type) := by
  obtain ⟨entry, held, reads⟩ := get?_entries_of_entryAt? loaded declared
  have checked := checked_of_ofDocument loaded
  have typed := (checked _ (Table.mem_of_get? held)).1
  refine ⟨entry, reads, typed, fun named => ?_, fun unnamed => ⟨?_, ?_⟩⟩
  · obtain ⟨name, value', found, which, given, reads', looked⟩ :=
      lookup?_of_mem_lookupNames loaded declared named
    have wf := AbiType.wellFormed_of_ofName typed
    exact ⟨name, value', found, which, given, reads', (checked.lookup? wf looked).1, looked⟩
  · exact ⟨_, rel_findSome? (fun _ => get?_entries loaded _) _,
      lookup?_of_hasFunction _ (hasFunction_of_entryAt? loaded declared)⟩
  · intro j' r' loaded' declared' same contract function type wf
    refine lookup?_eq_of_not_mem_lookupNames loaded' loaded declared' ?_ same typed unnamed
      contract function wf
    rw [declared, Option.isSome_some]

/-- What a document says of a type whose only value is three. -/
def onlyThree : Json :=
  .object [("rules", .array
    [.object [("rule-type", .string "constant"), ("value", .number (.integer 3))]])]

/-- A document that gives a type by its short name. -/
def shortNamed : Json := .object [("C", .object [("f", .object [("uint", onlyThree)])])]

theorem entry_reached_under_lookup_names_short :
    ∃ r found, ofDocument shortNamed = .ok r ∧
      shortNamed.entryAt? ⟨"C", "f", "uint"⟩ = some onlyThree ∧
      r.lookup? "C" "f" (.number (.uint 256)) = some found ∧
      found.type = .number (.uint 256) := by
  have loaded : ∃ r, ofDocument shortNamed = .ok r := ⟨_, rfl⟩
  obtain ⟨r, loaded⟩ := loaded
  have declared : shortNamed.entryAt? ⟨"C", "f", "uint"⟩ = some onlyThree := rfl
  obtain ⟨entry, -, typed, reached, -⟩ := entry_reached_under_lookup_names loaded declared
  have wide : entry.type = .number (.uint 256) := Except.ok.inj (typed.symm.trans rfl)
  rw [wide] at reached
  obtain ⟨-, -, found, -, -, -, same, looked⟩ := reached (by decide)
  exact ⟨r, found, loaded, declared, looked, same⟩

/-- A document that gives the width of a type with a leading zero. -/
def zeroPadded : Json := .object [("C", .object [("f", .object [("uint08", onlyThree)])])]

/-- Nothing is found for the type of an entry whose width has a leading zero. -/
theorem zero_padded_width_never_found :
    ∃ r entry, ofDocument zeroPadded = .ok r ∧
      r.entries.get? ⟨"C", "f", "uint08"⟩ = some entry ∧
      AbiType.ofName "uint08" = .ok entry.type ∧
      r.lookup? "C" "f" entry.type = none :=
  ⟨_, _, rfl, rfl, rfl, rfl⟩

end Document

end RuleBook

end GuardedCalls
