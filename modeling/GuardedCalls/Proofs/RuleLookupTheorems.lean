/-
GuardedCalls.Proofs.RuleLookupTheorems — a lookup in a rule book against the
document that the book was read from.

A book is one flat table, and knows of the contracts and functions of the
document only through its entries. The document is a tree, and is searched
level by level here.

1. THE TREE — `Json.last?` is the member of an object under a key, the last one
   that is given. `mem_members_iff`: these members are what reading sees.
2. THE TABLE — `mem_entries_iff`: a book holds an entry exactly where the tree has
   one, and `exists_reads` that none is dropped. The lemmas before follow the
   reader level by level.
3. THE SEARCH — `resolve?` searches the tree: the contract or the wildcard, in it
   the function or the wildcard, in it the first of the names, and all of this
   again under the wildcard contract. A parameter says which function objects
   count as there. `lookup_follows_document`: a lookup is this search with the
   function objects that declare a type.
-/
import GuardedCalls.Proofs.RuleBookTheorems
import GuardedCalls.Proofs.TableTheorems
import Mathlib.Data.List.Induction
import Mathlib.Data.Option.Basic
import Mathlib.Data.String.Basic

namespace GuardedCalls

/-! ## Members of a document -/

namespace Json

/-- The value that a document has under a key. Of a key that is given twice, the last
value counts. -/
def last? (key : String) : Json → Option Json
  | .object members => lookup? key members.reverse
  | _ => none

theorem insertMember_eq_alter (key : String) (value : Json) (members : List (String × Json)) :
    insertMember key value members = Table.alter key (fun _ => value) members := by
  induction members with
  | nil => rfl
  | cons m rest ih => simp only [insertMember, Table.alter, ih, eq_comm]

theorem canonicalMembers_eq (before members : List (String × Json)) :
    canonicalMembers before members =
      members.foldl (fun t m => Table.alter m.1 (fun _ => canonical m.2) t) before := by
  induction members generalizing before with
  | nil => rfl
  | cons m rest ih => simp only [canonicalMembers, ih, insertMember_eq_alter, List.foldl_cons]

theorem ordered_canonicalMembers (members : List (String × Json)) :
    Table.Ordered (canonicalMembers [] members) := by
  rw [canonicalMembers_eq]
  exact Table.ordered_nil.foldl_alter members (·.1) fun m _ => canonical m.2

/-- Members in their order have the last value of each key. -/
theorem get?_canonicalMembers (key : String) (members : List (String × Json)) :
    Table.get? key (canonicalMembers [] members) =
      (lookup? key members.reverse).map canonical := by
  induction members using List.reverseRecOn with
  | nil => rfl
  | append_singleton members m ih =>
    have step : canonicalMembers [] (members ++ [m]) =
        Table.alter m.1 (fun _ => canonical m.2) (canonicalMembers [] members) := by
      simp [canonicalMembers_eq]
    rw [step, (ordered_canonicalMembers members).get?_alter, ih]
    by_cases own : key = m.1
    · simp [lookup?, own]
    · simp [lookup?, own, Ne.symm own]

variable {j : Json} {members : List (String × Json)} {key : String} {value : Json}

/-- The members of a document as it is read are those that it has last. -/
theorem mem_members_iff (h : j.canonical.members? = some members) :
    (key, value) ∈ members ↔ ∃ raw, j.last? key = some raw ∧ value = raw.canonical := by
  cases j with
  | object given =>
    simp only [canonical, members?, Option.some.injEq] at h
    subst h
    rw [← (ordered_canonicalMembers given).get?_eq_some_iff, get?_canonicalMembers,
      Option.map_eq_some_iff]
    simp only [last?, eq_comm]
  | _ => cases h

/-- The document is an object with a member. -/
def hasMembers : Json → Bool
  | .object members => !members.isEmpty
  | _ => false

theorem hasMembers_iff : j.hasMembers = true ↔ ∃ key value, j.last? key = some value := by
  cases j with
  | object members =>
    rw [hasMembers]
    constructor
    · intro filled
      cases reversed : members.reverse with
      | nil => simp_all
      | cons m rest => exact ⟨m.1, m.2, by simp [last?, lookup?, reversed]⟩
    · rintro ⟨key, value, found⟩
      cases members with
      | nil => cases found
      | cons m rest => rfl
  | _ => simp [hasMembers, last?]

end Json

/-! ## From the tree to the table -/

/-- The place of an entry, as errors name it. -/
def RulePlace.path (p : RulePlace) : String :=
  p.contract ++ "." ++ p.function ++ "." ++ p.typeName

/-- What a document has at a place. -/
def Json.entryAt? (j : Json) (place : RulePlace) : Option Json :=
  (j.last? place.contract).bind fun functions =>
    (functions.last? place.function).bind fun types => types.last? place.typeName

namespace RuleBook

/-- The rules at a place are those that a part of a document says. -/
def Reads (p : RulePlace × Json) (entry : RuleEntry) : Prop :=
  readEntry p.1.path p.1.typeName p.2.canonical = .ok entry

section Tree

variable {j : Json} {r : RuleBook}

/-- A level of the tree is read member by member. -/
theorem level_iff {β : Type} {path : String} {members : List (String × Json)}
    {read : String × Json → Except InvalidRule β} {results : List β}
    (level : membersAt path j.canonical = .ok members) (all : members.mapM read = .ok results) :
    (∀ b, b ∈ results ↔ ∃ key value, j.last? key = some value ∧
      read (key, value.canonical) = .ok b) ∧
    ∀ key value, j.last? key = some value → ∃ b, read (key, value.canonical) = .ok b := by
  have known : j.canonical.members? = some members := by
    unfold membersAt at level
    split at level
    · next given found => rw [found, Except.ok.inj level]
    · cases level
  refine ⟨fun b => ⟨fun hb => ?_, ?_⟩, fun key value given => ?_⟩
  · obtain ⟨⟨key, value⟩, mem, run⟩ := exists_of_mem_mapM all hb
    obtain ⟨raw, given, rfl⟩ := (Json.mem_members_iff known).1 mem
    exact ⟨key, raw, given, run⟩
  · rintro ⟨key, value, given, run⟩
    obtain ⟨b', hb', run'⟩ := exists_of_mapM all ((Json.mem_members_iff known).2 ⟨_, given, rfl⟩)
    rw [run] at run'
    exact Except.ok.inj run' ▸ hb'
  · obtain ⟨b, -, run⟩ := exists_of_mapM all ((Json.mem_members_iff known).2 ⟨_, given, rfl⟩)
    exact ⟨b, run⟩

variable {contract function : String} {entries : List (RulePlace × RuleEntry)}

theorem readTypes_iff (read : readTypes contract function j.canonical = .ok entries) :
    (∀ e, e ∈ entries ↔ ∃ typeName value, j.last? typeName = some value ∧
      e.1 = ⟨contract, function, typeName⟩ ∧ Reads (e.1, value) e.2) ∧
    ∀ typeName value, j.last? typeName = some value →
      ∃ entry, Reads (⟨contract, function, typeName⟩, value) entry := by
  obtain ⟨members, level, all⟩ := exists_of_bind_eq_ok read
  obtain ⟨mem, total⟩ := level_iff level all
  constructor
  · rintro ⟨place, entry⟩
    rw [mem]
    constructor
    · rintro ⟨typeName, value, given, run⟩
      obtain ⟨entry', reads, same⟩ := exists_of_bind_eq_ok run
      cases same
      exact ⟨typeName, value, given, rfl, reads⟩
    · rintro ⟨typeName, value, given, rfl, reads⟩
      refine ⟨typeName, value, given, ?_⟩
      have run : readEntry (contract ++ "." ++ function ++ "." ++ typeName) typeName
          value.canonical = .ok entry := reads
      simp only [run]
      rfl
  · intro typeName value given
    obtain ⟨e, run⟩ := total typeName value given
    obtain ⟨entry, reads, -⟩ := exists_of_bind_eq_ok run
    exact ⟨entry, reads⟩

/-- So is a level of which each member gives a part of the results. -/
theorem parts_iff {β : Type} {path : String} {members : List (String × Json)}
    {read : String × Json → Except InvalidRule (List β)} {parts : List (List β)}
    (level : membersAt path j.canonical = .ok members) (all : members.mapM read = .ok parts) :
    (∀ b, b ∈ parts.flatten ↔ ∃ key value, j.last? key = some value ∧
      ∃ part, read (key, value.canonical) = .ok part ∧ b ∈ part) ∧
    ∀ key value, j.last? key = some value → ∃ part, read (key, value.canonical) = .ok part := by
  obtain ⟨mem, total⟩ := level_iff level all
  refine ⟨fun b => ?_, total⟩
  simp only [List.mem_flatten, mem]
  constructor
  · rintro ⟨part, ⟨key, value, given, run⟩, hb⟩
    exact ⟨key, value, given, part, run, hb⟩
  · rintro ⟨key, value, given, part, run, hb⟩
    exact ⟨part, ⟨key, value, given, run⟩, hb⟩

theorem readFunctions_iff (read : readFunctions contract j.canonical = .ok entries) :
    (∀ e, e ∈ entries ↔ ∃ function types, j.last? function = some types ∧
      ∃ part, readTypes contract function types.canonical = .ok part ∧ e ∈ part) ∧
    ∀ function types, j.last? function = some types →
      ∃ part, readTypes contract function types.canonical = .ok part := by
  obtain ⟨members, level, read⟩ := exists_of_bind_eq_ok read
  obtain ⟨parts, all, same⟩ := exists_of_bind_eq_ok read
  cases same
  exact parts_iff level all

theorem ofDocument_iff (loaded : ofDocument j = .ok r) :
    (∀ e, e ∈ r.entries ↔ ∃ contract functions, j.last? contract = some functions ∧
      ∃ part, readFunctions contract functions.canonical = .ok part ∧ e ∈ part) ∧
    ∀ contract functions, j.last? contract = some functions →
      ∃ part, readFunctions contract functions.canonical = .ok part := by
  obtain ⟨members, level, read⟩ := exists_of_bind_eq_ok loaded
  obtain ⟨parts, all, same⟩ := exists_of_bind_eq_ok read
  cases same
  exact parts_iff level all

/-- A book that is read from a document holds an entry where the document has one. -/
theorem mem_entries_iff (loaded : ofDocument j = .ok r) {place : RulePlace} {entry : RuleEntry} :
    (place, entry) ∈ r.entries ↔ ∃ value, j.entryAt? place = some value ∧
      Reads (place, value) entry := by
  rw [(ofDocument_iff loaded).1]
  constructor
  · rintro ⟨contract, functions, given, part, read, he⟩
    obtain ⟨function, types, given', part', read', he⟩ := ((readFunctions_iff read).1 _).1 he
    obtain ⟨typeName, value, given'', rfl, reads⟩ := ((readTypes_iff read').1 _).1 he
    exact ⟨value, by simp [Json.entryAt?, given, given', given''], reads⟩
  · rintro ⟨value, found, reads⟩
    obtain ⟨functions, given, found⟩ := Option.bind_eq_some_iff.1 found
    obtain ⟨types, given', given''⟩ := Option.bind_eq_some_iff.1 found
    obtain ⟨part, read⟩ := (ofDocument_iff loaded).2 _ _ given
    obtain ⟨part', read'⟩ := (readFunctions_iff read).2 _ _ given'
    have inPart' := ((readTypes_iff read').1 (place, entry)).2 ⟨_, value, given'', rfl, reads⟩
    have inPart := ((readFunctions_iff read).1 _).2 ⟨_, types, given', part', read', inPart'⟩
    exact ⟨_, functions, given, part, read, inPart⟩

/-- No part of a document that stands where an entry stands is passed over. -/
theorem exists_reads (loaded : ofDocument j = .ok r) {place : RulePlace} {value : Json}
    (found : j.entryAt? place = some value) : ∃ entry, Reads (place, value) entry := by
  obtain ⟨functions, given, found⟩ := Option.bind_eq_some_iff.1 found
  obtain ⟨types, given', given''⟩ := Option.bind_eq_some_iff.1 found
  obtain ⟨part, read⟩ := (ofDocument_iff loaded).2 _ _ given
  obtain ⟨part', read'⟩ := (readFunctions_iff read).2 _ _ given'
  exact (readTypes_iff read').2 _ _ given''

/-- What a book holds at a place is what the document says there. -/
theorem get?_entries (loaded : ofDocument j = .ok r) (place : RulePlace) :
    Option.Rel Reads ((j.entryAt? place).map (place, ·)) (r.entries.get? place) := by
  have unique : ∀ v w, (place, v) ∈ r.entries → (place, w) ∈ r.entries → v = w := by
    intro v w first second
    obtain ⟨value, found, reads⟩ := (mem_entries_iff loaded).1 first
    obtain ⟨value', found', reads'⟩ := (mem_entries_iff loaded).1 second
    obtain rfl := Option.some.inj (found.symm.trans found')
    exact Except.ok.inj (reads.symm.trans reads')
  cases found : j.entryAt? place with
  | some value =>
    obtain ⟨entry, reads⟩ := exists_reads loaded found
    have held := (mem_entries_iff loaded).2 ⟨value, found, reads⟩
    rw [(Table.get?_eq_some_iff_mem (unique entry)).2 held]
    exact .some reads
  | none =>
    cases held : r.entries.get? place with
    | none => exact .none
    | some entry =>
      obtain ⟨value, found', -⟩ := (mem_entries_iff loaded).1 (Table.mem_of_get? held)
      simp [found] at found'

/-- A function has entries when its object has members. -/
theorem hasFunction_iff (loaded : ofDocument j = .ok r) {functions : Json}
    (given : j.last? contract = some functions) :
    r.hasFunction contract function = true ↔
      ∃ types, functions.last? function = some types ∧ types.hasMembers = true := by
  simp only [hasFunction, List.any_eq_true, decide_eq_true_eq, Prod.exists, mem_entries_iff loaded,
    Json.hasMembers_iff]
  constructor
  · rintro ⟨place, entry, ⟨value, found, -⟩, rfl, rfl⟩
    simp only [Json.entryAt?, given, Option.bind_some] at found
    obtain ⟨types, given', given''⟩ := Option.bind_eq_some_iff.1 found
    exact ⟨types, given', _, value, given''⟩
  · rintro ⟨types, given', typeName, value, given''⟩
    have found : j.entryAt? ⟨contract, function, typeName⟩ = some value := by
      simp [Json.entryAt?, given, given', given'']
    obtain ⟨entry, reads⟩ := exists_reads loaded found
    exact ⟨_, entry, ⟨value, found, reads⟩, rfl, rfl⟩

end Tree

/-! ## Searching the tree -/

/-- The member under a key if it counts, or else the one under the wildcard if that
does. -/
def chosen? (counts : Json → Bool) (key : String) (j : Json) : Option (String × Json) :=
  ((j.last? key).filter counts).map (key, ·) <|>
    ((j.last? wildcard).filter counts).map (wildcard, ·)

/-- Among the functions of a contract: the function or the wildcard, and in it the first
of the names. -/
def searchFunctions? (counts : Json → Bool) (function : String) (names : List String)
    (contract : String) (functions : Json) : Option (RulePlace × Json) :=
  (chosen? counts function functions).bind fun m =>
    names.findSome? fun name => (m.2.last? name).map (⟨contract, m.1, name⟩, ·)

/-- Among all contracts: the contract or the wildcard, and in it the function. -/
def searchContracts? (counts : Json → Bool) (j : Json) (contract function : String)
    (names : List String) : Option (RulePlace × Json) :=
  (chosen? (fun _ => true) contract j).bind fun m =>
    searchFunctions? counts function names m.1 m.2

/-- What a document says for a function of a contract under one of some names. Where the
contract leads to nothing, the wildcard contract is searched. Of functions, those whose
objects count are there. -/
def resolve? (counts : Json → Bool) (j : Json) (contract function : String)
    (names : List String) : Option (RulePlace × Json) :=
  searchContracts? counts j contract function names <|>
    searchContracts? counts j wildcard function names

section Search

variable {counts : Json → Bool} {j functions : Json} {contract function : String}
  {names : List String} {r : RuleBook}

/-- It comes to the contract and then the wildcard, each by itself. -/
theorem resolve?_eq : resolve? counts j contract function names =
    ((j.last? contract).bind (searchFunctions? counts function names contract)).or
      ((j.last? wildcard).bind (searchFunctions? counts function names wildcard)) := by
  unfold resolve? searchContracts? chosen?
  cases j.last? contract <;> cases j.last? wildcard <;> simp [Option.filter_some]

/-- The entries that a book leads to below a contract. -/
def entryIn? (r : RuleBook) (function : String) (names : List String) (contract : String) :
    Option RuleEntry :=
  (orWildcard? (r.hasFunction contract) function).bind fun function =>
    names.findSome? fun name => r.entries.get? ⟨contract, function, name⟩

theorem entryFor?_eq : r.entryFor? contract function names =
    (orWildcard? r.hasContract contract).bind (r.entryIn? function names) := rfl

/-- A contract that is not there leads to nothing. -/
theorem entryIn?_of_unknown (unknown : r.hasContract contract = false) :
    r.entryIn? function names contract = none := by
  have none_there : ∀ function, r.hasFunction contract function = false := by
    intro function
    simp only [hasContract, List.any_eq_false, decide_eq_true_eq] at unknown
    simp only [hasFunction, List.any_eq_false, decide_eq_true_eq]
    exact fun e he both => unknown e he both.1
  simp [entryIn?, orWildcard?, none_there]

/-- A lookup, too, comes to the contract and then the wildcard. -/
theorem lookup?_eq (type : AbiType) : r.lookup? contract function type =
    (r.entryIn? function type.lookupNames contract).or
      (r.entryIn? function type.lookupNames wildcard) := by
  unfold lookup?
  rw [entryFor?_eq, entryFor?_eq]
  cases own : r.hasContract contract <;> cases wild : r.hasContract wildcard <;>
    simp [orWildcard?, own, wild, entryIn?_of_unknown]

theorem rel_findSome? {α β γ : Type} {rel : β → γ → Prop} {f : α → Option β} {g : α → Option γ}
    (each : ∀ a, Option.Rel rel (f a) (g a)) (l : List α) :
    Option.Rel rel (l.findSome? f) (l.findSome? g) := by
  induction l with
  | nil => exact .none
  | cons a l ih =>
    rw [List.findSome?_cons, List.findSome?_cons]
    have first := each a
    generalize f a = b, g a = c at first ⊢
    cases first with
    | some related => exact .some related
    | none => exact ih

theorem rel_or {β γ : Type} {rel : β → γ → Prop} {b b' : Option β} {c c' : Option γ}
    (first : Option.Rel rel b c) (second : Option.Rel rel b' c') :
    Option.Rel rel (b.or b') (c.or c') := by
  cases first with
  | some related => exact .some related
  | none => exact second

theorem last?_of_chosen? {key : String} {m : String × Json} (h : chosen? counts key j = some m) :
    j.last? m.1 = some m.2 := by
  simp only [chosen?, Option.orElse_eq_orElse, Option.orElse_eq_or, Option.or_eq_some_iff,
    Option.map_eq_some_iff, Option.filter_eq_some_iff] at h
  rcases h with ⟨value, ⟨found, -⟩, rfl⟩ | ⟨-, value, ⟨found, -⟩, rfl⟩ <;> exact found

/-- A book chooses among the functions that declare a type. -/
theorem orWildcard?_hasFunction (loaded : ofDocument j = .ok r)
    (given : j.last? contract = some functions) (function : String) :
    orWildcard? (r.hasFunction contract) function =
      (chosen? Json.hasMembers function functions).map (·.1) := by
  have known : ∀ function, r.hasFunction contract function =
      ((functions.last? function).filter Json.hasMembers).isSome := by
    intro function
    rw [Bool.eq_iff_iff, hasFunction_iff loaded given, Option.isSome_iff_exists]
    simp only [Option.filter_eq_some_iff]
  unfold orWildcard? chosen?
  rw [known, known]
  cases (functions.last? function).filter Json.hasMembers <;>
    cases (functions.last? wildcard).filter Json.hasMembers <;> simp

/-- Below a contract a book leads to what the document says there. -/
theorem entryIn?_follows (loaded : ofDocument j = .ok r) :
    Option.Rel Reads
      ((j.last? contract).bind (searchFunctions? Json.hasMembers function names contract))
      (r.entryIn? function names contract) := by
  cases given : j.last? contract with
  | none =>
    have unknown : r.hasContract contract = false := by
      simp only [hasContract, List.any_eq_false, decide_eq_true_eq, Prod.forall]
      rintro place entry held rfl
      obtain ⟨value, found, -⟩ := (mem_entries_iff loaded).1 held
      simp [Json.entryAt?, given] at found
    rw [entryIn?_of_unknown unknown]
    exact .none
  | some functions =>
    rw [entryIn?, orWildcard?_hasFunction loaded given, Option.bind_some]
    unfold searchFunctions?
    cases chosen : chosen? Json.hasMembers function functions with
    | none => exact .none
    | some m =>
      refine rel_findSome? (fun name => ?_) names
      have place : j.entryAt? ⟨contract, m.1, name⟩ = m.2.last? name := by
        simp [Json.entryAt?, given, last?_of_chosen? chosen]
      rw [← place]
      exact get?_entries loaded _

/-- Where each function object of the name declares a type, it makes no difference that
the others do not count. -/
theorem searchFunctions?_hasMembers
    (declared : ∀ types, functions.last? function = some types → types.hasMembers = true) :
    searchFunctions? Json.hasMembers function names contract functions =
      searchFunctions? (fun _ => true) function names contract functions := by
  unfold searchFunctions? chosen?
  cases own : functions.last? function with
  | some types => simp [Option.filter_some, declared types own]
  | none =>
    cases wild : functions.last? wildcard with
    | none => rfl
    | some types =>
      cases filled : types.hasMembers with
      | true => simp [Option.filter_some, filled]
      | false =>
        have nothing : ∀ name, types.last? name = none := by
          intro name
          rw [Option.eq_none_iff_forall_ne_some]
          intro value found
          simp [Json.hasMembers_iff.2 ⟨name, value, found⟩] at filled
        have empty : (names.findSome? fun _ => (none : Option (RulePlace × Json))) = none := by simp
        simp [Option.filter_some, filled, nothing, empty]

/-- **A lookup follows the document.** What a book that was read from a document finds is
what the document says at the place where a search of it ends: at the contract or the wildcard,
there at the function or the wildcard, there at the first of the names of the type, or else at
all of this under the wildcard contract. A function object that declares no type does not count
as there. Where no such object stands under the name of the function, the search may count
them all. -/
theorem lookup_follows_document (loaded : ofDocument j = .ok r) (contract function : String)
    (type : AbiType) :
    Option.Rel Reads (resolve? Json.hasMembers j contract function type.lookupNames)
      (r.lookup? contract function type) ∧
    ((∀ key ∈ [contract, wildcard], ∀ functions types, j.last? key = some functions →
        functions.last? function = some types → types.hasMembers = true) →
      Option.Rel Reads (resolve? (fun _ => true) j contract function type.lookupNames)
        (r.lookup? contract function type)) := by
  have follows : Option.Rel Reads
      (resolve? Json.hasMembers j contract function type.lookupNames)
      (r.lookup? contract function type) := by
    rw [resolve?_eq, lookup?_eq]
    exact rel_or (entryIn?_follows loaded) (entryIn?_follows loaded)
  refine ⟨follows, fun declared => ?_⟩
  have alike : ∀ key ∈ [contract, wildcard],
      (j.last? key).bind (searchFunctions? Json.hasMembers function type.lookupNames key) =
        (j.last? key).bind (searchFunctions? (fun _ => true) function type.lookupNames key) := by
    intro key hkey
    cases given : j.last? key with
    | none => rfl
    | some functions =>
      exact searchFunctions?_hasMembers fun types => declared key hkey functions types given
  rw [resolve?_eq] at follows ⊢
  rw [← alike contract (by simp), ← alike wildcard (by simp)]
  exact follows

/-- What a document says of a type without any rules. -/
def noRules : Json := .object [("rules", .array [])]

/-- A document in which the function `f` of `C` declares a type, and bytes are declared beside
it and under the wildcards. -/
def otherType : Json :=
  .object [("C", .object [("f", .object [("bool", noRules)]), ("*", .object [("uint8", noRules)])]),
    ("*", .object [("*", .object [("uint8", noRules)])])]

theorem lookup_follows_document_other :
    ∃ r, ofDocument otherType = .ok r ∧
      resolve? (fun _ => true) otherType "C" "f" ["uint8"] = some (⟨"*", "*", "uint8"⟩, noRules) ∧
      Option.Rel Reads (resolve? (fun _ => true) otherType "C" "f" ["uint8"])
        (r.lookup? "C" "f" (.number (.uint 8))) := by
  have loaded : ∃ r, ofDocument otherType = .ok r := ⟨_, rfl⟩
  obtain ⟨r, loaded⟩ := loaded
  refine ⟨r, loaded, rfl, ?_⟩
  refine (lookup_follows_document loaded "C" "f" (.number (.uint 8))).2 ?_
  intro key hkey functions types given given'
  simp only [List.mem_cons, List.not_mem_nil, or_false] at hkey
  rcases hkey with rfl | rfl
  · obtain rfl := Option.some.inj given
    obtain rfl := Option.some.inj given'
    rfl
  · obtain rfl := Option.some.inj given
    cases given'

/-- A document in which the function `f` of `C` declares no type, and the wildcard beside it
declares bytes. -/
def emptyFunction : Json :=
  .object [("C", .object [("f", .object []), ("*", .object [("uint8", noRules)])])]

/-- A function object without types does not hide the function wildcard: the search that
counts it finds nothing, and the lookup finds the rules of the wildcard. -/
theorem empty_function_hides_nothing :
    ∃ r entry, ofDocument emptyFunction = .ok r ∧
      resolve? (fun _ => true) emptyFunction "C" "f" (AbiType.number (.uint 8)).lookupNames =
        none ∧
      r.lookup? "C" "f" (.number (.uint 8)) = some entry :=
  ⟨_, _, rfl, rfl, rfl⟩

end Search

end RuleBook

end GuardedCalls
