/-
GuardedCalls.Proofs.ContradictionTheorems — what can go wrong with the rules of
a document once the document has been read.

A document is checked as a whole when it is read: each entry against the type
whose name it stands under, each bound as a literal of that type. The rules are
applied later and by other code, to the type of an argument and to all types in
it. `loaded_rules_only_contradict` says that the two agree: no rule is found for a
type it was not written for, none turns out not to fit its values, to have a
bound that is no number, or to read anything from state. All that is left to go
wrong is that the rules contradict each other.

* `WellFormed.of_mem_parts`, `reads_of_mem_rulesFrom` — whatever part of a type a
  rule is found for, its bound is a number there.
-/
import GuardedCalls.Proofs.UnsatisfiableTheorems

namespace GuardedCalls

namespace AbiType

variable {u : AbiType}

mutual

theorem WellFormed.of_mem_parts : (t : AbiType) → t.WellFormed → u ∈ t.parts → u.WellFormed
  | .number type, wf, h => by
    rw [parts_number, List.mem_singleton] at h
    exact h ▸ wf
  | .fixedBytes size, wf, h => by
    simp only [parts, List.mem_singleton] at h
    exact h ▸ wf
  | .function, wf, h => by
    simp only [parts, List.mem_singleton] at h
    exact h ▸ wf
  | .bytes, wf, h => by
    simp only [parts, List.mem_singleton] at h
    exact h ▸ wf
  | .string, wf, h => by
    simp only [parts, List.mem_singleton] at h
    exact h ▸ wf
  | .fixedArray element length, wf, h => by
    rcases List.mem_cons.1 h with rfl | inner
    · exact wf
    · exact WellFormed.of_mem_parts element wf.1 inner
  | .array element, wf, h => by
    rcases List.mem_cons.1 h with rfl | inner
    · exact wf
    · exact WellFormed.of_mem_parts element (show element.WellFormed from wf) inner
  | .tuple items, wf, h => by
    rcases List.mem_cons.1 h with rfl | inner
    · exact wf
    · exact AllWellFormed.of_mem_partsOfAll items wf inner

theorem AllWellFormed.of_mem_partsOfAll : (ts : List AbiType) → AllWellFormed ts →
    u ∈ partsOfAll ts → u.WellFormed
  | [], _, h => by cases h
  | t :: ts, wf, h => by
    rcases List.mem_append.1 h with first | later
    · exact WellFormed.of_mem_parts t wf.1 first
    · exact AllWellFormed.of_mem_partsOfAll ts wf.2 later

end

end AbiType

section Rules

variable {rules : RuleBook} {key : ArgumentKey}

theorem mem_of_mem_rulesFrom {i : Nat} {ts : List AbiType} {q : Placed}
    (h : q ∈ rulesFrom rules key i ts) :
    q.type ∈ ts ∧ q.constraint ∈ ruleConstraints rules key q.type := by
  induction ts generalizing i with
  | nil => cases h
  | cons t ts ih =>
    rcases List.mem_append.1 h with own | later
    · obtain ⟨c, hc, rfl⟩ := List.mem_map.1 own
      exact ⟨List.mem_cons_self, hc⟩
    · exact ⟨List.mem_cons_of_mem t (ih later).1, (ih later).2⟩

/-- The bound of a rule is a number of the part that the rule is found for. -/
theorem reads_of_mem_rulesFrom (checked : rules.Checked) {t : AbiType} (wf : t.WellFormed) {i : Nat}
    {q : Placed} (h : q ∈ rulesFrom rules key i t.parts) : q.Reads := by
  obtain ⟨part, hc⟩ := mem_of_mem_rulesFrom h
  obtain ⟨text, v, bound, number, -⟩ :=
    (checked_of_mem checked (wf.of_mem_parts t part) hc).literal
  exact ⟨_, Constraint.demand?_eq_some_iff.2 ⟨text, none, v, bound, number, rfl⟩⟩

/-- Rules that were read need nothing from state. -/
theorem narrowByRules_ofType_alike (checked : rules.Checked) {σ : Type} (view : StateView σ)
    (t : AbiType) : Assembly.Alike (Assembly.narrowByRules view rules key (Space.ofType t))
      (Assembly.narrowByRules detached rules key (Space.ofType t)) := by
  refine Assembly.narrowByRules_alike _ fun c hc => ?_
  obtain ⟨u, -, hc⟩ := List.mem_flatMap.1 hc
  exact literal_of_mem checked hc

/-- **Rules that were read can only contradict each other.** Let a rule book come
from a document, and take the type of an argument or a type anywhere in it.
The entry that is found for the type is one of that type. Applied to a fresh
space of the type, the rules are all taken or leave no value; there is no other
error, and nothing is read from state. -/
theorem loaded_rules_only_contradict {document : Json}
    (loaded : RuleBook.ofDocument document = .ok rules) (wf : key.type.WellFormed)
    {place : List Nat} {t : AbiType} (here : key.type.at? place = some t) :
    (∀ entry, rules.lookup? key.contract key.function t = some entry → entry.type = t) ∧
    ∀ (σ : Type) (view : StateView σ) (a : Assembly σ),
      (∃ space applied, Assembly.narrowByRules view rules key (Space.ofType t) a =
        .ok space ⟨a.state, applied⟩) ∨
      ∃ error applied, Assembly.narrowByRules view rules key (Space.ofType t) a =
        .error (.unsatisfiable error) ⟨a.state, applied⟩ := by
  have checked := RuleBook.checked_of_ofDocument loaded
  replace wf := wf.at? here
  refine ⟨fun entry found => (checked.lookup? wf found).1, fun σ view a => ?_⟩
  let a₀ : Assembly Unit := ⟨(), a.applied⟩
  have outcome : Assembly.Outcome key [] (rulesFrom rules key 0 t.parts) a.applied
      (Assembly.narrowByRules detached rules key (Space.ofType t) a₀) :=
    Assembly.ofType_outcome checked t wf 0 [] _ (List.forall_mem_nil _)
  rw [narrowByRules_ofType_alike checked view t a.state a.applied]
  cases run : Assembly.narrowByRules detached rules key (Space.ofType t) a₀ with
  | ok space a' => exact .inl ⟨space, a'.applied, rfl⟩
  | error e a' =>
    rw [run] at outcome
    obtain ⟨earlier, q, later, split, -, ⟨-, reason, rfl⟩ | ⟨unread, -⟩⟩ := outcome
    · exact .inr ⟨_, a'.applied, rfl⟩
    · have member : q ∈ rulesFrom rules key 0 t.parts := by
        rw [split]
        exact List.mem_append_right _ List.mem_cons_self
      exact absurd (reads_of_mem_rulesFrom checked wf member) unread

/-- The bytes in a pair of an array of pairs can be seven only. -/
theorem loaded_rules_only_contradict_nested :
    RuleBook.ofDocument Session.sevenDocument = .ok Session.sevenRules ∧
      Session.pairsKey.type.WellFormed ∧
      Session.pairsKey.type.at? [1, 0] = some (.number (.uint 8)) ∧
      (∀ entry, Session.sevenRules.lookup? "C" "f" (.number (.uint 8)) = some entry →
        entry.type = .number (.uint 8)) ∧
      ∃ space applied, Assembly.narrowByRules detached Session.sevenRules Session.pairsKey
        (Space.ofType (.number (.uint 8))) ⟨(), []⟩ = .ok space ⟨(), applied⟩ := by
  have loaded : RuleBook.ofDocument Session.sevenDocument = .ok Session.sevenRules := rfl
  have width : IsWidth 8 := ⟨by decide, by decide, by decide⟩
  have wf : Session.pairsKey.type.WellFormed := ⟨⟨width, width, trivial⟩, by decide, by decide⟩
  have here : Session.pairsKey.type.at? [1, 0] = some (.number (.uint 8)) := rfl
  obtain ⟨ofType, outcome⟩ := loaded_rules_only_contradict loaded wf here
  refine ⟨loaded, wf, here, ofType, ?_⟩
  rcases outcome Unit detached ⟨(), []⟩ with taken | ⟨error, applied, failed⟩
  · exact taken
  · cases failed

end Rules

end GuardedCalls
