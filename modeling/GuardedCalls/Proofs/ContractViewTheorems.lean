/-
GuardedCalls.Proofs.ContractViewTheorems — reading a number off a contract is one call that
changes nothing, or an error.

The getters of an interface are collected one function after the other, and what is kept for a
name depends on what was there. `preferred` says what comes of it: the first getter without
arguments, else the first one. Where the overloads of a name differ in their parameters, at
most one of them has none, so it does not matter which is first.

* `addGetter_get?`, `foldl_addGetter_get?` — one function that is added, and all of them.
* `Interface.HasGetter` — the function that a name reads from; `getters_get?_of_hasGetter` — its
  getter is the one that is kept, whatever else the name stands for.
* `Interface.Readable`, `Interface.Refuses` — a name that can be read, and why one cannot;
  `plan_of_readable` and `plan_of_refuses` say that there is a call for the first only, and
  `plan_eq_of_perm` that the order of the functions does not matter.
* `number_eq_ok_iff`, `answer_eq_ok_iff` — when a call has a number for an answer, and which.
* `Environment.recording` — an environment with a log of its calls; `read_of_readable`,
  `read_of_refuses` — what is called, and what comes of it.
* `read_one_call` — all of it.
-/
import GuardedCalls.Contract.View
import GuardedCalls.Proofs.ReadingTheorems
import GuardedCalls.Proofs.RoundTripTheorems

namespace GuardedCalls

open Abi

/-! ## Getters -/

/-- Of some getters the first without arguments, else the first. -/
def preferred (gs : List Getter) : Option Getter :=
  (gs.find? fun g => !g.takesArguments).or gs.head?

/-- The getter that a name keeps when one more is added. -/
def Getter.kept (old : Option Getter) (g : Getter) : Getter :=
  match old with
  | none => g
  | some old => if old.takesArguments && !g.takesArguments then g else old

section Getters

variable {name : String} {g : Getter} {gs : List Getter}

theorem preferred_append_singleton (gs : List Getter) (g : Getter) :
    preferred (gs ++ [g]) = some (g.kept (preferred gs)) := by
  simp only [preferred, List.find?_append, List.head?_append]
  cases gs with
  | nil => cases without : g.takesArguments <;> simp [Getter.kept, without]
  | cons first rest =>
    cases found : (first :: rest).find? fun g => !g.takesArguments with
    | some old =>
      have without : old.takesArguments = false := by simpa using List.find?_some found
      simp [Getter.kept, without]
    | none =>
      have needs : first.takesArguments = true := by
        simpa using List.find?_eq_none.1 found first List.mem_cons_self
      cases without : g.takesArguments <;> simp [Getter.kept, needs, without]

theorem mem_of_preferred (h : preferred gs = some g) : g ∈ gs := by
  rcases Option.or_eq_some_iff.1 h with found | ⟨-, first⟩
  · exact List.mem_of_find?_eq_some found
  · exact List.mem_of_mem_head? first

theorem preferred_eq_none_iff : preferred gs = none ↔ gs = [] := by
  rw [preferred, Option.or_eq_none_iff, List.head?_eq_none_iff, and_iff_right_iff_imp]
  rintro rfl
  rfl

/-- One without arguments is preferred if there is one. -/
theorem takesArguments_of_preferred {g' : Getter} (h : preferred gs = some g) (member : g' ∈ gs)
    (without : g'.takesArguments = false) : g.takesArguments = false := by
  rcases Option.or_eq_some_iff.1 h with found | ⟨none, -⟩
  · simpa using List.find?_some found
  · exact absurd without (by simpa using List.find?_eq_none.1 none g' member)

/-- A getter that is added counts for its own name only. -/
theorem addGetter_get? (t : Table String Getter) (added : String) (g : Getter) (name : String) :
    (addGetter t added g).get? name =
      if added = name then some (g.kept (t.get? name)) else t.get? name := by
  unfold addGetter
  by_cases same : added = name
  · subst same
    cases before : t.get? added with
    | none => simp [Getter.kept]
    | some old =>
      cases replaced : old.takesArguments && !g.takesArguments <;>
        simp [Getter.kept, replaced, before]
  · have other (g : Getter) : (t.put added g).get? name = t.get? name :=
      Table.get?_put_of_ne g t (Ne.symm same)
    rw [if_neg same]
    cases t.get? added with
    | none => exact other g
    | some old =>
      dsimp only
      split
      · exact other g
      · rfl

/-- What a name keeps is preferred among the getters of that name. The induction takes the
functions from the end, where the last one is added. -/
theorem foldl_addGetter_get? (fs : List ContractFunction) (name : String) :
    (fs.foldl (fun t f => addGetter t f.name (Getter.ofFunction f)) []).get? name =
      preferred ((fs.filter (·.name = name)).map Getter.ofFunction) := by
  induction fs using List.reverseRecOn with
  | nil => rfl
  | append_singleton fs f ih =>
    rw [List.foldl_append, List.foldl_cons, List.foldl_nil, addGetter_get?, ih,
      List.filter_append]
    by_cases named : f.name = name
    · simp only [named, if_true, decide_true, List.filter_cons_of_pos, List.filter_nil,
        List.map_append, List.map_cons, List.map_nil, preferred_append_singleton]
    · simp [named]

end Getters

namespace Interface

variable {i j : Interface} {name : String} {f g : ContractFunction} {getter : Getter}

theorem getters_get? (i : Interface) (name : String) : i.getters.get? name =
    preferred (((i.filter (·.isReadOnly)).filter (·.name = name)).map Getter.ofFunction) :=
  foldl_addGetter_get? _ name

/-- Functions of one name differ in what they take. -/
def Distinct (i : Interface) : Prop :=
  i.Pairwise fun f g => f.name = g.name → f.inputs ≠ g.inputs

instance (i : Interface) : Decidable i.Distinct :=
  inferInstanceAs (Decidable (i.Pairwise _))

/-- The function of an interface that a name reads from. -/
structure HasGetter (i : Interface) (name : String) (f : ContractFunction) : Prop where
  listed : f ∈ i
  named : f.name = name
  readOnly : f.isReadOnly = true
  bare : f.inputs = []

/-- There is one at most. -/
theorem HasGetter.unique (distinct : i.Distinct) (hf : i.HasGetter name f)
    (hg : i.HasGetter name g) : f = g := by
  by_contra differ
  have symmetric : Std.Symm fun f g : ContractFunction => f.name = g.name → f.inputs ≠ g.inputs :=
    ⟨fun f g apart same => (apart same.symm).symm⟩
  exact distinct.forall hf.listed hg.listed differ (hf.named.trans hg.named.symm)
    (hf.bare.trans hg.bare.symm)

/-- What is kept for a name is the getter of a function of that name. -/
theorem exists_of_getters_get? (h : i.getters.get? name = some getter) :
    ∃ f ∈ i, f.isReadOnly = true ∧ f.name = name ∧ getter = .ofFunction f := by
  rw [getters_get?] at h
  obtain ⟨f, member, rfl⟩ := List.mem_map.1 (mem_of_preferred h)
  obtain ⟨listed, named, readOnly⟩ : f ∈ i ∧ f.name = name ∧ f.isReadOnly = true := by
    simpa using member
  exact ⟨f, listed, readOnly, named, rfl⟩

/-- Nothing is kept for a name that no function has which changes nothing. -/
theorem getters_get?_eq_none_iff :
    i.getters.get? name = none ↔ ∀ f ∈ i, f.name = name → f.isReadOnly = false := by
  rw [getters_get?, preferred_eq_none_iff]
  simp [List.filter_eq_nil_iff]

/-- The getter that a name reads from is kept, whatever else the name stands for. -/
theorem getters_get?_of_hasGetter (distinct : i.Distinct) (hf : i.HasGetter name f) :
    i.getters.get? name = some (.ofFunction f) := by
  cases kept : i.getters.get? name with
  | none =>
    have changes := getters_get?_eq_none_iff.1 kept f hf.listed hf.named
    exact absurd hf.readOnly (by simp [changes])
  | some getter =>
    obtain ⟨g, listed, readOnly, named, rfl⟩ := exists_of_getters_get? kept
    rw [getters_get?] at kept
    have member : Getter.ofFunction f ∈
        ((i.filter (·.isReadOnly)).filter (·.name = name)).map Getter.ofFunction := by
      refine List.mem_map_of_mem ?_
      simp [hf.listed, hf.readOnly, hf.named]
    have without := takesArguments_of_preferred kept member (by simp [Getter.ofFunction, hf.bare])
    have bare : g.inputs = [] := by simpa [Getter.ofFunction] using without
    rw [hf.unique distinct ⟨listed, named, readOnly, bare⟩]

/-- What is kept takes arguments where no function reads without them. -/
theorem takesArguments_of_not_hasGetter (none : ¬ ∃ f, i.HasGetter name f)
    (kept : i.getters.get? name = some getter) : getter.takesArguments = true := by
  obtain ⟨f, listed, readOnly, named, rfl⟩ := exists_of_getters_get? kept
  by_contra without
  exact none ⟨f, listed, named, readOnly, by simpa [Getter.ofFunction] using without⟩

/-- A name can be read: its function returns a number first. -/
structure Readable (i : Interface) (name : String) (f : ContractFunction)
    (type : NumberType) : Prop extends i.HasGetter name f where
  first : ∃ output, f.outputs.head? = some output ∧ AbiType.ofName output = .ok (.number type)

theorem Readable.unique (distinct : i.Distinct) {type type' : NumberType}
    (hf : i.Readable name f type) (hg : i.Readable name g type') : f = g ∧ type = type' := by
  obtain rfl := hf.toHasGetter.unique distinct hg.toHasGetter
  obtain ⟨output, returned, named⟩ := hf.first
  obtain ⟨output', returned', named'⟩ := hg.first
  rw [returned] at returned'
  cases returned'
  rw [named] at named'
  cases named'
  exact ⟨rfl, rfl⟩

/-- Why a name cannot be read, before anything is called: no function of that name changes
nothing, all of those that do take arguments, or what is returned first is nothing, has no type
or is no number. -/
inductive Refuses (i : Interface) (name : String) : ViewError → Prop
  | unknown (changes : ∀ f ∈ i, f.name = name → f.isReadOnly = false) :
      Refuses i name (.unknownGetter name)
  | takesArguments {f : ContractFunction} (listed : f ∈ i) (named : f.name = name)
      (readOnly : f.isReadOnly = true) (none : ¬ ∃ f, i.HasGetter name f) :
      Refuses i name (.takesArguments name)
  | noOutput {f : ContractFunction} (getter : i.HasGetter name f)
      (nothing : f.outputs.head? = none) : Refuses i name (.noOutput name)
  | noType {f : ContractFunction} {output : String} {e : TypeError}
      (getter : i.HasGetter name f) (first : f.outputs.head? = some output)
      (bad : AbiType.ofName output = .error e) : Refuses i name (.undecodable name e.message)
  | noNumber {f : ContractFunction} {output : String} {t : AbiType}
      (getter : i.HasGetter name f) (first : f.outputs.head? = some output)
      (typed : AbiType.ofName output = .ok t) (other : ∀ type, t ≠ .number type) :
      Refuses i name (.nonNumeric name t.name)

/-- Every name can be read, or it is clear why not. -/
theorem readable_or_refuses (i : Interface) (name : String) :
    (∃ f type, i.Readable name f type) ∨ ∃ e, i.Refuses name e := by
  by_cases some : ∃ f, i.HasGetter name f
  · obtain ⟨f, hf⟩ := some
    cases returned : f.outputs.head? with
    | none => exact .inr ⟨_, .noOutput hf returned⟩
    | some output =>
      cases typed : AbiType.ofName output with
      | error e => exact .inr ⟨_, .noType hf returned typed⟩
      | ok t =>
        by_cases number : ∃ type, t = .number type
        · obtain ⟨type, rfl⟩ := number
          exact .inl ⟨f, type, hf, output, returned, typed⟩
        · exact .inr ⟨_, .noNumber hf returned typed fun type same => number ⟨type, same⟩⟩
  · by_cases readOnly : ∃ f ∈ i, f.name = name ∧ f.isReadOnly = true
    · obtain ⟨f, listed, named, readOnly⟩ := readOnly
      exact .inr ⟨_, .takesArguments listed named readOnly some⟩
    · refine .inr ⟨_, .unknown fun f listed named => ?_⟩
      by_contra kept
      exact readOnly ⟨f, listed, named, by simpa using kept⟩

theorem HasGetter.of_perm (perm : i.Perm j) (hf : i.HasGetter name f) : j.HasGetter name f :=
  { hf with listed := perm.mem_iff.1 hf.listed }

theorem Readable.of_perm {type : NumberType} (perm : i.Perm j) (hf : i.Readable name f type) :
    j.Readable name f type :=
  ⟨hf.toHasGetter.of_perm perm, hf.first⟩

theorem Refuses.of_perm {e : ViewError} (perm : i.Perm j) (h : i.Refuses name e) :
    j.Refuses name e := by
  cases h with
  | unknown changes => exact .unknown fun f listed => changes f (perm.mem_iff.2 listed)
  | takesArguments listed named readOnly none =>
    exact .takesArguments (perm.mem_iff.1 listed) named readOnly
      fun ⟨f, hf⟩ => none ⟨f, hf.of_perm perm.symm⟩
  | noOutput getter nothing => exact .noOutput (getter.of_perm perm) nothing
  | noType getter first bad => exact .noType (getter.of_perm perm) first bad
  | noNumber getter first typed other => exact .noNumber (getter.of_perm perm) first typed other

theorem Distinct.of_perm (perm : i.Perm j) (distinct : i.Distinct) : j.Distinct :=
  (perm.pairwise_iff fun apart same => (apart same.symm).symm).1 distinct

end Interface

/-! ## What a word says -/

/-- The integer that a word stands for: an unsigned integer is the whole word, a signed one is
in two's complement, an account is in the low 160 bits, and a truth value is no zero. -/
def NumberType.integer (w : Word) : NumberType → Int
  | .uint _ => w.toNat
  | .ufixed _ _ => w.toNat
  | .int _ => w.toInt
  | .fixed _ _ => w.toInt
  | .address => (w.toNat % 2 ^ 160 : Nat)
  | .bool => if w = 0 then 0 else 1

/-- The value in a word has the integer that the word stands for. -/
theorem NumberType.exists_scalar?_ofWord (type : NumberType) (w : Word) :
    ∃ v, (type.ofWord w).scalar? = some v ∧ v.val = type.integer w := by
  have whole : (Scalar.ofWord w.toNat).val = w.toNat := Scalar.val_ofWord w.isLt
  cases type with
  | uint bits => exact ⟨_, rfl, whole⟩
  | ufixed bits decimals => exact ⟨_, rfl, whole⟩
  | int bits => exact ⟨_, rfl, Scalar.val_ofSigned w⟩
  | fixed bits decimals => exact ⟨_, rfl, Scalar.val_ofSigned w⟩
  | address =>
    have low : (Address.ofWord w).toNat = w.toNat % 2 ^ 160 := BitVec.toNat_setWidth 160 w
    refine ⟨_, rfl, ?_⟩
    rw [Scalar.val_ofWord (by omega), low]
    rfl
  | bool =>
    refine ⟨_, rfl, ?_⟩
    by_cases zero : w = 0
    · subst zero
      rfl
    · have given : (w != 0) = true := by simpa using zero
      rw [given, NumberType.integer, if_neg zero]
      rfl

namespace ContractView

variable {name : String} {type : NumberType} {output : List UInt8} {v : Scalar} {o : Receipt}

/-- Data is read as one number exactly when it begins with a word. What follows does not
count. -/
theorem decodeAll_number_iff {vs : List AbiValue} : decodeAll [.number type] output = .ok vs ↔
    32 ≤ output.length ∧ vs = [type.ofWord (Word.ofBytes (output.take 32))] := by
  obtain ⟨wired, wire, alike⟩ := AbiType.exists_wire_number type
  have solid : AbiType.AllSolid [.number type] := ⟨trivial, trivial⟩
  rw [decodeAll_eq_ok_iff (List.cons_ne_nil _ _) solid, readFrom_eq_ok_iff]
  simp only [AbiType.wireAll, wire, AbiType.leastWordsAll, AbiType.leastWords]
  refine and_congr_right fun whole => ?_
  have front : (output.take 32).length = 32 := List.length_take_of_le whole
  have here : (Cursor.start output).rest = output.take 32 ++ output.drop 32 :=
    (List.take_append_drop 32 _).symm
  simp [AbiType.readAll, AbiType.read, Cursor.word_eq front here, alike, eq_comm]

/-- Data has a number exactly when it begins with a word. -/
theorem number_eq_ok_iff : number name type output = .ok v ↔
    32 ≤ output.length ∧ v.val = type.integer (Word.ofBytes (output.take 32)) := by
  obtain ⟨v', scalar, val⟩ := type.exists_scalar?_ofWord (Word.ofBytes (output.take 32))
  cases decoded : decodeAll [.number type] output with
  | error e =>
    have short : ¬ 32 ≤ output.length := fun whole => by
      rw [decodeAll_number_iff.2 ⟨whole, rfl⟩] at decoded
      cases decoded
    simp [number, decoded, short]
  | ok vs =>
    obtain ⟨whole, rfl⟩ := decodeAll_number_iff.1 decoded
    simp only [number, decoded, List.head?_cons, Option.bind_some, scalar, Except.ok.injEq]
    rw [and_iff_right whole, ← val, eq_comm, Scalar.eq_iff]

/-- A call has a number for an answer exactly when it succeeds with a word. -/
theorem interpret_eq_ok_iff : interpret name type o = .ok v ↔ o.status = .success ∧
    32 ≤ o.output.length ∧ v.val = type.integer (Word.ofBytes (o.output.take 32)) := by
  unfold interpret
  cases o.status with
  | success => simp [number_eq_ok_iff]
  | reverted => simp
  | halted reason => simp

/-! ## The call -/

variable {σ : Type} {r r' : ContractView σ} {i j : Interface} {f : ContractFunction}
  {selector : Selector}

/-- A name that can be read is called by the selector of its function. -/
theorem plan_of_readable (own : r.getters = i.getters) (distinct : i.Distinct)
    (readable : i.Readable name f type) : r.plan name = .ok (f.selector, type) := by
  obtain ⟨output, returned, typed⟩ := readable.first
  have kept := Interface.getters_get?_of_hasGetter distinct readable.toHasGetter
  simp [plan, own, kept, Getter.ofFunction, readable.bare, returned, typed]

/-- A name that cannot be read is not called. -/
theorem plan_of_refuses (own : r.getters = i.getters) (distinct : i.Distinct) {e : ViewError}
    (refuses : i.Refuses name e) : r.plan name = .error e := by
  have getter {f : ContractFunction} (hf : i.HasGetter name f) :
      i.getters.get? name = some ⟨f.selector, false, f.outputs.head?⟩ := by
    rw [Interface.getters_get?_of_hasGetter distinct hf, Getter.ofFunction, hf.bare]
    rfl
  cases refuses with
  | unknown changes => simp [plan, own, Interface.getters_get?_eq_none_iff.2 changes]
  | @takesArguments f listed named readOnly none =>
    cases kept : i.getters.get? name with
    | none =>
      have changes := Interface.getters_get?_eq_none_iff.1 kept f listed named
      exact absurd readOnly (by simp [changes])
    | some other =>
      simp [plan, own, kept, Interface.takesArguments_of_not_hasGetter none kept]
  | noOutput hf nothing => simp [plan, own, getter hf, nothing]
  | noType hf first bad => simp [plan, own, getter hf, first, bad]
  | noNumber hf first typed other => simp [plan, own, getter hf, first, typed]

theorem not_readable_of_refuses (own : r.getters = i.getters) (distinct : i.Distinct)
    {e : ViewError} (refuses : i.Refuses name e) : ¬ ∃ f type, i.Readable name f type := by
  rintro ⟨f, type, readable⟩
  have planned := plan_of_readable own distinct readable
  rw [plan_of_refuses own distinct refuses] at planned
  cases planned

/-- The order of the functions does not matter. -/
theorem plan_eq_of_perm (own : r.getters = i.getters) (own' : r'.getters = j.getters)
    (distinct : i.Distinct) (perm : i.Perm j) (name : String) : r.plan name = r'.plan name := by
  have distinct' := distinct.of_perm perm
  rcases i.readable_or_refuses name with ⟨f, type, readable⟩ | ⟨e, refuses⟩
  · rw [plan_of_readable own distinct readable,
      plan_of_readable own' distinct' (readable.of_perm perm)]
  · rw [plan_of_refuses own distinct refuses, plan_of_refuses own' distinct' (refuses.of_perm perm)]

end ContractView

/-! ## The log -/

/-- The environment that keeps a log of its calls. -/
def Environment.recording {σ : Type} (environment : Environment σ) :
    Environment (σ × List SentMessage) := fun target selector message (s, log) =>
  match environment target selector message s with
  | .ok o s => .ok o (s, log ++ [⟨target, selector, message⟩])
  | .error e s => .error e (s, log ++ [⟨target, selector, message⟩])

/-- The log gets the call, and nothing else changes. -/
theorem Environment.recording_eq {σ : Type} {environment : Environment σ} {target : Address}
    {selector : Selector} {message : Message} {s s' : σ} {reply : Except CallError Receipt}
    (called : environment target selector message s = settled s' reply)
    (log : List SentMessage) : environment.recording target selector message (s, log) =
      settled (s', log ++ [⟨target, selector, message⟩]) reply := by
  cases reply <;> simp only [recording, called, settled]

/-- Every result is an outcome beside a state. -/
theorem exists_settled {ε σ α : Type} (result : EStateM.Result ε σ α) :
    ∃ s outcome, result = settled s outcome := by
  cases result with
  | ok a s => exact ⟨s, .ok a, rfl⟩
  | error e s => exact ⟨s, .error e, rfl⟩

namespace ContractView

variable {σ : Type} {r : ContractView σ} {name : String} {type : NumberType} {i : Interface}
  {f : ContractFunction} {s s' : σ} {reply : Except CallError Receipt} {v : Scalar}

/-- What the reply to a call says about the getter. -/
def answer (name : String) (type : NumberType) :
    Except CallError Receipt → Except ViewError Scalar
  | .error e => .error (.environment name e.message)
  | .ok o => interpret name type o

theorem answer_eq_ok_iff : answer name type reply = .ok v ↔
    ∃ o, reply = .ok o ∧ o.status = .success ∧ 32 ≤ o.output.length ∧
      v.val = type.integer (Word.ofBytes (o.output.take 32)) := by
  cases reply with
  | error e => simp [answer]
  | ok o => simp [answer, interpret_eq_ok_iff]

/-- A name that can be read is read by one call. -/
theorem read_of_readable (own : r.getters = i.getters) (distinct : i.Distinct)
    (readable : i.Readable name f type)
    (called : r.environment r.target f.selector (.query r.caller r.gasLimit) s =
      settled s' reply) : r.read name s = settled s' (answer name type reply) := by
  simp only [read, plan_of_readable own distinct readable, called]
  cases reply with
  | error e => rfl
  | ok o =>
    simp only [settled, answer]
    cases interpret name type o <;> rfl

/-- A name that cannot be read leaves everything as it was. -/
theorem read_of_refuses (own : r.getters = i.getters) (distinct : i.Distinct) {e : ViewError}
    (refuses : i.Refuses name e) (s : σ) : r.read name s = .error e s := by
  simp only [read, plan_of_refuses own distinct refuses]

/-- The answer is a number exactly when some function that can be read has one, since there is
one such function only. -/
theorem answer_eq_ok_iff_of_readable {environment : Environment σ} {target : Address}
    {message : Message} (distinct : i.Distinct) (readable : i.Readable name f type)
    (called : environment target f.selector message s = settled s' reply) :
    answer name type reply = .ok v ↔ ∃ f type o s₁, i.Readable name f type ∧
      environment target f.selector message s = .ok o s₁ ∧ o.status = .success ∧
      32 ≤ o.output.length ∧ v.val = type.integer (Word.ofBytes (o.output.take 32)) := by
  rw [answer_eq_ok_iff]
  constructor
  · rintro ⟨o, rfl, answered⟩
    exact ⟨f, type, o, s', readable, called, answered⟩
  · rintro ⟨g, type', o, s₁, readable', called', answered⟩
    obtain ⟨rfl, rfl⟩ := readable.unique distinct readable'
    rw [called] at called'
    cases reply with
    | error e => cases called'
    | ok o' =>
      cases called'
      exact ⟨o, rfl, answered⟩

/-- **A number is read off a contract by one call that changes nothing, or there is an error.**
In an interface whose functions of one name differ in what they take, a name can be read when
one of its functions changes nothing, takes nothing and returns a number first. Exactly then
there is a call, and it is one: to the target, by the selector of that function, with the
caller and the gas limit of the view, without money or arguments, and not to last. The answer
is a number exactly when the call succeeds with 32 bytes or more, and it is the one that the
first word stands for under the type that is returned first; all else is an error. Without a
call the error says why the name cannot be read, and the state is what it was. In what order the
functions are listed does not matter. -/
theorem read_one_call (environment : Environment σ) (target caller : Address) (gasLimit : Nat)
    (distinct : i.Distinct) (name : String) :
    let query : Message := { caller, value := 0, data := [], commit := false, gasLimit }
    (∀ (s : σ) (log : List SentMessage), ∃ calls s' outcome,
      read ⟨environment, target, caller, gasLimit, i.getters⟩ name s = settled s' outcome ∧
      read ⟨environment.recording, target, caller, gasLimit, i.getters⟩ name (s, log) =
        settled (s', log ++ calls) outcome ∧
      calls.length ≤ 1 ∧ (calls ≠ [] ↔ ∃ f type, i.Readable name f type) ∧
      (∀ f type, i.Readable name f type → calls = [⟨target, f.selector, query⟩] ∧
        ∃ reply, environment target f.selector query s = settled s' reply) ∧
      (∀ v, outcome = .ok v ↔ ∃ f type o s₁, i.Readable name f type ∧
        environment target f.selector query s = .ok o s₁ ∧ o.status = .success ∧
        32 ≤ o.output.length ∧ v.val = type.integer (Word.ofBytes (o.output.take 32))) ∧
      (calls = [] → s' = s ∧ ∃ e, i.Refuses name e ∧ outcome = .error e)) ∧
    ∀ j : Interface, i.Perm j → read ⟨environment, target, caller, gasLimit, j.getters⟩ name =
      read ⟨environment, target, caller, gasLimit, i.getters⟩ name := by
  intro query
  refine ⟨fun s log => ?_, fun j perm => ?_⟩
  · rcases i.readable_or_refuses name with ⟨f, type, readable⟩ | ⟨e, refuses⟩
    · obtain ⟨s', reply, called⟩ := exists_settled (environment target f.selector query s)
      refine ⟨[⟨target, f.selector, query⟩], s', answer name type reply,
        read_of_readable rfl distinct readable called,
        read_of_readable rfl distinct readable (Environment.recording_eq called log),
        Nat.le_refl 1, iff_of_true (List.cons_ne_nil _ _) ⟨f, type, readable⟩, ?_, ?_, nofun⟩
      · rintro g type' readable'
        obtain ⟨rfl, -⟩ := readable.unique distinct readable'
        exact ⟨rfl, reply, called⟩
      · exact fun v => answer_eq_ok_iff_of_readable distinct readable called
    · have refused := not_readable_of_refuses
        (r := ⟨environment, target, caller, gasLimit, i.getters⟩) rfl distinct refuses
      refine ⟨[], s, .error e, read_of_refuses rfl distinct refuses s, ?_, Nat.zero_le 1,
        iff_of_false (fun none => none rfl) refused, ?_, ?_, fun _ => ⟨rfl, e, refuses, rfl⟩⟩
      · rw [List.append_nil]
        exact read_of_refuses rfl distinct refuses (s, log)
      · exact fun f type readable => (refused ⟨f, type, readable⟩).elim
      · exact fun v => iff_of_false nofun
          fun ⟨f, type, o, s₁, readable, _⟩ => refused ⟨f, type, readable⟩
  · funext s
    have planned : plan ⟨environment, target, caller, gasLimit, i.getters⟩ name =
        plan ⟨environment, target, caller, gasLimit, j.getters⟩ name :=
      plan_eq_of_perm rfl rfl distinct perm name
    simp only [read, planned]

/-- Of two overloads the one listed second takes nothing. It is the one that is called, and the
500 that it returns is read. -/
theorem read_one_call_limit :
    let bare : ContractFunction := ⟨"limit", [], ["uint256"], .view⟩
    let limits : Interface := [⟨"limit", [⟨"who", "address"⟩], ["uint256"], .view⟩, bare]
    let reply : Receipt := ⟨.success, 21000, (500 : Word).bytes, 1⟩
    limits.Distinct ∧
      ∃ v s', read ⟨scriptedMachine.recording, 1, 2, 30000, limits.getters⟩ "limit"
          (⟨[.ok reply], []⟩, []) =
        .ok v (s', [⟨1, bare.selector, ⟨2, 0, [], false, 30000⟩⟩]) ∧ v.val = 500 := by
  intro bare limits reply
  have distinct : limits.Distinct := by decide
  have readable : limits.Readable "limit" bare (.uint 256) :=
    ⟨⟨by simp [limits], rfl, rfl, rfl⟩, "uint256", rfl, rfl⟩
  obtain ⟨reads, -⟩ := read_one_call scriptedMachine 1 2 30000 distinct "limit"
  obtain ⟨calls, s', outcome, run, logged, -, -, call, number, -⟩ := reads ⟨[.ok reply], []⟩ []
  have val : (Scalar.ofWord 500).val = 500 := Scalar.val_ofWord (by decide)
  have word : Word.ofBytes (reply.output.take 32) = 500 := by decide
  have read500 : outcome = .ok (Scalar.ofWord 500) :=
    (number _).2 ⟨bare, .uint 256, reply, _, readable, rfl, rfl, by decide, by rw [val, word]; rfl⟩
  refine ⟨distinct, Scalar.ofWord 500, s', ?_, val⟩
  rw [logged, read500, (call bare (.uint 256) readable).1]
  rfl

end ContractView

end GuardedCalls
