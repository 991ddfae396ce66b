/-
GuardedCalls.Proofs.DrawnValueTheorems — every drawn value is one of its type.

A space is narrowed at its top or at any place in it. Whatever is accepted there,
each of its domains stays one that accepted constraints have led to, and that is
all a draw has to know: a number it gives lies in the range of its type.

* `Yields` — what a program gives and how it may fail, whatever state it starts
  in, with the rules for programs in turn.
* `Led` — the spaces that accepted constraints lead to, the constraints at any
  place. `changeAt_every` is the step lemma and `Led.every` the run lemma.
* `AbiValue.Sized` — bytes, a text or an array are neither empty nor too long.
* `Space.draw_yields` — the induction on the space: the value passes the check,
  all in it is sized, and no number is found not to fit its type.
* `drawn_values_legal` — the outcome for spaces and for sessions, where no value
  is ever refused by its check.
-/
import GuardedCalls.Proofs.CodecTheorems
import GuardedCalls.Proofs.RuleTheorems

namespace GuardedCalls

/-! ## What programs give -/

/-- Whatever state it starts in, the program gives a good result or fails with
an error that is allowed. -/
structure Yields {ε σ α : Type} (good : α → Prop) (allowed : ε → Prop) (m : EStateM ε σ α) :
    Prop where
  of_ok : ∀ {s s' : σ} {a : α}, m s = .ok a s' → good a
  of_error : ∀ {s s' : σ} {e : ε}, m s = .error e s' → allowed e

namespace Yields

variable {ε σ α β : Type} {good : α → Prop} {good' : β → Prop} {allowed : ε → Prop}
  {m : EStateM ε σ α}

protected theorem pure {a : α} (h : good a) : Yields good allowed (pure a : EStateM ε σ α) where
  of_ok := by
    rintro s s' _ ⟨⟩
    exact h
  of_error := nofun

protected theorem throw {e : ε} (h : allowed e) :
    Yields good allowed (throw e : EStateM ε σ α) where
  of_ok := nofun
  of_error := by
    rintro s s' _ ⟨⟩
    exact h

protected theorem bind {next : α → EStateM ε σ β} (first : Yields good allowed m)
    (later : ∀ a, good a → Yields good' allowed (next a)) :
    Yields good' allowed (m >>= next) where
  of_ok := by
    intro s s' b run
    obtain ⟨a, s₁, given, run⟩ := bind_eq_ok_iff.1 run
    exact (later a (first.of_ok given)).of_ok run
  of_error := by
    intro s s' e run
    simp only [Bind.bind, EStateM.bind] at run
    cases given : m s with
    | ok a s₁ =>
      rw [given] at run
      exact (later a (first.of_ok given)).of_error run
    | error e₁ s₁ =>
      rw [given] at run
      cases run
      exact first.of_error given

/-- What is good is good enough. -/
theorem mono {weaker : α → Prop} (h : Yields good allowed m) (enough : ∀ a, good a → weaker a) :
    Yields weaker allowed m :=
  ⟨fun run => enough _ (h.of_ok run), fun run => h.of_error run⟩

/-- A program that is run some times. -/
theorem times (h : Yields good allowed m) (n : Nat) :
    Yields (fun as => as.length = n ∧ ∀ a ∈ as, good a) allowed (Random.times m n) := by
  induction n with
  | zero => exact .pure ⟨rfl, List.forall_mem_nil _⟩
  | succ n ih =>
    refine .bind h fun a first => .bind ih fun as others => .pure ?_
    exact ⟨congrArg (· + 1) others.1, List.forall_mem_cons.2 ⟨first, others.2⟩⟩

/-- A program for each item of a list, from a good result on. -/
theorem foldlM {f : α → β → EStateM ε σ α} (step : ∀ a b, good a → Yields good allowed (f a b)) :
    ∀ (l : List β) (a : α), good a → Yields good allowed (l.foldlM f a)
  | [], _, h => .pure h
  | b :: l, a, h => by
    rw [List.foldlM_cons]
    exact .bind (step a b h) fun a' h' => foldlM step l a' h'

end Yields

/-! ## Lengths -/

namespace Random

/-- Draws in turn give what the draw gives, as often as asked for. -/
theorem times_spec {α : Type} {draw : Draw α} (good : α → Prop) (one : ∀ s, good (draw s).1)
    (n : Nat) (s : Stream) :
    (times draw n s).1.length = n ∧ ∀ a ∈ (times draw n s).1, good a := by
  induction n generalizing s with
  | zero => exact ⟨rfl, List.forall_mem_nil _⟩
  | succ n ih =>
    obtain ⟨length, others⟩ := ih (draw s).2
    exact ⟨congrArg (· + 1) length, List.forall_mem_cons.2 ⟨one s, others⟩⟩

/-- As many bytes are drawn as asked for. -/
theorem length_bytes (count : Nat) (s : Stream) : (bytes count s).1.length = count := by
  have words : (times word ((count + 3) / 4) s).1.length = (count + 3) / 4 :=
    (times_spec (fun _ => True) (fun _ => trivial) _ s).1
  have four : ∀ w ∈ (times word ((count + 3) / 4) s).1, (wordBytes w).length = 4 :=
    fun _ _ => rfl
  show (((times word ((count + 3) / 4) s).1.flatMap wordBytes).take count).length = count
  rw [List.length_take, List.length_flatMap, List.map_congr_left four, List.map_const',
    List.sum_replicate_nat, words]
  omega

/-- A length lies between one and the limit. -/
theorem Lengths.draw_mem (l : Lengths) (s : Stream) :
    1 ≤ (l.draw s).1 ∧ (l.draw s).1 ≤ l.limit := by
  unfold draw
  split
  · exact ⟨Nat.le_refl 1, l.one_le_limit⟩
  · exact ⟨l.one_le_length _, l.length_le _⟩

end Random

/-- The characters of drawn texts are single bytes. -/
theorem utf8Size_printableChar (s : Random.Stream) : (printableChar s).1.utf8Size = 1 := by
  have all : printable.all (fun c => c.utf8Size == 1) = true := by decide
  show (printable.getD (Random.index printable.length s).1 ' ').utf8Size = 1
  rw [List.getD_eq_getElem?_getD]
  cases found : printable[(Random.index printable.length s).1]? with
  | none => rfl
  | some c => exact beq_iff_eq.1 (List.all_eq_true.1 all c (List.mem_of_getElem? found))

/-- A text of characters that are single bytes. -/
theorem utf8ByteSize_of_single {cs : List Char} (single : ∀ c ∈ cs, c.utf8Size = 1) :
    (String.ofList cs).utf8ByteSize = cs.length := by
  induction cs with
  | nil => rfl
  | cons c cs ih =>
    obtain ⟨first, others⟩ := List.forall_mem_cons.1 single
    rw [String.ofList_cons, String.utf8ByteSize_append, String.utf8ByteSize_singleton, first,
      ih others, List.length_cons, Nat.add_comm]

namespace Yields

variable {ε σ α : Type} {good : α → Prop} {allowed : ε → Prop}

/-- A draw, whatever stream it is from. -/
theorem draw {d : Random.Draw α} (h : ∀ stream, good (d stream).1) :
    Yields good allowed (World.draw d : EStateM ε (World σ) α) where
  of_ok := by
    rintro w w' _ ⟨⟩
    exact h w.stream
  of_error := nofun

theorem bytes (count : Nat) : Yields (fun bs => bs.length = count) allowed
    (World.draw (Random.bytes count) : EStateM ε (World σ) (List UInt8)) :=
  draw (Random.length_bytes count)

theorem length (l : Random.Lengths) : Yields (fun n => 1 ≤ n ∧ n ≤ l.limit) allowed
    (World.draw l.draw : EStateM ε (World σ) Nat) := draw l.draw_mem

theorem printableChars (count : Nat) :
    Yields (fun cs => cs.length = count ∧ ∀ c ∈ cs, c.utf8Size = 1) allowed
      (World.draw (Random.times printableChar count) : EStateM ε (World σ) (List Char)) :=
  draw (Random.times_spec (fun c : Char => c.utf8Size = 1) utf8Size_printableChar count)

end Yields

/-! ## Values at places -/

namespace AbiValue

/-- Bytes, a text or an array are neither empty nor longer than a limit, and a
text has one byte for each character. -/
def Sized (limit : Nat) : AbiValue → Prop
  | .bytes bs => 1 ≤ bs.length ∧ bs.length ≤ limit
  | .string text => (1 ≤ text.length ∧ text.length ≤ limit) ∧ text.utf8ByteSize = text.length
  | .array items => 1 ≤ items.length ∧ items.length ≤ limit
  | _ => True

/-- The value is sized, and so is all that is in it. -/
def SizedThrough (limit : Nat) (v : AbiValue) : Prop :=
  ∀ place u, v.at? place = some u → u.Sized limit

variable {limit : Nat} {v u : AbiValue} {t : AbiType}

theorem sizedThrough_iff :
    v.SizedThrough limit ↔ v.Sized limit ∧ ∀ u ∈ v.items, u.SizedThrough limit := by
  constructor
  · refine fun h => ⟨h [] v rfl, fun u hu place w found => ?_⟩
    obtain ⟨i, item⟩ := List.mem_iff_getElem?.1 hu
    exact h (i :: place) w (by rw [at?, item]; exact found)
  · rintro ⟨here, below⟩ place w found
    cases place with
    | nil =>
      cases found
      exact here
    | cons i place =>
      obtain ⟨u, item, found⟩ := Option.bind_eq_some_iff.1 found
      exact below u (List.mem_of_getElem? item) place w found

/-- A value without items is sized through if it is sized. -/
theorem sizedThrough_of_bare (here : v.Sized limit) (bare : v.items = []) :
    v.SizedThrough limit :=
  sizedThrough_iff.2 ⟨here, fun u hu => by rw [bare] at hu; cases hu⟩

/-- A number needs no length. -/
theorem sizedThrough_of_scalar? {x : Scalar} (number : v.scalar? = some x) :
    v.SizedThrough limit := by
  refine sizedThrough_of_bare ?_ (items_of_scalar? number)
  cases v with
  | bytes bs => cases number
  | string text => cases number
  | array items => cases number
  | _ => trivial

theorem HaveTypes.get {vs : List AbiValue} {ts : List AbiType} (typed : HaveTypes vs ts) {i : Nat}
    (item : vs[i]? = some v) : ∃ t, ts[i]? = some t ∧ v.HasType t := by
  induction i generalizing vs ts with
  | zero =>
    cases typed with
    | nil => cases item
    | cons first others =>
      cases item
      exact ⟨_, rfl, first⟩
  | succ i ih =>
    cases typed with
    | nil => cases item
    | cons first others => exact ih others item

theorem items_of_hasShape {type : NumberType} (shape : Space.hasShape type v = true) :
    v.items = [] := by
  cases v with
  | fixedArray items => simp [Space.hasShape] at shape
  | array items => simp [Space.hasShape] at shape
  | tuple items => simp [Space.hasShape] at shape
  | _ => rfl

/-- An item of a value has the type at its index. -/
theorem HasType.item (typed : v.HasType t) {i : Nat} (item : v.items[i]? = some u) :
    ∃ t', t.item? i = some t' ∧ u.HasType t' := by
  cases typed with
  | number shape =>
    rw [items_of_hasShape shape] at item
    cases item
  | fixedArray size items =>
    have inside := size ▸ (List.getElem?_eq_some_iff.1 item).1
    exact ⟨_, if_pos inside, items u (List.mem_of_getElem? item)⟩
  | array items => exact ⟨_, rfl, items u (List.mem_of_getElem? item)⟩
  | tuple items => exact items.get item
  | _ => cases item

/-- What stands at a place of a value has the type at that place. -/
theorem HasType.at? (typed : v.HasType t) {place : List Nat} (found : v.at? place = some u) :
    ∃ t', t.at? place = some t' ∧ u.HasType t' := by
  induction place generalizing v t with
  | nil =>
    cases found
    exact ⟨t, rfl, typed⟩
  | cons i place ih =>
    obtain ⟨w, item, found⟩ := Option.bind_eq_some_iff.1 found
    obtain ⟨t₁, first, typed⟩ := typed.item item
    obtain ⟨t', later, typed⟩ := ih typed found
    exact ⟨t', Option.bind_eq_some_iff.2 ⟨t₁, first, later⟩, typed⟩

/-- Arrays of fixed length have the length that their type says. -/
theorem HasType.length_fixedArray (typed : v.HasType t) {place : List Nat} {items : List AbiValue}
    (found : v.at? place = some (.fixedArray items)) :
    ∃ element length, t.at? place = some (.fixedArray element length) ∧
      items.length = length := by
  obtain ⟨t', standing, typed⟩ := typed.at? found
  cases typed with
  | number shape => simp [Space.hasShape] at shape
  | fixedArray size items => exact ⟨_, _, standing, size⟩

end AbiValue

/-! ## Constraints at places -/

namespace Space

section Places

variable {σ α : Type} {view : StateView σ} {P : NumberType → Domain → Prop} {type : AbiType}
  {space space' : Space}

/-- What all domains of a space have, those one level down have. -/
theorem Every.element (every : space.Every P) {i : Nat} {element : Space}
    (item : space.elements[i]? = some element) : element.Every P := by
  have inside := List.mem_of_getElem? item
  cases space with
  | fixedArray first length =>
    obtain rfl := List.mem_singleton.1 inside
    exact every
  | array first =>
    obtain rfl := List.mem_singleton.1 inside
    exact every
  | tuple items => exact everyOf_iff.1 every element inside
  | _ => cases inside

/-- With a space of the same type in the place of one that is one level down, a
space keeps its type and what all domains have. -/
theorem Every.withElements_set (every : space.Every P) {i : Nat} {element element' : Space}
    (item : space.elements[i]? = some element) (typed : element'.type = element.type)
    (every' : element'.Every P) :
    (space.withElements (space.elements.set i element')).type = space.type ∧
      (space.withElements (space.elements.set i element')).Every P := by
  cases space with
  -- An array has one space in it, so the place is the first.
  | fixedArray first length =>
    cases i with
    | zero =>
      cases item
      exact ⟨congrArg (AbiType.fixedArray · length) typed, every'⟩
    | succ i => cases item
  | array first =>
    cases i with
    | zero =>
      cases item
      exact ⟨congrArg AbiType.array typed, every'⟩
    | succ i => cases item
  | tuple items =>
    refine ⟨congrArg AbiType.tuple ?_, everyOf_iff.2 fun space hs => ?_⟩
    · obtain ⟨bound, rfl⟩ := List.getElem?_eq_some_iff.1 item
      rw [types_eq_map, types_eq_map, List.map_set, typed, ← List.map_set]
      exact congrArg (List.map type) (List.set_getElem_self bound)
    · rcases List.mem_or_eq_of_mem_set hs with before | rfl
      · exact everyOf_iff.1 every space before
      · exact every'
  | _ => cases item

/-- A change at a place that keeps the type there, and what all domains have,
keeps them for the whole space. -/
theorem changeAt_every {change : Space → α × Space} {a : α}
    (keeps : ∀ element, element.Every P → (change element).1 = a →
      (change element).2.type = element.type ∧ (change element).2.Every P)
    {place : List Nat} (run : space.changeAt change place = (some a, space'))
    (every : space.Every P) : space'.type = space.type ∧ space'.Every P := by
  induction place generalizing space space' with
  | nil =>
    obtain ⟨same, rfl⟩ := Prod.mk.inj run
    exact keeps space every (Option.some.inj same)
  | cons i place ih =>
    rw [changeAt] at run
    cases item : space.elements[i]? with
    | none =>
      rw [item] at run
      cases run
    | some element =>
      simp only [item] at run
      generalize changed : changeAt change place element = result at run
      obtain ⟨a?, element'⟩ := result
      obtain ⟨rfl, rfl⟩ := Prod.mk.inj run
      obtain ⟨typed, every'⟩ := ih changed (every.element item)
      exact every.withElements_set item typed every'

/-- A constraint as a change of a space. -/
def narrowing (view : StateView σ) (c : Constraint) (s : σ) (space : Space) :
    (Option ConstrainError × σ) × Space :=
  let ((space, error?), s) := space.constrain view c s
  ((error?, s), space)

/-- The spaces that accepted constraints lead to from the whole range of a type.
A constraint is applied to the space or to one at a place in it. -/
inductive Led (type : AbiType) : Space → Prop
  | whole : Led type (ofType type)
  | step {space space' : Space} {σ : Type} (view : StateView σ) (c : Constraint)
      (place : List Nat) {s s' : σ} (before : Led type space)
      (accepted : space.changeAt (narrowing view c s) place = (some (none, s'), space')) :
      Led type space'

/-- Accepted constraints have led to the domain. -/
def Narrowed (type : NumberType) (d : Domain) : Prop := ∃ cs, Domain.Reached type cs d

/-- An accepted constraint keeps the type and narrows a domain. -/
theorem narrowing_every {c : Constraint} {s s' : σ} (every : space.Every Narrowed)
    (accepted : (narrowing view c s space).1 = (none, s')) :
    (narrowing view c s space).2.type = space.type ∧
      (narrowing view c s space).2.Every Narrowed := by
  refine ⟨space.type_constrain view c s, ?_⟩
  have run := constrain_of_error? (Prod.mk.inj accepted).1
  cases space with
  | number number d =>
    rcases constrain_number_cases run with ⟨-, passed⟩ | ⟨d', narrowed, step⟩
    · cases passed
    · obtain ⟨cs, reached⟩ := every
      show Every Narrowed ((Space.number number d).constrain view c s).1.1
      rw [narrowed]
      exact ⟨_, reached.step view c step⟩
  | _ =>
    obtain ⟨-, passed⟩ := constrain_of_not_number (fun _ same => by cases same) run
    cases passed

mutual

theorem every_ofType {P : NumberType → Domain → Prop}
    (whole : ∀ number, P number (Domain.ofType number)) : (t : AbiType) → (ofType t).Every P
  | .number type => whole type
  | .fixedBytes _ => trivial
  | .function => trivial
  | .bytes => trivial
  | .string => trivial
  | .fixedArray element _ => every_ofType whole element
  | .array element => every_ofType whole element
  | .tuple items => everyOf_ofTypes whole items

theorem everyOf_ofTypes {P : NumberType → Domain → Prop}
    (whole : ∀ number, P number (Domain.ofType number)) :
    (ts : List AbiType) → EveryOf P (ofTypes ts)
  | [] => trivial
  | t :: ts => ⟨every_ofType whole t, everyOf_ofTypes whole ts⟩

end

/-- The run lemma: accepted constraints keep the type and narrow domains. -/
theorem Led.every (led : Led type space) : space.type = type ∧ space.Every Narrowed := by
  induction led with
  | whole => exact ⟨type_ofType type, every_ofType (fun _ => ⟨[], .whole⟩) type⟩
  | step view c place before accepted ih =>
    obtain ⟨typed, every⟩ := ih
    obtain ⟨same, every'⟩ :=
      changeAt_every (fun _ narrowed accepted => narrowing_every narrowed accepted) accepted every
    exact ⟨same.trans typed, every'⟩

end Places

end Space

/-! ## Draws -/

/-- The error is not that a number does not fit its type. -/
def ConstrainError.IsFair : ConstrainError → Prop
  | .empty (.unfit _ _) => False
  | _ => True

namespace Domain

variable {σ : Type} {view : StateView σ} {type : NumberType} {cs : List Constraint} {d : Domain}

/-- Reading a bound fails because it has no number, or because nothing is left
then. -/
theorem narrowLive_yields (view : StateView σ) (decimals : Nat) (d : Domain) (c : Constraint) :
    Yields (fun _ => True) ConstrainError.IsFair (narrowLive view decimals d c) := by
  have read : Yields (fun _ => True) ConstrainError.IsFair
      (EStateM.adaptExcept ConstrainError.bound (c.boundValue view decimals)) := by
    refine ⟨fun _ => trivial, ?_⟩
    intro s s' e run
    simp only [EStateM.adaptExcept] at run
    cases value : c.boundValue view decimals s with
    | ok v s =>
      rw [value] at run
      cases run
    | error e s =>
      rw [value] at run
      cases run
      trivial
  refine .bind read fun v _ => ?_
  rcases d.restrict c.comparison v with ⟨narrowed, _ | reason⟩
  · exact .pure trivial
  · exact .throw trivial

/-- A draw gives a number in the range of the type. It never fails for one that
does not fit. -/
theorem Reached.draw_yields (reached : Reached type cs d) (view : StateView σ) (attempts : Nat) :
    Yields (fun x => leastOf type ≤ x ∧ x ≤ greatestOf type) ConstrainError.IsFair
      (d.draw view attempts) := by
  have refreshed : Yields (fun _ => True) ConstrainError.IsFair (d.refreshed view) :=
    .foldlM (fun d' c _ => narrowLive_yields view d.decimals d' c) _ _ trivial
  refine ⟨fun run => (reached.of_draw run).1, ?_⟩
  intro w w' e run
  -- Once the bounds are read, a value is left, and one is picked.
  cases read : d.refreshed view w.state with
  | ok d' s =>
    obtain ⟨-, -, -, -, -, left⟩ := reached.refreshed_ok_iff.1 read
    obtain ⟨x, w'', drawn, -⟩ := draw_of_refreshed read left
    rw [drawn] at run
    cases run
  | error e' s =>
    rw [draw_of_refreshed_error read] at run
    cases run
    exact refreshed.of_error read

end Domain

namespace Space

section Draws

variable {σ : Type} {how : Sampling} {space : Space} {type : NumberType} {d : Domain}

theorem forM_of_forall {ε α : Type} {f : α → Except ε Unit} {as : List α}
    (h : ∀ a ∈ as, f a = .ok ()) : as.forM f = .ok () := by
  induction as with
  | nil => rfl
  | cons a as ih =>
    obtain ⟨first, others⟩ := List.forall_mem_cons.1 h
    rw [List.forM, first]
    exact ih others

/-- The value passes the check of the space, and all in it is sized. -/
def Gives (how : Sampling) (space : Space) (v : AbiValue) : Prop :=
  space.check v = .ok () ∧ v.SizedThrough how.lengths.limit

/-- The same for some values in turn. -/
def GivesAll (how : Sampling) (spaces : List Space) (vs : List AbiValue) : Prop :=
  vs.length = spaces.length ∧ checkAll spaces vs = .ok () ∧
    ∀ v ∈ vs, v.SizedThrough how.lengths.limit

theorem draw_number_yields (wf : type.WellFormed) (narrowed : Narrowed type d)
    (view : StateView σ) (how : Sampling) :
    Yields (Gives how (.number type d)) ConstrainError.IsFair
      ((Space.number type d).draw view how) := by
  obtain ⟨cs, reached⟩ := narrowed
  refine .bind (reached.draw_yields view how.attempts) fun x inType => ?_
  obtain ⟨v, made, fits⟩ := exists_checked wf reached.records inType
  rw [made]
  exact .pure ⟨fits, AbiValue.sizedThrough_of_scalar? (NumberType.scalar?_of_value? made)⟩

mutual

/-- A space whose domains are narrowed gives values that pass its check and are
sized, and it never fails for a number that does not fit its type. -/
theorem draw_yields (view : StateView σ) (how : Sampling) : (space : Space) →
    space.type.WellFormed → space.Every Narrowed →
      Yields (Gives how space) ConstrainError.IsFair (space.draw view how)
  | .number type d, wf, narrowed => draw_number_yields wf narrowed view how
  | .fixedBytes size, wf, _ => by
    refine .bind (.bytes size) fun bs _ => .pure ⟨?_, ?_⟩
    · simp only [check, accept, zeroFrom_ofBytes wf.2, decide_true, Bool.and_self, if_true]
    · exact AbiValue.sizedThrough_of_bare trivial rfl
  | .function, _, _ => by
    refine .bind (.bytes 24) fun bs _ => .pure ⟨by rw [check], ?_⟩
    exact AbiValue.sizedThrough_of_bare trivial rfl
  | .bytes, _, _ => by
    refine .bind (.length how.lengths) fun length inside => ?_
    refine .bind (.bytes length) fun bs size => .pure ⟨by rw [check], ?_⟩
    exact AbiValue.sizedThrough_of_bare (by rwa [AbiValue.Sized, size]) rfl
  | .string, _, _ => by
    refine .bind (.length how.lengths) fun length inside => ?_
    refine .bind (.printableChars length) fun cs spec =>
      .pure ⟨by rw [check], ?_⟩
    obtain ⟨size, single⟩ := spec
    refine AbiValue.sizedThrough_of_bare ?_ rfl
    rw [AbiValue.Sized, String.length_ofList, utf8ByteSize_of_single single, size]
    exact ⟨inside, rfl⟩
  | .fixedArray element length, wf, narrowed => by
    refine .bind ((draw_yields view how element wf.1 narrowed).times length) fun vs given => ?_
    refine .pure ⟨?_, AbiValue.sizedThrough_iff.2 ⟨trivial, fun u hu => (given.2 u hu).2⟩⟩
    rw [check, if_pos given.1]
    exact forM_of_forall fun u hu => (given.2 u hu).1
  | .array element, wf, narrowed => by
    refine .bind (.length how.lengths) fun length inside => ?_
    refine .bind ((draw_yields view how element wf narrowed).times length) fun vs given => ?_
    refine .pure ⟨?_, AbiValue.sizedThrough_iff.2 ⟨?_, fun u hu => (given.2 u hu).2⟩⟩
    · rw [check]
      exact forM_of_forall fun u hu => (given.2 u hu).1
    · rwa [AbiValue.Sized, given.1]
  | .tuple spaces, wf, narrowed => by
    have items := drawAll_yields view how spaces wf narrowed
    refine .bind items fun vs given => .pure ⟨?_, ?_⟩
    · rw [check, if_pos given.1.symm]
      exact given.2.1
    · exact AbiValue.sizedThrough_iff.2 ⟨trivial, given.2.2⟩

/-- So do spaces in turn. -/
theorem drawAll_yields (view : StateView σ) (how : Sampling) : (spaces : List Space) →
    AbiType.AllWellFormed (types spaces) → EveryOf Narrowed spaces →
      Yields (GivesAll how spaces) ConstrainError.IsFair (drawAll view how spaces)
  | [], _, _ => .pure ⟨rfl, rfl, List.forall_mem_nil _⟩
  | space :: spaces, wf, narrowed => by
    have firstYields := draw_yields view how space wf.1 narrowed.1
    have othersYield := drawAll_yields view how spaces wf.2 narrowed.2
    rw [drawAll]
    refine firstYields.bind fun v first => ?_
    refine othersYield.bind fun vs others => ?_
    refine .pure ⟨?_, ?_, ?_⟩
    · exact congrArg (· + 1) others.1
    · rw [checkAll, first.1]
      exact others.2.1
    · exact List.forall_mem_cons.2 ⟨first.2, others.2.2⟩

end

end Draws

end Space

/-! ## Sessions -/

/-- The error is not that a value is none of its type. -/
def SessionError.IsFair : SessionError → Prop
  | .misfit _ => False
  | _ => True

namespace Assembly

section Assemblies

variable {σ : Type} {view : StateView σ} {rules : RuleBook} {key : ArgumentKey}

theorem narrowBy_yields (c : Constraint) (space : Space) {mismatch : AbiKind → Step σ Space}
    (passed : ∀ kind, Yields (fun _ => True) SessionError.IsFair (mismatch kind)) :
    Yields (fun _ => True) SessionError.IsFair (narrowBy view key c space mismatch) := by
  refine ⟨fun _ => trivial, ?_⟩
  intro a a' e run
  simp only [narrowBy] at run
  generalize space.constrain view c a.state = outcome at run
  obtain ⟨⟨narrowed, error?⟩, s⟩ := outcome
  rcases error? with _ | kind | reason | bad
  · cases run
  · exact (passed kind).of_error run
  · cases run
    trivial
  · cases run
    trivial

theorem narrowByOwn_yields (space : Space) :
    Yields (fun _ => True) SessionError.IsFair (narrowByOwn view rules key space) := by
  unfold narrowByOwn
  cases rules.lookup? key.contract key.function space.type with
  | none => exact .pure trivial
  | some entry =>
    refine .foldlM (fun space c _ => narrowBy_yields c space fun kind => ?_) _ _ trivial
    exact .throw trivial

mutual

theorem narrowByRules_yields : (space : Space) →
    Yields (fun _ => True) SessionError.IsFair (narrowByRules view rules key space)
  | .fixedArray element length => by
    rw [narrowByRules]
    exact .bind (narrowByOwn_yields _) fun _ _ =>
      .bind (narrowByRules_yields element) fun _ _ => .pure trivial
  | .array element => by
    rw [narrowByRules]
    exact .bind (narrowByOwn_yields _) fun _ _ =>
      .bind (narrowByRules_yields element) fun _ _ => .pure trivial
  | .tuple items => by
    rw [narrowByRules]
    exact .bind (narrowByOwn_yields _) fun _ _ =>
      .bind (narrowByRulesAll_yields items) fun _ _ => .pure trivial
  | .number type d => by
    rw [narrowByRules_number]
    exact narrowByOwn_yields _
  | .fixedBytes size => by simpa only [narrowByRules] using narrowByOwn_yields _
  | .function => by simpa only [narrowByRules] using narrowByOwn_yields _
  | .bytes => by simpa only [narrowByRules] using narrowByOwn_yields _
  | .string => by simpa only [narrowByRules] using narrowByOwn_yields _

theorem narrowByRulesAll_yields : (spaces : List Space) →
    Yields (fun _ => True) SessionError.IsFair (narrowByRulesAll view rules key spaces)
  | [] => .pure trivial
  | space :: spaces => by
    rw [narrowByRulesAll]
    exact .bind (narrowByRules_yields space) fun _ _ =>
      .bind (narrowByRulesAll_yields spaces) fun _ _ => .pure trivial

end

/-- An assembly never fails for a value. -/
theorem argumentSpace_yields (view : StateView σ) (rules : RuleBook) (guards : GuardTable)
    (key : ArgumentKey) :
    Yields (fun _ => True) SessionError.IsFair (argumentSpace view rules guards key) := by
  have both : Yields (fun _ => True) SessionError.IsFair (stages view rules guards key) :=
    .bind (narrowByRules_yields _) fun space _ =>
      .foldlM (fun space c _ => narrowBy_yields c space fun _ => .pure trivial) _ _ trivial
  refine ⟨fun _ => trivial, ?_⟩
  intro s s' e run
  rw [argumentSpace_eq] at run
  cases assembled : stages view rules guards key ⟨s, []⟩ with
  | ok space a =>
    rw [assembled] at run
    cases run
  | error e₁ a =>
    rw [assembled] at run
    cases run
    exact both.of_error assembled

end Assemblies

end Assembly

namespace Session

variable {σ : Type} {view : StateView σ}

theorem space_yields (key : ArgumentKey) :
    Yields (fun _ => True) SessionError.IsFair (Session.space view key) := by
  refine ⟨fun _ => trivial, ?_⟩
  rintro ⟨s, state⟩ p e run
  simp only [Session.space] at run
  cases cached : s.space? key with
  | some space =>
    simp only [cached] at run
    cases run
  | none =>
    cases assembled : argumentSpace view s.rules s.guards key state with
    | ok space state' =>
      simp only [cached, assembled] at run
      cases run
    | error e₁ state' =>
      simp only [cached, assembled] at run
      cases run
      exact (Assembly.argumentSpace_yields view s.rules s.guards key).of_error assembled

/-- What a session draws from a space, the space gives. -/
theorem draw_yields {key : ArgumentKey} {space : Space} {good : AbiValue → Prop}
    (gives : ∀ how, Yields good ConstrainError.IsFair (space.draw view how)) :
    Yields good SessionError.IsFair (Session.draw view key space) := by
  constructor
  · rintro ⟨s, state⟩ p v run
    obtain ⟨w, drawn, -⟩ := draw_ok_iff.1 run
    exact (gives s.sampling).of_ok drawn
  · rintro ⟨s, state⟩ p e run
    unfold Session.draw at run
    cases drawn : space.draw view s.sampling ⟨state, s.stream⟩ with
    | ok v' w =>
      simp only [drawn] at run
      cases run
    | error e₁ w =>
      simp only [drawn] at run
      cases run
      cases e₁ <;> trivial

/-- What always passes the check is given. -/
theorem draw_check_yields {key : ArgumentKey} {space : Space}
    (gives : ∀ how, Yields (fun v => space.check v = .ok ()) ConstrainError.IsFair
      (space.draw view how)) :
    Yields (fun _ => True) SessionError.IsFair (do
      let v ← Session.draw view key space
      match space.check v with
      | .ok () => return v
      | .error misfit => throw (.misfit misfit)) := by
  refine .bind (draw_yields gives) fun v fits => ?_
  rw [fits]
  exact .pure trivial

/-- No value of an argument is refused by the check of its space. -/
theorem argument_isFair {s₀ : Session} {ops : List Operation}
    (unknown : ∀ key, s₀.space? key = none) {state : σ}
    {contract function typeName name : String} {e : SessionError} {p' : Session × σ}
    (failed : Session.argument view contract function typeName name (s₀.after ops, state) =
      .error e p') : e.IsFair := by
  cases typed : AbiType.ofName typeName with
  | error bad =>
    simp only [Session.argument, typed] at failed
    cases failed
    trivial
  | ok type =>
    simp only [Session.argument, typed, value, Bind.bind, EStateM.bind] at failed
    cases found : Session.space view ⟨contract, function, type, name⟩ (s₀.after ops, state) with
    | error e₁ p₁ =>
      rw [found] at failed
      cases failed
      exact (space_yields _).of_error found
    | ok space p₁ =>
      rw [found] at failed
      -- The space may have been there before; at some time it was assembled.
      obtain ⟨σ', view', guards, state₁, state₂, assembled⟩ := rules_of_space (unknown _) found
      have wf : space.type.WellFormed := by
        rw [argumentSpace_type assembled]
        exact AbiType.wellFormed_of_ofName typed
      have narrowed : space.Every Space.Narrowed :=
        Space.Every.mono (fun _ _ meets => ⟨_, meets.choose_spec.1⟩) space
          (argumentSpace_every assembled)
      have gives : ∀ how, Yields (fun v => space.check v = .ok ()) ConstrainError.IsFair
          (space.draw view how) :=
        fun how => (Space.draw_yields view how space wf narrowed).mono fun _ given => given.1
      exact (draw_check_yields gives).of_error failed

end Session

/-- **Every drawn value is one of its type.** Take a well-formed type and a space
that accepted constraints have led to from its whole range, each of them applied
to the space or to one at a place in it. The space still has the type. Whatever
the stream, the view, the lengths and the attempts are, a value that is drawn
passes the check of the space; its arrays of fixed length have the length that
their type says, and its bytes, texts and arrays have between one item and the
limit, which is one at least. No draw fails for a number that does not fit its
type. So an argument of a session is never refused for a value that is none of
its type. -/
theorem drawn_values_legal :
    (∀ (type : AbiType) (space : Space), type.WellFormed → Space.Led type space →
      space.type = type ∧
      ∀ (σ : Type) (view : StateView σ) (how : Sampling) (w : World σ),
        (∀ v w', space.draw view how w = .ok v w' →
          space.check v = .ok () ∧
          (∀ place items, v.at? place = some (.fixedArray items) → ∃ element length,
            type.at? place = some (.fixedArray element length) ∧ items.length = length) ∧
          ∀ place u, v.at? place = some u → u.Sized how.lengths.limit) ∧
        ∀ x t w', space.draw view how w ≠ .error (.empty (.unfit x t)) w') ∧
    ∀ (settings : Settings) (stream : Random.Stream) (ops : List Session.Operation) (σ : Type)
      (view : StateView σ) (state : σ) (contract function typeName name : String)
      (misfit : Space.Misfit) (p : Session × σ),
      Session.argument view contract function typeName name
        ((Session.start settings stream).after ops, state) ≠ .error (.misfit misfit) p := by
  refine ⟨fun type space wf led => ?_, ?_⟩
  · obtain ⟨typed, narrowed⟩ := led.every
    refine ⟨typed, fun σ view how w => ?_⟩
    have yields := Space.draw_yields view how space (typed ▸ wf) narrowed
    refine ⟨fun v w' drawn => ?_, fun x t w' failed => yields.of_error failed⟩
    obtain ⟨fits, sized⟩ := yields.of_ok drawn
    have hasType : v.HasType type := typed ▸ Space.hasType_of_check space fits
    exact ⟨fits, fun place items found => hasType.length_fixedArray found, sized⟩
  · intro settings stream ops σ view state contract function typeName name misfit p failed
    exact Session.argument_isFair (fun _ => rfl) failed

/-- Lists of pairs of bytes, each beside a truth value. -/
def pairsType : AbiType :=
  .array (.tuple [.fixedArray (.number (.uint 8)) 2, .number .bool])

/-- The bytes have to be three and the truth value has to be true; the list that is
drawn has one item. -/
theorem drawn_values_legal_pairs :
    let how : Sampling := ⟨⟨1, 5⟩, 0⟩
    let w : World Unit := ⟨(), Random.Stream.ofSeed 7⟩
    let v : AbiValue := .array [.tuple [.fixedArray [.uint 3 8, .uint 3 8], .bool true]]
    ∃ space, pairsType.WellFormed ∧ Space.Led pairsType space ∧
      space.draw detached how w = .ok v w ∧ space.check v = .ok () ∧
      (∀ place items, v.at? place = some (.fixedArray items) → ∃ element length,
        pairsType.at? place = some (.fixedArray element length) ∧ items.length = length) ∧
      ∀ place u, v.at? place = some u → u.Sized 5 := by
  intro how w v
  have wf : pairsType.WellFormed :=
    ⟨⟨⟨by decide, by decide, by decide⟩, by decide⟩, trivial, trivial⟩
  let byte : Space :=
    .number (.uint 8) { Domain.ofType (.uint 8) with pinned := some ⟨3, by decide⟩ }
  let flag : Space := .number .bool { Domain.ofType .bool with pinned := some Scalar.one }
  have bytes : Space.Led pairsType
      (.array (.tuple [.fixedArray byte 2, Space.ofType (.number .bool)])) :=
    .step detached (Domain.literalConstraint .equal "3") [0, 0, 0] (s := ()) .whole rfl
  have both : Space.Led pairsType (.array (.tuple [.fixedArray byte 2, flag])) :=
    .step detached (Domain.literalConstraint .equal "1") [0, 1] (s := ()) bytes rfl
  have drawn : (Space.array (.tuple [.fixedArray byte 2, flag])).draw detached how w =
      .ok v w := rfl
  obtain ⟨-, legal⟩ := drawn_values_legal.1 pairsType _ wf both
  exact ⟨_, wf, both, drawn, (legal Unit detached how w).1 v w drawn⟩

end GuardedCalls
