/-
GuardedCalls.Proofs.ReadingTheorems — which getters are asked when constraints
are applied, and when bounds are read anew.

Reads are a list of getters with their replies. That a list has all reads is
said by a view that keeps a log of what it is asked. That nothing else is learnt
from the state is said by every other view that gives the same replies: it comes
to the same outcome.

* `Made` — a view gives these replies, one after the other; `made_recording` —
  the log gets them all.
* `Asks`, `Consulted` — what one constraint reads, and what constraints read in
  turn, up to the first that fails. A literal reads nothing, a getter is asked
  once.
* `Applies`, `Rereads` — the two ways to go through constraints: to apply them
  to all values of a type, and to read the kept ones anew.
* `foldlM_narrowBy_consulted`, `foldlM_narrowLive_consulted` — the run lemmas of
  the two ways, by induction on the constraints; `constrain_consulted` and
  `narrowLive_consulted` are their steps.
-/
import GuardedCalls.Proofs.UnsatisfiableTheorems

namespace GuardedCalls

/-! ## Reads -/

/-- A getter that was asked, and its reply. -/
structure Read where
  getter : String
  reply : Except ViewError Scalar

namespace StateView

variable {σ : Type}

/-- The reply of a getter, and the state after it. -/
def ask (view : StateView σ) (name : String) (s : σ) : Except ViewError Scalar × σ :=
  match view name s with
  | .ok v s => (.ok v, s)
  | .error e s => (.error e, s)

/-- The view that keeps a log of what it is asked. -/
def recording (view : StateView σ) : StateView (σ × List Read) := fun name (s, log) =>
  match view name s with
  | .ok v s => .ok v (s, log ++ [⟨name, .ok v⟩])
  | .error e s => .error e (s, log ++ [⟨name, .error e⟩])

/-- The view that gives every getter the same reply. -/
def replying : Except ViewError Scalar → StateView Unit
  | .ok v => fun _ s => .ok v s
  | .error e => fun _ s => .error e s

end StateView

open StateView

/-- Getters have been asked one after the other, each with its reply, between
the state before the first and the state after the last. -/
inductive Made {σ : Type} (view : StateView σ) : List Read → σ → σ → Prop
  | nil {s : σ} : Made view [] s s
  | cons {name : String} {reply : Except ViewError Scalar} {reads : List Read} {s s₁ s' : σ}
      (asked : view.ask name s = (reply, s₁)) (later : Made view reads s₁ s') :
      Made view (⟨name, reply⟩ :: reads) s s'

section Made

variable {σ : Type} {view : StateView σ} {reads reads' : List Read} {name : String}
  {reply : Except ViewError Scalar} {s s' : σ}

theorem made_nil_iff : Made view [] s s' ↔ s = s' := by
  constructor
  · rintro ⟨⟩
    rfl
  · rintro rfl
    exact .nil

theorem made_append : Made view (reads ++ reads') s s' ↔
    ∃ s₁, Made view reads s s₁ ∧ Made view reads' s₁ s' := by
  induction reads generalizing s with
  | nil => simp [made_nil_iff]
  | cons r reads ih =>
    constructor
    · intro made
      cases made with
      | cons asked later =>
        obtain ⟨s₁, first, second⟩ := ih.1 later
        exact ⟨s₁, .cons asked first, second⟩
    · rintro ⟨s₁, first, second⟩
      cases first with
      | cons asked later => exact .cons asked (ih.2 ⟨s₁, later, second⟩)

theorem made_singleton_iff :
    Made view [⟨name, reply⟩] s s' ↔ view.ask name s = (reply, s') := by
  constructor
  · rintro ⟨⟩
    next asked later =>
      cases later
      exact asked
  · exact fun asked => .cons asked .nil

/-- The log gets all reads, in order. -/
theorem made_recording (made : Made view reads s s') (log : List Read) :
    Made (recording view) reads (s, log) (s', log ++ reads) := by
  induction made generalizing log with
  | nil => simpa using Made.nil
  | @cons name reply reads s s₁ s' asked later ih =>
    have recorded : (recording view).ask name (s, log) = (reply, s₁, log ++ [⟨name, reply⟩]) := by
      unfold ask at asked
      cases answer : view name s <;> rw [answer] at asked <;> cases asked <;>
        simp only [ask, recording, answer]
    have := ih (log ++ [⟨name, reply⟩])
    rw [List.append_assoc] at this
    exact .cons recorded this

end Made

/-! ## Constraints that are consulted -/

/-- What a constraint reads, and what it demands then; it demands nothing if its
bound turns out to be no number. -/
inductive Asks (decimals : Nat) (c : Constraint) : List Read → Option Demand → Prop
  | literal (literal : c.bound.readsState = false) : Asks decimals c [] (c.demand? decimals)
  | getter {name : String} (bound : c.bound = .getter name) (reply : Except ViewError Scalar) :
      Asks decimals c [⟨name, reply⟩] (reply.toOption.map (⟨c.comparison, ·⟩))

/-- Some constraints are consulted in turn, up to the first that fails: its
bound is no number, or no value meets it together with the demands that count.
Whether a demand counts from then on is for `kept` to say. The last part says
whether all constraints have passed. -/
inductive Consulted (values : Scalar → Prop) (decimals : Nat) (kept : Constraint → Bool) :
    List Demand → List Constraint → List Read → Bool → Prop
  | done {ps : List Demand} : Consulted values decimals kept ps [] [] true
  | passed {ps : List Demand} {c : Constraint} {own : List Read} {p : Demand}
      {cs : List Constraint} {reads : List Read} {through : Bool}
      (asks : Asks decimals c own (some p)) (left : ∃ x, values x ∧ ∀ q ∈ ps ++ [p], q.Met x)
      (later : Consulted values decimals kept (if kept c then ps ++ [p] else ps) cs reads
        through) :
      Consulted values decimals kept ps (c :: cs) (own ++ reads) through
  | emptied {ps : List Demand} {c : Constraint} {own : List Read} {p : Demand}
      {cs : List Constraint} (asks : Asks decimals c own (some p))
      (gone : ¬ ∃ x, values x ∧ ∀ q ∈ ps ++ [p], q.Met x) :
      Consulted values decimals kept ps (c :: cs) own false
  | noNumber {ps : List Demand} {c : Constraint} {own : List Read} {cs : List Constraint}
      (asks : Asks decimals c own none) : Consulted values decimals kept ps (c :: cs) own false

section Consulted

variable {values : Scalar → Prop} {decimals : Nat} {kept : Constraint → Bool} {ps : List Demand}
  {c : Constraint} {cs : List Constraint} {own reads : List Read} {told : Option Demand}
  {through : Bool}

/-- A constraint with a number has had an answer, if it has asked. -/
theorem Asks.answered {p : Demand} (asks : Asks decimals c own (some p)) {r : Read}
    (hr : r ∈ own) : ∃ v, r.reply = .ok v := by
  generalize same : some p = told at asks
  cases asks with
  | literal literal => cases hr
  | getter bound reply =>
    obtain rfl := List.mem_singleton.1 hr
    cases reply with
    | error e => cases same
    | ok v => exact ⟨v, rfl⟩

/-- Whatever a constraint has to read, there is a reply to it. -/
theorem exists_asks {σ : Type} (view : StateView σ) (decimals : Nat) (c : Constraint) (s : σ) :
    ∃ own told s', Made view own s s' ∧ Asks decimals c own told := by
  cases bound : c.bound with
  | literal text unit => exact ⟨[], _, s, .nil, .literal (by rw [bound]; rfl)⟩
  | getter name => exact ⟨_, _, _, .cons rfl .nil, .getter bound (view.ask name s).1⟩

/-- Among the demands of literals are those of one more constraint, if it is a
literal. -/
theorem Asks.filterMap_append {p : Demand} (asks : Asks decimals c own (some p))
    (cs : List Constraint) :
    (cs ++ [c]).filterMap (·.demand? decimals) =
      if !c.bound.readsState then cs.filterMap (·.demand? decimals) ++ [p]
      else cs.filterMap (·.demand? decimals) := by
  simp only [List.filterMap_append, List.filterMap_cons, List.filterMap_nil]
  generalize same : some p = told at asks
  cases asks with
  | literal literal =>
    rw [← same, literal]
    rfl
  | getter bound reply =>
    have noDemand : c.demand? decimals = none := by rw [Constraint.demand?, bound]
    rw [noDemand, List.append_nil, bound]
    rfl

/-- Where all constraints pass, all getters have answered. -/
theorem Consulted.answered (h : Consulted values decimals kept ps cs reads true) :
    ∀ r ∈ reads, ∃ v, r.reply = .ok v := by
  generalize same : true = through at h
  induction h with
  | done => exact List.forall_mem_nil _
  | passed asks left later ih =>
    exact List.forall_mem_append.2 ⟨fun r hr => asks.answered hr, ih same⟩
  | emptied asks gone => cases same
  | noNumber asks => cases same

end Consulted

/-! ## The two ways to consult a constraint -/

/-- An outcome beside the state that it leaves. -/
def settled {ε σ α : Type} (s : σ) : Except ε α → EStateM.Result ε σ α
  | .ok a => .ok a s
  | .error e => .error e s

/-- A step comes to the outcome, whatever view it is that gives these replies. -/
def ComesTo {ε α : Type} (step : (σ : Type) → StateView σ → EStateM ε σ α) (reads : List Read)
    (outcome : Except ε α) : Prop :=
  ∀ (σ : Type) (view : StateView σ) (s s' : σ), Made view reads s s' →
    step σ view s = settled s' outcome

/-- An error is the one of each getter that did not answer. -/
def Blames {ε : Type} (blame : ViewError → ε) (reads : List Read) (e : ε) : Prop :=
  ∀ name error, (⟨name, .error error⟩ : Read) ∈ reads → e = blame error

/-- How a step ends that consults constraints: all of them have passed and the
result is good, or it fails, with the error of a getter without an answer if
there is one. -/
inductive Ends {ε α : Type} (blame : ViewError → ε) (good : α → Prop) (reads : List Read) :
    Bool → Except ε α → Prop
  | passed {a : α} (result : good a) : Ends blame good reads true (.ok a)
  | failed {e : ε} (blames : Blames blame reads e) : Ends blame good reads false (.error e)

section Ends

variable {ε α : Type} {blame : ViewError → ε} {good : α → Prop} {own reads : List Read} {e : ε}
  {through : Bool} {outcome : Except ε α}

/-- Where all getters have answered, nothing is to blame. -/
theorem blames_of_answered (answered : ∀ r ∈ own, ∃ v, r.reply = .ok v) : Blames blame own e := by
  intro name error hr
  obtain ⟨v, ok⟩ := answered _ hr
  cases ok

theorem blames_unanswered (name : String) (error : ViewError) :
    Blames blame [⟨name, .error error⟩] (blame error) := by
  intro name' error' hr
  cases List.mem_singleton.1 hr
  rfl

theorem Blames.append (answered : ∀ r ∈ own, ∃ v, r.reply = .ok v) (h : Blames blame reads e) :
    Blames blame (own ++ reads) e := by
  intro name error hr
  rcases List.mem_append.1 hr with first | later
  · exact blames_of_answered answered name error first
  · exact h name error later

/-- A step ends as it does after answers. -/
theorem Ends.append (answered : ∀ r ∈ own, ∃ v, r.reply = .ok v)
    (h : Ends blame good reads through outcome) :
    Ends blame good (own ++ reads) through outcome := by
  cases h with
  | passed result => exact .passed result
  | failed blames => exact .failed (blames.append answered)

end Ends

/-- The number of a getter is what it replies. -/
theorem Constraint.boundValue_of_ask {σ : Type} {view : StateView σ} {c : Constraint}
    {name : String} {reply : Except ViewError Scalar} {s s' : σ} (bound : c.bound = .getter name)
    (asked : view.ask name s = (reply, s')) (decimals : Nat) :
    c.boundValue view decimals s = settled s' (reply.mapError .read) := by
  unfold ask at asked
  cases answer : view name s <;> rw [answer] at asked <;> cases asked <;>
    simp only [boundValue, bound, answer, settled, Except.mapError]

theorem ask_replying (reply : Except ViewError Scalar) (name : String) :
    (replying reply).ask name () = (reply, ()) := by
  cases reply <;> rfl

namespace Domain

variable {σ : Type} {view : StateView σ} {type : NumberType} {ps : List Demand} {d : Domain}
  {c : Constraint} {name : String} {reply : Except ViewError Scalar} {own : List Read}
  {told : Option Demand} {s s' : σ}

/-- Nothing but the reply counts when a getter is tried. -/
theorem constrain_of_ask (bound : c.bound = .getter name)
    (asked : view.ask name s = (reply, s')) :
    d.constrain view c s = ((d.constrain (replying reply) c ()).1, s') := by
  simp only [constrain, Constraint.boundValue_of_ask bound asked,
    Constraint.boundValue_of_ask bound (ask_replying reply name)]
  cases reply with
  | error e => rfl
  | ok v =>
    simp only [settled, Except.mapError, bound, Bound.readsState, if_true]
    cases (d.restrict c.comparison v).2 <;> rfl

/-- What comes of a constraint that is applied, whatever replies: it is taken, it
leaves nothing, or its bound is no number. -/
theorem constrain_consulted (h : Records type ps d) (asks : Asks type.decimals c own told) :
    ∃ outcome : Domain × Option ConstrainError,
      (∀ (σ : Type) (view : StateView σ) (s s' : σ), Made view own s s' →
        d.constrain view c s = (outcome, s')) ∧
      (told = none → ∃ d' e, outcome = (d', some (.bound e)) ∧ Blames .read own e) ∧
      ∀ p, told = some p →
        (∃ d', outcome = (d', none) ∧ ∃ x, d.allows x = true ∧ p.Met x) ∨
        ∃ d' reason, outcome = (d', some (.empty reason)) ∧
          ∀ x, d.allows x = true → ¬ p.Met x := by
  cases asks with
  | literal literal =>
    refine ⟨(d.constrain detached c ()).1, fun σ view s s' made => ?_, fun none => ?_,
      fun p demand => ?_⟩
    · obtain rfl := made_nil_iff.1 made
      exact d.constrain_of_literal literal view s
    · obtain ⟨d', bad, run⟩ := Assembly.constrain_of_no_demand detached
        h.decimals_eq literal none ()
      exact ⟨d', bad, by rw [run], nofun⟩
    · rcases constrain_literal_cases detached h demand () with
        ⟨d', run, now, -, x, left⟩ | ⟨⟨d', reason, run⟩, gone⟩
      · exact .inl ⟨d', by rw [run], x, (h.allows_append_iff now x).1 left⟩
      · exact .inr ⟨d', reason, by rw [run], gone⟩
  | @getter name bound reply =>
    refine ⟨(d.constrain (replying reply) c ()).1, fun σ view s s' made => ?_, fun none => ?_,
      fun p demand => ?_⟩
    · exact constrain_of_ask bound (made_singleton_iff.1 made)
    · cases reply with
      | ok v => cases none
      | error e =>
        refine ⟨d, .read e, ?_, blames_unanswered name e⟩
        simp only [constrain, Constraint.boundValue, bound, replying]
    · cases reply with
      | error e => cases demand
      | ok v =>
        cases demand
        have answer : replying (.ok v) name () = .ok v () := rfl
        rcases constrain_getter_cases h bound answer with
          ⟨run, x, left⟩ | ⟨⟨reason, run⟩, gone⟩
        · exact .inl ⟨_, by rw [run], x, left⟩
        · exact .inr ⟨d, reason, by rw [run], gone⟩

/-- Nothing but the reply counts when a getter is read anew. -/
theorem narrowLive_comesTo {decimals : Nat} {outcome : Except ConstrainError Domain}
    (bound : c.bound = .getter name)
    (run : narrowLive (replying reply) decimals d c () = settled () outcome) :
    ComesTo (fun _ view => narrowLive view decimals d c) [⟨name, reply⟩] outcome := by
  intro σ view s s' made
  have asked := made_singleton_iff.1 made
  simp only [narrowLive, bind, EStateM.bind, EStateM.adaptExcept,
    Constraint.boundValue_of_ask bound asked,
    Constraint.boundValue_of_ask bound (ask_replying reply name)] at run ⊢
  cases reply with
  | error e =>
    cases outcome <;> cases run
    rfl
  | ok v =>
    simp only [settled, Except.mapError] at run ⊢
    generalize d.restrict c.comparison v = narrowed at run ⊢
    obtain ⟨d', reason?⟩ := narrowed
    cases reason? <;> cases outcome <;> cases run <;> rfl

/-- What comes of a bound that is read anew, whatever replies. -/
theorem narrowLive_consulted (h : Records type ps d) (bound : c.bound = .getter name)
    (reply : Except ViewError Scalar) (decimals : Nat) :
    ∃ outcome : Except ConstrainError Domain,
      ComesTo (fun _ view => narrowLive view decimals d c) [⟨name, reply⟩] outcome ∧
      match reply with
      | .error e => outcome = .error (.bound (.read e))
      | .ok v => (∃ d', outcome = .ok d' ∧ Records type (ps ++ [demandOf (c, v)]) d' ∧
            ∃ x, d'.allows x = true) ∨
          ∃ reason, outcome = .error (.empty reason) ∧
            ∀ x, d.allows x = true → ¬ (demandOf (c, v)).Met x := by
  cases reply with
  | error e =>
    exact ⟨.error (.bound (.read e)),
      narrowLive_comesTo bound (narrowLive_unanswered bound rfl decimals), rfl⟩
  | ok v =>
    have answer : replying (.ok v) name () = .ok v () := rfl
    rcases narrowLive_answered h bound answer decimals with
      ⟨d', run, now, -, left⟩ | ⟨⟨reason, run⟩, gone⟩
    · exact ⟨.ok d', narrowLive_comesTo bound run, .inl ⟨d', rfl, now, left⟩⟩
    · exact ⟨.error (.empty reason), narrowLive_comesTo bound run, .inr ⟨reason, rfl, gone⟩⟩

/-! ## Bounds that are read anew -/

/-- All bounds that a domain keeps are read anew, up to the first that fails.
The induction is on the constraints; what the domain allows are the values that
meet the replies so far. -/
theorem foldlM_narrowLive_consulted {values : Scalar → Prop} {cs : List Constraint}
    (decimals : Nat) (live : ∀ c ∈ cs, c.bound.readsState = true) {rs : List Demand}
    (h : Records type rs d) (left : ∃ x, d.allows x = true)
    (fits : ∀ x, d.allows x = true ↔ values x ∧ ∀ p ∈ ps, p.Met x) (view : StateView σ) (s : σ) :
    ∃ reads s' through outcome, Made view reads s s' ∧
      Consulted values decimals (fun _ => true) ps cs reads through ∧
      ComesTo (fun _ view => cs.foldlM (narrowLive view decimals) d) reads outcome ∧
      Ends (fun e => .bound (.read e)) (fun d' : Domain => ∃ x, d'.allows x = true) reads through
        outcome := by
  induction cs generalizing ps rs d s with
  | nil =>
    refine ⟨[], s, true, .ok d, .nil, .done, fun σ' view' t t' made => ?_, .passed left⟩
    obtain rfl := made_nil_iff.1 made
    rfl
  | cons c cs ih =>
    obtain ⟨first, others⟩ := List.forall_mem_cons.1 live
    obtain ⟨name, bound⟩ := exists_getter first
    cases asked : view.ask name s with
    | mk reply s₁ =>
      obtain ⟨outcome₁, run, cases⟩ := narrowLive_consulted h bound reply decimals
      -- A bound that fails is the last one that is read.
      have last : ∀ e, outcome₁ = .error e →
          ComesTo (fun _ view => (c :: cs).foldlM (narrowLive view decimals) d)
            [⟨name, reply⟩] (.error e) := by
        rintro e rfl σ' view' t t' made
        exact foldlM_narrowLive_cons_error (run σ' view' t t' made)
      cases reply with
      | error e =>
        exact ⟨[⟨name, .error e⟩], s₁, false, .error (.bound (.read e)), .cons asked .nil,
          .noNumber (.getter bound (.error e)), last _ cases, .failed (blames_unanswered name e)⟩
      | ok v =>
        have asks : Asks decimals c [⟨name, .ok v⟩] (some (demandOf (c, v))) :=
          .getter bound (.ok v)
        rcases cases with ⟨d', rfl, now, left'⟩ | ⟨reason, same, gone⟩
        · have fits' : ∀ x, d'.allows x = true ↔
              values x ∧ ∀ p ∈ ps ++ [demandOf (c, v)], p.Met x := by
            intro x
            rw [h.allows_append_iff now, fits, List.forall_mem_append, List.forall_mem_singleton,
              and_assoc]
          obtain ⟨reads, s', through, outcome, made, consulted, alike, ends⟩ :=
            ih others now left' fits' s₁
          refine ⟨[⟨name, .ok v⟩] ++ reads, s', through, outcome, .cons asked made,
            .passed asks (left'.imp fun x => (fits' x).1) consulted, ?_,
            ends.append fun r hr => asks.answered hr⟩
          intro σ' view' t t' made
          obtain ⟨t₁, own, rest⟩ := made_append.1 made
          exact (foldlM_narrowLive_cons (run σ' view' t t₁ own)).trans (alike σ' view' t₁ t' rest)
        · refine ⟨[⟨name, .ok v⟩], s₁, false, .error (.empty reason), .cons asked .nil,
            .emptied asks ?_, last _ same,
            .failed (blames_of_answered fun r hr => asks.answered hr)⟩
          rintro ⟨x, value, met⟩
          obtain ⟨before, here⟩ := List.forall_mem_append.1 met
          exact gone x ((fits x).2 ⟨value, before⟩) (here _ List.mem_cons_self)

end Domain

/-! ## Constraints that are applied -/

/-- The constraints that a number argument takes: those of the rules for its
type, and then its guards, without those that its values do not honour. -/
def numberConstraints (rules : RuleBook) (guards : GuardTable) (key : ArgumentKey)
    (type : NumberType) : List Constraint :=
  (ruleConstraints rules key (.number type) ++ guardsOn guards key).filter
    (·.appliesTo (.number type))

/-- Constraints are applied to all values of a type. Literals count from then
on; what a getter replies only has to leave something now. -/
def Applies (type : NumberType) : List Constraint → List Read → Bool → Prop :=
  Consulted type.Legal type.decimals (fun c => !c.bound.readsState) []

/-- The getters among constraints that have been applied are read anew. What they
reply has to leave something of the values that meet the literals, and all
replies count. -/
def Rereads (type : NumberType) (cs : List Constraint) : List Read → Bool → Prop :=
  Consulted (fun x => type.Legal x ∧ Domain.MeetsLiterals type cs x) type.decimals
    (fun _ => true) [] (cs.filter (·.bound.readsState))

namespace Assembly

variable {σ : Type} {view : StateView σ} {key : ArgumentKey} {type : NumberType} {d : Domain}
  {c : Constraint} {cs₀ cs : List Constraint} {rules : RuleBook} {guards : GuardTable}

/-- A constraint that values honour does not come to `mismatch`. -/
theorem narrowBy_congr (honoured : c.appliesTo (.number type) = true)
    (mismatch mismatch' : AbiKind → Step σ Space) (a : Assembly σ) :
    narrowBy view key c (.number type d) mismatch a =
      narrowBy view key c (.number type d) mismatch' a := by
  have never := d.constrain_ne_notApplicable view c a.state
  simp only [narrowBy, Space.constrain_number honoured]
  generalize d.constrain view c a.state = outcome at never ⊢
  obtain ⟨⟨d', error?⟩, s⟩ := outcome
  cases error? with
  | none => rfl
  | some e =>
    cases e with
    | notApplicable kind => exact absurd rfl (never kind)
    | empty reason => rfl
    | bound e => rfl

theorem foldlM_narrowBy_congr {mismatch mismatch' : Space → Constraint → AbiKind → Step σ Space}
    (honoured : ∀ c ∈ cs, c.appliesTo (.number type) = true) (a : Assembly σ) :
    cs.foldlM (fun space c => narrowBy view key c space (mismatch space c)) (.number type d) a =
      cs.foldlM (fun space c => narrowBy view key c space (mismatch' space c))
        (.number type d) a := by
  induction cs generalizing d a with
  | nil => rfl
  | cons c cs ih =>
    obtain ⟨first, others⟩ := List.forall_mem_cons.1 honoured
    simp only [List.foldlM_cons, bind, EStateM.bind]
    rw [narrowBy_congr first (mismatch _ c) (mismatch' _ c) a]
    cases run : narrowBy view key c (.number type d) (mismatch' (.number type d) c) a with
    | error e a₁ => rfl
    | ok space a₁ =>
      rcases narrowBy_number_ok run with ⟨-, d', rfl, -⟩ | ⟨other, -⟩
      · exact ih others a₁
      · rw [first] at other
        cases other

/-- For a number the two stages are one: its rules and then its guards. -/
theorem stages_number (checked : rules.Checked) (wf : type.WellFormed)
    (number : key.type = .number type) (a : Assembly σ) :
    stages view rules guards key a =
      (ruleConstraints rules key (.number type) ++ guardsOn guards key).foldlM
        (fun space c => narrowBy view key c space fun _ => pure space)
        (.number type (Domain.ofType type)) a := by
  have own : (Space.number type (Domain.ofType type)).type = .number type := rfl
  have honoured : ∀ c ∈ ruleConstraints rules key (.number type),
      c.appliesTo (.number type) = true := fun c hc =>
    (checked_of_mem checked (t := .number type) wf hc).honoured
  have ofRules : narrowByRules view rules key (Space.ofType key.type) a =
      (ruleConstraints rules key (.number type)).foldlM
        (fun space c => narrowBy view key c space fun _ => pure space)
        (.number type (Domain.ofType type)) a := by
    rw [number, Space.ofType, narrowByRules_number, narrowByOwn, own]
    unfold ruleConstraints at honoured ⊢
    cases found : rules.lookup? key.contract key.function (.number type) with
    | none => rfl
    | some entry =>
      simp only [found, Option.map_some, Option.getD_some] at honoured ⊢
      exact foldlM_narrowBy_congr honoured a
  rw [List.foldlM_append]
  simp only [stages, bind, EStateM.bind, ofRules]
  rfl

/-- What is left of a domain is what is legal and meets all its demands. -/
theorem exists_legal_iff (wf : type.WellFormed) (reached : Domain.Reached type cs₀ d)
    (p : Demand) :
    (∃ x, type.Legal x ∧
      ∀ q ∈ cs₀.filterMap (·.demand? type.decimals) ++ [p], q.Met x) ↔
      ∃ x, d.allows x = true ∧ p.Met x := by
  refine exists_congr fun x => ?_
  simp only [reached.records.allows_iff, type.legal_iff wf, List.forall_mem_append,
    List.forall_mem_singleton, and_assoc]

/-- Constraints are applied in turn, up to the first that fails. The induction
is on the constraints; the domain is always one that those before have led
to. -/
theorem foldlM_narrowBy_consulted (key : ArgumentKey) (cs : List Constraint)
    (wf : type.WellFormed) (reached : Domain.Reached type cs₀ d) (view : StateView σ) (s : σ)
    (applied : List Constraint) :
    ∃ reads s' through outcome applied', Made view reads s s' ∧
      Consulted type.Legal type.decimals (fun c => !c.bound.readsState)
        (cs₀.filterMap (·.demand? type.decimals)) (cs.filter (·.appliesTo (.number type)))
        reads through ∧
      (∀ (σ' : Type) (view' : StateView σ') (t t' : σ'), Made view' reads t t' →
        cs.foldlM (fun space c => narrowBy view' key c space fun _ => pure space)
          (.number type d) ⟨t, applied⟩ = settled ⟨t', applied'⟩ outcome) ∧
      Ends (fun e => .bound (.read e)) (fun space => ∃ d', space = .number type d') reads through
        outcome := by
  induction cs generalizing cs₀ d s applied with
  | nil =>
    refine ⟨[], s, true, .ok (.number type d), applied, .nil, .done, ?_, .passed ⟨d, rfl⟩⟩
    intro σ' view' t t' made
    obtain rfl := made_nil_iff.1 made
    rfl
  | cons c cs ih =>
    cases honoured : c.appliesTo (.number type) with
    | false =>
      rw [List.filter_cons_of_neg (by simp [honoured])]
      obtain ⟨reads, s', through, outcome, applied', made, consulted, alike, ends⟩ :=
        ih reached s applied
      refine ⟨reads, s', through, outcome, applied', made, consulted, ?_, ends⟩
      intro σ' view' t t' made
      rw [List.foldlM_cons, bind_eq_of_ok (narrowBy_of_not_appliesTo (.number type d) honoured _ _)]
      exact alike σ' view' t t' made
    | true =>
      rw [List.filter_cons_of_pos (by simp [honoured])]
      obtain ⟨own, told, s₁, made, asks⟩ := exists_asks view type.decimals c s
      obtain ⟨step, run, noNumber, number⟩ := Domain.constrain_consulted reached.records asks
      -- A constraint that fails is the last one that is applied.
      have last : ∀ error,
          (∀ (σ' : Type) (view' : StateView σ') (t t' : σ'), d.constrain view' c t = (step, t') →
            narrowBy view' key c (.number type d) (fun _ => pure (.number type d))
              ⟨t, applied⟩ = .error error ⟨t', applied⟩) →
          ∀ (σ' : Type) (view' : StateView σ') (t t' : σ'), Made view' own t t' →
            (c :: cs).foldlM (fun space c => narrowBy view' key c space fun _ => pure space)
              (.number type d) ⟨t, applied⟩ = settled ⟨t', applied⟩ (.error error) := by
        intro error failed σ' view' t t' made
        simp only [List.foldlM_cons, bind, EStateM.bind,
          failed σ' view' t t' (run σ' view' t t' made)]
        rfl
      cases told with
      | none =>
        obtain ⟨d', e, rfl, blames⟩ := noNumber rfl
        refine ⟨own, s₁, false, .error (.bound e), applied, made, .noNumber asks,
          last _ ?_, .failed fun name error hr => ?_⟩
        · intro σ' view' t t' run
          simp only [narrowBy, Space.constrain_number honoured, run]
        · rw [blames name error hr]
      | some p =>
        have left := exists_legal_iff wf reached p
        rcases number p rfl with ⟨d', rfl, met⟩ | ⟨d', reason, rfl, gone⟩
        · have accepted := run σ view s s₁ made
          have demands := asks.filterMap_append cs₀
          obtain ⟨reads, s', through, outcome, applied', made', consulted, alike, ends⟩ :=
            ih (reached.step view c accepted) s₁ (applied ++ [c])
          rw [demands] at consulted
          refine ⟨own ++ reads, s', through, outcome, applied',
            made_append.2 ⟨s₁, made, made'⟩, .passed asks (left.2 met) consulted, ?_,
            ends.append fun r hr => asks.answered hr⟩
          intro σ' view' t t' made
          obtain ⟨t₁, first, rest⟩ := made_append.1 made
          have taken : narrowBy view' key c (.number type d) (fun _ => pure (.number type d))
              ⟨t, applied⟩ = .ok (.number type d') ⟨t₁, applied ++ [c]⟩ := by
            simp only [narrowBy, Space.constrain_number honoured, run σ' view' t t₁ first]
          rw [List.foldlM_cons, bind_eq_of_ok taken]
          exact alike σ' view' t₁ t' rest
        · refine ⟨own, s₁, false, .error (.unsatisfiable ⟨key, .constraint c reason, applied⟩),
            applied, made, .emptied asks fun left' => ?_, last _ ?_,
            .failed (blames_of_answered fun r hr => asks.answered hr)⟩
          · obtain ⟨x, allowed, met⟩ := left.1 left'
            exact gone x allowed met
          · intro σ' view' t t' run
            simp only [narrowBy, Space.constrain_number honoured, run]

end Assembly

section Consulted

open Assembly

variable {σ : Type} {key : ArgumentKey} {type : NumberType} {d : Domain} {cs : List Constraint}
  {rules : RuleBook} {guards : GuardTable}

/-- The space of a number argument is assembled, or a constraint fails. -/
theorem argumentSpace_consulted (guards : GuardTable) (checked : rules.Checked)
    (wf : type.WellFormed) (number : key.type = .number type) (view : StateView σ) (s : σ) :
    ∃ reads s' through outcome, Made view reads s s' ∧
      Applies type (numberConstraints rules guards key type) reads through ∧
      ComesTo (fun _ view => argumentSpace view rules guards key) reads outcome ∧
      Ends (fun e => .bound (.read e)) (fun space => ∃ d, space = .number type d ∧
        Domain.Reached type (numberConstraints rules guards key type) d) reads through
          outcome := by
  obtain ⟨reads, s', through, outcome, applied', made, consulted, alike, ends⟩ :=
    foldlM_narrowBy_consulted key (ruleConstraints rules key (.number type) ++
      guardsOn guards key) wf .whole view s []
  have assembled : ComesTo (fun _ view => argumentSpace view rules guards key) reads outcome := by
    intro σ' view' t t' made
    change argumentSpace view' rules guards key t = settled t' outcome
    rw [argumentSpace_eq, stages_number checked wf number, alike σ' view' t t' made]
    cases outcome <;> rfl
  refine ⟨reads, s', through, outcome, made, consulted, assembled, ?_⟩
  cases ends with
  | failed blames => exact .failed blames
  | passed result =>
    obtain ⟨d, rfl⟩ := result
    obtain ⟨_, same, reached⟩ := argumentSpace_reached number (assembled σ view s s' made)
    cases same
    exact .passed ⟨d, rfl, reached⟩

/-- A domain reads its bounds anew, or one of them fails. -/
theorem refreshed_consulted (wf : type.WellFormed) (reached : Domain.Reached type cs d)
    (view : StateView σ) (s : σ) :
    ∃ reads s' given outcome, Made view reads s s' ∧ Rereads type cs reads given ∧
      ComesTo (fun _ view => d.refreshed view) reads outcome ∧
      Ends (fun e => .bound (.read e)) (fun d' : Domain => ∃ x, d'.allows x = true) reads given
        outcome := by
  have fits : ∀ x, ({ d with live := [] } : Domain).allows x = true ↔
      (type.Legal x ∧ Domain.MeetsLiterals type cs x) ∧ ∀ p ∈ [], Demand.Met p x := by
    intro x
    rw [and_iff_left (List.forall_mem_nil _)]
    exact reached.allows_iff wf x
  have live : ∀ c ∈ cs.filter (·.bound.readsState), c.bound.readsState = true :=
    fun c hc => (List.mem_filter.1 hc).2
  obtain ⟨reads, s', given, outcome, made, consulted, alike, ends⟩ :=
    Domain.foldlM_narrowLive_consulted d.decimals live (reached.records.withLive [])
      reached.exists_allows fits view s
  rw [reached.records.decimals_eq] at consulted
  refine ⟨reads, s', given, outcome, made, consulted, fun σ' view' t t' made => ?_, ends⟩
  change d.refreshed view' t = settled t' outcome
  rw [Domain.refreshed, reached.live_eq]
  exact alike σ' view' t t' made

end Consulted

end GuardedCalls
