/-
GuardedCalls.Proofs.RequestTheorems — which getters a request for an argument
asks, and what its outcome owes to them.

* `NumberReads` — the reads of a request for a number. The first request applies
  the constraints of the argument and then reads anew; a later one only reads
  anew what the domain has kept.
* `value_number`, `value_other` — a request for a number makes such reads, and
  one for anything else makes none. What comes of it depends on nothing but the
  replies.
* `reads_in_order` — both, for every session; and what becomes of a request
  whose getter has no answer.
-/
import GuardedCalls.Proofs.ReadingTheorems

namespace GuardedCalls

open StateView

namespace Session

/-! ## Requests -/

section Requests

variable {σ : Type} {key : ArgumentKey} {type : NumberType} {d : Domain} {cs : List Constraint}

/-- What a domain gives to a session that draws from it. A bound that fails
leaves the session as it is. -/
theorem value_of_reached (key : ArgumentKey) (wf : type.WellFormed)
    (reached : Domain.Reached type cs d) (s : Session) (view : StateView σ) (state : σ) :
    ∃ reads state' given outcome s', Made view reads state state' ∧
      Rereads type cs reads given ∧
      (∀ (σ' : Type) (view' : StateView σ') (p : Session × σ') (t t' : σ'),
        Session.space view' key p = .ok (.number type d) (s, t) → Made view' reads t t' →
          value view' key p = settled (s', t') outcome) ∧
      Ends (fun e => .bound (.read e)) (fun _ => True) reads given outcome ∧
      (given = false → s' = s) := by
  obtain ⟨reads, state', given, outcome, made, consulted, alike, ends⟩ :=
    refreshed_consulted wf reached view state
  cases ends with
  | @passed d' left =>
    -- Something is left, so a number is drawn, and it is one of the type.
    obtain ⟨x, stream, picked, -⟩ := Domain.pick_allows left s.settings.attempts s.stream
    have drawn : ∀ (σ' : Type) (view' : StateView σ') (t t' : σ'), Made view' reads t t' →
        d.draw view' s.settings.attempts ⟨t, s.stream⟩ = .ok x ⟨t', stream⟩ :=
      fun σ' view' t t' made => Domain.draw_eq_of_refreshed (alike σ' view' t t' made) picked
    have inType := (reached.of_draw (drawn σ view state state' made)).1
    obtain ⟨v, isNumber, fits⟩ := Space.exists_checked wf reached.records inType
    refine ⟨reads, state', true, .ok v, { s with stream }, made, consulted,
      fun σ' view' p t t' found made => ?_, .passed trivial, nofun⟩
    have run : (Space.number type d).draw view' s.sampling ⟨t, s.stream⟩ = .ok v ⟨t', stream⟩ :=
      bind_eq_ok_iff.2 ⟨x, _, drawn σ' view' t t' made, by rw [isNumber]; rfl⟩
    have given : Session.draw view' key (.number type d) (s, t) =
        .ok v ({ s with stream }, t') := by
      simp only [Session.draw, run]
    exact value_ok_iff.2 ⟨_, _, found, given, fits⟩
  | @failed e blames =>
    refine ⟨reads, state', false, .error (drawError key (.number type d) e), s, made, consulted,
      fun σ' view' p t t' found made => ?_, .failed fun name error hr => ?_, fun _ => rfl⟩
    · have run : d.draw view' s.settings.attempts ⟨t, s.stream⟩ = .error e ⟨t', s.stream⟩ :=
        Domain.draw_of_refreshed_error (alike σ' view' t t' made)
      have failed : (Space.number type d).draw view' s.sampling ⟨t, s.stream⟩ =
          .error e ⟨t', s.stream⟩ := by
        simp only [Space.draw, bind, EStateM.bind, sampling, run]
      simp only [value, bind, EStateM.bind, found, Session.draw, failed, settled]
    · rw [blames name error hr]
      rfl

/-- The constraints of a number argument in a session that began as `s₀`, with
the guards that were known after the operations in `before`. -/
def constraintsAt (s₀ : Session) (ops before : List Operation) (key : ArgumentKey)
    (type : NumberType) : List Constraint :=
  numberConstraints (s₀.after ops).rules (s₀.after before).guards key type

/-- The reads of a request for a number in a session that began as `s₀`, and
whether a value is given. -/
inductive NumberReads (s₀ : Session) (ops : List Operation) (key : ArgumentKey)
    (type : NumberType) : List Read → Bool → Prop
  /-- The first request applies the constraints of the argument, and one of them
  fails. -/
  | refused {reads : List Read} (unknown : (s₀.after ops).space? key = none)
      (applied : Applies type (constraintsAt s₀ ops ops key type) reads false) :
      NumberReads s₀ ops key type reads false
  /-- The first request applies them all, and then reads anew. -/
  | first {reads reads' : List Read} {given : Bool} (unknown : (s₀.after ops).space? key = none)
      (applied : Applies type (constraintsAt s₀ ops ops key type) reads true)
      (again : Rereads type (constraintsAt s₀ ops ops key type) reads' given) :
      NumberReads s₀ ops key type (reads ++ reads') given
  /-- A later request only reads anew, namely the bounds that the domain keeps
  from the moment when it was assembled. -/
  | later {before rest : List Operation} {d : Domain} {reads : List Read} {given : Bool}
      (split : ops = before ++ rest) (unknown : (s₀.after before).space? key = none)
      (cached : (s₀.after ops).space? key = some (.number type d))
      (live : d.live = (constraintsAt s₀ ops before key type).filter (·.bound.readsState))
      (again : Rereads type (constraintsAt s₀ ops before key type) reads given) :
      NumberReads s₀ ops key type reads given

/-- A request that is given a value has had all its answers. -/
theorem NumberReads.answered {s₀ : Session} {ops : List Operation} {reads : List Read}
    (h : NumberReads s₀ ops key type reads true) : ∀ r ∈ reads, ∃ v, r.reply = .ok v := by
  cases h with
  | first unknown applied again =>
    exact List.forall_mem_append.2 ⟨applied.answered, again.answered⟩
  | later split unknown cached live again => exact again.answered

/-- A request for a number. -/
theorem value_number (s₀ : Session) (ops : List Operation) {key : ArgumentKey}
    (fresh : s₀.space? key = none) (checked : (s₀.after ops).rules.Checked) (wf : type.WellFormed)
    (number : key.type = .number type) (view : StateView σ) (state : σ) :
    ∃ reads state' given outcome s', Made view reads state state' ∧
      NumberReads s₀ ops key type reads given ∧
      (∀ (σ' : Type) (view' : StateView σ') (t t' : σ'), Made view' reads t t' →
        value view' key (s₀.after ops, t) = settled (s', t') outcome) ∧
      Ends (fun e => .bound (.read e)) (fun _ => True) reads given outcome ∧
      (given = false → s'.stream = (s₀.after ops).stream) := by
  set s := s₀.after ops with hs
  cases known : s.space? key with
  | some space =>
    obtain ⟨before, rest, split, unknown, rules, σ', view', state₁, state₂, assembled⟩ :=
      assembled_of_cached fresh known
    rw [rules] at assembled
    obtain ⟨d, rfl, reached⟩ := argumentSpace_reached number assembled
    obtain ⟨reads, state', given, outcome, s', made, again, alike, ends, kept⟩ :=
      value_of_reached key wf reached s view state
    refine ⟨reads, state', given, outcome, s', made,
      .later split unknown known reached.live_eq again, fun σ' view' t t' made => ?_, ends,
      fun stopped => by rw [kept stopped]⟩
    exact alike σ' view' _ t t' (space_of_cached known) made
  | none =>
    obtain ⟨reads, state₁, through, outcome, made, applied, alike, ends⟩ :=
      argumentSpace_consulted s.guards checked wf number view state
    cases ends with
    | @failed e blames =>
      exact ⟨reads, state₁, false, .error e, s, made, .refused known applied,
        fun σ' view' t t' made => value_of_failed known (alike σ' view' t t' made),
        .failed blames, fun _ => rfl⟩
    | passed assembled =>
      obtain ⟨d, rfl, reached⟩ := assembled
      obtain ⟨reads', state', given, outcome, s', made', again, alike', ends, kept⟩ :=
        value_of_reached key wf reached
          { s with spaces := s.spaces.put key (.number type d) } view state₁
      refine ⟨reads ++ reads', state', given, outcome, s', made_append.2 ⟨state₁, made, made'⟩,
        .first known applied again, fun σ' view' t t' made => ?_, ends.append applied.answered,
        fun stopped => by rw [kept stopped]⟩
      obtain ⟨t₁, first, second⟩ := made_append.1 made
      exact alike' σ' view' _ t₁ t' (space_of_assembled known (alike σ' view' t t₁ first)) second

/-! ## Other types -/

/-- Without a number, an assembly comes to the same whatever there is to
read. -/
theorem exists_argumentSpace_other {rules : RuleBook} (checked : rules.Checked)
    (guards : GuardTable) (other : ∀ number, key.type ≠ .number number) :
    ∃ outcome, ∀ (σ : Type) (view : StateView σ) (t : σ),
      argumentSpace view rules guards key t = settled t outcome := by
  have passed : ∀ c : Constraint, c.appliesTo key.type = false :=
    fun c => Constraint.appliesTo_eq_false other
  have alike : ∀ (σ : Type) (view : StateView σ), Assembly.Alike
      (Assembly.narrowByRules view rules key (Space.ofType key.type))
      (Assembly.narrowByRules detached rules key (Space.ofType key.type)) :=
    fun σ view => Assembly.narrowByRules_alike _ fun c hc => by
      obtain ⟨t, -, hc⟩ := List.mem_flatMap.1 hc
      exact literal_of_mem checked hc
  cases run : Assembly.narrowByRules detached rules key (Space.ofType key.type)
    (⟨(), []⟩ : Assembly Unit) with
  | ok space a =>
    refine ⟨.ok space, fun σ view t => ?_⟩
    have first := alike σ view t []
    rw [run] at first
    refine argumentSpace_ok_iff.2 ⟨space, _, _, first, Assembly.narrowByGuards_passed ?_ _, rfl⟩
    rwa [Assembly.narrowByRules_type _ run, Space.type_ofType]
  | error e a =>
    refine ⟨.error e, fun σ view t => ?_⟩
    have first := alike σ view t []
    rw [run] at first
    simp only [argumentSpace_eq, stages, bind, EStateM.bind, first, Assembly.attach, settled]

/-- A request for something else than a number reads nothing. -/
theorem value_other (s₀ : Session) (ops : List Operation) (fresh : s₀.space? key = none)
    (checked : (s₀.after ops).rules.Checked) (wf : key.type.WellFormed)
    (other : ∀ number, key.type ≠ .number number) :
    ∃ outcome s', ∀ (σ : Type) (view : StateView σ) (t : σ),
      value view key (s₀.after ops, t) = settled (s', t) outcome := by
  set s := s₀.after ops with hs
  -- All that is drawn from is ready.
  have drawn : ∀ (space : Space) (s₁ : Session), space.type = key.type →
      space.Every Space.Ready → ∃ outcome s', ∀ (σ : Type) (view : StateView σ) (p : Session × σ)
        (t : σ), Session.space view key p = .ok space (s₁, t) →
          value view key p = settled (s', t) outcome := by
    intro space s₁ type ready
    rw [← type] at wf
    obtain ⟨v, stream, fits, draws⟩ := Space.draw_of_ready s₁.sampling space wf ready s₁.stream
    exact ⟨.ok v, _, fun σ view p t found => value_of_draws found draws fits⟩
  cases known : s.space? key with
  | some space =>
    obtain ⟨before, rest, -, -, rules, σ', view', state₁, state₂, assembled⟩ :=
      assembled_of_cached fresh known
    rw [rules] at assembled
    obtain ⟨outcome, s', alike⟩ := drawn space s (argumentSpace_type assembled)
      (ready_of_other checked other assembled)
    exact ⟨outcome, s', fun σ view t => alike σ view _ t (space_of_cached known)⟩
  | none =>
    obtain ⟨outcome, same⟩ := exists_argumentSpace_other checked s.guards other
    cases outcome with
    | error e => exact ⟨.error e, s, fun σ view t => value_of_failed known (same σ view t)⟩
    | ok space =>
      have assembled := same Unit detached ()
      obtain ⟨outcome, s', alike⟩ := drawn space { s with spaces := s.spaces.put key space }
        (argumentSpace_type assembled) (ready_of_other checked other assembled)
      exact ⟨outcome, s', fun σ view t =>
        alike σ view _ t (space_of_assembled known (same σ view t))⟩

/-! ## Sessions -/

/-- All rules that a session is given come from documents. -/
def FromDocuments (ops : List Operation) : Prop :=
  ∀ rules, .useRules rules ∈ ops → ∃ document, RuleBook.ofDocument document = .ok rules

/-- The rules of a session are checked if they come from documents. -/
theorem checked_after {settings : Settings} {stream : Random.Stream} {ops : List Operation}
    (loaded : FromDocuments ops) : ((start settings stream).after ops).rules.Checked := by
  induction ops using List.reverseRecOn with
  | nil =>
    have none : RuleBook.ofDocument (.object []) = .ok RuleBook.empty := rfl
    exact RuleBook.checked_of_ofDocument none
  | append_singleton ops op ih =>
    have before := ih fun rules hr => loaded rules (List.mem_append_left _ hr)
    rw [after_append]
    change (op.run ((start settings stream).after ops)).rules.Checked
    rcases run_cases ((start settings stream).after ops) op with
      ⟨rules, rfl⟩ | ⟨unit, rfl⟩ | rfl | ⟨-, requested⟩
    · obtain ⟨document, read⟩ := loaded rules (by simp)
      exact RuleBook.checked_of_ofDocument read
    · exact before
    · exact before
    · rw [requested.rules_eq]
      exact before

/-- **State is read live and in order.** Let the rules of a session come from
documents, whatever else happened in it. A request for an argument makes some
reads, and these are all that it makes: a view that keeps a log has just them in
it, and every view that gives the same replies comes to the same outcome and
leaves the session alike. An argument that is no number reads nothing. For a
number, the first request applies its constraints, each getter among them being
asked once, and every request asks the getters again that were kept; either
part ends at the first constraint that fails. A getter without an answer is what
the request then fails with, and no random word is used. -/
theorem reads_in_order (settings : Settings) (stream : Random.Stream) (ops : List Operation)
    (loaded : FromDocuments ops) {contract function typeName name : String} {type : AbiType}
    (typed : AbiType.ofName typeName = .ok type) {σ : Type} (view : StateView σ) (state : σ) :
    let s₀ := start settings stream
    let key : ArgumentKey := ⟨contract, function, type, name⟩
    ∃ reads state' outcome s', Made view reads state state' ∧
      (∀ log, Session.argument (recording view) contract function typeName name
        (s₀.after ops, (state, log)) = settled (s', (state', log ++ reads)) outcome) ∧
      (∀ (σ' : Type) (view' : StateView σ') (t t' : σ'), Made view' reads t t' →
        Session.argument view' contract function typeName name (s₀.after ops, t) =
          settled (s', t') outcome) ∧
      ((∀ number, type ≠ .number number) → reads = []) ∧
      (∀ number, type = .number number → ∃ given, NumberReads s₀ ops key number reads given ∧
        (given = true ↔ ∃ v, outcome = .ok v)) ∧
      ∀ getter e, ⟨getter, .error e⟩ ∈ reads →
        outcome = .error (.bound (.read e)) ∧ s'.stream = (s₀.after ops).stream := by
  intro s₀ key
  have isValue : ∀ (σ : Type) (view : StateView σ), Session.argument view contract function
      typeName name = value view key := by
    intro σ view
    simp only [Session.argument, typed, key]
  have checked : (s₀.after ops).rules.Checked := checked_after loaded
  have wf : key.type.WellFormed := AbiType.wellFormed_of_ofName typed
  have fresh : s₀.space? key = none := rfl
  simp only [isValue]
  by_cases isNumber : ∃ number, type = .number number
  · obtain ⟨number, rfl⟩ := isNumber
    obtain ⟨reads, state', given, outcome, s', made, numberReads, alike, ends, kept⟩ :=
      value_number s₀ ops fresh checked wf rfl view state
    refine ⟨reads, state', outcome, s', made,
      fun log => alike _ _ _ _ (made_recording made log), alike,
      fun other => absurd rfl (other number), ?_, ?_⟩
    · rintro _ ⟨⟩
      refine ⟨given, numberReads, ?_⟩
      cases ends <;> simp
    · intro getter e hr
      cases ends with
      | passed =>
        obtain ⟨v, answer⟩ := numberReads.answered _ hr
        cases answer
      | failed blames => exact ⟨by rw [blames getter e hr], kept rfl⟩
  · have other : ∀ number, type ≠ .number number := fun number same => isNumber ⟨number, same⟩
    obtain ⟨outcome, s', alike⟩ := value_other s₀ ops fresh checked wf other
    refine ⟨[], state, outcome, s', .nil, fun log => ?_, fun σ' view' t t' made => ?_,
      fun _ => rfl, fun number same => absurd same (other number), fun _ _ hr => by cases hr⟩
    · rw [List.append_nil]
      exact alike _ _ _
    · obtain rfl := made_nil_iff.1 made
      exact alike _ _ _

/-- A contract `C` with a function `f(x)` that requires `x` to stand in a
comparison with a getter. -/
def unitComparing (operator getter : String) : Source.Node :=
  .sourceUnit [.contract "C" [.function ⟨"f", none, [⟨"x", none⟩], Source.Location.none⟩
    (some (.block [.expressionStatement
      (.call (.identifier "require" Source.Location.none)
        [.binary operator (.identifier "x" Source.Location.none)
          (.identifier getter Source.Location.none) Source.Location.none]
        Source.Location.none)]))]]

/-- A byte has to be what `cap` says. The first request asks twice: to apply the
guard, and to draw. -/
theorem reads_in_order_cap :
    let two : Scalar := ⟨2, by decide⟩
    let ops : List Operation := [.addUnit (unitComparing "==" "cap")]
    let s := (start Settings.standard (.ofSeed 7)).after ops
    let reads : List Read := [⟨"cap", .ok two⟩, ⟨"cap", .ok two⟩]
    FromDocuments ops ∧ AbiType.ofName "uint8" = .ok byteKey.type ∧
      (∃ s', Session.argument (recording (Domain.answering two)) "C" "f" "uint8" "x"
        (s, ((), [])) = .ok (.uint 2 8) (s', ((), reads))) ∧
      NumberReads (start Settings.standard (.ofSeed 7)) ops byteKey (.uint 8) reads true := by
  intro two ops s reads
  have loaded : FromDocuments ops := by
    intro rules hr
    cases List.mem_singleton.1 hr
  have typed : AbiType.ofName "uint8" = .ok byteKey.type := by decide
  let equals : Constraint := ⟨.equal, .getter "cap", .guard Source.Location.none ["x"]⟩
  have guards : guardsOn s.guards byteKey = [equals] :=
    List.perm_singleton.1 (guardsOn_addUnits_perm GuardTable.empty
      [unitComparing "==" "cap"] byteKey)
  let space : Space := .number (.uint 8) { Domain.ofType (.uint 8) with live := [equals] }
  have assembled : argumentSpace (recording (Domain.answering two)) s.rules s.guards byteKey
      ((), []) = .ok space ((), [⟨"cap", .ok two⟩]) := by
    refine argumentSpace_ok_iff.2 ⟨Space.ofType byteKey.type, ⟨((), []), []⟩,
      ⟨((), [⟨"cap", .ok two⟩]), [equals]⟩, rfl, ?_, rfl⟩
    unfold guardsOn at guards
    rw [Assembly.narrowByGuards, guards]
    rfl
  let s₁ : Session := { s with spaces := [(byteKey, space)] }
  have unknown : s.space? byteKey = none := rfl
  have found : Session.space (recording (Domain.answering two)) byteKey (s, ((), [])) =
      .ok space (s₁, ((), [⟨"cap", .ok two⟩])) := space_of_assembled unknown assembled
  have given : Session.draw (recording (Domain.answering two)) byteKey space
      (s₁, ((), [⟨"cap", .ok two⟩])) = .ok (.uint 2 8) (s₁, ((), reads)) := rfl
  have drawn : Session.argument (recording (Domain.answering two)) "C" "f" "uint8" "x"
      (s, ((), [])) = .ok (.uint 2 8) (s₁, ((), reads)) := by
    simp only [Session.argument, typed]
    exact value_ok_iff.2 ⟨space, _, found, given, rfl⟩
  obtain ⟨logged, state', outcome, s', -, recorded, -, -, number, -⟩ :=
    reads_in_order Settings.standard (.ofSeed 7) ops loaded typed (Domain.answering two) ()
  have same := (recorded []).symm.trans drawn
  cases outcome with
  | error e => cases same
  | ok v =>
    simp only [settled, EStateM.Result.ok.injEq, Prod.mk.injEq, List.nil_append] at same
    obtain ⟨rfl, -, -, rfl⟩ := same
    obtain ⟨given, numberReads, given_iff⟩ := number (.uint 8) rfl
    obtain rfl := given_iff.2 ⟨_, rfl⟩
    exact ⟨loaded, typed, ⟨_, drawn⟩, numberReads⟩

end Requests

end Session

end GuardedCalls
