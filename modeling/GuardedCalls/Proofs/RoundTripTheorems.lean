/-
GuardedCalls.Proofs.RoundTripTheorems — what is encoded is decoded.

* `AbiType.Codable` — the types of which the reader can read values: no empty
  tuple, and no more than 16 readers nest.
* `AbiType.decode_encode`, `decodeAll_encodeAll` — a value and an argument list
  are decoded from their encoding.
* `Session.haveTypes_of_argumentsFrom` — the values of the parameters of a
  function have the types that the parameters name, in every session.
* `round_trip` — the three together: values, lists, and call data.
-/
import GuardedCalls.Proofs.ArgumentTheorems
import GuardedCalls.Proofs.CodecTheorems

namespace GuardedCalls

open Abi

/-- Values of the type can be read back. -/
structure AbiType.Codable (t : AbiType) : Prop where
  solid : t.Solid
  shallow : t.nesting ≤ 16

section Decode

variable {t : AbiType} {ts : List AbiType} {v : AbiValue} {vs : List AbiValue}

theorem readFrom_eq_ok_iff {α : Type} {data : List UInt8} {least : Nat}
    {read : Cursor → Except DecodeFault (α × Cursor)} {a : α} :
    readFrom data least none read = .ok a ↔
      32 * least ≤ data.length ∧ ∃ c, read (Cursor.start data) = .ok (a, c) := by
  have words : (Cursor.start data).wordsLeft < least ↔ ¬ 32 * least ≤ data.length := by
    simp only [Cursor.wordsLeft, Cursor.start]
    omega
  unfold readFrom
  simp only [words, ite_not]
  split
  · next enough =>
    cases read (Cursor.start data) with
    | error e => simp
    | ok p => simp [enough, Prod.ext_iff]
  · next few => simp [few]

/-- The beginning of some data has room for the readers of a type. -/
theorem fits_start {data : List UInt8} {depth : Nat} (short : data.length < 2 ^ 64)
    (shallow : depth ≤ 16) : (Cursor.start data).Fits depth :=
  ⟨by simpa [Cursor.start] using shallow, short, Nat.le_refl _⟩

namespace AbiType

theorem allSolid_iff : AllSolid ts ↔ ∀ t ∈ ts, t.Solid :=
  forall_mem_of_cons (by simp [AllSolid]) (fun t ts => by rw [AllSolid]) ts

theorem allWellFormed_iff : AllWellFormed ts ↔ ∀ t ∈ ts, t.WellFormed :=
  forall_mem_of_cons (by simp [AllWellFormed]) (fun t ts => by rw [AllWellFormed]) ts

theorem nestingAll_le_iff {most : Nat} : nestingAll ts ≤ most ↔ ∀ t ∈ ts, t.nesting ≤ most := by
  let Within (ts : List AbiType) : Prop := nestingAll ts ≤ most
  have nil : Within [] := Nat.zero_le most
  exact forall_mem_of_cons nil (fun t ts => Nat.max_le) ts

theorem decode_eq_ok_iff (solid : t.Solid) {data : List UInt8} : t.decode data = .ok v ↔
    readFrom data t.wire.leastWords none (t.wire.read .ample) = .ok v := by
  simp only [decode, decodeWithin, Solid.not_hollow t solid, Bool.false_eq_true, if_false,
    Room.ample]
  split <;> simp_all

/-- **A value is decoded from its encoding.** -/
theorem decode_encode (wf : t.WellFormed) (codable : t.Codable) (typed : v.HasType t)
    (short : v.encode.length < 2 ^ 64) : t.decode v.encode = .ok v := by
  have enough : 32 * t.wire.leastWords ≤ v.encode.length :=
    Nat.le_trans (leastWords_le t typed) (by simpa [AbiValue.encode] using length_layout [v.part])
  obtain ⟨next, here, -⟩ : StandAll [v.part] (Cursor.start v.encode) (tails [v.part] ++ []) :=
    standAll_layout (List.append_nil _).symm
  have read := reads_part t wf codable.solid typed _ next (fits_start short codable.shallow) here
  exact (decode_eq_ok_iff codable.solid).2 (readFrom_eq_ok_iff.2 ⟨enough, _, read⟩)

end AbiType

theorem decodeAll_eq_ok_iff (filled : ts ≠ []) (solid : AbiType.AllSolid ts) {data : List UInt8} :
    decodeAll ts data = .ok vs ↔
      let wires := AbiType.wireAll ts
      readFrom data (AbiType.leastWordsAll wires) none (AbiType.readAll .ample wires) =
        .ok vs := by
  simp only [decodeAll, decodeAllWithin, AbiType.AllSolid.not_hollow ts filled solid,
    Bool.false_eq_true, if_false, Room.ample]
  split <;> simp_all

/-- **So is an argument list.** -/
theorem decodeAll_encodeAll (wf : AbiType.AllWellFormed ts) (codable : ∀ t ∈ ts, t.Codable)
    (typed : AbiValue.HaveTypes vs ts) (short : (encodeAll vs).length < 2 ^ 64) :
    decodeAll ts (encodeAll vs) = .ok vs := by
  cases ts with
  | nil =>
    cases typed
    rfl
  | cons t ts =>
    have solid := AbiType.allSolid_iff.2 fun u hu => (codable u hu).solid
    have shallow := AbiType.nestingAll_le_iff.2 fun u hu => (codable u hu).shallow
    have enough := Nat.le_trans (AbiType.leastWordsAll_le _ typed) (length_layout _)
    have stand : StandAll (AbiValue.parts vs) (Cursor.start (encodeAll vs)) _ :=
      standAll_layout (List.append_nil _).symm
    have read := AbiType.readAll_parts _ wf solid typed _ _ (fits_start short shallow) stand
    exact (decodeAll_eq_ok_iff (List.cons_ne_nil t ts) solid).2
      (readFrom_eq_ok_iff.2 ⟨enough, _, read⟩)

end Decode

/-! ## Values of a session -/

namespace Session

variable {σ : Type} {view : StateView σ} {s₀ : Session} {v : AbiValue} {vs : List AbiValue}

/-- A value of an argument is one of its type. -/
theorem hasType_of_argument (unknown : ∀ key, s₀.space? key = none) {ops : List Operation}
    {state : σ} {contract function typeName name : String} {p : Session × σ}
    (drawn : argument view contract function typeName name (s₀.after ops, state) = .ok v p) :
    ∃ t, AbiType.ofName typeName = .ok t ∧ v.HasType t := by
  unfold argument at drawn
  cases typed : AbiType.ofName typeName with
  | error e =>
    rw [typed] at drawn
    cases drawn
  | ok t =>
    rw [typed] at drawn
    obtain ⟨space, p₁, found, -, checked⟩ := value_ok_iff.1 drawn
    obtain ⟨before, later, -, σ', view', state₁, state₂, assembled⟩ :=
      assembled_of_space (unknown _) found
    have type : space.type = t := argumentSpace_type assembled
    exact ⟨t, rfl, type ▸ Space.hasType_of_check space checked⟩

/-- Values of parameters are of the types that the parameters name. -/
theorem haveTypes_of_argumentsFrom (unknown : ∀ key, s₀.space? key = none)
    {contract function : String} (ps : List ContractParameter) {place : Nat} {ops : List Operation}
    {state : σ} {p : Session × σ}
    (drawn : argumentsFrom view contract function place ps (s₀.after ops, state) = .ok vs p) :
    ∃ ts, List.Forall₂ (fun p t => AbiType.ofName p.type = .ok t) ps ts ∧
      AbiValue.HaveTypes vs ts := by
  induction ps generalizing place ops state vs with
  | nil =>
    cases drawn
    exact ⟨[], .nil, .nil⟩
  | cons q ps ih =>
    obtain ⟨v, ⟨s₁, state₁⟩, first, drawn⟩ := bind_eq_ok_iff.1 drawn
    obtain ⟨vs, p₂, others, drawn⟩ := bind_eq_ok_iff.1 drawn
    cases drawn
    -- The session after the first value is the one after one more operation.
    have reached : s₁ = s₀.after (ops ++
        [.argument view state contract function q.type (parameterName place q)]) := by
      rw [after_append]
      simp only [after, List.foldl_cons, List.foldl_nil, Operation.run]
      exact (congrArg remaining first).symm
    subst reached
    obtain ⟨t, typed, hasType⟩ := hasType_of_argument unknown first
    obtain ⟨ts, named, haveTypes⟩ := ih others
    exact ⟨t :: ts, .cons typed named, .cons hasType haveTypes⟩

/-- Call data is a selector and the encoding of values of the parameters. -/
theorem callData_eq_ok (unknown : ∀ key, s₀.space? key = none) {ops : List Operation} {state : σ}
    {contract : String} {f : ContractFunction} {data : List UInt8} {p : Session × σ}
    (drawn : callData view contract f (s₀.after ops, state) = .ok data p) :
    ∃ ts vs, arguments view contract f (s₀.after ops, state) = .ok vs p ∧
      data = f.selector.bytes ++ encodeAll vs ∧
      List.Forall₂ (fun p t => AbiType.ofName p.type = .ok t) f.inputs ts ∧
      AbiValue.HaveTypes vs ts := by
  obtain ⟨vs, p₁, values, drawn⟩ := bind_eq_ok_iff.1 drawn
  cases drawn
  obtain ⟨ts, named, typed⟩ := haveTypes_of_argumentsFrom unknown f.inputs values
  exact ⟨ts, vs, values, rfl, named, typed⟩

end Session

theorem allWellFormed_of_named {ps : List ContractParameter} {ts : List AbiType}
    (named : List.Forall₂ (fun p t => AbiType.ofName p.type = .ok t) ps ts) :
    AbiType.AllWellFormed ts := by
  induction named with
  | nil => exact trivial
  | cons first _ ih => exact ⟨AbiType.wellFormed_of_ofName first, ih⟩

theorem hasType_of_checked {t : AbiType} {v : AbiValue}
    (checked : (Space.ofType t).check v = .ok ()) : v.HasType t := by
  have typed := Space.hasType_of_check (Space.ofType t) checked
  rwa [Space.type_ofType] at typed

theorem haveTypes_of_checked {ts : List AbiType} {vs : List AbiValue}
    (checked : List.Forall₂ (fun t v => (Space.ofType t).check v = .ok ()) ts vs) :
    AbiValue.HaveTypes vs ts := by
  induction checked with
  | nil => exact .nil
  | cons first _ ih => exact .cons (hasType_of_checked first) ih

/-- **What is encoded is decoded.** Take well-formed types without empty tuples
of which the reader nests no more than it may, and values that pass their
check, with an encoding that 64 bits can measure. A value is decoded from its
encoding, and an argument list from its own. So the call data that a session
draws holds, behind the selector, an encoding from which the drawn arguments are
decoded. -/
theorem round_trip :
    (∀ (t : AbiType) (v : AbiValue), t.WellFormed → t.Codable →
      (Space.ofType t).check v = .ok () → v.encode.length < 2 ^ 64 →
        t.decode v.encode = .ok v) ∧
    (∀ (ts : List AbiType) (vs : List AbiValue), (∀ t ∈ ts, t.WellFormed) →
      (∀ t ∈ ts, t.Codable) →
      List.Forall₂ (fun t v => (Space.ofType t).check v = .ok ()) ts vs →
      (encodeAll vs).length < 2 ^ 64 → decodeAll ts (encodeAll vs) = .ok vs) ∧
    ∀ (σ : Type) (view : StateView σ) (settings : Settings) (stream : Random.Stream)
      (ops : List Session.Operation) (state : σ) (contract : String) (f : ContractFunction)
      (data : List UInt8) (p : Session × σ),
      Session.callData view contract f ((Session.start settings stream).after ops, state) =
        .ok data p →
      ∃ ts vs,
        Session.arguments view contract f ((Session.start settings stream).after ops, state) =
          .ok vs p ∧
        List.Forall₂ (fun p t => AbiType.ofName p.type = .ok t) f.inputs ts ∧
        data.take 4 = f.selector.bytes ∧ data.drop 4 = encodeAll vs ∧
        ((∀ t ∈ ts, t.Codable) → (data.drop 4).length < 2 ^ 64 →
          decodeAll ts (data.drop 4) = .ok vs) := by
  refine ⟨fun t v wf codable checked short => ?_, fun ts vs wf codable checked short => ?_,
    fun σ view settings stream ops state contract f data p drawn => ?_⟩
  · exact AbiType.decode_encode wf codable (hasType_of_checked checked) short
  · exact decodeAll_encodeAll (AbiType.allWellFormed_iff.2 wf) codable
      (haveTypes_of_checked checked) short
  · obtain ⟨ts, vs, values, rfl, named, typed⟩ := Session.callData_eq_ok (fun key => rfl) drawn
    have four : f.selector.bytes.length = 4 := length_bigEndian 4 _
    rw [List.take_left' four, List.drop_left' four]
    refine ⟨ts, vs, values, named, rfl, rfl, fun codable short => ?_⟩
    exact decodeAll_encodeAll (allWellFormed_of_named named) codable typed short

/-- Arrays of tuples of arrays. -/
def nestedType : AbiType :=
  .array (.tuple [.bytes, .array (.tuple [.number (.int 256), .fixedBytes 2])])

def nestedValue : AbiValue :=
  .array
    [.tuple [.bytes [1, 2, 3], .array [.tuple [.int (-5) 256, .fixedBytes (0xABCD <<< 240) 2]]],
      .tuple [.bytes [], .array []]]

/-- A function of one byte. -/
def takesByte : ContractFunction := ⟨"f", [⟨"x", "uint8"⟩], [], .nonpayable⟩

/-- The session that was shown that the byte has to be seven. -/
def requiringSeven : Session :=
  (Session.start Settings.standard (.ofSeed 7)).after [.addUnit (Session.unitRequiring "==" "7")]

theorem arguments_requiringSeven :
    ∃ p, Session.arguments detached "C" takesByte (requiringSeven, ()) = .ok [.uint 7 8] p := by
  have typed : AbiType.ofName "uint8" = .ok (.number (.uint 8)) := by decide
  let space : Space :=
    .number (.uint 8) { Domain.ofType (.uint 8) with pinned := some ⟨7, by decide⟩ }
  let s : Session := { requiringSeven with spaces := [(Session.byteKey, space)] }
  have unknown : requiringSeven.space? Session.byteKey = none := rfl
  have assembled : argumentSpace detached requiringSeven.rules requiringSeven.guards
      Session.byteKey () = .ok space () := Session.argumentSpace_requiring_seven
  have found : Session.space detached Session.byteKey (requiringSeven, ()) = .ok space (s, ()) := by
    simp only [Session.space, unknown, assembled]
    rfl
  have drawn : Session.argument detached "C" "f" "uint8" "x" (requiringSeven, ()) =
      .ok (.uint 7 8) (s, ()) := by
    simp only [Session.argument, typed]
    exact Session.value_ok_iff.2 ⟨space, (s, ()), found, rfl, rfl⟩
  exact ⟨(s, ()), bind_eq_ok_iff.2 ⟨_, _, drawn, bind_eq_ok_iff.2 ⟨[], _, rfl, rfl⟩⟩⟩

theorem round_trip_nested :
    nestedType.WellFormed ∧ nestedType.Codable ∧
      (Space.ofType nestedType).check nestedValue = .ok () ∧
      nestedValue.encode.length < 2 ^ 64 ∧
      nestedType.decode nestedValue.encode = .ok nestedValue ∧
      decodeAll [nestedType, .string] (encodeAll [nestedValue, .string "ok"]) =
        .ok [nestedValue, .string "ok"] ∧
      ∃ data p, Session.callData detached "C" takesByte (requiringSeven, ()) = .ok data p ∧
        decodeAll [.number (.uint 8)] (data.drop 4) = .ok [.uint 7 8] := by
  have wf : nestedType.WellFormed := by
    simp [nestedType, AbiType.WellFormed, AbiType.AllWellFormed, NumberType.WellFormed, IsWidth]
  have codable : nestedType.Codable :=
    ⟨by simp [nestedType, AbiType.Solid, AbiType.AllSolid], by decide⟩
  have checked : (Space.ofType nestedType).check nestedValue = .ok () := rfl
  have short : nestedValue.encode.length < 2 ^ 64 := by decide +kernel
  refine ⟨wf, codable, checked, short, round_trip.1 _ _ wf codable checked short, ?_, ?_⟩
  · have text : AbiType.string.Codable := ⟨trivial, by decide⟩
    refine round_trip.2.1 _ _ ?_ ?_ (.cons checked (.cons rfl .nil)) (by decide +kernel)
    · simp [wf, AbiType.WellFormed]
    · simp [codable, text]
  · obtain ⟨p, values⟩ := arguments_requiringSeven
    have drawn : Session.callData detached "C" takesByte (requiringSeven, ()) =
        .ok (takesByte.selector.bytes ++ encodeAll [.uint 7 8]) p :=
      bind_eq_ok_iff.2 ⟨_, p, values, rfl⟩
    obtain ⟨ts, vs, values', named, -, behind, back⟩ :=
      round_trip.2.2 Unit detached Settings.standard (.ofSeed 7) _ () "C" takesByte _ p drawn
    obtain rfl : vs = [.uint 7 8] := by
      cases values'.symm.trans values
      rfl
    obtain rfl : ts = [.number (.uint 8)] := by
      have byte : AbiType.ofName "uint8" = .ok (.number (.uint 8)) := by decide
      rcases named with _ | ⟨first, ⟨⟩⟩
      exact congrArg (fun t => [t]) (Except.ok.inj (first.symm.trans byte))
    have byte : (AbiType.number (.uint 8)).Codable := ⟨trivial, by decide⟩
    exact ⟨_, p, drawn, back (by simpa using byte) (by rw [behind]; decide +kernel)⟩

end GuardedCalls
