/-
GuardedCalls.Proofs.SpaceTheorems — the numbers in a nested value, and the
domains that they are drawn from.

* `AbiValue.at?`, `AbiType.at?` — what stands at a place of a value or of a
  type. A place is a list of indices, the outermost first; every item of an
  array has the one element type.
* `Space.Every` — a property of all domains of a space.
* `Space.Every.of_draw` — each number in a drawn value was drawn from a domain
  of the space, and the type at its place is the type of that domain.
* `Space.draw_of_ready` — where no domain is empty or has anything to read, a
  value is drawn, it is one of the type, and it comes from the stream alone.
-/
import GuardedCalls.Proofs.AssemblyTheorems
import GuardedCalls.Proofs.LiveBoundTheorems
import GuardedCalls.Proofs.TypeNameTheorems

namespace GuardedCalls

/-! ## Places -/

/-- The type of the item at an index. -/
def AbiType.item? : AbiType → Nat → Option AbiType
  | .fixedArray element length, i => if i < length then some element else none
  | .array element, _ => some element
  | .tuple items, i => items[i]?
  | _, _ => none

/-- The type at a place. -/
def AbiType.at? : AbiType → List Nat → Option AbiType
  | t, [] => some t
  | t, i :: place => (t.item? i).bind (at? · place)

namespace AbiType

variable {t u : AbiType}

theorem AllWellFormed.of_mem {ts : List AbiType} (wf : AllWellFormed ts) (h : t ∈ ts) :
    t.WellFormed := by
  induction ts with
  | nil => cases h
  | cons first ts ih =>
    rcases List.mem_cons.1 h with rfl | later
    · exact wf.1
    · exact ih wf.2 later

/-- A part of a well-formed type is well formed. -/
theorem WellFormed.at? {place : List Nat} (wf : t.WellFormed) (h : t.at? place = some u) :
    u.WellFormed := by
  induction place generalizing t with
  | nil =>
    cases h
    exact wf
  | cons i place ih =>
    obtain ⟨item, found, h⟩ := Option.bind_eq_some_iff.1 h
    refine ih ?_ h
    cases t with
    | fixedArray element length =>
      simp only [item?, Option.ite_none_right_eq_some, Option.some.injEq] at found
      exact found.2 ▸ wf.1
    | array element =>
      cases found
      exact wf
    | tuple items => exact wf.of_mem (List.mem_of_getElem? found)
    | _ => cases found

end AbiType

/-- The values one level down. -/
def AbiValue.items : AbiValue → List AbiValue
  | .fixedArray items => items
  | .array items => items
  | .tuple items => items
  | _ => []

/-- The value at a place. -/
def AbiValue.at? : AbiValue → List Nat → Option AbiValue
  | v, [] => some v
  | v, i :: place => v.items[i]?.bind (at? · place)

/-- The number at a place of a value. -/
def AbiValue.numberAt? (v : AbiValue) (place : List Nat) : Option Scalar :=
  (v.at? place).bind (·.scalar?)

namespace AbiValue

variable {v : AbiValue} {x : Scalar} {place : List Nat} {i : Nat}

/-- A number has nothing in it. -/
theorem items_of_scalar? (h : v.scalar? = some x) : v.items = [] := by
  cases v with
  | fixedArray items => cases h
  | array items => cases h
  | tuple items => cases h
  | _ => rfl

@[simp] theorem numberAt?_nil : v.numberAt? [] = v.scalar? := rfl

theorem numberAt?_cons :
    v.numberAt? (i :: place) = v.items[i]?.bind (·.numberAt? place) := by
  simp only [numberAt?, at?, Option.bind_assoc]

/-- A number in a number is the number itself. -/
theorem place_of_scalar? {y : Scalar} (h : v.scalar? = some x)
    (found : v.numberAt? place = some y) : place = [] ∧ y = x := by
  cases place with
  | nil => exact ⟨rfl, Option.some.inj (found.symm.trans h)⟩
  | cons i place =>
    rw [numberAt?_cons, items_of_scalar? h] at found
    cases found

/-- A number in a value that is none stands in one of its items. -/
theorem exists_item (h : v.scalar? = none) (found : v.numberAt? place = some x) :
    ∃ i rest u, place = i :: rest ∧ v.items[i]? = some u ∧ u.numberAt? rest = some x := by
  cases place with
  | nil =>
    rw [numberAt?_nil, h] at found
    cases found
  | cons i rest =>
    rw [numberAt?_cons] at found
    obtain ⟨u, item, found⟩ := Option.bind_eq_some_iff.1 found
    exact ⟨i, rest, u, rfl, item, found⟩

theorem numberAt?_of_bare (h : v.scalar? = none) (bare : v.items = []) :
    v.numberAt? place = none := by
  cases place with
  | nil => exact h
  | cons i place =>
    rw [numberAt?_cons, bare]
    rfl

end AbiValue

/-! ## Draws in turn -/

namespace Random

/-- Draws in turn give as many results as asked for, each of them from the
draw. -/
theorem exists_of_times {ε σ α : Type} {draw : EStateM ε σ α} {n : Nat} {s s' : σ} {as : List α}
    (run : times draw n s = .ok as s') :
    as.length = n ∧ ∀ a ∈ as, ∃ s₁ s₂, draw s₁ = .ok a s₂ := by
  induction n generalizing s as with
  | zero =>
    cases run
    exact ⟨rfl, List.forall_mem_nil _⟩
  | succ n ih =>
    obtain ⟨a, s₁, first, run⟩ := bind_eq_ok_iff.1 run
    obtain ⟨others, s₂, later, run⟩ := bind_eq_ok_iff.1 run
    cases run
    obtain ⟨length, all⟩ := ih later
    exact ⟨congrArg (· + 1) length, List.forall_mem_cons.2 ⟨⟨s, s₁, first⟩, all⟩⟩

end Random

namespace Space

mutual

/-- All domains of the space have a property. -/
def Every (P : NumberType → Domain → Prop) : Space → Prop
  | .number type d => P type d
  | .fixedBytes _ => True
  | .function => True
  | .bytes => True
  | .string => True
  | .fixedArray element _ => Every P element
  | .array element => Every P element
  | .tuple items => EveryOf P items

/-- All domains of the spaces have a property. -/
def EveryOf (P : NumberType → Domain → Prop) : List Space → Prop
  | [] => True
  | s :: rest => Every P s ∧ EveryOf P rest

end

mutual

theorem Every.mono {P Q : NumberType → Domain → Prop} (weaker : ∀ type d, P type d → Q type d) :
    (space : Space) → space.Every P → space.Every Q
  | .number type d, h => weaker type d h
  | .fixedBytes _, _ => trivial
  | .function, _ => trivial
  | .bytes, _ => trivial
  | .string, _ => trivial
  | .fixedArray element _, h => Every.mono weaker element h
  | .array element, h => Every.mono weaker element h
  | .tuple items, h => EveryOf.mono weaker items h

theorem EveryOf.mono {P Q : NumberType → Domain → Prop} (weaker : ∀ type d, P type d → Q type d) :
    (spaces : List Space) → EveryOf P spaces → EveryOf Q spaces
  | [], _ => trivial
  | space :: spaces, h => ⟨Every.mono weaker space h.1, EveryOf.mono weaker spaces h.2⟩

end

theorem everyOf_iff {P : NumberType → Domain → Prop} {spaces : List Space} :
    EveryOf P spaces ↔ ∀ space ∈ spaces, space.Every P := by
  induction spaces with
  | nil => simp [EveryOf]
  | cons space spaces ih => rw [EveryOf, ih, List.forall_mem_cons]

theorem types_eq_map (spaces : List Space) : types spaces = spaces.map type := by
  induction spaces with
  | nil => rfl
  | cons space spaces ih => rw [types, ih, List.map_cons]

/-! ## What a number was drawn from -/

section Drawn

variable {σ : Type} {view : StateView σ} {how : Sampling} {P : NumberType → Domain → Prop}

/-- A value of a number space is made of a number that its domain gave. -/
theorem of_draw_number {type : NumberType} {d : Domain} {w w' : World σ} {v : AbiValue}
    (drawn : (Space.number type d).draw view how w = .ok v w') :
    ∃ x, d.draw view how.attempts w = .ok x w' ∧ type.value? x = some v := by
  obtain ⟨x, w₁, number, drawn⟩ := bind_eq_ok_iff.1 drawn
  cases made : type.value? x with
  | none =>
    rw [made] at drawn
    cases drawn
  | some v' =>
    rw [made] at drawn
    cases drawn
    exact ⟨x, number, made⟩

/-- The number was drawn from a domain of the type, one with the property. -/
def DrawnFrom (view : StateView σ) (attempts : Nat) (P : NumberType → Domain → Prop)
    (type? : Option AbiType) (x : Scalar) : Prop :=
  ∃ type d, type? = some (.number type) ∧ P type d ∧
    ∃ w w', d.draw view attempts w = .ok x w'

mutual

/-- Each number in a drawn value was drawn from a domain of the space. -/
theorem Every.of_draw : (space : Space) → space.Every P → ∀ (w w' : World σ) (v : AbiValue),
    space.draw view how w = .ok v w' → ∀ place x, v.numberAt? place = some x →
      DrawnFrom view how.attempts P (space.type.at? place) x
  | .number type d, h => by
    intro w w' v drawn place x found
    obtain ⟨y, number, made⟩ := of_draw_number drawn
    obtain ⟨rfl, rfl⟩ := AbiValue.place_of_scalar? (NumberType.scalar?_of_value? made) found
    exact ⟨type, d, rfl, h, w, _, number⟩
  | .fixedBytes size, _ => by
    intro w w' v drawn place x found
    obtain ⟨bs, w₁, -, drawn⟩ := bind_eq_ok_iff.1 drawn
    cases drawn
    rw [AbiValue.numberAt?_of_bare rfl rfl] at found
    cases found
  | .function, _ => by
    intro w w' v drawn place x found
    obtain ⟨bs, w₁, -, drawn⟩ := bind_eq_ok_iff.1 drawn
    cases drawn
    rw [AbiValue.numberAt?_of_bare rfl rfl] at found
    cases found
  | .bytes, _ => by
    intro w w' v drawn place x found
    obtain ⟨length, w₁, -, drawn⟩ := bind_eq_ok_iff.1 drawn
    obtain ⟨bs, w₂, -, drawn⟩ := bind_eq_ok_iff.1 drawn
    cases drawn
    rw [AbiValue.numberAt?_of_bare rfl rfl] at found
    cases found
  | .string, _ => by
    intro w w' v drawn place x found
    obtain ⟨length, w₁, -, drawn⟩ := bind_eq_ok_iff.1 drawn
    obtain ⟨chars, w₂, -, drawn⟩ := bind_eq_ok_iff.1 drawn
    cases drawn
    rw [AbiValue.numberAt?_of_bare rfl rfl] at found
    cases found
  | .fixedArray element length, h => by
    intro w w' v drawn place x found
    obtain ⟨vs, w₁, items, drawn⟩ := bind_eq_ok_iff.1 drawn
    cases drawn
    obtain ⟨i, rest, u, rfl, item, found⟩ := AbiValue.exists_item rfl found
    obtain ⟨size, all⟩ := Random.exists_of_times items
    obtain ⟨w₂, w₃, drawn⟩ := all u (List.mem_of_getElem? item)
    have inside : i < length := size ▸ (List.getElem?_eq_some_iff.1 item).1
    have inner := Every.of_draw element h w₂ w₃ u drawn rest x found
    rwa [type, AbiType.at?, AbiType.item?, if_pos inside, Option.bind_some]
  | .array element, h => by
    intro w w' v drawn place x found
    obtain ⟨length, w₁, -, drawn⟩ := bind_eq_ok_iff.1 drawn
    obtain ⟨vs, w₂, items, drawn⟩ := bind_eq_ok_iff.1 drawn
    cases drawn
    obtain ⟨i, rest, u, rfl, item, found⟩ := AbiValue.exists_item rfl found
    obtain ⟨-, all⟩ := Random.exists_of_times items
    obtain ⟨w₃, w₄, drawn⟩ := all u (List.mem_of_getElem? item)
    have inner := Every.of_draw element h w₃ w₄ u drawn rest x found
    rwa [type, AbiType.at?, AbiType.item?, Option.bind_some]
  | .tuple spaces, h => by
    intro w w' v drawn place x found
    obtain ⟨vs, w₁, items, drawn⟩ := bind_eq_ok_iff.1 drawn
    cases drawn
    obtain ⟨i, rest, u, rfl, item, found⟩ := AbiValue.exists_item rfl found
    exact EveryOf.of_drawAll spaces h w _ vs items i u item rest x found

/-- So was each number in the values that are drawn from spaces in turn. -/
theorem EveryOf.of_drawAll : (spaces : List Space) → EveryOf P spaces →
    ∀ (w w' : World σ) (vs : List AbiValue), drawAll view how spaces w = .ok vs w' →
      ∀ (i : Nat) (v : AbiValue), vs[i]? = some v → ∀ place x, v.numberAt? place = some x →
        DrawnFrom view how.attempts P ((types spaces)[i]?.bind fun t : AbiType => t.at? place) x
  | [], _ => by
    intro w w' vs drawn i v item
    cases drawn
    cases item
  | space :: spaces, h => by
    intro w w' vs drawn i v item place x found
    obtain ⟨first, w₁, drawn₁, drawn⟩ := bind_eq_ok_iff.1 drawn
    obtain ⟨others, w₂, drawn₂, drawn⟩ := bind_eq_ok_iff.1 drawn
    cases drawn
    cases i with
    | zero =>
      cases item
      exact Every.of_draw space h.1 w w₁ v drawn₁ place x found
    | succ i => exact EveryOf.of_drawAll spaces h.2 w₁ _ others drawn₂ i v item place x found

end

end Drawn

end Space

/-! ## Numbers and bytes that are drawn are values of their types -/

namespace NumberType

open Scalar

variable {type : NumberType} {x : Scalar} {v : AbiValue}

/-- A number of the type makes a value. -/
theorem exists_value? (wf : type.WellFormed) (legal : type.Legal x) :
    ∃ v, type.value? x = some v := by
  have unsigned : ∀ {bits}, IsWidth bits → 0 ≤ x.val ∧ x.val < 2 ^ bits →
      ∃ v, value?.unsigned? x bits = some v := by
    intro bits width range
    have inside : ¬ (x < zero ∨ maxUnsigned bits < x) := by
      simp only [lt_iff, val_maxUnsigned width.2.2, zero]
      omega
    exact ⟨_, if_neg inside⟩
  have signed : ∀ {bits}, IsWidth bits → -(2 ^ (bits - 1)) ≤ x.val ∧ x.val < 2 ^ (bits - 1) →
      ∃ v, value?.signed? x bits = some v := by
    intro bits width range
    have most : (2 : Int) ^ (bits - 1) ≤ 2 ^ 255 := by
      have := width.2.2
      exact_mod_cast Nat.pow_le_pow_right (n := 2) (by omega) (show bits - 1 ≤ 255 by omega)
    have inside : ¬ (x < minSigned bits ∨ maxSigned bits < x) := by
      simp only [lt_iff, val_minSigned width.2.2, val_maxSigned width.2.2]
      omega
    unfold value?.signed?
    rw [if_neg inside, signedWord?_eq, if_pos (by omega)]
    exact ⟨_, rfl⟩
  cases type with
  | uint bits => exact unsigned wf legal
  | int bits => exact signed wf legal
  | ufixed bits decimals => exact unsigned wf.1 legal
  | fixed bits decimals => exact signed wf.1 legal
  | address =>
    have inside : ¬ (x < zero ∨ maxUnsigned 160 < x) := by
      simp only [lt_iff, val_maxUnsigned (show 160 ≤ 256 by omega), zero]
      obtain ⟨low, high⟩ := legal
      omega
    exact ⟨_, if_neg inside⟩
  | bool =>
    rcases legal with isZero | isOne
    · exact ⟨_, if_pos (Scalar.ext isZero)⟩
    · have other : x ≠ zero := by
        rintro rfl
        cases isOne
      refine ⟨.bool true, ?_⟩
      simp only [value?, if_neg other, if_pos (show x = one from Scalar.ext isOne)]

theorem hasShape_of_value? (made : type.value? x = some v) : Space.hasShape type v = true := by
  have unsigned : ∀ {bits}, value?.unsigned? x bits = some v → ∃ w, v = .uint w bits := by
    intro bits made
    unfold value?.unsigned? at made
    split at made <;> cases made
    exact ⟨_, rfl⟩
  have signed : ∀ {bits}, value?.signed? x bits = some v → ∃ w, v = .int w bits := by
    intro bits made
    unfold value?.signed? at made
    split at made
    · cases made
    · obtain ⟨w, -, rfl⟩ := Option.map_eq_some_iff.1 made
      exact ⟨w, rfl⟩
  cases type with
  | uint bits =>
    obtain ⟨w, rfl⟩ := unsigned made
    simp [Space.hasShape]
  | int bits =>
    obtain ⟨w, rfl⟩ := signed made
    simp [Space.hasShape]
  | ufixed bits decimals =>
    obtain ⟨w, rfl⟩ := unsigned made
    simp [Space.hasShape]
  | fixed bits decimals =>
    obtain ⟨w, rfl⟩ := signed made
    simp [Space.hasShape]
  | address =>
    simp only [value?] at made
    split at made <;> cases made
    rfl
  | bool =>
    simp only [value?] at made
    split at made
    · cases made
      rfl
    · split at made <;> cases made
      rfl

end NumberType

/-- Zeros at the end shift the number of bytes. -/
theorem ofBigEndian_append_zeros (bs : List UInt8) (n : Nat) :
    ofBigEndian (bs ++ List.replicate n 0) = ofBigEndian bs * 256 ^ n := by
  induction n with
  | zero => simp
  | succ n ih =>
    have step : ∀ cs : List UInt8, ofBigEndian (cs ++ [0]) = ofBigEndian cs * 256 := by
      intro cs
      simp [ofBigEndian]
    rw [List.replicate_succ', ← List.append_assoc, step, ih, Nat.pow_succ, Nat.mul_assoc]

/-- Bytes that are filled up with zeros are zero from there on. -/
theorem Space.zeroFrom_ofBytes {size : Nat} (most : size ≤ 32) (bs : List UInt8) :
    zeroFrom size (Word.ofBytes (bs ++ List.replicate (32 - size) 0)) = true := by
  refine List.all_eq_true.2 fun b hb => ?_
  obtain ⟨i, inside, rfl⟩ := List.getElem_of_mem hb
  have last : size + i < 32 := by
    simp only [Word.bytes, bigEndian, List.length_drop, List.length_map, List.length_range]
      at inside
    omega
  simp only [Word.bytes, bigEndian, List.getElem_drop, List.getElem_map, List.getElem_range,
    Word.ofBytes, BitVec.toNat_ofNat, ofBigEndian_append_zeros, decide_eq_true_eq]
  -- The byte is a digit below the lowest one that the bytes reach.
  set place := 32 - 1 - (size + i) with hplace
  have shifted : 256 ^ place * 256 ∣ ofBigEndian bs * 256 ^ (32 - size) % 2 ^ 256 := by
    rw [← Nat.pow_succ]
    have whole : 256 ^ (place + 1) ∣ 2 ^ 256 := by
      rw [show 2 ^ 256 = 256 ^ 32 by decide]
      exact Nat.pow_dvd_pow 256 (by omega)
    exact (Nat.dvd_mod_iff whole).2
      (Nat.dvd_mul_left_of_dvd (Nat.pow_dvd_pow 256 (by omega)) _)
  have digit := Nat.dvd_div_of_mul_dvd shifted
  exact UInt8.toNat_inj.1 (by rw [UInt8.toNat_ofNat']; exact Nat.mod_eq_zero_of_dvd digit)

/-- A draw leaves the state as it is. -/
theorem World.draw_apply {σ ε α : Type} (m : Random.Draw α) (s : σ) (stream : Random.Stream) :
    (World.draw m : EStateM ε (World σ) α) ⟨s, stream⟩ = .ok (m stream).1 ⟨s, (m stream).2⟩ := rfl

namespace Space

/-! ## Draws that cannot fail -/

/-- Something is left of the domain, and it has nothing to read. -/
def Ready (type : NumberType) (d : Domain) : Prop :=
  ∃ cs, Domain.Reached type cs d ∧ ∀ c ∈ cs, c.bound.readsState = false

/-- From this stream the value is drawn and that stream is left, whatever there
is to read. -/
def Draws (how : Sampling) (space : Space) (stream : Random.Stream) (v : AbiValue)
    (stream' : Random.Stream) : Prop :=
  ∀ (σ : Type) (view : StateView σ) (s : σ),
    space.draw view how ⟨s, stream⟩ = .ok v ⟨s, stream'⟩

/-- The same for some values in turn. -/
def DrawsAll (how : Sampling) (spaces : List Space) (stream : Random.Stream) (vs : List AbiValue)
    (stream' : Random.Stream) : Prop :=
  ∀ (σ : Type) (view : StateView σ) (s : σ),
    drawAll view how spaces ⟨s, stream⟩ = .ok vs ⟨s, stream'⟩

section Ready

variable {how : Sampling} {type : NumberType} {d : Domain} {space : Space}

theorem Ready.live_eq (h : Ready type d) : d.live = [] := by
  obtain ⟨cs, reached, literal⟩ := h
  rw [reached.live_eq]
  exact List.filter_eq_nil_iff.2 fun c hc => by simp [literal c hc]

/-- A number within the range of the type makes a value that passes the
check. -/
theorem exists_checked {ps : List Demand} (wf : type.WellFormed)
    (records : Domain.Records type ps d) {x : Scalar}
    (inType : Domain.leastOf type ≤ x ∧ x ≤ Domain.greatestOf type) :
    ∃ v, type.value? x = some v ∧ (Space.number type d).check v = .ok () := by
  obtain ⟨v, made⟩ := NumberType.exists_value? wf ((NumberType.legal_iff wf x).2 inType)
  have inside : d.isInType x = true := by
    simpa [Domain.isInType, records.floor_eq, records.ceiling_eq] using inType
  refine ⟨v, made, ?_⟩
  simp only [check, accept, NumberType.hasShape_of_value? made,
    NumberType.scalar?_of_value? made, Option.any_some, inside, Bool.and_self, if_true]

/-- A number is drawn, and it is one of the type. -/
theorem Ready.draw (h : Ready type d) (wf : type.WellFormed) (stream : Random.Stream) :
    ∃ v stream', (Space.number type d).check v = .ok () ∧
      Draws how (.number type d) stream v stream' := by
  have noLive := h.live_eq
  obtain ⟨cs, reached, -⟩ := h
  obtain ⟨x, stream', picked, allowed⟩ :=
    Domain.pick_allows reached.exists_allows how.attempts stream
  obtain ⟨inType, -⟩ := (reached.records.allows_iff x).1 allowed
  obtain ⟨v, made, fits⟩ := exists_checked wf reached.records inType
  refine ⟨v, stream', fits, fun σ view s => ?_⟩
  have number : d.draw view how.attempts ⟨s, stream⟩ = .ok x ⟨s, stream'⟩ :=
    Domain.draw_eq_of_refreshed (Domain.refreshed_of_noLive noLive s) picked
  exact bind_eq_ok_iff.2 ⟨x, _, number, by rw [made]; rfl⟩

/-- Values in turn are drawn where one is. -/
theorem exists_times (one : ∀ stream, ∃ v stream', space.check v = .ok () ∧
    Draws how space stream v stream') (n : Nat) (stream : Random.Stream) :
    ∃ vs stream', vs.length = n ∧ (vs.forM fun v => space.check v) = .ok () ∧
      ∀ (σ : Type) (view : StateView σ) (s : σ),
        Random.times (space.draw view how) n ⟨s, stream⟩ = .ok vs ⟨s, stream'⟩ := by
  induction n generalizing stream with
  | zero => exact ⟨[], stream, rfl, rfl, fun σ view s => rfl⟩
  | succ n ih =>
    obtain ⟨v, stream₁, fits, drawn⟩ := one stream
    obtain ⟨vs, stream₂, length, fit, later⟩ := ih stream₁
    refine ⟨v :: vs, stream₂, congrArg (· + 1) length, ?_, fun σ view s => ?_⟩
    · rw [List.forM, fits]
      exact fit
    · exact bind_eq_ok_iff.2 ⟨v, _, drawn σ view s, bind_eq_ok_iff.2 ⟨vs, _, later σ view s, rfl⟩⟩

mutual

/-- **A space whose domains are ready gives a value.** It is one of the type,
and the draw neither reads anything nor depends on what there is to read. -/
theorem draw_of_ready (how : Sampling) : (space : Space) → space.type.WellFormed →
    space.Every Ready → ∀ stream, ∃ v stream', space.check v = .ok () ∧
      Draws how space stream v stream'
  | .number type d, wf, ready => fun stream => Ready.draw ready wf stream
  | .fixedBytes size, wf, _ => fun stream => by
    refine ⟨.fixedBytes (Word.ofBytes ((Random.bytes size stream).1 ++
      List.replicate (32 - size) 0)) size, (Random.bytes size stream).2, ?_, fun σ view s => rfl⟩
    simp only [check, accept, zeroFrom_ofBytes wf.2, decide_true, Bool.and_self, if_true]
  | .function, _, _ => fun stream =>
    ⟨_, _, by rw [check], fun σ view s => bind_eq_ok_iff.2 ⟨_, _, World.draw_apply _ s stream, rfl⟩⟩
  | .bytes, _, _ => fun stream =>
    ⟨_, _, by rw [check], fun σ view s => bind_eq_ok_iff.2 ⟨_, _, World.draw_apply _ s stream,
      bind_eq_ok_iff.2 ⟨_, _, World.draw_apply _ s _, rfl⟩⟩⟩
  | .string, _, _ => fun stream =>
    ⟨_, _, by rw [check], fun σ view s => bind_eq_ok_iff.2 ⟨_, _, World.draw_apply _ s stream,
      bind_eq_ok_iff.2 ⟨_, _, World.draw_apply _ s _, rfl⟩⟩⟩
  | .fixedArray element length, wf, ready => fun stream => by
    obtain ⟨vs, stream', size, fit, drawn⟩ :=
      exists_times (draw_of_ready how element wf.1 ready) length stream
    refine ⟨.fixedArray vs, stream', ?_, fun σ view s => ?_⟩
    · rw [check, if_pos size]
      exact fit
    · exact bind_eq_ok_iff.2 ⟨vs, _, drawn σ view s, rfl⟩
  | .array element, wf, ready => fun stream => by
    obtain ⟨vs, stream', size, fit, drawn⟩ := exists_times (draw_of_ready how element wf ready)
      (how.lengths.draw stream).1 (how.lengths.draw stream).2
    refine ⟨.array vs, stream', ?_, fun σ view s => ?_⟩
    · rw [check]
      exact fit
    · exact bind_eq_ok_iff.2 ⟨_, _, rfl, bind_eq_ok_iff.2 ⟨vs, _, drawn σ view s, rfl⟩⟩
  | .tuple spaces, wf, ready => fun stream => by
    obtain ⟨vs, stream', size, fit, drawn⟩ := drawAll_of_ready how spaces wf ready stream
    refine ⟨.tuple vs, stream', ?_, fun σ view s => ?_⟩
    · rw [check, if_pos size.symm]
      exact fit
    · exact bind_eq_ok_iff.2 ⟨vs, _, drawn σ view s, rfl⟩

/-- So do spaces in turn. -/
theorem drawAll_of_ready (how : Sampling) : (spaces : List Space) →
    AbiType.AllWellFormed (types spaces) → EveryOf Ready spaces →
      ∀ stream, ∃ vs stream', vs.length = spaces.length ∧
      checkAll spaces vs = .ok () ∧ DrawsAll how spaces stream vs stream'
  | [], _, _ => fun stream => ⟨[], stream, rfl, rfl, fun σ view s => rfl⟩
  | space :: spaces, wf, ready => fun stream => by
    obtain ⟨v, stream₁, fits, drawn⟩ := draw_of_ready how space wf.1 ready.1 stream
    obtain ⟨vs, stream₂, size, fit, later⟩ := drawAll_of_ready how spaces wf.2 ready.2 stream₁
    refine ⟨v :: vs, stream₂, congrArg (· + 1) size, ?_, fun σ view s => ?_⟩
    · rw [checkAll, fits]
      exact fit
    · exact bind_eq_ok_iff.2 ⟨v, _, drawn σ view s, bind_eq_ok_iff.2 ⟨vs, _, later σ view s, rfl⟩⟩

end

end Ready

end Space

end GuardedCalls
