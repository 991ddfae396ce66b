/-
GuardedCalls.Proofs.NumberValueTheorems — the numbers of a type, the values made
of them, and the values that a fresh space accepts.

The range of a number type is written down three times: in the ends of the
interval that its domain starts from, in the conversion of a number to a value,
and in the check of a value, which goes by the width that the value carries.
`NumberType.Legal` is the range in integers. `legal_numbers_agree` says that all
of them are one.

* `eq_of_scalar?_eq` — a value of a number type is determined by its number, so
  what is made of the number of a value is that value again.
* `check_ofType_iff` — a fresh space accepts the values of the right sort and
  width whose number is legal.
-/
import GuardedCalls.Proofs.CodecTheorems
import GuardedCalls.Proofs.SpaceTheorems

namespace GuardedCalls

namespace NumberType

open Scalar

variable {type : NumberType} {x : Scalar} {v v' : AbiValue}

/-! ## Values by their numbers -/

theorem ofWord_toNat_inj {width : Nat} (fits : width ≤ 256) {a b : BitVec width}
    (same : Scalar.ofWord a.toNat = Scalar.ofWord b.toNat) : a = b := by
  have small : ∀ w : BitVec width, w.toNat % 2 ^ 256 = w.toNat := fun w =>
    Nat.mod_eq_of_lt (Nat.lt_of_lt_of_le w.isLt (Nat.pow_le_pow_right (by decide) fits))
  have numbers : ((a.toNat % 2 ^ 256 : Nat) : Int) = (b.toNat % 2 ^ 256 : Nat) :=
    eq_iff.1 same
  rw [small, small] at numbers
  exact BitVec.eq_of_toNat_eq (Int.ofNat.inj numbers)

/-- Values of one number type with the same number are the same. -/
theorem eq_of_scalar?_eq (shape : Space.hasShape type v = true)
    (shape' : Space.hasShape type v' = true) (same : v.scalar? = v'.scalar?) : v = v' := by
  obtain ⟨w, -, rfl⟩ := AbiType.exists_word shape
  obtain ⟨w', -, rfl⟩ := AbiType.exists_word shape'
  have unsigned : some (Scalar.ofWord w.toNat) = some (Scalar.ofWord w'.toNat) → w = w' :=
    fun same => ofWord_toNat_inj (Nat.le_refl 256) (Option.some.inj same)
  have signed : some (Scalar.ofSigned w) = some (Scalar.ofSigned w') → w = w' := by
    intro same
    rw [← BitVec.toInt_inj, ← val_ofSigned, ← val_ofSigned, Option.some.inj same]
  cases type with
  | uint bits => exact congrArg (AbiValue.uint · bits) (unsigned same)
  | int bits => exact congrArg (AbiValue.int · bits) (signed same)
  | ufixed bits decimals => exact congrArg (AbiValue.uint · bits) (unsigned same)
  | fixed bits decimals => exact congrArg (AbiValue.int · bits) (signed same)
  | address =>
    exact congrArg AbiValue.address (ofWord_toNat_inj (by decide) (Option.some.inj same))
  | bool =>
    have truth : ∀ b b', Scalar.ofBool b = Scalar.ofBool b' → b = b' := by decide
    exact congrArg AbiValue.bool (truth _ _ (Option.some.inj same))

/-! ## The checks -/

/-- The interval that a domain starts from is the range of its type. -/
theorem isInType_ofType_iff (wf : type.WellFormed) :
    (Domain.ofType type).isInType x = true ↔ type.Legal x := by
  rw [legal_iff wf]
  exact decide_eq_true_iff

/-- A fresh space accepts the values of the right sort and width whose number
is legal. -/
theorem check_ofType_iff (wf : type.WellFormed) :
    (Space.ofType (.number type)).check v = .ok () ↔
      Space.hasShape type v = true ∧ ∃ x, v.scalar? = some x ∧ type.Legal x := by
  simp only [Space.ofType, Space.check, Space.accept_eq_ok_iff, Bool.and_eq_true,
    Option.any_eq_true, isInType_ofType_iff wf]

/-- A value is only made of a number in the range. -/
theorem inRange_of_value? (made : type.value? x = some v) :
    Domain.leastOf type ≤ x ∧ x ≤ Domain.greatestOf type := by
  have unsigned : ∀ {bits}, value?.unsigned? x bits = some v → zero ≤ x ∧ x ≤ maxUnsigned bits := by
    intro bits made
    unfold value?.unsigned? at made
    split at made
    · cases made
    · next inside => rwa [not_or, not_lt_iff, not_lt_iff] at inside
  have signed : ∀ {bits}, value?.signed? x bits = some v →
      minSigned bits ≤ x ∧ x ≤ maxSigned bits := by
    intro bits made
    unfold value?.signed? at made
    split at made
    · cases made
    · next inside =>
      rwa [not_or, not_lt_iff, not_lt_iff] at inside
  cases type with
  | uint bits => exact unsigned made
  | int bits => exact signed made
  | ufixed bits decimals => exact unsigned made
  | fixed bits decimals => exact signed made
  | address =>
    simp only [value?] at made
    split at made
    · cases made
    · next inside => rwa [not_or, not_lt_iff, not_lt_iff] at inside
  | bool =>
    simp only [value?] at made
    split at made
    · next isZero => exact isZero ▸ ⟨by decide, by decide⟩
    · split at made
      · next isOne => exact isOne ▸ ⟨by decide, by decide⟩
      · cases made

/-- **The three notions of a legal number agree.** A value of a well-formed
number type is made of a number exactly when the number lies in the interval
that the domain of the type starts from, and that interval is the range of the
type. The value has the number that it was made of, and a fresh space accepts
it. Every value that a fresh space accepts is made of the number that it has. -/
theorem legal_numbers_agree (wf : type.WellFormed) :
    let t : AbiType := .number type
    (∀ x, (∃ v, t.value? x = some v) ↔ (Domain.ofType type).isInType x = true) ∧
      (∀ x, (Domain.ofType type).isInType x = true ↔ type.Legal x) ∧
      (∀ x v, t.value? x = some v → v.scalar? = some x ∧ (Space.ofType t).check v = .ok ()) ∧
      ∀ v, (Space.ofType t).check v = .ok () →
        ∃ x, v.scalar? = some x ∧ t.value? x = some v := by
  intro t
  have made_legal : ∀ {x v}, type.value? x = some v → type.Legal x :=
    fun made => (legal_iff wf _).2 (inRange_of_value? made)
  refine ⟨fun x => ?_, fun x => isInType_ofType_iff wf, fun x v made => ?_, fun v accepted => ?_⟩
  · rw [isInType_ofType_iff wf]
    exact ⟨fun ⟨v, made⟩ => made_legal made, exists_value? wf⟩
  · have number := scalar?_of_value? made
    exact ⟨number, (check_ofType_iff wf).2
      ⟨hasShape_of_value? made, x, number, made_legal made⟩⟩
  · obtain ⟨shape, x, number, legal⟩ := (check_ofType_iff wf).1 accepted
    obtain ⟨v', made⟩ := exists_value? wf legal
    have same : v' = v := eq_of_scalar?_eq (hasShape_of_value? made) shape
      ((scalar?_of_value? made).trans number.symm)
    exact ⟨x, number, same ▸ made⟩

/-- The least signed number of 256 bits makes a value, and the fresh space
accepts it; the number below makes none. -/
theorem legal_numbers_agree_least :
    let least : Scalar := ⟨-(2 ^ 255), by decide⟩
    let below : Scalar := ⟨-(2 ^ 255) - 1, by decide⟩
    let t : AbiType := .number (.int 256)
    NumberType.WellFormed (.int 256) ∧
      (∃ v, t.value? least = some v ∧ v.scalar? = some least ∧
        (Space.ofType t).check v = .ok ()) ∧
      ¬ ∃ v, t.value? below = some v := by
  intro least below t
  have wf : NumberType.WellFormed (.int 256) := ⟨by decide, by decide, by decide⟩
  obtain ⟨made_iff, -, accepted, -⟩ := legal_numbers_agree wf
  obtain ⟨v, made⟩ := (made_iff least).2 (by decide)
  refine ⟨wf, ⟨v, made, accepted least v made⟩, fun made => ?_⟩
  exact absurd ((made_iff below).1 made) (by decide)

end NumberType

end GuardedCalls
