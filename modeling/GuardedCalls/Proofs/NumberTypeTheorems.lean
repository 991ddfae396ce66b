/-
GuardedCalls.Proofs.NumberTypeTheorems — the range of a number type.

`NumberType.Legal` says in integers which numbers are values of a type, and
`legal_iff` that the least and the greatest value a domain starts from enclose
exactly those. `span_lt` is the reason why an interval inside a type can always
be counted: its ends are less than `2^256` apart, also for the signed type of
256 bits. `scalar?_of_value?` says that the value made of a number gives the
number back.

A type that is well formed has a width that is a multiple of eight from 8 to
256, and up to 80 digits after the point if it has any.
-/
import GuardedCalls.Abi.Value
import GuardedCalls.Domain
import GuardedCalls.Proofs.ScalarTheorems

namespace GuardedCalls

/-! ## Well-formed types and their values -/

/-- A width that integers may have. -/
def IsWidth (bits : Nat) : Prop := 8 ∣ bits ∧ 8 ≤ bits ∧ bits ≤ 256

namespace NumberType

/-- The type has a width and digits after the point that types may have. -/
def WellFormed : NumberType → Prop
  | .uint bits => IsWidth bits
  | .int bits => IsWidth bits
  | .ufixed bits decimals => IsWidth bits ∧ 1 ≤ decimals ∧ decimals ≤ 80
  | .fixed bits decimals => IsWidth bits ∧ 1 ≤ decimals ∧ decimals ≤ 80
  | .address => True
  | .bool => True

/-- The numbers of a type. A fixed-point number counts in units of its last
digit. -/
def Legal : NumberType → Scalar → Prop
  | .uint bits, x => 0 ≤ x.val ∧ x.val < 2 ^ bits
  | .int bits, x => -(2 ^ (bits - 1)) ≤ x.val ∧ x.val < 2 ^ (bits - 1)
  | .ufixed bits _, x => 0 ≤ x.val ∧ x.val < 2 ^ bits
  | .fixed bits _, x => -(2 ^ (bits - 1)) ≤ x.val ∧ x.val < 2 ^ (bits - 1)
  | .address, x => 0 ≤ x.val ∧ x.val < 2 ^ 160
  | .bool, x => x.val = 0 ∨ x.val = 1

end NumberType

/-! ## The ends of a range -/

namespace Scalar

theorem val_maxUnsigned {bits : Nat} (h : bits ≤ 256) :
    (maxUnsigned bits).val = 2 ^ bits - 1 := by
  have := Nat.two_pow_pos bits
  rw [maxUnsigned, dif_pos h]
  push_cast [Nat.cast_sub (show 1 ≤ 2 ^ bits by omega)]
  rfl

theorem val_minSigned {bits : Nat} (h : bits ≤ 256) :
    (minSigned bits).val = -(2 ^ (bits - 1)) := by
  rw [minSigned, dif_pos h]
  simp

theorem val_maxSigned {bits : Nat} (h : bits ≤ 256) :
    (maxSigned bits).val = 2 ^ (bits - 1) - 1 := val_maxUnsigned (by omega)

end Scalar

namespace NumberType

open Scalar

/-- A domain starts from the range of its type. -/
theorem legal_iff {type : NumberType} (wf : type.WellFormed) (x : Scalar) :
    type.Legal x ↔ Domain.leastOf type ≤ x ∧ x ≤ Domain.greatestOf type := by
  have unsigned : ∀ {bits : Nat}, IsWidth bits →
      (0 ≤ x.val ∧ x.val < 2 ^ bits ↔ zero ≤ x ∧ x ≤ maxUnsigned bits) := by
    intro bits h
    simp only [le_iff, val_maxUnsigned h.2.2, zero]
    omega
  have signed : ∀ {bits : Nat}, IsWidth bits →
      (-(2 ^ (bits - 1)) ≤ x.val ∧ x.val < 2 ^ (bits - 1) ↔
        minSigned bits ≤ x ∧ x ≤ maxSigned bits) := by
    intro bits h
    simp only [le_iff, val_minSigned h.2.2, val_maxSigned h.2.2]
    omega
  cases type with
  | uint bits => exact unsigned wf
  | int bits => exact signed wf
  | ufixed bits decimals => exact unsigned wf.1
  | fixed bits decimals => exact signed wf.1
  | address =>
    simp only [Legal, Domain.leastOf, Domain.greatestOf, le_iff, zero,
      val_maxUnsigned (show 160 ≤ 256 by omega)]
    omega
  | bool =>
    simp only [Legal, Domain.leastOf, Domain.greatestOf, le_iff, zero, one]
    omega

/-- Zero lies between the ends, so every type has a value. -/
theorem least_le_zero (type : NumberType) : (Domain.leastOf type).val ≤ 0 := by
  have signed : ∀ bits, (minSigned bits).val ≤ 0 := by
    intro bits
    unfold minSigned
    split
    · exact Int.neg_nonpos_of_nonneg (Int.natCast_nonneg _)
    · rfl
  cases type with
  | int bits => exact signed bits
  | fixed bits decimals => exact signed bits
  | _ => exact Int.le_refl 0

theorem zero_le_greatest (type : NumberType) : 0 ≤ (Domain.greatestOf type).val := by
  have unsigned : ∀ bits, 0 ≤ (maxUnsigned bits).val := by
    intro bits
    unfold maxUnsigned
    split <;> exact Int.natCast_nonneg _
  cases type with
  | bool => decide
  | _ => exact unsigned _

/-- The ends of a type are less than `2^256` apart. -/
theorem span_lt (type : NumberType) :
    (Domain.greatestOf type).val - (Domain.leastOf type).val < 2 ^ 256 := by
  have signed : ∀ bits, (maxSigned bits).val - (minSigned bits).val < 2 ^ 256 := by
    intro bits
    by_cases h : bits ≤ 256
    · have : (2 : Int) ^ (bits - 1) ≤ 2 ^ 255 := by
        exact_mod_cast Nat.pow_le_pow_right (n := 2) (by omega) (show bits - 1 ≤ 255 by omega)
      rw [val_maxSigned h, val_minSigned h]
      omega
    · rw [minSigned, dif_neg h]
      exact Int.lt_of_le_of_lt (Int.sub_le_self _ (Int.le_refl 0)) (val_lt _)
  cases type with
  | int bits => exact signed bits
  | fixed bits decimals => exact signed bits
  | _ => exact Int.lt_of_le_of_lt (Int.sub_le_self _ (Int.le_refl 0)) (val_lt _)

theorem leastOf_le_greatestOf (type : NumberType) :
    Domain.leastOf type ≤ Domain.greatestOf type :=
  Int.le_trans (least_le_zero type) (zero_le_greatest type)

/-! ## Values and their numbers -/

/-- The word of a number that is not below zero has that number. -/
theorem ofWord_toNat_ofInt {width : Nat} {x : Scalar} (low : 0 ≤ x.val) (high : x.val < 2 ^ width) :
    Scalar.ofWord (BitVec.ofInt width x.val).toNat = x := by
  have := x.val_lt
  apply Scalar.ext
  rw [BitVec.toNat_ofInt, Scalar.ofWord]
  simp only [Nat.cast_pow, Nat.cast_ofNat, Int.emod_eq_of_lt low high]
  rw [Nat.mod_eq_of_lt (by omega)]
  omega

/-- The value made of a number has that number. -/
theorem scalar?_of_value? {type : NumberType} {x : Scalar} {v : AbiValue}
    (h : type.value? x = some v) : v.scalar? = some x := by
  have unsigned : ∀ bits, value?.unsigned? x bits = some v → v.scalar? = some x := by
    intro bits h
    unfold value?.unsigned? at h
    split at h
    · cases h
    · next inside =>
      cases h
      rw [not_or, not_lt_iff, le_iff] at inside
      exact congrArg some (ofWord_toNat_ofInt inside.1 x.val_lt)
  have signed : ∀ bits, value?.signed? x bits = some v → v.scalar? = some x := by
    intro bits h
    unfold value?.signed? at h
    split at h
    · cases h
    · next inside =>
      obtain ⟨w, word, rfl⟩ := Option.map_eq_some_iff.1 h
      exact congrArg some (ofSigned_of_signedWord? word)
  cases type with
  | uint bits => exact unsigned bits h
  | int bits => exact signed bits h
  | ufixed bits decimals => exact unsigned bits h
  | fixed bits decimals => exact signed bits h
  | address =>
    unfold value? at h
    simp only at h
    split at h
    · cases h
    · next inside =>
      cases h
      rw [not_or, not_lt_iff, not_lt_iff, le_iff, le_iff, val_maxUnsigned (by omega)] at inside
      exact congrArg some (ofWord_toNat_ofInt inside.1 (Int.lt_of_le_sub_one inside.2))
  | bool =>
    unfold value? at h
    simp only at h
    split at h
    · next zero =>
      cases h
      rw [zero]
      rfl
    · split at h
      · next one =>
        cases h
        rw [one]
        rfl
      · cases h

end NumberType

end GuardedCalls
