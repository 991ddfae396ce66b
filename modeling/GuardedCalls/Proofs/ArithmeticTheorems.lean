/-
GuardedCalls.Proofs.ArithmeticTheorems — sign and magnitude compute with integers.

Sums and differences are split by sign: on one side of zero magnitudes are added, which
256 bits may not hold, and across zero they are subtracted, the smaller one from the greater.
The comparison, the distance and the words in two's complement are split alike. None of it
shows from outside.

* `exists_of_parts` — every sign goes with every magnitude of 256 bits, and zero has no
  sign.
* `compare_eq` — scalars compare as the integers do.
* `Gives` — an operation gives an integer wherever 256 bits hold its magnitude, and nothing
  elsewhere; `gives_add?`, `gives_sub?` and `gives_mul?` are the operations.
* `distance?_eq_some_iff`, `signedWord?_eq_some_iff` — when there is a distance and a word.
* `exact_arithmetic` — all of it.
-/
import GuardedCalls.Proofs.ScalarTheorems

namespace GuardedCalls.Scalar

variable {a b : Scalar}

/-! ## Sign and magnitude -/

theorem magnitude_lt (a : Scalar) : a.magnitude < 2 ^ 256 := a.inRange

/-- Zero is not below zero. -/
theorem isBelowZero_of_magnitude_eq_zero (zero : a.magnitude = 0) : a.isBelowZero = false := by
  rw [isBelowZero_eq_false_iff, Int.natAbs_eq_zero.1 zero]

/-- Every magnitude has a scalar on either side of zero; that of zero has one. -/
theorem exists_of_parts (below : Bool) (m : Word) (zero : m = 0 → below = false) :
    ∃ x : Scalar, x.isBelowZero = below ∧ x.magnitude = m.toNat := by
  have fits := m.isLt
  cases below with
  | false =>
    have val : (ofWord m.toNat).val = m.toNat := val_ofWord fits
    refine ⟨ofWord m.toNat, isBelowZero_eq_false_iff.2 ?_, ?_⟩
    · omega
    · rw [magnitude, val, Int.natAbs_natCast]
  | true =>
    have positive : m.toNat ≠ 0 := fun none => by
      cases zero (BitVec.eq_of_toNat_eq none)
    have val : (belowZero m.toNat).val = -m.toNat := val_belowZero fits
    refine ⟨belowZero m.toNat, isBelowZero_iff.2 ?_, ?_⟩
    · omega
    · rw [magnitude, val, Int.natAbs_neg, Int.natAbs_natCast]

/-- Scalars compare as the integers do. -/
theorem compare_eq (a b : Scalar) : compare a b = compare a.val b.val := by
  change order a b = compare a.val b.val
  cases outcome : order a b with
  | lt => exact (Int.compare_eq_lt.2 (order_eq_lt_iff.1 outcome)).symm
  | gt => exact (Int.compare_eq_gt.2 (order_eq_gt_iff.1 outcome)).symm
  | eq =>
    have notBelow : ¬ a < b := by
      rw [← order_eq_lt_iff, outcome]
      exact nofun
    have notAbove : ¬ b < a := by
      rw [← order_eq_gt_iff, outcome]
      exact nofun
    rw [lt_iff] at notBelow notAbove
    exact (Int.compare_eq_eq.2 (by omega)).symm

/-! ## Operations -/

/-- What an operation gives is an integer where 256 bits hold its magnitude, and nothing
elsewhere. -/
structure Gives (result : Option Scalar) (n : Int) : Prop where
  given : n.natAbs < 2 ^ 256 → ∃ x, result = some x ∧ x.val = n
  refused : 2 ^ 256 ≤ n.natAbs → result = none

theorem gives_ofInt? (n : Int) : Gives (ofInt? n) n where
  given fits := ⟨⟨n, fits⟩, ofInt?_eq_some_iff.2 rfl, rfl⟩
  refused := ofInt?_eq_none_iff.2

theorem gives_add? (a : Scalar) (m : Word) : Gives (a.add? m.toNat) (a.val + m.toNat) :=
  a.add?_eq m.isLt ▸ gives_ofInt? _

theorem gives_sub? (a : Scalar) (m : Word) : Gives (a.sub? m.toNat) (a.val - m.toNat) :=
  a.sub?_eq m.isLt ▸ gives_ofInt? _

theorem gives_mul? (a : Scalar) (m : Word) : Gives (a.mul? m.toNat) (a.val * m.toNat) :=
  a.mul?_eq m.toNat ▸ gives_ofInt? _

theorem gives_succ? (a : Scalar) : Gives a.succ? (a.val + 1) := a.succ?_eq ▸ gives_ofInt? _

theorem gives_pred? (a : Scalar) : Gives a.pred? (a.val - 1) := a.pred?_eq ▸ gives_ofInt? _

/-- There is a distance where the scalars are in order and 256 bits hold it. -/
theorem distance?_eq_some_iff {n : Nat} :
    distance? a b = some n ↔ a ≤ b ∧ b.val - a.val = n ∧ b.val - a.val < 2 ^ 256 := by
  rw [distance?_eq]
  split
  · next inside =>
    have ordered : a.val ≤ b.val := inside.1
    rw [Option.some.injEq]
    constructor
    · rintro rfl
      exact ⟨inside.1, by omega, inside.2⟩
    · rintro ⟨-, same, -⟩
      omega
  · next outside =>
    constructor
    · exact nofun
    · rintro ⟨ordered, -, fits⟩
      exact absurd ⟨ordered, fits⟩ outside

/-! ## Two's complement -/

/-- The word of a scalar has its number. -/
theorem signedWord?_eq_some_iff {w : Word} : a.signedWord? = some w ↔ w.toInt = a.val := by
  constructor
  · intro word
    rw [← ofSigned_of_signedWord? word, val_ofSigned]
  · intro same
    rw [show a = ofSigned w from ext (same.symm.trans (val_ofSigned w).symm),
      signedWord?_ofSigned]

/-- The scalars that 256 bits hold in two's complement. -/
theorem signedWord?_isSome_iff :
    a.signedWord?.isSome ↔ -(2 ^ 255) ≤ a.val ∧ a.val ≤ 2 ^ 255 - 1 := by
  rw [signedWord?_eq]
  split
  · next inside => exact iff_of_true rfl (by omega)
  · next outside => exact iff_of_false nofun (by omega)

/-- **Sign and magnitude compute with integers.** A scalar is a sign and a magnitude of 256
bits, which are those of its integer; zero is not below zero, so scalars are equal when their
integers are. They compare as the integers do. Sum, difference and product with a magnitude
of 256 bits, and the neighbours, are the exact integers where 256 bits hold their magnitude,
and nothing elsewhere. The distance is there exactly for scalars in order that lie less than
2^256 apart. The word in two's complement is there exactly from −2^255 to 2^255 − 1, has the
number of the scalar, and leads back to it; every word is the word of its number. -/
theorem exact_arithmetic (a b : Scalar) (m : Word) :
    (a.magnitude < 2 ^ 256 ∧
      a.val = (if a.isBelowZero then -(a.magnitude : Int) else a.magnitude) ∧
      (a.magnitude = 0 → a.isBelowZero = false) ∧
      (∀ below, (m = 0 → below = false) →
        ∃ x : Scalar, x.isBelowZero = below ∧ x.magnitude = m.toNat) ∧
      (a = b ↔ a.val = b.val)) ∧
    (compare a b = compare a.val b.val ∧ (a ≤ b ↔ a.val ≤ b.val) ∧ (a < b ↔ a.val < b.val)) ∧
    (Gives (a.add? m.toNat) (a.val + m.toNat) ∧ Gives (a.sub? m.toNat) (a.val - m.toNat) ∧
      Gives (a.mul? m.toNat) (a.val * m.toNat) ∧ Gives a.succ? (a.val + 1) ∧
      Gives a.pred? (a.val - 1)) ∧
    (∀ n : Nat, distance? a b = some n ↔
      a ≤ b ∧ b.val - a.val = n ∧ b.val - a.val < 2 ^ 256) ∧
    (a.signedWord?.isSome ↔ -(2 ^ 255) ≤ a.val ∧ a.val ≤ 2 ^ 255 - 1) ∧
    (∀ w, a.signedWord? = some w ↔ w.toInt = a.val) ∧
    (∀ w, a.signedWord? = some w → ofSigned w = a) ∧
    (ofSigned m).val = m.toInt ∧ (ofSigned m).signedWord? = some m :=
  ⟨⟨a.magnitude_lt, a.val_eq, isBelowZero_of_magnitude_eq_zero,
      fun below => exists_of_parts below m, eq_iff⟩,
    ⟨compare_eq a b, le_iff, lt_iff⟩,
    ⟨gives_add? a m, gives_sub? a m, gives_mul? a m, gives_succ? a, gives_pred? a⟩,
    fun _ => distance?_eq_some_iff, signedWord?_isSome_iff, fun _ => signedWord?_eq_some_iff,
    fun _ => ofSigned_of_signedWord?, val_ofSigned m, signedWord?_ofSigned m⟩

/-- The least scalar and the largest magnitude: their sum is zero, their difference, their
product and the neighbour below need more than 256 bits, and there is no word. -/
theorem exact_arithmetic_least :
    let least : Scalar := belowZero (2 ^ 256 - 1)
    let most : Word := BitVec.allOnes 256
    (∃ x, least.add? most.toNat = some x ∧ x.val = 0 ∧ x.isBelowZero = false) ∧
      least.sub? most.toNat = none ∧ least.mul? most.toNat = none ∧ least.pred? = none ∧
      distance? least zero = some (2 ^ 256 - 1) ∧ least.signedWord? = none ∧
      (ofSigned most).val = -1 := by
  intro least most
  have least_val : least.val = -((2 ^ 256 - 1 : Nat) : Int) := val_belowZero (by decide)
  have most_val : most.toNat = 2 ^ 256 - 1 := BitVec.toNat_allOnes
  obtain ⟨-, -, ⟨sum, difference, product, -, before⟩, distance, word, -, -, signed, -⟩ :=
    exact_arithmetic least zero most
  rw [least_val, most_val] at sum difference product
  rw [least_val] at before word
  obtain ⟨x, given, val⟩ := sum.given (by decide)
  refine ⟨⟨x, most_val ▸ given, by omega, isBelowZero_eq_false_iff.2 (by omega)⟩,
    most_val ▸ difference.refused (by decide), most_val ▸ product.refused (by decide),
    before.refused (by decide), (distance _).2 ?_, ?_, signed⟩
  · rw [le_iff, least_val]
    decide
  · exact Option.not_isSome_iff_eq_none.1 fun some => absurd (word.1 some) (by decide)

end GuardedCalls.Scalar
