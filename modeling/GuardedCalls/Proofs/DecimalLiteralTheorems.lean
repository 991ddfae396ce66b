/-
GuardedCalls.Proofs.DecimalLiteralTheorems — which decimal numbers a literal may be.

What the reader of literals accepts is a number, and the scalar it gives is that
number. Here is the other half: a decimal number that is a scalar is accepted,
where the reader has room for its digits. The reader counts the digits of a
number before it knows their value, so that a number with too many zeros after
the point is refused although it is a whole one; `Parts.Tame` leaves these out.

* `Decimal.unique` — a text is a decimal number in one way only.
* `ofLiteral_eq_ok_iff_of_decimal` — a tame number with its sign is read as the scalar
  that it is, and as nothing if it is none.
-/
import GuardedCalls.Proofs.LiteralTheorems
import GuardedCalls.Proofs.TypeNameTheorems

namespace GuardedCalls

namespace Literal

open AbiType.Grammar (Numeral)
open AbiType.Reader (takeWhile_append_of_stop dropWhile_append_of_stop)

/-! ## What one number is taken apart into -/

section Unique

variable {cs body : List Char} {e e' : ℤ} {p p' : Parts}

theorem numeral_unique {m n : ℕ} (h : Numeral cs m) (h' : Numeral cs n) : m = n :=
  h.denotes.symm.trans h'.denotes

theorem SignedNumeral.unique (h : SignedNumeral cs e) (h' : SignedNumeral cs e') : e = e' := by
  cases h with
  | plain numeral =>
    cases h' with
    | plain numeral' => rw [numeral_unique numeral numeral']
    | plus => exact absurd (numeral.digital '+' List.mem_cons_self) (by decide)
    | minus => exact absurd (numeral.digital '-' List.mem_cons_self) (by decide)
  | plus numeral =>
    cases h' with
    | plain numeral' => exact absurd (numeral'.digital '+' List.mem_cons_self) (by decide)
    | plus numeral' => rw [numeral_unique numeral numeral']
  | minus numeral =>
    cases h' with
    | plain numeral' => exact absurd (numeral'.digital '-' List.mem_cons_self) (by decide)
    | minus numeral' => rw [numeral_unique numeral numeral']

theorem Exponent.unique (h : Exponent cs e) (h' : Exponent cs e') : e = e' := by
  cases h with
  | absent => cases h'; rfl
  | written marked numeral =>
    cases h' with
    | written marked' numeral' => exact numeral.unique numeral'

/-- The mark of an exponent is the first of its kind in a number. -/
theorem Decimal.cut (h : Decimal body p) :
    Mantissa (body.takeWhile fun c => c != 'e' && c != 'E') p.whole p.fraction ∧
      Exponent (body.dropWhile fun c => c != 'e' && c != 'E') p.exponent := by
  obtain ⟨mantissa, exponent, rfl, written, power⟩ := h.text
  have unmarked : ∀ c ∈ mantissa, (c != 'e' && c != 'E') = true := by
    intro c hc
    rcases written.mem hc with digit | rfl
    · have e := ne_of_isDigit (d := 'e') (h.digital c digit) rfl
      have E := ne_of_isDigit (d := 'E') (h.digital c digit) rfl
      simp [e, E]
    · rfl
  have stops : ∀ c ∈ exponent.head?, (c != 'e' && c != 'E') = false := by
    intro c hc
    cases exponent with
    | nil => cases hc
    | cons mark digits =>
      obtain rfl := Option.some.inj hc
      generalize p.exponent = e at power
      cases power with
      | written marked => rcases marked with rfl | rfl <;> rfl
  rw [takeWhile_append_of_stop unmarked stops, dropWhile_append_of_stop unmarked stops]
  exact ⟨written, power⟩

/-- A number is written in one way only. -/
theorem Decimal.unique (h : Decimal body p) (h' : Decimal body p') : p = p' := by
  obtain ⟨mantissa, exponent⟩ := h.cut
  obtain ⟨mantissa', exponent'⟩ := h'.cut
  have digits := (mantissa.split h.digital).symm.trans (mantissa'.split h'.digital)
  obtain ⟨whole, fraction, e⟩ := p
  obtain ⟨whole', fraction', e'⟩ := p'
  obtain ⟨rfl, rfl⟩ := Prod.mk.inj digits
  obtain rfl := exponent.unique exponent'
  rfl

end Unique

/-! ## Which scalars are read -/

section Law

variable {body : List Char} {p : Parts} {negative : Bool} {s : Scalar}

theorem number_of_decimal (h : Decimal body p) {q : ℚ} (number : Number body q) :
    q = p.value := by
  cases number with
  | hex marked digits =>
    have mem := h.ne_of_mem (List.mem_cons_of_mem _ List.mem_cons_self)
    rcases marked with rfl | rfl
    · exact absurd rfl mem.1
    · exact absurd rfl mem.2
  | decimal written => rw [h.unique written]

/-- A decimal number that is not written with more digits than the reader has room for,
if it is a whole number. -/
structure Parts.Tame (p : Parts) : Prop where
  few : p.power 0 < 0 → p.digits < 10 ^ 77
  zero : p.digits = 0 → (p.power 0).natAbs < 78
  short : p.digits < 2 ^ 256 → p.fraction.length < 2 ^ 62

/-- Its digits fit and its power of ten is a small one if its value is a whole one that
fits. -/
theorem Parts.Tame.fits (tame : p.Tame) {m : ℕ} (value : p.value = m) (within : m < 2 ^ 256) :
    p.digits < 2 ^ 256 ∧ (p.power 0).natAbs < 78 := by
  have product : (p.digits : ℚ) * 10 ^ p.power 0 = m := by
    rw [← p.value_mul, value, pow_zero, mul_one]
  rcases Nat.eq_zero_or_pos p.digits with none | some
  · exact ⟨by omega, tame.zero none⟩
  -- A power of ten is a factor of the value, or of the digits.
  by_cases right : 0 ≤ p.power 0
  · rw [zpow_of_nonneg right] at product
    obtain rfl : p.digits * 10 ^ (p.power 0).toNat = m := by exact_mod_cast product
    have ten : 10 ^ (p.power 0).toNat < 10 ^ 78 :=
      calc 10 ^ (p.power 0).toNat ≤ p.digits * 10 ^ (p.power 0).toNat :=
            Nat.le_mul_of_pos_left _ some
        _ < 2 ^ 256 := within
        _ < 10 ^ 78 := by decide
    have small := (Nat.pow_lt_pow_iff_right (by decide)).1 ten
    exact ⟨Nat.lt_of_le_of_lt (Nat.le_mul_of_pos_right _ (by positivity)) within, by omega⟩
  · have left : p.power 0 < 0 := by omega
    have digits := (mul_zpow_of_neg left).1 product
    have most := tame.few left
    have ten : 10 ^ (p.power 0).natAbs < 10 ^ 77 := by
      refine Nat.lt_of_le_of_lt (Nat.le_mul_of_pos_left _ (Nat.pos_of_ne_zero ?_)) (digits ▸ most)
      rintro rfl
      omega
    have small := (Nat.pow_lt_pow_iff_right (by decide)).1 ten
    exact ⟨Nat.lt_trans most (by decide), by omega⟩

/-- It is read for an integer as the scalar that it is, and only if it is one. -/
theorem read_eq_ok_iff (h : Decimal body p) (tame : p.Tame) :
    read none 0 ((if negative then ['-'] else []) ++ body) = .ok s ↔
      (s.val : ℚ) = if negative then -p.value else p.value := by
  rw [read_of_decimal h rfl]
  constructor
  · intro accepted
    obtain ⟨q, number, value⟩ := readNumber_sound (by decide) accepted
    rw [number_of_decimal h number] at value
    simpa [Denomination.size] using value
  · intro value
    have nonneg : 0 ≤ p.value := by
      rw [p.value_eq]
      exact mul_nonneg (Nat.cast_nonneg _) (zpow_nonneg (by norm_num) _)
    have size : p.value = s.val.natAbs := by
      rw [Nat.cast_natAbs, Int.cast_abs, value]
      cases negative <;> simp [abs_of_nonneg nonneg]
    obtain ⟨fits, small⟩ := tame.fits size s.inRange
    have fraction := tame.short fits
    have power : p.power 0 = p.exponent - p.fraction.length := by simp [Parts.power]
    have scaled : magnitude 0 body = .ok s.val.natAbs := by
      rw [magnitude_of_decimal h,
        decimalMagnitude_of_decimal h (by omega) (by omega) (by decide) fits]
      exact scale_of_whole small (by rw [← p.value_mul, size, pow_zero, mul_one]) s.inRange
    unfold readNumber
    simp only [scaled, mul_one, signed_eq_ok_iff]
    refine Int.cast_injective (α := ℚ) ?_
    rw [value, size]
    cases negative <;> simp

/-- A number has no blanks and no underscores. -/
theorem Decimal.plain (h : Decimal body p) {c : Char} (hc : c ∈ body) :
    Text.isBlank c = false ∧ c ≠ '_' := by
  have of_digit (digit : c.isDigit = true) : Text.isBlank c = false ∧ c ≠ '_' := by
    refine ⟨AbiType.Reader.isBlank_of_isWordChar ?_, ne_of_isDigit digit rfl⟩
    rw [AbiType.Reader.isWordChar, Text.isDigit_eq, digit, Bool.or_true]
  obtain ⟨mantissa, exponent⟩ := h.cut
  rw [← List.takeWhile_append_dropWhile (p := fun c => c != 'e' && c != 'E') (l := body)] at hc
  rcases List.mem_append.1 hc with hc | hc
  · rcases mantissa.mem hc with digit | rfl
    · exact of_digit (h.digital c digit)
    · decide
  generalize body.dropWhile _ = marked, p.exponent = e at exponent hc
  cases exponent with
  | absent => cases hc
  | written mark numeral =>
    rcases List.mem_cons.1 hc with rfl | hc
    · rcases mark with rfl | rfl <;> decide
    rcases numeral.mem hc with digit | rfl | rfl
    · exact of_digit digit
    all_goals decide

theorem cleaned_of_decimal {text : String} (h : Decimal body p)
    (written : text.toList = (if negative then ['-'] else []) ++ body) :
    cleaned text = (if negative then ['-'] else []) ++ body := by
  have plain : ∀ c ∈ text.toList, Text.isBlank c = false ∧ c ≠ '_' := by
    rw [written]
    intro c hc
    rcases List.mem_append.1 hc with sign | hc
    · cases negative with
      | false => cases sign
      | true =>
        obtain rfl := List.mem_singleton.1 sign
        decide
    · exact h.plain hc
  have kept : Text.trimList text.toList = text.toList :=
    Text.trimList_eq (fun c hc => (plain c (List.mem_of_mem_head? hc)).1)
      fun c hc => (plain c (List.mem_of_getLast? hc)).1
  rw [cleaned, kept, List.filter_eq_self.2 fun c hc => by simpa using (plain c hc).2, written]

/-- So is a text that is such a number with a minus sign or none. -/
theorem ofLiteral_eq_ok_iff_of_decimal {text : String} (h : Decimal body p) (tame : p.Tame)
    (written : text.toList = (if negative then ['-'] else []) ++ body) :
    Scalar.ofLiteral text none 0 = .ok s ↔
      (s.val : ℚ) = if negative then -p.value else p.value := by
  rw [ofLiteral_eq_ok_iff, cleaned_of_decimal h written, read_eq_ok_iff h tame]

end Law

end Literal

end GuardedCalls
