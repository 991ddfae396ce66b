/-
GuardedCalls.Proofs.RenderingTheorems — the text of a scalar is a literal of that scalar.

A scalar is shown with its point where its target has it, and read by joining the digits on
both sides of the point again. Both go by position: the digits are filled up with zeros in
front until there is one before the point, and what is read counts the digits after it.

* `numeral_padded` — zeros in front do not count.
* `exists_fixedText`, `decimal_of_point` — what is shown is a decimal number with the sign and
  the digits of the scalar, and as many digits after the point as asked for.
* `ofLiteral_of_digits` — a number that has as many digits after the point as its target is
  read as the integer of its digits.
* `text_round_trip` — so reading gives the scalar back.
-/
import GuardedCalls.Proofs.DecimalLiteralTheorems

namespace GuardedCalls

namespace Literal

open AbiType.Grammar (Numeral numeral_decimalChars)

/-! ## Texts -/

section Texts

variable {digits whole fraction : List Char} {n : ℕ}

theorem numeral_padded (h : Numeral digits n) (zeros : ℕ) :
    Numeral (List.replicate zeros '0' ++ digits) n where
  nonempty := List.append_ne_nil_of_right_ne_nil _ h.nonempty
  digital c hc := by
    rcases List.mem_append.1 hc with zero | digit
    · rw [List.eq_of_mem_replicate zero]
      rfl
    · exact h.digital c digit
  denotes := by
    rw [Nat.ofDigitChars_append, Nat.ofDigitChars_replicate_zero, Nat.mul_zero, h.denotes]

theorem toList_signText (a : Scalar) :
    a.signText.toList = if a.isBelowZero then ['-'] else [] := by
  simp only [Scalar.signText, ← Scalar.isBelowZero_iff]
  split <;> rfl

/-- A scalar is shown as its sign and its digits, with a point that has digits in front of it
and as many behind it as asked for. -/
theorem exists_fixedText (a : Scalar) (decimals : ℕ) :
    ∃ whole fraction, (a.fixedText decimals).toList =
        (if a.isBelowZero then ['-'] else []) ++ (whole ++ '.' :: fraction) ∧
      whole ≠ [] ∧ fraction.length = decimals ∧ Numeral (whole ++ fraction) a.magnitude := by
  set digits := Nat.toDigits 10 a.magnitude with shown
  set padded := List.replicate (decimals + 1 - digits.length) '0' ++ digits with filled
  have length : decimals + 1 ≤ padded.length := by
    rw [filled, List.length_append, List.length_replicate]
    omega
  have numeral : Numeral padded a.magnitude :=
    numeral_padded (numeral_decimalChars a.magnitude) _
  refine ⟨padded.take (padded.length - decimals), padded.drop (padded.length - decimals),
    ?_, ?_, ?_, ?_⟩
  · simp only [Scalar.fixedText, String.toList_append, String.toList_ofList, toList_signText,
      List.append_assoc]
    rfl
  · rw [← List.length_pos_iff, List.length_take]
    omega
  · rw [List.length_drop]
    omega
  · rwa [List.take_append_drop]

/-- Digits with a point among them are a decimal number. -/
theorem decimal_of_point (h : Numeral (whole ++ fraction) n) :
    Decimal (whole ++ '.' :: fraction) ⟨whole, fraction, 0⟩ :=
  ⟨⟨_, [], (List.append_nil _).symm, .point whole fraction, .absent⟩, h.nonempty, h.digital⟩

/-- So are digits without a point. -/
theorem decimal_of_numeral (h : Numeral digits n) : Decimal digits ⟨digits, [], 0⟩ :=
  ⟨⟨digits, [], (List.append_nil _).symm, .whole digits, .absent⟩,
    (List.append_nil digits).symm ▸ h.nonempty, (List.append_nil digits).symm ▸ h.digital⟩

end Texts

/-! ## Reading them -/

/-- A number without an exponent that has as many digits after the point as its target is
read as the integer of its digits. -/
theorem ofLiteral_of_digits {a : Scalar} {text : String} {body : List Char} {p : Parts}
    {decimals : ℕ} (small : decimals ≤ 80) (h : Decimal body p) (plain : p.exponent = 0)
    (places : p.fraction.length = decimals) (digits : p.digits = a.magnitude)
    (written : text.toList = (if a.isBelowZero then ['-'] else []) ++ body) :
    Scalar.ofLiteral text none decimals = .ok a := by
  have fits : p.digits < 2 ^ 256 := digits ▸ a.inRange
  have power : p.power decimals = 0 := by
    rw [Parts.power, plain, places]
    omega
  -- The shift of the target takes the point behind the last digit.
  have scaled : magnitude (0 + decimals) body = .ok a.magnitude := by
    rw [Nat.zero_add, magnitude_of_decimal h, decimalMagnitude_of_decimal h (by omega) (by omega)
      (by omega) fits, power, digits]
    exact scale_of_whole (by decide) (by rw [zpow_zero, mul_one]) a.inRange
  rw [ofLiteral_eq_ok_iff, cleaned_of_decimal h written, read_of_decimal h rfl, readNumber, scaled]
  simp only [mul_one, signed_eq_ok_iff]
  exact a.val_eq

/-- **What is shown of a scalar is read as that scalar**: with any number of digits after
the point, for a target that has as many, and without a point for an integer. -/
theorem text_round_trip (a : Scalar) {decimals : ℕ} (small : decimals ≤ 80) :
    Scalar.ofLiteral (a.fixedText decimals) none decimals = .ok a ∧
      Scalar.ofLiteral a.text none 0 = .ok a := by
  constructor
  · obtain ⟨whole, fraction, written, -, places, numeral⟩ := exists_fixedText a decimals
    exact ofLiteral_of_digits small (decimal_of_point numeral) rfl places numeral.denotes written
  · have numeral := numeral_decimalChars a.magnitude
    refine ofLiteral_of_digits (by decide) (decimal_of_numeral numeral) rfl rfl ?_ ?_
    · rw [Parts.digits, List.append_nil, numeral.denotes]
    · rw [Scalar.text, String.toList_append, toList_signText, Nat.toList_repr]
      rfl

/-- A digit that stands behind zeros and the point. -/
theorem text_round_trip_padded :
    let five : Scalar := ⟨-5, by decide⟩
    3 ≤ 80 ∧ five.fixedText 3 = "-0.005" ∧ five.text = "-5" ∧
      Scalar.ofLiteral "-0.005" none 3 = .ok five ∧ Scalar.ofLiteral "-5" none 0 = .ok five := by
  intro five
  have small : 3 ≤ 80 := by decide
  have shown : five.fixedText 3 = "-0.005" := by decide
  have plain : five.text = "-5" := by decide
  have read := text_round_trip five small
  rw [shown, plain] at read
  exact ⟨small, shown, plain, read⟩

end Literal

end GuardedCalls
