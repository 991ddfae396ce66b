/-
GuardedCalls.Proofs.LiteralTheorems — what literals denote, and that reading
them is exact.

How numbers are written and what they denote is said without the reader:

* `SignedNumeral`, `HexNumeral`, `Decimal` — digits with a sign, hexadecimal
  digits, and digits with a point and an exponent. `Parts.value` is the rational
  number of a decimal one.
* `unitSizes`, `unitSize?` — the units and how much one of each is.
* `Denotes` — the scalar of a literal: a boolean, or a number with a minus sign or
  none times the size of its unit and the target's power of ten.

Then the reader:

* `parts_of_decimal`, `decimal_of_parts` — a decimal number is taken apart as it is
  written.
* `hexMagnitude_sound` — hexadecimal digits are read off the bytes of the text, from
  the last one to the first.
* `scale_eq_ok`, `scale_of_whole`, `scale_fractional_iff` — scaling by a power of ten
  is multiplication of rational numbers, and refuses what is not whole.
* `literal_exact` — a literal that is read denotes the scalar that it is read as.
* `whole_literal_read_iff` — which decimal literals are read. The factor of minutes,
  hours, days and weeks comes after the test for a fraction, so 1.5 minutes are
  refused (`whole_minutes_refused`) although they are 90 seconds.
-/
import GuardedCalls.Proofs.ByteTheorems
import GuardedCalls.Proofs.TypeGrammarTheorems
import GuardedCalls.Scalar.Literal
import Mathlib.Data.Nat.Digits.Defs
import Mathlib.Data.Rat.Cast.Order
import Mathlib.Tactic.FieldSimp
import Mathlib.Tactic.Ring

namespace GuardedCalls

/-- How much one of a unit is. -/
def Denomination.size (d : Denomination) : ℕ := d.factor * 10 ^ d.shift

namespace Literal

open AbiType.Grammar (Numeral readCount?_eq_some_iff)

/-! ## How numbers are written -/

/-- Decimal digits with an optional sign. -/
inductive SignedNumeral : List Char → ℤ → Prop
  | plain {digits : List Char} {n : ℕ} : Numeral digits n → SignedNumeral digits n
  | plus {digits : List Char} {n : ℕ} : Numeral digits n → SignedNumeral ('+' :: digits) n
  | minus {digits : List Char} {n : ℕ} : Numeral digits n → SignedNumeral ('-' :: digits) (-n)

/-- A hexadecimal digit of either case and its value. -/
def HexDigit (c : Char) (d : ℕ) : Prop :=
  "0123456789abcdef".toList[d]? = some c ∨ "0123456789ABCDEF".toList[d]? = some c

instance (c : Char) (d : ℕ) : Decidable (HexDigit c d) := inferInstanceAs (Decidable (_ ∨ _))

/-- Hexadecimal digits and the number that they denote; no digits denote zero. -/
def HexNumeral (digits : List Char) (n : ℕ) : Prop :=
  ∃ ds, List.Forall₂ HexDigit digits ds ∧ Nat.ofDigits 16 ds.reverse = n

/-- Digits with an optional point among them. -/
inductive Mantissa : List Char → List Char → List Char → Prop
  | whole (whole : List Char) : Mantissa whole whole []
  | point (whole fraction : List Char) : Mantissa (whole ++ '.' :: fraction) whole fraction

/-- An exponent, which may be missing. -/
inductive Exponent : List Char → ℤ → Prop
  | absent : Exponent [] 0
  | written {mark : Char} {digits : List Char} {e : ℤ} :
      mark = 'e' ∨ mark = 'E' → SignedNumeral digits e → Exponent (mark :: digits) e

/-- A decimal number and its parts: digits with an optional point among them, at least
one digit before or after it, and an optional exponent. -/
structure Decimal (body : List Char) (p : Parts) : Prop where
  text : ∃ mantissa exponent, body = mantissa ++ exponent ∧
    Mantissa mantissa p.whole p.fraction ∧ Exponent exponent p.exponent
  nonempty : p.whole ++ p.fraction ≠ []
  digital : ∀ c ∈ p.whole ++ p.fraction, c.isDigit = true

/-- The number of the digits without the point. -/
def Parts.digits (p : Parts) : ℕ := Nat.ofDigitChars 10 (p.whole ++ p.fraction) 0

/-- The value of a decimal number. -/
def Parts.value (p : Parts) : ℚ :=
  (Nat.ofDigitChars 10 p.whole 0 + Nat.ofDigitChars 10 p.fraction 0 / 10 ^ p.fraction.length) *
    10 ^ p.exponent

/-- A decimal number is whole once its point has been moved to the right. -/
def Parts.Whole (p : Parts) (shift : ℕ) : Prop := ∃ m : ℕ, p.value * 10 ^ shift = m

/-- A number without a sign, and its value. -/
inductive Number : List Char → ℚ → Prop
  | hex {mark : Char} {digits : List Char} {n : ℕ} :
      mark = 'x' ∨ mark = 'X' → HexNumeral digits n → Number ('0' :: mark :: digits) n
  | decimal {body : List Char} {p : Parts} : Decimal body p → Number body p.value

/-- A number with an optional minus sign, and its value. -/
inductive SignedNumber : List Char → ℚ → Prop
  | plain {body : List Char} {q : ℚ} : Number body q → SignedNumber body q
  | minus {body : List Char} {q : ℚ} : Number body q → SignedNumber ('-' :: body) (-q)

/-! ## What literals denote -/

/-- The units, and how much one of each is. -/
def unitSizes : List (String × ℕ) :=
  [("wei", 1), ("gwei", 10 ^ 9), ("szabo", 10 ^ 12), ("finney", 10 ^ 15), ("ether", 10 ^ 18),
    ("seconds", 1), ("minutes", 60), ("hours", 60 * 60), ("days", 24 * 60 * 60),
    ("weeks", 7 * 24 * 60 * 60)]

/-- The size of a unit; without a name it is one. -/
def unitSize? : Option String → Option ℕ
  | none => some 1
  | some name => unitSizes.lookup name

theorem unitSize?_eq (unit : Option String) :
    unitSize? unit = (Denomination.ofName? unit).map Denomination.size := by
  unfold Denomination.ofName?
  split
  case h_12 name _ _ _ _ _ _ _ _ _ _ =>
    have unknown : unitSizes.lookup name = none := by
      simp_all [unitSizes, List.lookup_eq_none_iff]
    exact unknown
  all_goals rfl

/-- What a literal without blanks and underscores denotes for a target: a boolean, or a
number of a unit with the target's digits after the point. -/
inductive Denotes (unit : Option String) (decimals : ℕ) : List Char → Scalar → Prop
  | true : Denotes unit decimals "true".toList Scalar.one
  | false : Denotes unit decimals "false".toList Scalar.zero
  | number {cs : List Char} {q : ℚ} {size : ℕ} {s : Scalar} :
      SignedNumber cs q → unitSize? unit = some size →
      (s.val : ℚ) = q * size * 10 ^ decimals → Denotes unit decimals cs s

/-! ## Digits -/

theorem ofDigits_eq {cs : List Char} (digital : ∀ c ∈ cs, c.isDigit = true) :
    Text.ofDigits cs = Nat.ofDigitChars 10 cs 0 := by
  suffices ∀ n, cs.foldl (fun n c => n * 10 + (Text.digit? c).getD 0) n =
      Nat.ofDigitChars 10 cs n from this 0
  induction cs with
  | nil => intro n; rfl
  | cons c cs ih =>
    intro n
    obtain ⟨first, rest⟩ := List.forall_mem_cons.1 digital
    rw [List.foldl_cons, ih rest, Nat.ofDigitChars_cons, Text.digit?_eq, if_pos first,
      Option.getD_some, Nat.mul_comm]

theorem counted_iff {limit : ℕ} {cs : List Char} {sign : ℤ → ℤ} {e : ℤ} :
    Option.map sign (do let n ← Text.readCount? limit cs; pure (n : ℤ)) = some e ↔
      ∃ n : ℕ, Numeral cs n ∧ n ≤ limit ∧ sign n = e := by
  simp only [Option.map_eq_some_iff, Option.bind_eq_bind, Option.pure_def,
    Option.bind_eq_some_iff, Option.some.injEq, readCount?_eq_some_iff]
  constructor
  · rintro ⟨m, ⟨n, ⟨numeral, most⟩, rfl⟩, same⟩
    exact ⟨n, numeral, most, same⟩
  · rintro ⟨n, numeral, most, same⟩
    exact ⟨n, ⟨n, ⟨numeral, most⟩, rfl⟩, same⟩

theorem readSigned?_eq_some_iff {cs : List Char} {e : ℤ} :
    Text.readSigned? cs = some e ↔ SignedNumeral cs e ∧ -(2 ^ 63) ≤ e ∧ e < 2 ^ 63 := by
  unfold Text.readSigned?
  constructor
  · intro read
    split at read <;> obtain ⟨n, numeral, most, rfl⟩ := counted_iff.1 read
    · exact ⟨.minus numeral, by omega, by omega⟩
    · exact ⟨.plus numeral, by omega, by omega⟩
    · exact ⟨.plain numeral, by omega, by omega⟩
  · rintro ⟨written, least, most⟩
    cases written with
    | minus numeral => exact counted_iff.2 ⟨_, numeral, by omega, rfl⟩
    | plus numeral => exact counted_iff.2 ⟨_, numeral, by omega, rfl⟩
    | plain numeral =>
      split
      · exact absurd (numeral.digital '-' List.mem_cons_self) (by decide)
      · exact absurd (numeral.digital '+' List.mem_cons_self) (by decide)
      · exact counted_iff.2 ⟨_, numeral, by omega, rfl⟩

theorem SignedNumeral.mem {cs : List Char} {e : ℤ} {c : Char} (h : SignedNumeral cs e)
    (hc : c ∈ cs) : c.isDigit = true ∨ c = '+' ∨ c = '-' := by
  cases h with
  | plain numeral => exact .inl (numeral.digital c hc)
  | plus numeral =>
    exact (List.mem_cons.1 hc).elim (.inr ∘ .inl) (.inl ∘ numeral.digital c)
  | minus numeral =>
    exact (List.mem_cons.1 hc).elim (.inr ∘ .inr) (.inl ∘ numeral.digital c)

theorem ofDigitChars_eq (cs : List Char) (n : ℕ) :
    Nat.ofDigitChars 10 cs n = n * 10 ^ cs.length + Nat.ofDigitChars 10 cs 0 := by
  induction cs generalizing n with
  | nil => simp
  | cons c cs ih =>
    rw [Nat.ofDigitChars_cons, Nat.ofDigitChars_cons, ih, ih (10 * 0 + _), List.length_cons]
    ring

/-- The value of a number is that of its digits, with the point moved to where it
stands. -/
theorem Parts.value_eq (p : Parts) :
    p.value = p.digits * 10 ^ (p.exponent - p.fraction.length) := by
  have ten : (10 : ℚ) ≠ 0 := by norm_num
  have digits : (p.digits : ℚ) = Nat.ofDigitChars 10 p.whole 0 * 10 ^ p.fraction.length +
      Nat.ofDigitChars 10 p.fraction 0 := by
    rw [digits, Nat.ofDigitChars_append, ofDigitChars_eq]
    push_cast
    ring
  rw [value, digits, zpow_sub₀ ten, zpow_natCast]
  field_simp

/-! ## Cutting a number apart -/

section Cutting

variable {p : Char → Bool} {cs a b : List Char} {c : Char}

theorem splitAtFirst?_append (found : p c = true) (before : ∀ x ∈ a, p x = false) :
    splitAtFirst? p (a ++ c :: b) = some (a, b) := by
  induction a with
  | nil => simp [splitAtFirst?, found]
  | cons x a ih =>
    obtain ⟨first, rest⟩ := List.forall_mem_cons.1 before
    simp [splitAtFirst?, first, ih rest]

theorem splitAtFirst?_eq_none (nowhere : ∀ x ∈ cs, p x = false) : splitAtFirst? p cs = none := by
  induction cs with
  | nil => rfl
  | cons x cs ih =>
    obtain ⟨first, rest⟩ := List.forall_mem_cons.1 nowhere
    simp [splitAtFirst?, first, ih rest]

theorem eq_of_splitAtFirst? (cut : splitAtFirst? p cs = some (a, b)) :
    ∃ c, p c = true ∧ cs = a ++ c :: b := by
  induction cs generalizing a with
  | nil => cases cut
  | cons x cs ih =>
    unfold splitAtFirst? at cut
    split at cut
    · next found =>
      cases cut
      exact ⟨x, found, rfl⟩
    · obtain ⟨⟨a', b'⟩, later, same⟩ := Option.map_eq_some_iff.1 cut
      cases same
      obtain ⟨c, found, rfl⟩ := ih later
      exact ⟨c, found, rfl⟩

end Cutting

section Parts

variable {m whole fraction body : List Char} {p : Parts} {c : Char}

theorem Mantissa.mem (h : Mantissa m whole fraction) (hc : c ∈ m) :
    c ∈ whole ++ fraction ∨ c = '.' := by
  cases h with
  | whole => exact .inl (by simpa using hc)
  | point =>
    simp only [List.mem_append, List.mem_cons] at hc ⊢
    tauto

theorem Mantissa.ne_nil (h : Mantissa m whole fraction) (nonempty : whole ++ fraction ≠ []) :
    m ≠ [] := by
  cases h with
  | whole => simpa using nonempty
  | point => simp

theorem Mantissa.of_split (cut : (splitAtFirst? (· == '.') m).getD (m, []) = (whole, fraction)) :
    Mantissa m whole fraction := by
  cases found : splitAtFirst? (· == '.') m with
  | none =>
    rw [found] at cut
    cases cut
    exact .whole m
  | some ab =>
    rw [found] at cut
    obtain rfl : ab = (whole, fraction) := cut
    obtain ⟨c, point, rfl⟩ := eq_of_splitAtFirst? found
    obtain rfl : c = '.' := by simpa using point
    exact .point whole fraction

/-- The digits of a number are neither points nor marks of an exponent. -/
theorem ne_of_isDigit {d : Char} (digit : c.isDigit = true) (other : d.isDigit = false) :
    c ≠ d := by
  rintro rfl
  simp [digit] at other

theorem Mantissa.split (h : Mantissa m whole fraction)
    (digital : ∀ c ∈ whole ++ fraction, c.isDigit = true) :
    (splitAtFirst? (· == '.') m).getD (m, []) = (whole, fraction) := by
  have nowhere : ∀ c ∈ whole, (c == '.') = false := fun c hc =>
    beq_false_of_ne (ne_of_isDigit (digital c (List.mem_append_left _ hc)) rfl)
  cases h with
  | whole => rw [splitAtFirst?_eq_none nowhere, Option.getD_none]
  | point => rw [splitAtFirst?_append rfl nowhere, Option.getD_some]

/-- A number is taken apart as it is written. -/
theorem parts_of_decimal (h : Decimal body p) (least : -(2 ^ 63) ≤ p.exponent)
    (most : p.exponent < 2 ^ 63) : parts body = .ok p := by
  obtain ⟨mantissa, exponent, rfl, written, power⟩ := h.text
  have unmarked : ∀ c ∈ mantissa, (c == 'e' || c == 'E') = false := by
    intro c hc
    rcases written.mem hc with digit | rfl
    · have e := ne_of_isDigit (d := 'e') (h.digital c digit) rfl
      have E := ne_of_isDigit (d := 'E') (h.digital c digit) rfl
      simp [e, E]
    · rfl
  obtain ⟨whole, fraction, e⟩ := p
  unfold parts
  cases power with
  | absent =>
    rw [List.append_nil, splitAtFirst?_eq_none unmarked]
    simp only [written.split h.digital]
    rfl
  | @written mark _ _ marked numeral =>
    have found : (mark == 'e' || mark == 'E') = true := by simpa using marked
    rw [splitAtFirst?_append found unmarked]
    simp only [readSigned?_eq_some_iff.2 ⟨numeral, least, most⟩, written.split h.digital]

/-- What is taken apart into digits is written as a number. -/
theorem decimal_of_parts (cut : parts body = .ok p) (nonempty : p.whole ++ p.fraction ≠ [])
    (digital : ∀ c ∈ p.whole ++ p.fraction, c.isDigit = true) : Decimal body p := by
  refine ⟨?_, nonempty, digital⟩
  unfold parts at cut
  split at cut
  · cases cut
    exact ⟨body, [], by simp, .of_split rfl, .absent⟩
  · next mantissa exponent found =>
    split at cut
    · cases cut
    · next e numeral =>
      cases cut
      obtain ⟨mark, marked, rfl⟩ := eq_of_splitAtFirst? found
      exact ⟨mantissa, _, rfl, .of_split rfl,
        .written (by simpa using marked) (readSigned?_eq_some_iff.1 numeral).1⟩

end Parts

/-! ## Scaling -/

section Scaling

variable {n m e : ℕ} {power : ℤ}

theorem fit?_eq_some_iff : fit? n = some m ↔ n < 2 ^ 256 ∧ n = m := by
  simp [fit?]

theorem tenPower?_eq_some_iff : tenPower? e = some m ↔ e < 78 ∧ 10 ^ e = m := by
  simp [tenPower?]

theorem zpow_of_nonneg (h : 0 ≤ power) : (10 : ℚ) ^ power = 10 ^ power.toNat := by
  rw [← zpow_natCast, Int.toNat_of_nonneg h]

theorem zpow_of_neg (h : power < 0) : (10 : ℚ) ^ power = (10 ^ power.natAbs)⁻¹ := by
  rw [← zpow_natCast, ← zpow_neg]
  congr 1
  omega

/-- A power below one leaves a whole number when it divides the number. -/
theorem mul_zpow_of_neg (h : power < 0) :
    (n : ℚ) * 10 ^ power = m ↔ n = m * 10 ^ power.natAbs := by
  rw [zpow_of_neg h, mul_inv_eq_iff_eq_mul₀ (by positivity)]
  exact_mod_cast Iff.rfl

/-- What a number is scaled to is its product with the power of ten. -/
theorem scale_eq_ok (scaled : scale n power = .ok m) : (n : ℚ) * 10 ^ power = m := by
  unfold scale at scaled
  split at scaled
  · next nonneg =>
    split at scaled
    · cases scaled
    next factor ten =>
    obtain ⟨-, rfl⟩ := tenPower?_eq_some_iff.1 ten
    split at scaled
    · cases scaled
    next product fits =>
    obtain ⟨-, rfl⟩ := fit?_eq_some_iff.1 fits
    cases scaled
    rw [zpow_of_nonneg nonneg]
    push_cast
    rfl
  · next negative =>
    split at scaled
    · cases scaled
    next divisor ten =>
    obtain ⟨-, rfl⟩ := tenPower?_eq_some_iff.1 ten
    split at scaled
    · next divides =>
      cases scaled
      rw [mul_zpow_of_neg (by omega)]
      exact (Nat.div_mul_cancel (Nat.dvd_of_mod_eq_zero divides)).symm
    · cases scaled

/-- A product that is whole and fits is reached. -/
theorem scale_of_whole (small : power.natAbs < 78) (whole : (n : ℚ) * 10 ^ power = m)
    (fits : m < 2 ^ 256) : scale n power = .ok m := by
  by_cases nonneg : 0 ≤ power
  · rw [zpow_of_nonneg nonneg] at whole
    obtain rfl : n * 10 ^ power.toNat = m := by exact_mod_cast whole
    have power_small : power.toNat < 78 := by omega
    simp [scale, tenPower?, fit?, nonneg, power_small, fits]
  · obtain rfl := (mul_zpow_of_neg (by omega)).1 whole
    have positive : 0 < 10 ^ power.natAbs := Nat.pow_pos (by decide)
    simp [scale, tenPower?, nonneg, small, Nat.mul_div_cancel _ positive]

/-- A number is refused as not whole exactly when its product is not whole. -/
theorem scale_fractional_iff (small : power.natAbs < 78) :
    scale n power = .error .fractional ↔ ¬ ∃ m : ℕ, (n : ℚ) * 10 ^ power = m := by
  by_cases nonneg : 0 ≤ power
  · have power_small : power.toNat < 78 := by omega
    have whole : ∃ m : ℕ, (n : ℚ) * 10 ^ power = m :=
      ⟨n * 10 ^ power.toNat, by rw [zpow_of_nonneg nonneg]; push_cast; rfl⟩
    have other : scale n power ≠ .error .fractional := by
      by_cases fits : n * 10 ^ power.toNat < 2 ^ 256 <;>
        simp [scale, tenPower?, fit?, nonneg, power_small, fits]
    simp only [whole, not_true_eq_false, iff_false]
    exact other
  · have divides : (∃ m : ℕ, (n : ℚ) * 10 ^ power = m) ↔ n % 10 ^ power.natAbs = 0 := by
      simp only [mul_zpow_of_neg (show power < 0 by omega)]
      constructor
      · rintro ⟨m, rfl⟩
        exact Nat.mul_mod_left _ _
      · intro h
        exact ⟨n / 10 ^ power.natAbs, (Nat.div_mul_cancel (Nat.dvd_of_mod_eq_zero h)).symm⟩
    rw [divides]
    simp [scale, tenPower?, nonneg, small]

end Scaling

/-! ## Hexadecimal numbers -/

section Hex

variable {digits : List Char} {bs : List UInt8} {place n m shift : ℕ}

/-- Bytes below 128 are characters of their own. -/
theorem scan_ascii (ascii : ∀ b ∈ bs, b < 0x80) :
    Text.Utf8.scan none bs = bs.map fun b => some (Char.ofNat b.toNat) := by
  induction bs with
  | nil => rfl
  | cons b bs ih =>
    obtain ⟨first, rest⟩ := List.forall_mem_cons.1 ascii
    simp only [Text.Utf8.scan, Text.Utf8.start, if_pos first, ih rest, List.map_cons]

/-- A text with bytes below 128 only is those bytes. -/
theorem eq_of_encode_ascii (ascii : ∀ b ∈ Text.Utf8.encode digits, b < 0x80) :
    (Text.Utf8.encode digits).map (fun b => Char.ofNat b.toNat) = digits := by
  have same := Text.Utf8.scan_encode digits
  rw [scan_ascii ascii] at same
  exact List.map_injective_iff.2 (Option.some_injective Char)
    (by rw [List.map_map, ← same]; rfl)

theorem hexDigit_of_byte : ∀ n < 256, ∀ d ∈ Text.hexDigit? (Char.ofNat n),
    n < 128 ∧ HexDigit (Char.ofNat n) d := by
  decide +kernel

/-- Bytes that are read are digits, and the number grows by theirs. -/
theorem hexFromLast_sound (read : hexFromLast place n bs = .ok m) :
    (∀ b ∈ bs, b < 0x80) ∧ ∃ ds, List.Forall₂ HexDigit (bs.map fun b => Char.ofNat b.toNat) ds ∧
      n + 16 ^ place * Nat.ofDigits 16 ds = m := by
  induction bs generalizing place n with
  | nil =>
    cases read
    exact ⟨by simp, [], .nil, by simp⟩
  | cons b bs ih =>
    unfold hexFromLast at read
    split at read
    · cases read
    next d digit =>
    obtain ⟨ascii, written⟩ := hexDigit_of_byte b.toNat b.toNat_lt d digit
    have first : b < 0x80 := UInt8.lt_iff_toNat_lt.2 ascii
    -- A digit that is zero is passed over, any other one must lie in the last 64 places.
    split at read
    · next zero =>
      obtain ⟨rest, ds, later, rfl⟩ := ih read
      refine ⟨List.forall_mem_cons.2 ⟨first, rest⟩, d :: ds, .cons written later, ?_⟩
      rw [Nat.ofDigits_cons, zero]
      ring
    · split at read
      · cases read
      obtain ⟨rest, ds, later, rfl⟩ := ih read
      refine ⟨List.forall_mem_cons.2 ⟨first, rest⟩, d :: ds, .cons written later, ?_⟩
      rw [Nat.ofDigits_cons]
      ring

/-- Hexadecimal digits that are read denote what they are read as. -/
theorem hexMagnitude_sound (read : hexMagnitude shift digits = .ok m) :
    ∃ n, HexNumeral digits n ∧ n * 10 ^ shift = m := by
  unfold hexMagnitude at read
  split at read
  · cases read
  next n found =>
  obtain ⟨ascii, ds, written, rfl⟩ := hexFromLast_sound found
  rw [List.map_reverse, eq_of_encode_ascii (by simpa using ascii)] at written
  refine ⟨_, ⟨ds.reverse, ?_, rfl⟩, ?_⟩
  · rwa [← List.forall₂_reverse_iff, List.reverse_reverse]
  split at read
  · cases read
  next power ten =>
  obtain ⟨-, rfl⟩ := tenPower?_eq_some_iff.1 ten
  split at read
  · cases read
  next product fits =>
  obtain ⟨-, rfl⟩ := fit?_eq_some_iff.1 fits
  cases read
  rw [List.reverse_reverse]
  ring

end Hex

/-! ## Decimal numbers -/

section Magnitudes

variable {body : List Char} {c : Char} {p : Parts} {shift m : ℕ}

/-- The power of ten that the digits of a number are scaled by, for a target with a
shift. -/
def Parts.power (p : Parts) (shift : ℕ) : ℤ := p.exponent + shift - p.fraction.length

theorem Parts.value_mul (p : Parts) (shift : ℕ) :
    p.value * 10 ^ shift = p.digits * 10 ^ p.power shift := by
  have ten : (10 : ℚ) ≠ 0 := by norm_num
  rw [p.value_eq, mul_assoc, ← zpow_natCast, ← zpow_add₀ ten, power]
  congr 2
  omega

theorem powerOfShift_eq (small : shift < 2 ^ 63) : powerOfShift shift = shift :=
  Int.bmod_eq_of_le (by omega) (by omega)

/-- The digits of a number are scaled by its power of ten, if they fit. -/
theorem decimalMagnitude_of_decimal (h : Decimal body p) (least : -(2 ^ 63) ≤ p.exponent)
    (most : p.exponent < 2 ^ 63) (small : shift < 2 ^ 63) (fits : p.digits < 2 ^ 256) :
    decimalMagnitude shift body = scale p.digits (p.power shift) := by
  have nonempty : (p.whole.isEmpty && p.fraction.isEmpty) = false := by
    simpa [imp_iff_not_or] using h.nonempty
  have digital : (p.whole ++ p.fraction).all Text.isDigit = true := by
    rw [List.all_eq_true]
    intro c hc
    rw [Text.isDigit_eq, h.digital c hc]
  have number : fit? (Text.ofDigits (p.whole ++ p.fraction)) = some p.digits := by
    rw [ofDigits_eq h.digital]
    exact fit?_eq_some_iff.2 ⟨fits, rfl⟩
  simp only [decimalMagnitude, parts_of_decimal h least most, nonempty, digital, number,
    powerOfShift_eq small]
  rfl

/-- What is read as a decimal number is one, and it is scaled exactly. -/
theorem decimalMagnitude_sound (small : shift < 2 ^ 63)
    (read : decimalMagnitude shift body = .ok m) :
    ∃ p, Decimal body p ∧ p.value * 10 ^ shift = m := by
  unfold decimalMagnitude at read
  split at read
  · cases read
  next p cut =>
  split at read
  · cases read
  next nonempty =>
  split at read
  · cases read
  next digital =>
  have digital : ∀ c ∈ p.whole ++ p.fraction, c.isDigit = true := by
    intro c hc
    rw [← Text.isDigit_eq]
    simp only [Bool.not_eq_true', Bool.not_eq_false, List.all_eq_true] at digital
    exact digital c hc
  split at read
  · cases read
  next n number =>
  obtain ⟨-, rfl⟩ := fit?_eq_some_iff.1 number
  rw [ofDigits_eq digital, powerOfShift_eq small] at read
  refine ⟨p, decimal_of_parts cut (by simpa [imp_iff_not_or] using nonempty) digital, ?_⟩
  rw [p.value_mul]
  exact scale_eq_ok read

/-- A decimal number begins with a digit or the point. -/
theorem Decimal.head (h : Decimal body p) :
    ∃ c rest, body = c :: rest ∧ (c.isDigit = true ∨ c = '.') := by
  obtain ⟨mantissa, exponent, rfl, written, -⟩ := h.text
  obtain ⟨c, rest, rfl⟩ := List.exists_cons_of_ne_nil (written.ne_nil h.nonempty)
  exact ⟨c, rest ++ exponent, rfl, (written.mem List.mem_cons_self).imp_left (h.digital c)⟩

/-- A decimal number has no mark of a hexadecimal one. -/
theorem Decimal.ne_of_mem (h : Decimal body p) (hc : c ∈ body) : c ≠ 'x' ∧ c ≠ 'X' := by
  have of_digit (digit : c.isDigit = true) : c ≠ 'x' ∧ c ≠ 'X' :=
    ⟨ne_of_isDigit digit rfl, ne_of_isDigit digit rfl⟩
  obtain ⟨mantissa, exponent, rfl, written, power⟩ := h.text
  rcases List.mem_append.1 hc with hc | hc
  · rcases written.mem hc with digit | rfl
    · exact of_digit (h.digital c digit)
    · decide
  generalize p.exponent = e at power
  cases power with
  | absent => cases hc
  | written marked numeral =>
    rcases List.mem_cons.1 hc with rfl | hc
    · rcases marked with rfl | rfl <;> decide
    rcases numeral.mem hc with digit | rfl | rfl
    · exact of_digit digit
    all_goals decide

theorem magnitude_of_decimal (h : Decimal body p) :
    magnitude shift body = decimalMagnitude shift body := by
  unfold magnitude
  split
  · exact absurd rfl (h.ne_of_mem (c := 'x') (by simp)).1
  · exact absurd rfl (h.ne_of_mem (c := 'X') (by simp)).2
  · rfl

/-- What is read without a sign is a number, and it is scaled exactly. -/
theorem magnitude_sound (small : shift < 2 ^ 63) (read : magnitude shift body = .ok m) :
    ∃ q, Number body q ∧ q * 10 ^ shift = m := by
  unfold magnitude at read
  split at read
  · obtain ⟨n, written, rfl⟩ := hexMagnitude_sound read
    exact ⟨n, .hex (.inl rfl) written, by push_cast; rfl⟩
  · obtain ⟨n, written, rfl⟩ := hexMagnitude_sound read
    exact ⟨n, .hex (.inr rfl) written, by push_cast; rfl⟩
  · obtain ⟨p, written, exact⟩ := decimalMagnitude_sound small read
    exact ⟨p.value, .decimal written, exact⟩

end Magnitudes

/-! ## Literals -/

section Literals

variable {text : String} {unit : Option String} {decimals shift n : ℕ} {negative : Bool}
  {cs body : List Char} {p : Parts} {d : Denomination} {s : Scalar}

theorem bounds_of_ofName? (known : Denomination.ofName? unit = some d) :
    d.shift ≤ 18 ∧ 0 < d.factor := by
  unfold Denomination.ofName? at known
  split at known <;> cases known <;> decide

/-- The factor of a unit is what its size has beyond the power of ten. -/
theorem mul_size {q : ℚ} {m : ℕ} (moved : q * 10 ^ (d.shift + decimals) = m) :
    q * d.size * 10 ^ decimals = (m * d.factor : ℕ) := by
  rw [Denomination.size]
  push_cast
  rw [← moved, pow_add]
  ring

theorem signed_eq_ok_iff :
    signed negative n = .ok s ↔ s.val = if negative then -(n : ℤ) else n := by
  unfold signed
  rw [← Scalar.ofInt?_eq_some_iff]
  split <;> simp_all

/-- What is read as a number with a sign is one, and it is scaled exactly. -/
theorem readNumber_sound (small : d.shift + decimals < 2 ^ 63)
    (read : readNumber d decimals negative body = .ok s) :
    ∃ q, Number body q ∧ (s.val : ℚ) = (if negative then -q else q) * d.size * 10 ^ decimals := by
  unfold readNumber at read
  split at read
  · cases read
  next m found =>
  obtain ⟨q, written, product⟩ := magnitude_sound small found
  refine ⟨q, written, ?_⟩
  have whole := mul_size product
  rw [signed_eq_ok_iff.1 read]
  cases negative with
  | false => simpa using whole.symm
  | true => simpa using congrArg Neg.neg whole.symm

/-- A number with a sign in front or none is read as such. -/
theorem read_of_decimal (h : Decimal body p) (known : Denomination.ofName? unit = some d) :
    read unit decimals ((if negative then ['-'] else []) ++ body) =
      readNumber d decimals negative body := by
  obtain ⟨c, rest, rfl, first⟩ := h.head
  have other : c ≠ 't' ∧ c ≠ 'f' ∧ c ≠ '-' := by
    rcases first with digit | rfl
    · exact ⟨ne_of_isDigit digit rfl, ne_of_isDigit digit rfl, ne_of_isDigit digit rfl⟩
    · decide
  cases negative with
  | false => simp [read, known, other]
  | true => simp [read, known]

theorem read_sound (small : decimals ≤ 80) (accepted : read unit decimals cs = .ok s) :
    Denotes unit decimals cs s := by
  unfold read at accepted
  split at accepted
  · cases accepted
  split at accepted
  · next same =>
    cases accepted
    exact same ▸ .true
  split at accepted
  · next same =>
    cases accepted
    exact same ▸ .false
  split at accepted
  · cases accepted
  next d known =>
  have size : unitSize? unit = some d.size := by rw [unitSize?_eq, known]; rfl
  obtain ⟨shift, -⟩ := bounds_of_ofName? known
  split at accepted <;> obtain ⟨q, written, exact⟩ := readNumber_sound (by omega) accepted
  · exact .number (.minus written) size exact
  · exact .number (.plain written) size exact

theorem ofLiteral_eq_ok_iff :
    Scalar.ofLiteral text unit decimals = .ok s ↔ read unit decimals (cleaned text) = .ok s := by
  unfold Scalar.ofLiteral
  split <;> simp_all

theorem ofLiteral_eq_error_iff {fault : LiteralFault} :
    Scalar.ofLiteral text unit decimals = .error ⟨text, fault⟩ ↔
      read unit decimals (cleaned text) = .error fault := by
  unfold Scalar.ofLiteral
  split <;> simp_all

/-- **A literal that is read denotes the scalar that it is read as.** Nothing is rounded,
cut off or wrapped around. -/
theorem literal_exact (small : decimals ≤ 80)
    (accepted : Scalar.ofLiteral text unit decimals = .ok s) :
    Denotes unit decimals (cleaned text) s :=
  read_sound small (ofLiteral_eq_ok_iff.1 accepted)

theorem literal_exact_gwei :
    Scalar.ofLiteral " -1_0.5e1" (some "gwei") 2 = .ok ⟨-10500000000000, by decide⟩ ∧
      Denotes (some "gwei") 2 (cleaned " -1_0.5e1") ⟨-10500000000000, by decide⟩ := by
  have accepted : Scalar.ofLiteral " -1_0.5e1" (some "gwei") 2 =
    .ok ⟨-10500000000000, by decide⟩ := by decide +kernel
  exact ⟨accepted, literal_exact (by decide) accepted⟩

/-! ## Which literals are read -/

theorem Decimal.length_fraction_le (h : Decimal body p) : p.fraction.length ≤ body.length := by
  obtain ⟨whole, fraction, e⟩ := p
  obtain ⟨mantissa, exponent, rfl, written, -⟩ := h.text
  cases written with
  | whole => exact Nat.zero_le _
  | point =>
    simp only [List.length_append, List.length_cons]
    omega

/-- The exponent of a number within memory fits its 64 bits if the power of ten that the
digits are scaled by is a small one. -/
theorem magnitude_eq_scale (h : Decimal body p) (short : body.length < 2 ^ 62)
    (small : shift ≤ 98) (fits : p.digits < 2 ^ 256) (power : (p.power shift).natAbs < 78) :
    magnitude shift body = scale p.digits (p.power shift) := by
  have fraction := h.length_fraction_le
  unfold Parts.power at power
  rw [magnitude_of_decimal h,
    decimalMagnitude_of_decimal h (by omega) (by omega) (by omega) fits]

/-- A number whose point has been moved is refused exactly when it is not whole; the unit's
factor comes after that. -/
theorem readNumber_fractional_iff (h : Decimal body p) (short : body.length < 2 ^ 62)
    (small : d.shift + decimals ≤ 98) (fits : p.digits < 2 ^ 256)
    (power : (p.power (d.shift + decimals)).natAbs < 78) :
    readNumber d decimals negative body = .error .fractional ↔
      ¬ p.Whole (d.shift + decimals) := by
  have signed_ne (n : ℕ) : signed negative n ≠ .error .fractional := by
    unfold signed
    split <;> simp
  unfold readNumber Parts.Whole
  simp only [p.value_mul, ← scale_fractional_iff power]
  rw [magnitude_eq_scale h short small fits power]
  split
  · next fault refused => rw [refused, Except.error.injEq, Except.error.injEq]
  · next m scaled => simp [signed_ne, scaled]

/-- A number that is whole in time is read if its product with the factor fits. -/
theorem readNumber_of_whole (h : Decimal body p) (short : body.length < 2 ^ 62)
    (small : d.shift + decimals ≤ 98) (fits : p.digits < 2 ^ 256)
    (power : (p.power (d.shift + decimals)).natAbs < 78) (factor : 0 < d.factor)
    (whole : p.Whole (d.shift + decimals)) (product : p.value * d.size * 10 ^ decimals = n)
    (within : n < 2 ^ 256) :
    ∃ s, readNumber d decimals negative body = .ok s ∧
      s.val = if negative then -(n : ℤ) else n := by
  obtain ⟨m, moved⟩ := whole
  obtain rfl : m * d.factor = n := by
    rw [mul_size moved] at product
    exact_mod_cast product
  have bounded : m < 2 ^ 256 := lt_of_le_of_lt (Nat.le_mul_of_pos_right m factor) within
  have scaled := scale_of_whole power (by rw [← p.value_mul, moved]) bounded
  have inRange : (if negative then -((m * d.factor : ℕ) : ℤ) else (m * d.factor : ℕ)).natAbs <
      2 ^ 256 := by
    split <;> omega
  unfold readNumber
  rw [magnitude_eq_scale h short small fits power, scaled]
  exact ⟨⟨_, inRange⟩, signed_eq_ok_iff.2 rfl, rfl⟩

/-- **A decimal literal whose product with its unit is whole and fits is read exactly when
the number is whole before the factor of the unit is applied**, and only then it is not
refused as fractional. A factor of one makes no difference. -/
theorem whole_literal_read_iff
    (written : cleaned text = (if negative then ['-'] else []) ++ body)
    (decimal : Decimal body p) (known : Denomination.ofName? unit = some d)
    (small : decimals ≤ 80) (short : body.length < 2 ^ 62) (fits : p.digits < 2 ^ 256)
    (power : (p.power (d.shift + decimals)).natAbs < 78) :
    (∀ n : ℕ, p.value * d.size * 10 ^ decimals = n → n < 2 ^ 256 →
      ((∃ s, Scalar.ofLiteral text unit decimals = .ok s ∧
        s.val = if negative then -(n : ℤ) else n) ↔ p.Whole (d.shift + decimals))) ∧
    (Scalar.ofLiteral text unit decimals = .error ⟨text, .fractional⟩ ↔
      ¬ p.Whole (d.shift + decimals)) ∧
    (d.factor = 1 →
      (p.Whole (d.shift + decimals) ↔ ∃ m : ℕ, p.value * d.size * 10 ^ decimals = m)) := by
  obtain ⟨shift, factor⟩ := bounds_of_ofName? known
  have number : read unit decimals (cleaned text) = readNumber d decimals negative body := by
    rw [written, read_of_decimal decimal known]
  have refused : readNumber d decimals negative body = .error .fractional ↔ _ :=
    readNumber_fractional_iff decimal short (by omega) fits power
  refine ⟨fun n product within => ⟨?_, fun whole => ?_⟩, ?_, fun one => ?_⟩
  · rintro ⟨s, accepted, -⟩
    rw [ofLiteral_eq_ok_iff, number] at accepted
    by_contra fractional
    rw [refused.2 fractional] at accepted
    cases accepted
  · simp only [ofLiteral_eq_ok_iff, number]
    exact readNumber_of_whole decimal short (by omega) fits power factor whole product within
  · rw [ofLiteral_eq_error_iff, number, refused]
  · simp only [Parts.Whole, Denomination.size, one, one_mul, Nat.cast_pow, Nat.cast_ofNat, pow_add,
      mul_assoc]

theorem whole_literal_read_iff_minutes :
    ∃ s, Scalar.ofLiteral "-1.5e1" (some "minutes") 0 = .ok s ∧ s.val = -900 := by
  have decimal : Decimal "1.5e1".toList ⟨['1'], ['5'], 1⟩ :=
    ⟨⟨"1.5".toList, "e1".toList, rfl, .point ['1'] ['5'],
      .written (.inl rfl) (.plain ⟨by simp, List.all_eq_true.1 rfl, rfl⟩)⟩, by simp,
      List.all_eq_true.1 rfl⟩
  have digits : Parts.digits ⟨['1'], ['5'], 1⟩ = 15 := rfl
  have value : Parts.value ⟨['1'], ['5'], 1⟩ = 15 := by norm_num [Parts.value_eq, digits]
  have written : cleaned "-1.5e1" = (if true then ['-'] else []) ++ "1.5e1".toList := rfl
  have known : Denomination.ofName? (some "minutes") = some ⟨60, 0⟩ := rfl
  have small : 0 ≤ 80 := by decide
  have read := whole_literal_read_iff written decimal known small (by decide) (by decide)
    (by decide)
  refine (read.1 900 ?_ (by decide)).2 ⟨15, ?_⟩ <;> norm_num [value, Denomination.size]

/-- 1.5 minutes are 90 seconds, but they are no whole number of minutes, and are refused. -/
theorem whole_minutes_refused :
    cleaned "1.5" = "1.5".toList ∧ Decimal "1.5".toList ⟨['1'], ['5'], 0⟩ ∧
      Denomination.ofName? (some "minutes") = some ⟨60, 0⟩ ∧
      Parts.digits ⟨['1'], ['5'], 0⟩ = 15 ∧ Parts.power ⟨['1'], ['5'], 0⟩ 0 = -1 ∧
      Parts.value ⟨['1'], ['5'], 0⟩ * Denomination.size ⟨60, 0⟩ * 10 ^ 0 = (90 : ℕ) ∧
      Scalar.ofLiteral "1.5" (some "minutes") 0 = .error ⟨"1.5", .fractional⟩ := by
  have decimal : Decimal "1.5".toList ⟨['1'], ['5'], 0⟩ :=
    ⟨⟨"1.5".toList, [], rfl, .point ['1'] ['5'], .absent⟩, by simp, List.all_eq_true.1 rfl⟩
  have digits : Parts.digits ⟨['1'], ['5'], 0⟩ = 15 := rfl
  have value : Parts.value ⟨['1'], ['5'], 0⟩ = 3 / 2 := by norm_num [Parts.value_eq, digits]
  refine ⟨rfl, decimal, rfl, digits, rfl, ?_, by decide⟩
  norm_num [value, Denomination.size]

end Literals

end Literal

end GuardedCalls
