/-
GuardedCalls.Proofs.JsonNumberTheorems — what becomes of an integer that is
written as a number in a document.

An integer of 64 bits is kept as it is. Any other is held as a double, and what
is printed of it is the shortest decimal of that double: seventeen digits at
most, and zeros.

* `Number.ofLiteral_text_iff` — the text of a number is read back as the number that it
  denotes, in whichever form it is printed.
* `Reader.number_integerText` — what is read of the digits of an integer does not depend
  on what follows them.
* `Number.exists_ofInteger?` — every scalar is held, as doubles have room for it.
* `Number.ofInteger?_of_word`, `Number.real_of_ofInteger?` — which integers are kept.
* `Number.hundred_dvd_of_printed` — of the others, only multiples of a hundred are
  printed as they were written.
-/
import GuardedCalls.Json.Reader
import GuardedCalls.Proofs.DecimalLiteralTheorems
import GuardedCalls.Proofs.ShortestTheorems

namespace GuardedCalls

open Literal (Parts Mantissa Exponent SignedNumeral)
open AbiType.Grammar (numeral_decimalChars)
open AbiType.Reader (takeWhile_append_of_stop dropWhile_append_of_stop)

namespace Binary64

/-- What a decimal number is worth. -/
def Decimal.value (d : Decimal) : ℚ := d.digits * 10 ^ d.exponent

/-! ## Numbers that a double has room for -/

section Room

variable {negative : Bool} {num den n p q r : ℕ} {a b : Binary64}

theorem nearest_le (num den : ℕ) : nearest num den ≤ num + 1 := by
  have := Nat.div_le_self num den
  unfold nearest
  extract_lets q r
  split <;> omega

theorem exponentOf_le (some : num ≠ 0) (below : num < 2 ^ p) : exponentOf num den ≤ p := by
  have bits := (Nat.log2_lt some).2 below
  unfold exponentOf minExponent
  extract_lets e
  split <;> omega

theorem neg_exponentOf_one_le (num : ℕ) : -exponentOf num 1 ≤ 53 := by
  have one : Nat.log2 1 = 0 := by decide
  unfold exponentOf minExponent
  extract_lets e
  split <;> omega

/-- Nothing that a ratio is rounded to is too large if its numerator is not. -/
theorem exists_ofRatio? (below : num < 2 ^ p) (small : p ≤ 970) :
    ∃ x, ofRatio? negative num den = some x ∧ x.exponent ≤ p + 1 ∧
      x.mantissa ≤ num * pow2 (-exponentOf num den) + 2 ^ 52 := by
  unfold ofRatio?
  split
  · exact ⟨_, rfl, by simp only [zero, minExponent]; omega, Nat.zero_le _⟩
  · next some =>
    have power : exponentOf num den ≤ p := exponentOf_le some below
    extract_lets e m
    have rounded : m ≤ num * pow2 (-exponentOf num den) + 1 := nearest_le _ _
    split
    next m' e' same =>
    have near : e' ≤ e + 1 ∧ m' ≤ num * pow2 (-exponentOf num den) + 2 ^ 52 := by
      split at same <;> obtain ⟨rfl, rfl⟩ := Prod.mk.inj same
      · exact ⟨Int.le_refl _, Nat.le_add_left _ _⟩
      · exact ⟨Int.le_add_one (Int.le_refl _),
          Nat.le_trans rounded (Nat.add_le_add_left Nat.one_le_two_pow _)⟩
    have power' : e' ≤ p + 1 := by omega
    have finite : ¬ maxExponent < e' := by
      unfold maxExponent
      omega
    rw [if_neg finite]
    exact ⟨_, rfl, power', near.2⟩

theorem exists_ofNat? (below : n < 2 ^ p) (small : p ≤ 970) :
    ∃ x, ofNat? n = some x ∧ x.exponent ≤ p + 1 ∧ x.mantissa ≤ 2 ^ (p + 53) := by
  obtain ⟨x, rounds, power, size⟩ := @exists_ofRatio? false n 1 p below small
  refine ⟨x, rounds, power, Nat.le_trans size ?_⟩
  have shift : pow2 (-exponentOf n 1) ≤ 2 ^ 53 :=
    Nat.pow_le_pow_right (by decide) (by have := neg_exponentOf_one_le n; omega)
  calc n * pow2 (-exponentOf n 1) + 2 ^ 52 ≤ n * 2 ^ 53 + 2 ^ 53 :=
        Nat.add_le_add (Nat.mul_le_mul_left n shift) (by decide)
    _ = (n + 1) * 2 ^ 53 := (Nat.succ_mul _ _).symm
    _ ≤ 2 ^ p * 2 ^ 53 := Nat.mul_le_mul_right _ below
    _ = 2 ^ (p + 53) := (pow_add _ _ _).symm

theorem exists_mul? (left : a.mantissa ≤ 2 ^ p) (right : b.mantissa ≤ 2 ^ q)
    (power : a.exponent + b.exponent ≤ r) (small : p + q + r < 970) :
    ∃ x, a.mul? b = some x := by
  have scale : pow2 (a.exponent + b.exponent) ≤ 2 ^ r :=
    Nat.pow_le_pow_right (by decide) (by omega)
  have below : a.mantissa * b.mantissa * pow2 (a.exponent + b.exponent) < 2 ^ (p + q + r + 1) :=
    calc a.mantissa * b.mantissa * pow2 (a.exponent + b.exponent) ≤ 2 ^ p * 2 ^ q * 2 ^ r :=
          Nat.mul_le_mul (Nat.mul_le_mul left right) scale
      _ = 2 ^ (p + q + r) := by rw [pow_add, pow_add]
      _ < 2 ^ (p + q + r + 1) := Nat.pow_lt_pow_right (by decide) (by omega)
  obtain ⟨x, rounds, -⟩ := exists_ofRatio? below small
  exact ⟨x, rounds⟩

end Room

end Binary64

namespace Json

namespace Number

/-- The number that the text of a number of a document denotes. -/
def printed : Number → ℚ
  | .integer n => n
  | .real x => if x.negative then -x.shortest.value else x.shortest.value

/-! ## The text of a number -/

section Text

variable {d : Binary64.Decimal} {p : Parts} {n : ℕ} {e : ℤ}

theorem isDigit_of_mem {c : Char} (hc : c ∈ Nat.toDigits 10 n) : c.isDigit = true :=
  (numeral_decimalChars n).digital c hc

theorem ofDigitChars_zeros (zeros : ℕ) (cs : List Char) :
    Nat.ofDigitChars 10 (List.replicate zeros '0' ++ cs) 0 = Nat.ofDigitChars 10 cs 0 := by
  rw [Nat.ofDigitChars_append, Nat.ofDigitChars_replicate_zero, Nat.mul_zero]

/-- Parts with the digits of a compact number, and its point where it stands there. -/
structure Shows (p : Parts) (d : Binary64.Decimal) : Prop where
  digits : p.digits = d.digits
  power : p.power 0 = d.exponent
  length : p.fraction.length ≤ (Nat.toDigits 10 d.digits).length + 5

theorem Shows.tame (h : Shows p d) (compact : d.Compact) : p.Tame where
  few negative := by
    rw [h.power] at negative
    have few := compact.few
    rw [h.digits]
    exact Nat.lt_of_le_of_lt (few.resolve_right (by omega)) (by decide)
  zero none := by
    rw [h.digits] at none
    have := compact.zero none
    rw [h.power]
    omega
  short fits := by
    rw [h.digits] at fits
    have most : (Nat.toDigits 10 d.digits).length ≤ 78 :=
      (Nat.length_toDigits_le_iff (by decide) (by decide)).2 (Nat.lt_trans fits (by decide))
    have := h.length
    omega

theorem Shows.value_eq (h : Shows p d) : p.value = d.value := by
  have moved := p.value_mul 0
  rwa [pow_zero, mul_one, h.digits, h.power] at moved

/-- The digits after an exponent's sign are those of its magnitude. -/
theorem signedNumeral_exponent (power : ℤ) :
    SignedNumeral ((if power < 0 then '-' else '+') :: decimalChars power.natAbs) power := by
  split
  · next negative =>
    have numeral := SignedNumeral.minus (numeral_decimalChars power.natAbs)
    rwa [show -(power.natAbs : ℤ) = power by omega] at numeral
  · next nonneg =>
    have numeral := SignedNumeral.plus (numeral_decimalChars power.natAbs)
    rwa [show (power.natAbs : ℤ) = power by omega] at numeral

theorem toList_scientific (c : Char) (ds : List Char) (e : ℤ) :
    (scientific (c :: ds) e).toList =
      (if ds = [] then [c] else [c] ++ '.' :: ds) ++
        'e' :: (if e + ds.length < 0 then '-' else '+') ::
          decimalChars (e + ds.length).natAbs := by
  have power : e + (c :: ds).length - 1 = e + ds.length := by
    rw [List.length_cons]
    omega
  have sign : (if e + ds.length < 0 then "-" else "+").toList =
      [if e + ds.length < 0 then '-' else '+'] := by split <;> rfl
  unfold scientific
  simp only [power, String.toList_append, String.toList_ofList, Nat.toList_repr, sign,
    decimalChars]
  cases ds <;> simp

/-- One digit, the point, the other digits and an exponent. -/
theorem exists_scientific (d : Binary64.Decimal) :
    ∃ p, Literal.Decimal (scientific (Nat.toDigits 10 d.digits) d.exponent).toList p ∧
      Shows p d := by
  have digital {c : Char} (hc : c ∈ Nat.toDigits 10 d.digits) := isDigit_of_mem hc
  have denotes : Nat.ofDigitChars 10 (Nat.toDigits 10 d.digits) 0 = d.digits :=
    Nat.ofDigitChars_ten_toDigits
  obtain ⟨c, ds, digits⟩ := List.exists_cons_of_ne_nil
    (Nat.toDigits_ne_nil (b := 10) (n := d.digits))
  have length : (Nat.toDigits 10 d.digits).length = ds.length + 1 := by
    rw [digits, List.length_cons]
  rw [digits] at digital denotes
  refine ⟨⟨[c], ds, d.exponent + ds.length⟩, ⟨?_, by simp, fun _ => digital⟩, denotes, ?_, ?_⟩
  · rw [digits, toList_scientific]
    refine ⟨_, _, rfl, ?_, .written (.inl rfl) (signedNumeral_exponent _)⟩
    split
    · next none =>
      rw [none]
      exact .whole [c]
    · exact .point [c] ds
  · simp only [Parts.power]
    omega
  · simp only [length]
    omega

/-- Digits with the point among them, or zeros and the point in front of them. -/
theorem exists_positional_of_neg (d : Binary64.Decimal) (negative : d.exponent < 0)
    (near : -5 ≤ d.exponent + (Nat.toDigits 10 d.digits).length - 1) :
    ∃ p, Literal.Decimal (positional (Nat.toDigits 10 d.digits) d.exponent).toList p ∧
      Shows p d := by
  have digital {c : Char} (hc : c ∈ Nat.toDigits 10 d.digits) := isDigit_of_mem hc
  have denotes : Nat.ofDigitChars 10 (Nat.toDigits 10 d.digits) 0 = d.digits :=
    Nat.ofDigitChars_ten_toDigits
  have nonempty : Nat.toDigits 10 d.digits ≠ [] := Nat.toDigits_ne_nil
  have shows (whole fraction : List Char)
      (digits : Nat.ofDigitChars 10 (whole ++ fraction) 0 = d.digits)
      (length : (fraction.length : ℤ) = -d.exponent) : Shows ⟨whole, fraction, 0⟩ d :=
    ⟨digits, by simp only [Parts.power]; omega, by simp only; omega⟩
  unfold positional
  extract_lets places
  rw [if_neg (by omega)]
  split
  · refine ⟨⟨(Nat.toDigits 10 d.digits).take places.toNat,
      (Nat.toDigits 10 d.digits).drop places.toNat, 0⟩, ⟨?_, ?_, ?_⟩, shows _ _ ?_ ?_⟩
    · exact ⟨_, [], by simp, .point _ _, .absent⟩
    · rwa [List.take_append_drop]
    · intro c hc
      rw [List.take_append_drop] at hc
      exact digital hc
    · rwa [List.take_append_drop]
    · rw [List.length_drop]
      omega
  · refine ⟨⟨['0'], List.replicate (-places).toNat '0' ++ Nat.toDigits 10 d.digits, 0⟩,
      ⟨?_, by simp, ?_⟩, shows _ _ ?_ ?_⟩
    · exact ⟨_, [], by simp, .point _ _, .absent⟩
    · intro c hc
      simp only [List.mem_append, List.mem_singleton, List.mem_replicate] at hc
      rcases hc with rfl | ⟨-, rfl⟩ | hc
      · rfl
      · rfl
      · exact digital hc
    · rw [← List.replicate_one, ofDigitChars_zeros, ofDigitChars_zeros, denotes]
    · rw [List.length_append, List.length_replicate]
      omega

/-- Digits with zeros behind them, and a zero behind the point. -/
theorem exists_positional_of_nonneg (d : Binary64.Decimal) (nonneg : 0 ≤ d.exponent)
    (near : d.exponent + (Nat.toDigits 10 d.digits).length - 1 ≤ 15) :
    ∃ p, Literal.Decimal (positional (Nat.toDigits 10 d.digits) d.exponent).toList p ∧
      p.value = d.value ∧ p.Tame := by
  have denotes : Nat.ofDigitChars 10 (Nat.toDigits 10 d.digits) 0 = d.digits :=
    Nat.ofDigitChars_ten_toDigits
  let p : Parts :=
    ⟨Nat.toDigits 10 d.digits ++ List.replicate d.exponent.toNat '0', ['0'], 0⟩
  have digits : p.digits = 10 ^ (d.exponent.toNat + 1) * d.digits := by
    have zeros : p.whole ++ p.fraction =
        Nat.toDigits 10 d.digits ++ List.replicate (d.exponent.toNat + 1) '0' := by
      simp [p, List.replicate_succ']
    rw [Parts.digits, zeros, Nat.ofDigitChars_append, Nat.ofDigitChars_replicate_zero, denotes]
  have power : p.power 0 = -1 := rfl
  refine ⟨p, ⟨?_, by simp [p], ?_⟩, ?_, ?_⟩
  · refine ⟨_, [], ?_, .point _ _, .absent⟩
    simp [positional, nonneg, p]
  · intro c hc
    simp only [p, List.mem_append, List.mem_singleton, List.mem_replicate] at hc
    rcases hc with (hc | ⟨-, rfl⟩) | rfl
    · exact isDigit_of_mem hc
    · rfl
    · rfl
  · have moved := p.value_mul 0
    rw [pow_zero, mul_one, digits, power] at moved
    rw [moved, Binary64.Decimal.value, Literal.zpow_of_nonneg nonneg]
    push_cast
    ring
  · refine ⟨fun _ => ?_, fun _ => by rw [power]; decide, fun _ => ?_⟩
    · have less := Binary64.lt_pow_length d.digits
      calc p.digits < 10 ^ (d.exponent.toNat + 1) * 10 ^ (Nat.toDigits 10 d.digits).length := by
            rw [digits]
            exact Nat.mul_lt_mul_of_pos_left less (by positivity)
        _ = 10 ^ (d.exponent.toNat + 1 + (Nat.toDigits 10 d.digits).length) :=
            (pow_add _ _ _).symm
        _ ≤ 10 ^ 77 := Nat.pow_le_pow_right (by decide) (by omega)
    · simp [p]

/-- The text of a double without its sign. -/
theorem exists_realText (x : Binary64) :
    ∃ body p, (realText x).toList = (if x.negative then ['-'] else []) ++ body ∧
      Literal.Decimal body p ∧ p.value = x.shortest.value ∧ p.Tame := by
  have compact := x.compact_shortest
  unfold realText
  extract_lets d digits power
  have sign : (if x.negative then "-" else "").toList = if x.negative then ['-'] else [] := by
    split <;> rfl
  rw [String.toList_append, sign]
  by_cases near : -5 ≤ power ∧ power ≤ 15
  · rw [if_pos near]
    by_cases right : 0 ≤ d.exponent
    · obtain ⟨p, decimal, value, tame⟩ := exists_positional_of_nonneg d right near.2
      exact ⟨_, p, rfl, decimal, value, tame⟩
    · obtain ⟨p, decimal, shows⟩ := exists_positional_of_neg d (Int.not_le.1 right) near.1
      exact ⟨_, p, rfl, decimal, shows.value_eq, shows.tame compact⟩
  · rw [if_neg near]
    obtain ⟨p, decimal, shows⟩ := exists_scientific d
    exact ⟨_, p, rfl, decimal, shows.value_eq, shows.tame compact⟩

theorem toList_integerText (n : ℤ) :
    (integer n).text.toList =
      (if decide (n < 0) then ['-'] else []) ++ decimalChars n.natAbs := by
  rw [text, String.toList_append, Nat.toList_repr]
  by_cases negative : n < 0 <;> simp [negative, decimalChars]

/-- The text of a whole number without its sign. -/
theorem exists_integerText (n : ℤ) :
    ∃ p, Literal.Decimal (decimalChars n.natAbs) p ∧ p.value = n.natAbs ∧ p.Tame := by
  have numeral := numeral_decimalChars n.natAbs
  let p : Parts := ⟨decimalChars n.natAbs, [], 0⟩
  have digits : p.digits = n.natAbs := by
    rw [Parts.digits, List.append_nil, numeral.denotes]
  have power : p.power 0 = 0 := rfl
  refine ⟨p, ⟨⟨_, [], (List.append_nil _).symm, .whole _, .absent⟩, ?_, ?_⟩, ?_, ?_⟩
  · simpa [p] using numeral.nonempty
  · simpa [p] using numeral.digital
  · rw [p.value_eq, digits]
    simp [p]
  · exact ⟨fun negative => by omega, fun _ => by rw [power]; decide, fun _ => by simp [p]⟩

/-- **The text of a number is read as the number that it denotes**, as a bound of integers,
and is refused if that is no scalar. -/
theorem ofLiteral_text_iff (num : Number) {s : Scalar} :
    Scalar.ofLiteral num.text none 0 = .ok s ↔ (s.val : ℚ) = num.printed := by
  cases num with
  | integer n =>
    obtain ⟨p, decimal, value, tame⟩ := exists_integerText n
    rw [Literal.ofLiteral_eq_ok_iff_of_decimal decimal tame (toList_integerText n), value, printed]
    have sign : (if decide (n < 0) then -(n.natAbs : ℚ) else n.natAbs) = n := by
      rw [Nat.cast_natAbs, Int.cast_abs]
      by_cases negative : n < 0
      · simp [negative, abs_of_neg]
      · simp [negative, abs_of_nonneg, Int.not_lt.1 negative]
    rw [sign]
  | real x =>
    obtain ⟨body, p, written, decimal, value, tame⟩ := exists_realText x
    rw [text, Literal.ofLiteral_eq_ok_iff_of_decimal decimal tame written, value, printed]

end Text

end Number

/-! ## Tokens -/

namespace Reader

section Tokens

variable {ds tail : List Char} {m count : ℕ} {negative : Bool}

/-- No digit goes on with what follows a number, and no point or exponent. -/
def EndsNumber (tail : List Char) : Prop :=
  ∀ c ∈ tail.head?, c.isDigit = false ∧ c ≠ '.' ∧ c ≠ 'e' ∧ c ≠ 'E'

/-- The digits that are taken off a run of digits do not depend on what follows it. -/
theorem takeDigits_append (digital : ∀ c ∈ ds, c.isDigit = true)
    (stop : ∀ c ∈ tail.head?, c.isDigit = false) :
    takeDigits m count (ds ++ tail) =
      ((takeDigits m count ds).1, (takeDigits m count ds).2.1,
        (takeDigits m count ds).2.2 ++ tail) ∧
      ∀ c ∈ (takeDigits m count ds).2.2, c.isDigit = true := by
  induction ds generalizing m count with
  | nil =>
    cases tail with
    | nil => simp [takeDigits]
    | cons c tail => simp [takeDigits, Text.digit?_eq, stop c rfl]
  | cons c ds ih =>
    obtain ⟨first, rest⟩ := List.forall_mem_cons.1 digital
    simp only [List.cons_append, takeDigits, Text.digit?_eq, first, if_true]
    split
    · exact ih rest
    · exact ⟨rfl, digital⟩

/-- A first digit always fits. -/
theorem count_takeDigits_pos {c : Char} (digit : c.isDigit = true) :
    0 < (takeDigits 0 0 (c :: ds)).2.1 := by
  have counted : ∀ (ds : List Char) (m count : ℕ), count ≤ (takeDigits m count ds).2.1 := by
    intro ds
    induction ds with
    | nil => exact fun m count => Nat.le_refl count
    | cons c ds ih =>
      intro m count
      unfold takeDigits
      split
      · exact Nat.le_refl count
      · split
        · exact Nat.le_trans (Nat.le_succ count) (ih _ _)
        · exact Nat.le_refl count
  have most := (Char.isDigit_iff_toNat.1 digit).2
  have fits : 0 * 10 + (c.toNat - '0'.toNat) < 2 ^ 64 := by
    have : '9'.toNat = 57 := rfl
    omega
  simp only [takeDigits, Text.digit?_eq, digit, if_true, if_pos fits]
  exact counted ds _ 1

/-- All digits of a number of 64 bits are taken. -/
theorem takeDigits_eq (digital : ∀ c ∈ ds, c.isDigit = true)
    (small : Nat.ofDigitChars 10 ds m < 2 ^ 64) :
    takeDigits m count ds = (Nat.ofDigitChars 10 ds m, count + ds.length, []) := by
  induction ds generalizing m count with
  | nil => rfl
  | cons c ds ih =>
    obtain ⟨first, rest⟩ := List.forall_mem_cons.1 digital
    rw [Nat.ofDigitChars_cons, Nat.mul_comm] at small ⊢
    have fits := Nat.lt_of_le_of_lt (Text.le_ofDigitChars ds _) small
    simp only [takeDigits, Text.digit?_eq, first, if_true, if_pos fits, ih rest small,
      List.length_cons]
    rw [Nat.add_right_comm, Nat.add_assoc]

/-- Only of such a number are all digits taken. -/
theorem of_takeDigits {n taken : ℕ} (digital : ∀ c ∈ ds, c.isDigit = true) (small : m < 2 ^ 64)
    (all : takeDigits m count ds = (n, taken, [])) :
    n = Nat.ofDigitChars 10 ds m ∧ n < 2 ^ 64 := by
  induction ds generalizing m count with
  | nil =>
    cases all
    exact ⟨rfl, small⟩
  | cons c ds ih =>
    obtain ⟨first, rest⟩ := List.forall_mem_cons.1 digital
    simp only [takeDigits, Text.digit?_eq, first, if_true] at all
    rw [Nat.ofDigitChars_cons, Nat.mul_comm]
    split at all
    · next fits => exact ih rest fits all
    · cases all

/-- The first digit of a positive number is not zero. -/
theorem head_decimalChars {n : ℕ} (positive : 0 < n) : (decimalChars n).head? ≠ some '0' := by
  unfold decimalChars
  induction n using Nat.strongRecOn with
  | _ n ih =>
    by_cases small : n < 10
    · rw [Nat.toDigits_of_lt_base small]
      simp only [List.head?_cons, ne_eq, Option.some.injEq, Nat.digitChar_eq_zero]
      omega
    · rw [Nat.toDigits_of_base_le (by decide) (by omega),
        List.head?_append_of_ne_nil _ Nat.toDigits_ne_nil]
      exact ih (n / 10) (by omega) (by omega)

theorem endsNumber_nil : EndsNumber [] := nofun

theorem afterWhole_of_ends (ends : EndsNumber tail) (significand dropped : ℕ) :
    afterWhole negative significand dropped tail =
      (real negative significand dropped).map (·, tail) := by
  cases tail with
  | nil => simp [afterWhole, endOfReal, Option.map_eq_bind]
  | cons c tail =>
    obtain ⟨-, point, e, E⟩ := ends c rfl
    simp [afterWhole, endOfReal, point, e, E, Option.map_eq_bind]

/-- What is made of the digits of a whole number: the number if all of them were taken,
and else a double. -/
def ofTaken (negative : Bool) (ds : List Char) : ℕ × ℕ × List Char → Option Number
  | (n, count, rest) =>
    if ds.head? = some '0' ∧ 1 < count then none
    else if rest = [] then whole negative n else real negative n rest.length

/-- It does not depend on what follows them. -/
theorem magnitude_eq (nonempty : ds ≠ []) (digital : ∀ c ∈ ds, c.isDigit = true)
    (ends : EndsNumber tail) :
    magnitude negative (ds ++ tail) =
      (ofTaken negative ds (takeDigits 0 0 ds)).map (·, tail) := by
  have stop : ∀ c ∈ tail.head?, c.isDigit = false := fun c hc => (ends c hc).1
  have first : (ds ++ tail).head? = ds.head? := List.head?_append_of_ne_nil _ nonempty
  have counted : (takeDigits 0 0 ds).2.1 ≠ 0 := by
    obtain ⟨c, cs, rfl⟩ := List.exists_cons_of_ne_nil nonempty
    exact Nat.ne_of_gt (count_takeDigits_pos (digital c List.mem_cons_self))
  obtain ⟨taken, digital'⟩ := @takeDigits_append ds tail 0 0 digital stop
  generalize takeDigits 0 0 ds = parts at taken digital' counted
  obtain ⟨n, count, rest⟩ := parts
  simp only at taken digital' counted
  have dark : ∀ c ∈ rest, Text.isDigit c = true := fun c hc => by
    rw [Text.isDigit_eq, digital' c hc]
  have stop' : ∀ c ∈ tail.head?, Text.isDigit c = false := fun c hc => by
    rw [Text.isDigit_eq, stop c hc]
  unfold magnitude ofTaken
  simp only [taken, first, takeWhile_append_of_stop dark stop',
    dropWhile_append_of_stop dark stop', if_neg counted, List.length_eq_zero_iff,
    afterWhole_of_ends ends]
  split
  · rfl
  · split
    · cases tail with
      | nil => simp [Option.map_eq_bind]
      | cons c tail =>
        obtain ⟨-, point, e, E⟩ := ends c rfl
        simp [point, e, E, Option.map_eq_bind]
    · rfl

theorem takeDigits_bounds (small : m < 2 ^ 64) :
    (takeDigits m count ds).1 < 2 ^ 64 ∧ (takeDigits m count ds).2.1 ≤ count + ds.length ∧
      (takeDigits m count ds).2.2.length ≤ ds.length := by
  induction ds generalizing m count with
  | nil => exact ⟨small, Nat.le_refl _, Nat.le_refl _⟩
  | cons c ds ih =>
    have stays : m < 2 ^ 64 ∧ count ≤ count + (c :: ds).length ∧
        (c :: ds).length ≤ (c :: ds).length :=
      ⟨small, Nat.le_add_right _ _, Nat.le_refl _⟩
    unfold takeDigits
    split
    · exact stays
    · split
      · next fits =>
        obtain ⟨below, taken, rest⟩ := @ih _ (count + 1) fits
        rw [List.length_cons]
        omega
      · exact stays

/-- A double has room for a number of 64 bits with so many zeros behind it. -/
theorem exists_real {k : ℕ} (small : m < 2 ^ 64) (few : k ≤ 78) :
    ∃ num, real negative m k = some num := by
  have ten : 10 ^ k < 2 ^ 313 :=
    calc 10 ^ k ≤ (2 ^ 4) ^ k := Nat.pow_le_pow_left (by decide) k
      _ = 2 ^ (4 * k) := (pow_mul _ _ _).symm
      _ < 2 ^ 313 := Nat.pow_lt_pow_right (by decide) (by omega)
  obtain ⟨x, rounded, power, size⟩ := Binary64.exists_ofNat? small (by decide)
  obtain ⟨y, rounded', power', size'⟩ := Binary64.exists_ofNat? ten (by decide)
  obtain ⟨z, product⟩ := Binary64.exists_mul? (r := 379) size size' (by omega) (by decide)
  have within : (k : ℤ) ≤ 308 := by omega
  have scales : scaled m k = some z := by
    simp [scaled, rounded, rounded', product, within]
  exact ⟨_, by rw [real, scales]; rfl⟩

/-- So the text of an integer is read as the same number wherever it stands. -/
theorem number_integerText (n : ℤ) (ends : EndsNumber tail) :
    number ((Number.integer n).text.toList ++ tail) =
      (ofTaken (decide (n < 0)) (decimalChars n.natAbs)
        (takeDigits 0 0 (decimalChars n.natAbs))).map (·, tail) := by
  have numeral := numeral_decimalChars n.natAbs
  rw [← magnitude_eq numeral.nonempty numeral.digital ends, Number.toList_integerText]
  by_cases negative : n < 0
  · simp [negative, number]
  · obtain ⟨c, cs, digits⟩ := List.exists_cons_of_ne_nil numeral.nonempty
    have first : c ≠ '-' := by
      rintro rfl
      exact absurd (numeral.digital '-' (digits ▸ List.mem_cons_self)) (by decide)
    simp [negative, number, digits, first]

end Tokens

end Reader

namespace Number

/-- The number that a document has where an integer is written. -/
def ofInteger? (n : ℤ) : Option Number :=
  (Reader.number (integer n).text.toList).map (·.1)

theorem ofInteger?_eq (n : ℤ) :
    ofInteger? n = Reader.ofTaken (decide (n < 0)) (decimalChars n.natAbs)
      (Reader.takeDigits 0 0 (decimalChars n.natAbs)) := by
  have read := Reader.number_integerText n Reader.endsNumber_nil
  rw [List.append_nil] at read
  rw [ofInteger?, read, Option.map_map]
  exact congrFun Option.map_id _

/-- Zero is one digit, and no other number begins with it. -/
theorem unpadded {m count : ℕ} (few : count ≤ (decimalChars m).length) :
    ¬ ((decimalChars m).head? = some '0' ∧ 1 < count) := by
  rintro ⟨zero, long⟩
  rcases Nat.eq_zero_or_pos m with rfl | positive
  · exact absurd (Nat.lt_of_lt_of_le long few) (by decide)
  · exact Reader.head_decimalChars positive zero

/-- The digits of a scalar are a number of a document. -/
theorem exists_ofInteger? (n : Scalar) : ∃ num, ofInteger? n.val = some num := by
  have length : (decimalChars n.val.natAbs).length ≤ 78 :=
    (Nat.length_toDigits_le_iff (by decide) (by decide)).2 (Nat.lt_trans n.inRange (by decide))
  have bounds := @Reader.takeDigits_bounds (decimalChars n.val.natAbs) 0 0 (by decide)
  rw [ofInteger?_eq]
  generalize Reader.takeDigits 0 0 (decimalChars n.val.natAbs) = parts at bounds
  obtain ⟨m, count, rest⟩ := parts
  obtain ⟨below, taken, dropped⟩ := bounds
  simp only [Nat.zero_add] at below taken dropped
  rw [Reader.ofTaken, if_neg (unpadded taken)]
  split
  · unfold Reader.whole
    split
    · exact ⟨_, rfl⟩
    · split
      · exact ⟨_, rfl⟩
      · exact Reader.exists_real (k := 0) below (by decide)
  · exact Reader.exists_real below (by omega)

/-- An integer of 64 bits, with a sign or without, is kept as it is. -/
theorem ofInteger?_of_word {n : ℤ} (least : -(2 ^ 63) ≤ n) (most : n < 2 ^ 64) :
    ofInteger? n = some (.integer n) := by
  have numeral := numeral_decimalChars n.natAbs
  have small : n.natAbs < 2 ^ 64 := by omega
  rw [ofInteger?_eq, Reader.takeDigits_eq numeral.digital (by rwa [numeral.denotes]),
    numeral.denotes, Reader.ofTaken, if_neg (unpadded (by omega)), if_pos rfl, Reader.whole]
  by_cases negative : n < 0
  · have within : n.natAbs ≠ 0 ∧ n.natAbs ≤ 2 ^ 63 := by omega
    rw [if_neg (by simpa using negative), if_pos within]
    congr
    omega
  · rw [if_pos (by simpa using negative)]
    congr
    omega

/-- Any other integer is held as a double, if at all. -/
theorem real_of_ofInteger? {n : ℤ} {num : Number} (held : ofInteger? n = some num)
    (beyond : n < -(2 ^ 63) ∨ 2 ^ 64 ≤ n) : ∃ x, num = .real x := by
  have real {negative : Bool} {significand : ℕ} {exponent : ℤ}
      (made : Reader.real negative significand exponent = some num) : ∃ x, num = .real x := by
    obtain ⟨x, -, same⟩ := Option.bind_eq_some_iff.1 made
    exact ⟨_, (Option.some.inj same).symm⟩
  have numeral := numeral_decimalChars n.natAbs
  rw [ofInteger?_eq] at held
  cases parts : Reader.takeDigits 0 0 (decimalChars n.natAbs) with
  | mk m rest =>
  obtain ⟨count, rest⟩ := rest
  rw [parts, Reader.ofTaken] at held
  split at held
  · cases held
  split at held
  · next all =>
    rw [all] at parts
    obtain ⟨value, small⟩ := Reader.of_takeDigits numeral.digital (by decide) parts
    rw [numeral.denotes] at value
    have below : n < 0 := by omega
    have outside : ¬ (m ≠ 0 ∧ m ≤ 2 ^ 63) := by omega
    rw [Reader.whole, if_neg (by simpa using below), if_neg outside] at held
    exact real held
  · exact real held

/-- A large number that is written in few digits ends in zeros. -/
theorem hundred_dvd_of_value {d : Binary64.Decimal} (compact : d.Compact) {n : ℕ}
    (value : d.value = n) (large : 2 ^ 63 < n) : 100 ∣ n := by
  have hundred {e : ℕ} (least : 2 ≤ e) : 100 ∣ d.digits * 10 ^ e :=
    Dvd.dvd.mul_left (Nat.pow_dvd_pow 10 least) _
  unfold Binary64.Decimal.value at value
  by_cases right : 0 ≤ d.exponent
  · rw [Literal.zpow_of_nonneg right] at value
    obtain rfl : d.digits * 10 ^ d.exponent.toNat = n := by exact_mod_cast value
    rcases compact.few with few | many
    · refine hundred ?_
      by_contra less
      have power : 10 ^ d.exponent.toNat ≤ 10 ^ 1 := Nat.pow_le_pow_right (by decide) (by omega)
      have := Nat.mul_le_mul few power
      omega
    · exact hundred (by omega)
  · have digits := (Literal.mul_zpow_of_neg (Int.not_le.1 right)).1 value
    have few := compact.few.resolve_right (by omega)
    have := Nat.le_mul_of_pos_right n (Nat.pow_pos (n := d.exponent.natAbs) (show 0 < 10 by decide))
    omega

/-- An integer beyond 64 bits whose text denotes it ends in zeros. -/
theorem hundred_dvd_of_printed {n : ℤ} {num : Number} (held : ofInteger? n = some num)
    (beyond : n < -(2 ^ 63) ∨ 2 ^ 64 ≤ n) (same : num.printed = n) : 100 ∣ n := by
  obtain ⟨x, rfl⟩ := real_of_ofInteger? held beyond
  have nonneg : 0 ≤ x.shortest.value :=
    mul_nonneg (Nat.cast_nonneg _) (zpow_nonneg (by norm_num) _)
  have size : x.shortest.value = n.natAbs := by
    rw [Nat.cast_natAbs, Int.cast_abs, ← same, printed]
    cases x.negative <;> simp [abs_of_nonneg nonneg]
  have divides := hundred_dvd_of_value x.compact_shortest size (by omega)
  exact Int.natCast_dvd.2 divides

end Number

end Json

end GuardedCalls
